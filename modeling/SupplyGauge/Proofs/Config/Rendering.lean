import SupplyGauge.Proofs.Config.Derivation
import SupplyGauge.Proofs.Config.Lexing

/-! # Documents can be written and read back

A document is written on one line: directives in front of blocks, texts in double quotes
with their backslashes, quotes and line feeds escaped, and a space in front of every word
and every item but the first. Reading it gives the document again, except for the lines,
if names are names for the lexer, and numbers are whole, not negative and not too long.
-/

namespace SupplyGauge.Config

open Text (isDigit isBlank)

/-! ## Writing -/

/-- A character as it is written between double quotes. -/
def escaped (c : Char) : List Char :=
  if c = '\\' then ['\\', '\\']
  else if c = '"' then ['\\', '"']
  else if c = '\n' then ['\\', 'n']
  else [c]

/-- A text between double quotes. -/
def inQuotes (s : String) : List Char := '"' :: (s.toList.flatMap escaped ++ ['"'])

def Scalar.written : Scalar → List Char
  | .text s => inQuotes s
  | .flag true => ['o', 'n']
  | .flag false => ['o', 'f', 'f']
  | .whole n => Decimal.ofInt n
  | .real x => (x.text .plain).toList

/-- Texts with a space in front of each. -/
def spaced (texts : List (List Char)) : List Char := texts.flatMap (' ' :: ·)

def Directive.written (d : Directive) : List Char :=
  d.name.toList ++ (spaced (d.values.map Scalar.written) ++ [';'])

mutual

def Block.written : Block → List Char
  | .mk type label _ directives blocks =>
    type.toList ++ (spaced (label.toList.map inQuotes) ++ (spaced [['{']] ++
      (spaced (directives.map Directive.written) ++ (spaced (Block.allWritten blocks) ++
        spaced [['}']]))))

def Block.allWritten : List Block → List (List Char)
  | [] => []
  | b :: rest => b.written :: Block.allWritten rest

end

theorem Block.allWritten_eq_map (blocks : List Block) :
    Block.allWritten blocks = blocks.map Block.written := by
  induction blocks with
  | nil => rfl
  | cons b blocks ih => rw [Block.allWritten, ih, List.map_cons]

/-- A document on one line, its items separated by spaces. -/
def Document.written (d : Document) : List Char :=
  (spaced (d.directives.map Directive.written ++ Block.allWritten d.blocks)).drop 1

/-! ## What can be written -/

/-- A name for the lexer: letters, digits, underscores and hyphens, beginning with a letter or an
underscore, and no word for a boolean in any letter case. -/
structure IsName (name : String) : Prop where
  start : ∀ c ∈ name.toList.head?, isNameStart c = true
  parts : ∀ c ∈ name.toList, isNamePart c = true
  nonempty : name ≠ ""
  no_boolean : Text.lowerAscii name ∉ ["on", "true", "off", "false"]

instance (name : String) : Decidable (IsName name) :=
  decidable_of_iff (name.toList.head?.all isNameStart = true ∧ name.toList.all isNamePart = true ∧
      name ≠ "" ∧ Text.lowerAscii name ∉ ["on", "true", "off", "false"])
    ⟨fun ⟨hstart, hparts, hne, hfree⟩ =>
      ⟨(Option.all_eq_true _ _).mp hstart, List.all_eq_true.mp hparts, hne, hfree⟩,
    fun h => ⟨(Option.all_eq_true _ _).mpr h.start, List.all_eq_true.mpr h.parts, h.nonempty,
      h.no_boolean⟩⟩

/-- A value that a document can give: a text, a flag, or a whole number that is not negative and not
too long. -/
def Scalar.Writable : Scalar → Prop
  | .text _ | .flag _ => True
  | .whole n => 0 ≤ n ∧ (Decimal.digits n.toNat).length ≤ Numeral.digitLimit
  | .real _ => False

structure Directive.Writable (d : Directive) : Prop where
  name : IsName d.name
  values : ∀ v ∈ d.values, v.Writable

inductive Block.Writable : Block → Prop
  | mk (type : String) (label : Option String) (line : Nat) (directives : List Directive)
      (blocks : List Block) (htype : IsName type) (hdirectives : ∀ d ∈ directives, d.Writable)
      (hblocks : ∀ b ∈ blocks, Block.Writable b) :
      Block.Writable (.mk type label line directives blocks)

structure Document.Writable (d : Document) : Prop where
  directives : ∀ s ∈ d.directives, s.Writable
  blocks : ∀ b ∈ d.blocks, b.Writable

/-! ## Documents up to lines -/

def Directive.unlined (d : Directive) : Directive := { d with line := 0 }

mutual

def Block.unlined : Block → Block
  | .mk type label _ directives blocks =>
    .mk type label 0 (directives.map Directive.unlined) (Block.allUnlined blocks)

def Block.allUnlined : List Block → List Block
  | [] => []
  | b :: rest => b.unlined :: Block.allUnlined rest

end

theorem Block.allUnlined_eq_map (blocks : List Block) :
    Block.allUnlined blocks = blocks.map Block.unlined := by
  induction blocks with
  | nil => rfl
  | cons b blocks ih => rw [Block.allUnlined, ih, List.map_cons]

/-- A document without its line numbers. -/
def Document.unlined (d : Document) : Document where
  filename := d.filename
  directives := d.directives.map Directive.unlined
  blocks := Block.allUnlined d.blocks

/-! ## Words -/

/-- No escaped character ends a string. -/
theorem stringEnd?_escaped (s rest : List Char) :
    stringEnd? '"' (s.flatMap escaped ++ '"' :: rest) = some ((s.flatMap escaped).length + 1) := by
  induction s with
  | nil => rfl
  | cons c s ih =>
      rw [List.flatMap_cons, List.append_assoc]
      by_cases hbackslash : c = '\\'
      · subst hbackslash
        simp [escaped, stringEnd?, ih]
      by_cases hquote : c = '"'
      · subst hquote
        simp [escaped, stringEnd?, ih]
      by_cases hfeed : c = '\n'
      · subst hfeed
        simp [escaped, stringEnd?, ih]
      simp [escaped, stringEnd?, hbackslash, hquote, hfeed, ih]

/-- Escaped characters stand for what they were. -/
theorem unescape_escaped (s : List Char) : unescape (s.flatMap escaped) = s := by
  induction s with
  | nil => rfl
  | cons c s ih =>
      rw [List.flatMap_cons]
      by_cases hbackslash : c = '\\'
      · subst hbackslash
        simp [escaped, unescape, escape?, ih]
      by_cases hquote : c = '"'
      · subst hquote
        simp [escaped, unescape, escape?, ih]
      by_cases hfeed : c = '\n'
      · subst hfeed
        simp [escaped, unescape, escape?, ih]
      simp [escaped, unescape, hbackslash, hquote, hfeed, ih]

/-- A quoted text is read as a string, whatever follows. -/
theorem reads_inQuotes (s : String) (place : Place) (rest : List Char) :
    Reads (inQuotes s) place [⟨.string s, place⟩] rest := by
  have hextent : extent '"' (s.toList.flatMap escaped ++ ['"'] ++ rest) =
      .ok (.string, (s.toList.flatMap escaped ++ ['"']).length + 1) := by
    have hend := stringEnd?_escaped s.toList rest
    unfold extent
    rw [List.append_assoc, List.singleton_append, hend, List.length_append]
    rfl
  have hsymbol : Lexeme.symbol? ⟨.string, inQuotes s⟩ = .ok (some (.string s)) := by
    simp [Lexeme.symbol?, inQuotes, unescape_escaped]
  exact Reads.of_extent hextent hsymbol place

theorem keyword?_eq_none {name : String} (h : IsName name) : keyword? name.toList = none := by
  have hfree := h.no_boolean
  unfold Text.lowerAscii at hfree
  unfold keyword?
  split <;> simp_all

theorem reads_name {name : String} (h : IsName name) (place : Place) {rest : List Char}
    (hrest : EndsWord rest) : Reads name.toList place [⟨.identifier name, place⟩] rest := by
  have hkeyword := keyword?_eq_none h
  have hname : String.ofList name.toList = name := String.ofList_toList
  obtain ⟨hstart, hparts, hne, -⟩ := h
  have hne : name.toList ≠ [] := fun hnil => hne (String.toList_eq_nil_iff.mp hnil)
  obtain ⟨c, text, htext⟩ := List.exists_cons_of_ne_nil hne
  rw [htext] at hstart hparts hkeyword hname ⊢
  have hextent := extent_name (hstart c rfl)
    (fun d hd => hparts d (List.mem_cons_of_mem _ hd)) hrest
  have hsymbol : Lexeme.symbol? ⟨.identifier, c :: text⟩ = .ok (some (.identifier name)) := by
    simp only [Lexeme.symbol?, hkeyword, hname]
  exact Reads.of_extent hextent hsymbol place

theorem reads_flag (b : Bool) (place : Place) {rest : List Char} (hrest : EndsWord rest) :
    Reads (Scalar.flag b).written place [⟨.boolean b, place⟩] rest := by
  cases b with
  | true =>
      have hextent : extent 'o' (['n'] ++ rest) = .ok (.identifier, 2) :=
        extent_name (by decide) (List.all_eq_true.mp (by decide)) hrest
      exact Reads.of_extent hextent rfl place
  | false =>
      have hextent : extent 'o' (['f', 'f'] ++ rest) = .ok (.identifier, 3) :=
        extent_name (by decide) (List.all_eq_true.mp (by decide)) hrest
      exact Reads.of_extent hextent rfl place

theorem written_whole {n : Int} (h : 0 ≤ n) :
    (Scalar.whole n).written = Decimal.ofNat n.toNat := by
  obtain ⟨m, rfl⟩ := Int.eq_ofNat_of_zero_le h
  rfl

theorem reads_whole {n : Int} (h : (Scalar.whole n).Writable) (place : Place) {rest : List Char}
    (hrest : EndsWord rest) :
    Reads (Scalar.whole n).written place [⟨.number (.whole n), place⟩] rest := by
  obtain ⟨hpos, hshort⟩ := h
  have hdigits := Decimal.isDigit_ofNat (n := n.toNat)
  have hne := Decimal.ofNat_ne_nil n.toNat
  have hvalue : numeralValue (Decimal.ofNat n.toNat) = .ok (.whole n) := by
    have hlength : (Decimal.ofNat n.toNat).length ≤ Numeral.digitLimit := by
      rwa [Decimal.ofNat, List.length_map]
    rw [numeralValue_digits hne hdigits, if_neg (by omega), Numeral.digitValues_ofNat,
      Decimal.value_digits, Int.toNat_of_nonneg hpos]
  have hsymbol : Lexeme.symbol? ⟨.number, Decimal.ofNat n.toNat⟩ =
      .ok (some (.number (.whole n))) := by
    have hunit : ∀ c ∈ ([] : List Char), isLetter c = true := by simp
    have hnumber := numberSymbol_append (fun c hc => isLetter_of_isDigit (hdigits c hc)) hunit
    rw [List.append_nil, hvalue] at hnumber
    rw [Lexeme.symbol?, hnumber]
    rfl
  rw [written_whole hpos]
  obtain ⟨c, text, htext⟩ := List.exists_cons_of_ne_nil hne
  rw [htext] at hdigits hsymbol ⊢
  exact Reads.of_extent (extent_whole hdigits hrest) hsymbol place

theorem solid_name {name : String} (h : IsName name) : Solid name.toList := by
  have hne : name.toList ≠ [] := fun hnil => h.nonempty (String.toList_eq_nil_iff.mp hnil)
  obtain ⟨c, text, htext⟩ := List.exists_cons_of_ne_nil hne
  have hstart := h.start c (by rw [htext]; rfl)
  refine ⟨c, text, htext, ?_⟩
  rw [isNameStart_iff, isLetter_iff] at hstart
  rcases hstart with hletter | rfl
  · rw [Text.isBlank_ascii (by omega), decide_eq_false_iff_not]
    omega
  · decide

theorem Scalar.Writable.solid {v : Scalar} (h : v.Writable) : Solid v.written := by
  cases v with
  | text s => exact ⟨'"', _, rfl, by decide⟩
  | flag b => cases b <;> exact ⟨'o', _, rfl, by decide⟩
  | whole n =>
      obtain ⟨c, text, htext⟩ := List.exists_cons_of_ne_nil (Decimal.ofNat_ne_nil n.toNat)
      have hdigit := Decimal.isDigit_ofNat c (by rw [htext]; exact List.mem_cons_self)
      exact ⟨c, text, (written_whole h.1).trans htext, Text.isBlank_of_isDigit hdigit⟩
  | real x => exact h.elim

/-- A value that can be written is read as a literal where a word ends. -/
theorem Scalar.Writable.exists_literal {v : Scalar} (h : v.Writable) :
    ∃ literal : Literal, literal.value = v ∧ ∀ place rest, EndsWord rest →
      Reads v.written place [Literal.token (literal, place)] rest := by
  cases v with
  | text s => exact ⟨.word (.quoted s), rfl, fun place rest _ => reads_inQuotes s place rest⟩
  | flag b => exact ⟨.boolean b, rfl, fun place _ hrest => reads_flag b place hrest⟩
  | whole n => exact ⟨.number (.whole n), rfl, fun place _ hrest => reads_whole h place hrest⟩
  | real x => exact h.elim

/-! ## Items -/

theorem spaced_cons (text : List Char) (texts : List (List Char)) :
    spaced (text :: texts) = ' ' :: text ++ spaced texts :=
  List.flatMap_cons

theorem spaced_append (texts texts' : List (List Char)) :
    spaced (texts ++ texts') = spaced texts ++ spaced texts' :=
  List.flatMap_append

theorem EndsWord.spaced (texts : List (List Char)) {rest : List Char} (h : EndsWord rest) :
    EndsWord (spaced texts ++ rest) := by
  cases texts with
  | nil => exact h
  | cons text texts =>
      rw [spaced_cons]
      exact .space _

/-- Values with spaces in front are read in order. -/
theorem reads_values {values : List Scalar} (h : ∀ v ∈ values, v.Writable) (place : Place)
    {rest : List Char} (hrest : EndsWord rest) :
    ∃ literals, Literal.valuesOf literals = values ∧
      Reads (spaced (values.map Scalar.written)) place (literals.map Literal.token) rest := by
  induction values generalizing place with
  | nil => exact ⟨[], rfl, .nil place rest⟩
  | cons v values ih =>
      obtain ⟨hv, hvalues⟩ := List.forall_mem_cons.mp h
      obtain ⟨literal, hvalue, hread⟩ := hv.exists_literal
      obtain ⟨literals, hliterals, hreads⟩ := ih hvalues (place.after (' ' :: v.written))
      refine ⟨(literal, place.after [' ']) :: literals, ?_, ?_⟩
      · rw [Literal.valuesOf, List.map_cons, hvalue]
        exact congrArg (v :: ·) hliterals
      · rw [List.map_cons, spaced_cons]
        exact (Reads.space hv.solid (hread _ _ (hrest.spaced _))).append hreads

/-- A directive is read as one, whatever follows it. -/
theorem Directive.Writable.exists_item {d : Directive} (h : d.Writable) (place : Place)
    (rest : List Char) : ∃ item : Item, Reads d.written place item.tokens rest ∧
      item.directive? = some { d with line := place.line } ∧ item.block? = none := by
  obtain ⟨literals, hliterals, hvalues⟩ :=
    reads_values h.values (place.after d.name.toList) (EndsWord.semicolon rest)
  have hends : EndsWord (spaced (d.values.map Scalar.written) ++ [';'] ++ rest) := by
    rw [List.append_assoc]
    exact (EndsWord.semicolon rest).spaced _
  let semicolon := (place.after d.name.toList).after (spaced (d.values.map Scalar.written))
  have hsemicolon := reads_punctuation ';' .semicolon (by simp) semicolon rest
  refine ⟨.directive d.name place literals semicolon, ?_, ?_, rfl⟩
  · rw [Item.tokens]
    exact (reads_name h.name place hends).append (hvalues.append hsemicolon)
  · rw [Item.directive?, hliterals]

theorem Directive.Writable.solid {d : Directive} (h : d.Writable) : Solid d.written :=
  (solid_name h.name).append _

/-- Directives with spaces in front are read in order. -/
theorem exists_directives {directives : List Directive} (h : ∀ d ∈ directives, d.Writable)
    (place : Place) (rest : List Char) :
    ∃ items, Reads (spaced (directives.map Directive.written)) place (Item.tokensOf items) rest ∧
      (Item.directivesOf items).map Directive.unlined = directives.map Directive.unlined ∧
      Item.blocksOf items = [] := by
  induction directives generalizing place with
  | nil => exact ⟨[], .nil place rest, rfl, rfl⟩
  | cons d directives ih =>
      obtain ⟨hd, hdirectives⟩ := List.forall_mem_cons.mp h
      obtain ⟨item, hread, hdirective, hblock⟩ := hd.exists_item (place.after [' '])
        (spaced (directives.map Directive.written) ++ rest)
      obtain ⟨items, hreads, hlater, hblocks⟩ := ih hdirectives (place.after (' ' :: d.written))
      refine ⟨item :: items, ?_, ?_, ?_⟩
      · rw [List.map_cons, spaced_cons, Item.tokensOf]
        exact (Reads.space hd.solid hread).append hreads
      · rw [Item.directivesOf, List.filterMap_cons_some hdirective, List.map_cons, List.map_cons]
        exact congrArg (d.unlined :: ·) hlater
      · rw [Item.blocksOf, hblock, hblocks]
        rfl

/-- The label of a block is read as one word. -/
theorem exists_label_word (label : Option String) (place : Place) (rest : List Char) :
    ∃ word : Option (Word × Place), (word.map fun w => w.1.text) = label ∧
      Reads (spaced (label.toList.map inQuotes)) place ((labelValues word).map Literal.token)
        rest := by
  cases label with
  | none => exact ⟨none, rfl, .nil place rest⟩
  | some s =>
      have hsolid : Solid (inQuotes s) := ⟨'"', _, rfl, by decide⟩
      have hspaced : spaced [inQuotes s] = ' ' :: inQuotes s := List.append_nil _
      refine ⟨some (.quoted s, place.after [' ']), rfl, ?_⟩
      rw [Option.toList_some, List.map_singleton, hspaced]
      exact Reads.space hsolid (reads_inQuotes s (place.after [' ']) rest)

theorem reads_brace (c : Char) (symbol : Symbol)
    (h : (c, symbol) ∈ [('{', Symbol.openBrace), ('}', .closeBrace)]) (place : Place)
    (rest : List Char) : Reads (spaced [[c]]) place [⟨symbol, place.after [' ']⟩] rest := by
  simp only [List.mem_cons, Prod.mk.injEq, List.not_mem_nil, or_false] at h
  have hsolid : Solid [c] := by
    refine ⟨c, [], rfl, ?_⟩
    rcases h with ⟨rfl, -⟩ | ⟨rfl, -⟩ <;> decide
  refine Reads.space hsolid (reads_punctuation c symbol ?_ (place.after [' ']) rest)
  rcases h with ⟨rfl, rfl⟩ | ⟨rfl, rfl⟩ <;> simp

theorem Block.Writable.solid {b : Block} (h : b.Writable) : Solid b.written := by
  obtain ⟨type, label, line, directives, blocks, htype, -, -⟩ := h
  rw [Block.written]
  exact (solid_name htype).append _

mutual

/-- A block is read as one, whatever follows it. -/
theorem Block.Writable.exists_item (b : Block) (h : b.Writable) (place : Place)
    (rest : List Char) : ∃ item : Item, Reads b.written place item.tokens rest ∧
      item.directive? = none ∧ item.block?.map Block.unlined = some b.unlined := by
  match b, h with
  | .mk type label line directives blocks, .mk _ _ _ _ _ htype hdirectives hblocks =>
      let body := spaced (directives.map Directive.written) ++
        (spaced (Block.allWritten blocks) ++ spaced [['}']])
      let afterType := place.after type.toList
      let afterLabel := afterType.after (spaced (label.toList.map inQuotes))
      let afterOpen := afterLabel.after (spaced [['{']])
      let afterDirectives := afterOpen.after (spaced (directives.map Directive.written))
      let afterBlocks := afterDirectives.after (spaced (Block.allWritten blocks))
      have hends :
          EndsWord (spaced (label.toList.map inQuotes) ++ (spaced [['{']] ++ body) ++ rest) := by
        rw [List.append_assoc]
        exact (EndsWord.space _).spaced _
      obtain ⟨word, hword, hlabel⟩ :=
        exists_label_word label afterType (spaced [['{']] ++ body ++ rest)
      have hopen := reads_brace '{' .openBrace (by simp) afterLabel (body ++ rest)
      obtain ⟨items, hreads, hitems, hnone⟩ := exists_directives hdirectives afterOpen
        (spaced (Block.allWritten blocks) ++ spaced [['}']] ++ rest)
      obtain ⟨items', hreads', hnone', hitems'⟩ :=
        exists_blocks blocks hblocks afterDirectives (spaced [['}']] ++ rest)
      have hclose := reads_brace '}' .closeBrace (by simp) afterBlocks rest
      refine ⟨.block type place word (afterLabel.after [' ']) (items ++ items')
        (afterBlocks.after [' ']), ?_, rfl, ?_⟩
      · have hread := (reads_name htype place hends).append (hlabel.append
          (hopen.append (hreads.append (hreads'.append hclose))))
        rw [Block.written, Item.tokens, Item.tokensOf_append]
        simpa using hread
      · rw [Item.block?, Option.map_some, Block.unlined, Block.unlined, Item.directivesOf_append,
          Item.blocksOf_append, hnone, hnone', List.append_nil, List.nil_append, hitems, hword,
          Block.allUnlined_eq_map, hitems']

/-- Blocks with spaces in front are read in order. -/
theorem exists_blocks (blocks : List Block) (h : ∀ b ∈ blocks, b.Writable) (place : Place)
    (rest : List Char) :
    ∃ items, Reads (spaced (Block.allWritten blocks)) place (Item.tokensOf items) rest ∧
      Item.directivesOf items = [] ∧
      (Item.blocksOf items).map Block.unlined = Block.allUnlined blocks := by
  match blocks with
  | [] => exact ⟨[], .nil place rest, rfl, rfl⟩
  | b :: blocks =>
      obtain ⟨hb, hblocks⟩ := List.forall_mem_cons.mp h
      obtain ⟨item, hread, hdirective, hblock⟩ := Block.Writable.exists_item b hb
        (place.after [' ']) (spaced (Block.allWritten blocks) ++ rest)
      obtain ⟨items, hreads, hdirectives, hlater⟩ :=
        exists_blocks blocks hblocks (place.after (' ' :: b.written)) rest
      refine ⟨item :: items, ?_, ?_, ?_⟩
      · rw [Block.allWritten, spaced_cons, Item.tokensOf]
        exact (Reads.space hb.solid hread).append hreads
      · rw [Item.directivesOf, List.filterMap_cons_none hdirective]
        exact hdirectives
      · obtain ⟨block, hitem, hunlined⟩ := Option.map_eq_some_iff.mp hblock
        rw [Item.blocksOf, hitem, Block.allUnlined, List.map_append, hlater, ← hunlined]
        rfl

end

/-! ## Documents -/

/-- A document is read from the tokens of its derivation. -/
theorem Document.ofTokens_tokensOf (filename : String) (items : List Item) (place : Place) :
    Document.ofTokens filename ⟨Item.tokensOf items, .ok place⟩ =
      .ok (Document.ofItems filename items) := by
  have hrun := Parse.run_tokensOf items Parse.start [] rfl
  rw [List.append_nil] at hrun
  rw [Document.ofTokens, hrun]
  rfl

/-- Without the first space, words are the same tokens. -/
theorem exists_tokens_drop {texts : List (List Char)} {tokens : List Token}
    (hsolid : ∀ text ∈ texts, Solid text) (h : Reads (spaced texts) ⟨1, 0⟩ tokens []) :
    ∃ place, Tokens.ofText ((spaced texts).drop 1) = ⟨tokens, .ok place⟩ := by
  have hend (place : Place) : Tokens.at place [] = ⟨[], .ok place⟩ := by
    rw [Tokens.at, lexemes]
    rfl
  unfold Reads at h
  rw [List.append_nil, hend, Tokens.after, List.append_nil] at h
  cases texts with
  | nil =>
      have hnone := h.symm.trans (hend ⟨1, 0⟩)
      exact ⟨.start, (hend .start).trans (by rw [(Tokens.mk.inj hnone).1])⟩
  | cons text texts =>
      obtain ⟨c, rest, hrest, hc⟩ := (hsolid text List.mem_cons_self).append (spaced texts)
      have hhead : ∀ d ∈ (c :: rest).head?, isBlank d = false := by
        intro d hd
        obtain rfl := Option.some.inj hd
        exact hc
      have hextent : extent ' ' ([] ++ (c :: rest)) = .ok (.space, 1) := extent_space hhead
      -- the space takes one column, so what is after it begins where the text does
      have hspace : Reads [' '] ⟨1, 0⟩ [] (c :: rest) := Reads.of_silent hextent rfl _
      rw [spaced_cons, List.cons_append, hrest] at h ⊢
      exact ⟨_, (hspace.symm.trans h : Tokens.after [] _ = _)⟩

/-- Reading what was written gives the document again, up to the lines of its items. -/
theorem Document.ofText_written (filename : String) (d : Document) (h : d.Writable) :
    (Document.ofText filename d.written).map Document.unlined =
      .ok { d.unlined with filename } := by
  obtain ⟨items, hreads, hdirectives, hnone⟩ :=
    exists_directives h.directives ⟨1, 0⟩ (spaced (Block.allWritten d.blocks) ++ [])
  obtain ⟨items', hreads', hnone', hblocks⟩ := exists_blocks d.blocks h.blocks _ []
  have hread := hreads.append hreads'
  rw [← spaced_append, ← Item.tokensOf_append] at hread
  have hsolid : ∀ text ∈ d.directives.map Directive.written ++ Block.allWritten d.blocks,
      Solid text := by
    intro text htext
    rw [Block.allWritten_eq_map] at htext
    rcases List.mem_append.mp htext with htext | htext
    · obtain ⟨s, hs, rfl⟩ := List.mem_map.mp htext
      exact (h.directives s hs).solid
    · obtain ⟨b, hb, rfl⟩ := List.mem_map.mp htext
      exact (h.blocks b hb).solid
  obtain ⟨place, htokens⟩ := exists_tokens_drop hsolid hread
  rw [Document.ofText, Document.written, htokens, Document.ofTokens_tokensOf]
  simp only [Except.map, Document.ofItems, Document.unlined, Item.directivesOf_append,
    Item.blocksOf_append, hnone, hnone', List.append_nil, List.nil_append, hdirectives,
    Block.allUnlined_eq_map, hblocks]

/-- A document with texts that look like other lexemes, and with a block in a block. -/
def tangled : Document where
  filename := "draft"
  directives := [⟨"on-call", [.text "say \"\\\n;\"", .whole 120, .flag false], 4⟩]
  blocks := [.mk "mqtt" (some "/* \x7b") 1 [⟨"host", [.text "#", .text "5s"], 2⟩]
    [.mk "_inner" none 3 [⟨"empty", [], 3⟩] []]]

example : String.ofList tangled.written =
    "on-call \"say \\\"\\\\\\n;\\\"\" 120 off; " ++
      "mqtt \"/* \x7b\" \x7b host \"#\" \"5s\"; _inner \x7b empty; \x7d \x7d" := by
  decide +kernel

theorem tangled_writable : tangled.Writable := by
  have hname : ∀ name ∈ ["on-call", "mqtt", "host", "_inner", "empty"], IsName name := by
    intro name h
    simp only [List.mem_cons, List.not_mem_nil, or_false] at h
    rcases h with rfl | rfl | rfl | rfl | rfl <;> decide +kernel
  have hcall : ∀ v ∈ [Scalar.text "say \"\\\n;\"", .whole 120, .flag false], v.Writable := by
    have hshort : (Decimal.digits 120).length ≤ Numeral.digitLimit := by decide +kernel
    simp [Scalar.Writable, hshort]
  have hhost : ∀ v ∈ [Scalar.text "#", .text "5s"], v.Writable := by simp [Scalar.Writable]
  have hinner : Block.Writable (.mk "_inner" none 3 [⟨"empty", [], 3⟩] []) := by
    refine .mk _ _ _ _ _ (hname "_inner" (by simp)) (fun d hd => ?_) (by simp)
    obtain rfl := List.mem_singleton.mp hd
    exact ⟨hname "empty" (by simp), by simp⟩
  refine ⟨fun d hd => ?_, fun b hb => ?_⟩
  · obtain rfl := List.mem_singleton.mp hd
    exact ⟨hname "on-call" (by simp), hcall⟩
  · obtain rfl := List.mem_singleton.mp hb
    refine .mk _ _ _ _ _ (hname "mqtt" (by simp)) (fun d hd => ?_) (fun b hb => ?_)
    · obtain rfl := List.mem_singleton.mp hd
      exact ⟨hname "host" (by simp), hhost⟩
    · obtain rfl := List.mem_singleton.mp hb
      exact hinner

/-- The tangled document can be written, and is read back. -/
theorem Document.ofText_written_tangled : tangled.Writable ∧
    (Document.ofText "copy" tangled.written).map Document.unlined =
      .ok { tangled.unlined with filename := "copy" } :=
  ⟨tangled_writable, Document.ofText_written "copy" tangled tangled_writable⟩

end SupplyGauge.Config
