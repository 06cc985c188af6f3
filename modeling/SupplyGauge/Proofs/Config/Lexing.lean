import SupplyGauge.Proofs.Config.Numerals

/-! # Lexemes by themselves

What a lexeme is depends on its own text and on the one character after it. So a text that
is put together from lexemes with something between them that ends each of them is read as
these lexemes, whatever they are. Reading a part of a text gives the tokens of the part in
front of those of the rest. The tokens end at the first lexeme that cannot be read; where it
is a number that has no value, it is an oversized numeral.
-/

namespace SupplyGauge.Config

open Text (isDigit isBlank)

/-- The tokens of a text that begins at a place. -/
def Tokens.at (place : Place) (text : List Char) : Tokens :=
  .ofLexemes place (lexemes text).1 (lexemes text).2

/-- Tokens that are read before others. -/
def Tokens.after (tokens : List Token) (later : Tokens) : Tokens :=
  ⟨tokens ++ later.tokens, later.ending⟩

/-- Whether a part of a text gives these tokens when it begins at a place and is followed by the
rest. -/
def Reads (text : List Char) (place : Place) (tokens : List Token) (rest : List Char) : Prop :=
  Tokens.at place (text ++ rest) = .after tokens (.at (place.after text) rest)

theorem Place.after_append (place : Place) (text text' : List Char) :
    place.after (text ++ text') = (place.after text).after text' :=
  List.foldl_append

theorem Reads.nil (place : Place) (rest : List Char) : Reads [] place [] rest := rfl

/-- A part is read, and then the next one. -/
theorem Reads.append {text text' rest : List Char} {place : Place} {tokens tokens' : List Token}
    (h : Reads text place tokens (text' ++ rest))
    (h' : Reads text' (place.after text) tokens' rest) :
    Reads (text ++ text') place (tokens ++ tokens') rest := by
  unfold Reads at h h' ⊢
  rw [List.append_assoc, h, h', Place.after_append]
  simp only [Tokens.after, List.append_assoc]

/-! ## One lexeme -/

theorem lexemes_cons {c : Char} {text rest : List Char} {kind : LexemeKind}
    (h : extent c (text ++ rest) = .ok (kind, text.length + 1)) :
    lexemes (c :: text ++ rest) =
      (⟨kind, c :: text⟩ :: (lexemes rest).1, (lexemes rest).2) := by
  rw [List.cons_append, lexemes, h]
  simp

theorem lexemes_nil : lexemes [] = ([], none) := by rw [lexemes]

/-- One lexeme of a given text is read before those that follow. -/
theorem lexemes_read (kind : LexemeKind) (c : Char) (text : List Char) {rest : List Char}
    {later : List Lexeme × Option LexFault} (hrest : lexemes rest = later)
    (h : extent c (text ++ rest) = .ok (kind, text.length + 1)) :
    lexemes (c :: text ++ rest) = (⟨kind, c :: text⟩ :: later.1, later.2) := by
  rw [lexemes_cons h, hrest]

/-- A lexeme is read by itself where its extent is its own text. -/
theorem Reads.of_extent {c : Char} {text rest : List Char} {kind : LexemeKind} {symbol : Symbol}
    (hextent : extent c (text ++ rest) = .ok (kind, text.length + 1))
    (hsymbol : Lexeme.symbol? ⟨kind, c :: text⟩ = .ok (some symbol)) (place : Place) :
    Reads (c :: text) place [⟨symbol, place⟩] rest := by
  unfold Reads Tokens.at
  rw [lexemes_cons hextent]
  simp only [Tokens.ofLexemes, hsymbol]
  rfl

/-- A lexeme that carries no symbol is read as nothing. -/
theorem Reads.of_silent {c : Char} {text rest : List Char} {kind : LexemeKind}
    (hextent : extent c (text ++ rest) = .ok (kind, text.length + 1))
    (hsymbol : Lexeme.symbol? ⟨kind, c :: text⟩ = .ok none) (place : Place) :
    Reads (c :: text) place [] rest := by
  unfold Reads Tokens.at
  rw [lexemes_cons hextent]
  simp only [Tokens.ofLexemes, hsymbol]
  rfl

/-! ## Where lexemes end -/

/-- Whether a text ends the word in front of it: there is none, or a space or a semicolon. -/
def EndsWord (rest : List Char) : Prop := ∀ c ∈ rest.head?, c = ' ' ∨ c = ';'

theorem EndsWord.space (rest : List Char) : EndsWord (' ' :: rest) := by simp [EndsWord]

theorem EndsWord.semicolon (rest : List Char) : EndsWord (';' :: rest) := by simp [EndsWord]

/-- No character of a word ends it. -/
theorem EndsWord.not_head {rest : List Char} (h : EndsWord rest) {p : Char → Bool}
    (hspace : p ' ' = false) (hsemicolon : p ';' = false) : ∀ c ∈ rest.head?, p c = false := by
  intro c hc
  rcases h c hc with rfl | rfl
  · exact hspace
  · exact hsemicolon

theorem countWhile_append {p : Char → Bool} {text rest : List Char} (h : ∀ c ∈ text, p c = true)
    (hrest : ∀ c ∈ rest.head?, p c = false) : countWhile p (text ++ rest) = text.length := by
  induction text with
  | nil =>
      cases rest with
      | nil => rfl
      | cons c rest =>
          rw [List.nil_append, countWhile, hrest c rfl]
          rfl
  | cons c text ih =>
      rw [List.cons_append, countWhile, h c List.mem_cons_self, if_pos rfl,
        ih fun c hc => h c (List.mem_cons_of_mem _ hc), List.length_cons]

theorem countWhile_eq_zero {p : Char → Bool} {rest : List Char}
    (h : ∀ c ∈ rest.head?, p c = false) : countWhile p rest = 0 := by
  rw [← List.nil_append rest, countWhile_append (by simp) h, List.length_nil]

theorem isNameStart_iff {c : Char} : isNameStart c = true ↔ isLetter c = true ∨ c = '_' := by
  simp [isNameStart]

/-- The characters that other lexemes begin with begin no name. -/
theorem isDigit_of_isNameStart {c : Char} (h : isNameStart c = true) : isDigit c = false := by
  rw [isNameStart_iff, isLetter_iff] at h
  rcases h with h | rfl
  · rw [Text.isDigit_ascii (by omega), decide_eq_false_iff_not]
    omega
  · decide +kernel

theorem extent_name {c : Char} {text rest : List Char} (hstart : isNameStart c = true)
    (h : ∀ c ∈ text, isNamePart c = true) (hrest : EndsWord rest) :
    extent c (text ++ rest) = .ok (.identifier, text.length + 1) := by
  have hne {other : Char} (hother : isNameStart other = false) : c ≠ other := by
    rintro rfl
    rw [hstart] at hother
    contradiction
  have hquote : ¬ (c = '"' ∨ c = '\'') := not_or.mpr ⟨hne (by decide), hne (by decide)⟩
  have hcount : countWhile isNamePart (text ++ rest) = text.length :=
    countWhile_append h (hrest.not_head (by decide) (by decide))
  unfold extent
  rw [if_neg (hne (by decide)), if_neg (hne (by decide)), if_neg hquote,
    isDigit_of_isNameStart hstart, if_neg Bool.false_ne_true, if_pos hstart, hcount]

theorem extent_whole {c : Char} {text rest : List Char} (h : ∀ d ∈ c :: text, isDigit d = true)
    (hrest : EndsWord rest) :
    extent c (text ++ rest) = .ok (.number, text.length + 1) := by
  have hdigit : isDigit c = true := h c List.mem_cons_self
  have hne {other : Char} (hother : isDigit other = false) : c ≠ other := by
    rintro rfl
    rw [hdigit] at hother
    contradiction
  have hquote : ¬ (c = '"' ∨ c = '\'') :=
    not_or.mpr ⟨hne (by decide +kernel), hne (by decide +kernel)⟩
  have hdigits : countWhile isDigit (c :: text ++ rest) = text.length + 1 :=
    countWhile_append h (hrest.not_head (by decide +kernel) (by decide +kernel))
  have hunit : countWhile isLetter rest = 0 :=
    countWhile_eq_zero (hrest.not_head (by decide) (by decide))
  have hextent : numberExtent (c :: text ++ rest) = text.length + 1 := by
    have hdrop : (c :: text ++ rest).drop (text.length + 1) = rest := by simp
    unfold numberExtent
    simp only [hdigits, hdrop]
    split
    next places =>
      -- a point does not end a word
      exact absurd (hrest '.' rfl) (by decide)
    next => rw [Nat.add_zero, hdrop, hunit]
  unfold extent
  rw [if_neg (hne (by decide +kernel)), if_neg (hne (by decide +kernel)), if_neg hquote,
    if_pos hdigit, ← List.cons_append, hextent]

theorem extent_punctuation {c : Char} (h : c = '{' ∨ c = '}' ∨ c = ';') (rest : List Char) :
    extent c rest = .ok (.punctuation, 1) := by
  have hother : c ≠ '#' ∧ c ≠ '/' ∧ ¬ (c = '"' ∨ c = '\'') ∧ isNameStart c = false := by
    rcases h with rfl | rfl | rfl <;> decide
  have hdigit : isDigit c = false := by
    rcases h with rfl | rfl | rfl <;> decide +kernel
  unfold extent
  rw [if_neg hother.1, if_neg hother.2.1, if_neg hother.2.2.1, hdigit, if_neg Bool.false_ne_true,
    hother.2.2.2, if_neg Bool.false_ne_true, if_pos h]

theorem extent_space {rest : List Char} (h : ∀ c ∈ rest.head?, isBlank c = false) :
    extent ' ' rest = .ok (.space, 1) := by
  have hdigit : isDigit ' ' = false := by decide +kernel
  have hblank : isBlank ' ' = true := by decide
  unfold extent
  rw [if_neg (by decide), if_neg (by decide), if_neg (by decide), hdigit,
    if_neg Bool.false_ne_true, if_neg (by decide), if_neg (by decide), if_pos hblank,
    countWhile_eq_zero h]

/-- Whether a text may stand after a space: it begins with something else than white space. -/
def Solid (text : List Char) : Prop := ∃ c rest, text = c :: rest ∧ isBlank c = false

theorem Solid.append {text : List Char} (h : Solid text) (rest : List Char) :
    Solid (text ++ rest) := by
  obtain ⟨c, tail, rfl, hc⟩ := h
  exact ⟨c, tail ++ rest, rfl, hc⟩

/-- A space in front of a word is not read. -/
theorem Reads.space {text rest : List Char} {place : Place} {tokens : List Token}
    (hsolid : Solid text) (h : Reads text (place.after [' ']) tokens rest) :
    Reads (' ' :: text) place tokens rest := by
  obtain ⟨c, tail, rfl, hc⟩ := hsolid
  have hhead : ∀ d ∈ (c :: tail ++ rest).head?, isBlank d = false := by
    intro d hd
    obtain rfl := Option.some.inj hd
    exact hc
  have hextent : extent ' ' ([] ++ (c :: tail ++ rest)) = .ok (.space, 1) := extent_space hhead
  exact (Reads.of_silent hextent rfl place).append h

/-- Punctuation is read whatever follows it. -/
theorem reads_punctuation (c : Char) (symbol : Symbol)
    (h : (c, symbol) ∈ [('{', Symbol.openBrace), ('}', .closeBrace), (';', .semicolon)])
    (place : Place) (rest : List Char) : Reads [c] place [⟨symbol, place⟩] rest := by
  simp only [List.mem_cons, Prod.mk.injEq, List.not_mem_nil, or_false] at h
  have hextent : extent c ([] ++ rest) = .ok (.punctuation, 1) :=
    extent_punctuation (h.imp And.left (Or.imp And.left And.left)) rest
  have hsymbol : Lexeme.symbol? ⟨.punctuation, [c]⟩ = .ok (some symbol) := by
    rcases h with ⟨rfl, rfl⟩ | ⟨rfl, rfl⟩ | ⟨rfl, rfl⟩ <;> rfl
  exact Reads.of_extent hextent hsymbol place

/-! ## Lexemes that cannot be read -/

/-- Whether a lexeme carries a symbol, or none. -/
def Lexeme.Readable (l : Lexeme) : Prop := ∃ symbol, l.symbol? = .ok symbol

/-- Readable lexemes are read, and then what follows them. -/
theorem Tokens.ofLexemes_append {before : List Lexeme} (h : ∀ l ∈ before, l.Readable)
    (place : Place) (rest : List Lexeme) (stop : Option LexFault) :
    ∃ place', ofLexemes place (before ++ rest) stop =
      .after (ofLexemes place before none).tokens (ofLexemes place' rest stop) := by
  induction before generalizing place with
  | nil => exact ⟨place, rfl⟩
  | cons l before ih =>
      obtain ⟨place', hrest⟩ :=
        ih (fun l hl => h l (List.mem_cons_of_mem _ hl)) (place.after l.text)
      refine ⟨place', ?_⟩
      obtain ⟨symbol, hsymbol⟩ := h l List.mem_cons_self
      rw [List.cons_append, ofLexemes, ofLexemes, hsymbol]
      cases symbol with
      | none => exact hrest
      | some symbol =>
          simp only [hrest]
          rfl

/-- The first lexeme that cannot be read, unless all can. -/
theorem exists_first_unreadable (ls : List Lexeme) : (∀ l ∈ ls, l.Readable) ∨
    ∃ before l after fault, ls = before ++ l :: after ∧ (∀ l ∈ before, l.Readable) ∧
      l.symbol? = .error fault := by
  induction ls with
  | nil => simp
  | cons l ls ih =>
      cases hl : l.symbol? with
      | error fault => exact .inr ⟨[], l, ls, fault, rfl, by simp, hl⟩
      | ok symbol =>
          rcases ih with hall | ⟨before, l', after, fault, rfl, hbefore, hl'⟩
          · exact .inl (List.forall_mem_cons.mpr ⟨⟨symbol, hl⟩, hall⟩)
          · exact .inr ⟨l :: before, l', after, fault, rfl,
              List.forall_mem_cons.mpr ⟨⟨symbol, hl⟩, hbefore⟩, hl'⟩

/-- Where a lexeme cannot be read, the tokens end. -/
theorem Tokens.ofLexemes_unreadable {before : List Lexeme} {l : Lexeme} {fault : LexFault}
    (h : ∀ l ∈ before, l.Readable) (hl : l.symbol? = .error fault) (place : Place)
    (after : List Lexeme) (stop : Option LexFault) :
    ∃ place', ofLexemes place (before ++ l :: after) stop =
      ⟨(ofLexemes place before none).tokens, .error ⟨fault, place'⟩⟩ := by
  obtain ⟨place', hread⟩ := ofLexemes_append h place (l :: after) stop
  refine ⟨place', ?_⟩
  rw [hread, ofLexemes, hl]
  simp [Tokens.after]

/-- A number begins with a digit. -/
theorem extent_number {c : Char} {rest : List Char} {n : Nat}
    (h : extent c rest = .ok (.number, n)) :
    Text.isDigit c = true ∧ n = numberExtent (c :: rest) := by
  unfold extent at h
  split at h
  next => simp at h
  split at h
  next => (repeat' split at h) <;> simp at h
  split at h
  next => split at h <;> simp at h
  split at h
  next hdigit => exact ⟨hdigit, by simpa using h.symm⟩
  all_goals (repeat' split at h) <;> simp at h

theorem extent_not_badNumber {c : Char} {rest : List Char} {fault : Numeral.Fault} :
    extent c rest ≠ .error (.badNumber fault) := by
  unfold extent
  repeat' split
  all_goals simp

/-- Every number in a text is written as a numeral. -/
theorem numeralText_of_mem {text : List Char} {l : Lexeme} (h : l ∈ (lexemes text).1)
    (hkind : l.kind = .number) : NumeralText l.text := by
  induction text using lexemes.induct with
  | case1 => simp [lexemes] at h
  | case2 c rest fault hextent => simp [lexemes, hextent] at h
  | case3 c rest kind n hextent later stop hlater ih =>
      rw [lexemes, hextent] at h
      rcases List.mem_cons.mp h with rfl | h
      · obtain rfl : kind = .number := hkind
        obtain ⟨hdigit, rfl⟩ := extent_number hextent
        exact numeralText_take hdigit
      · exact ih h

theorem lexemes_not_badNumber {text : List Char} {fault : Numeral.Fault} :
    (lexemes text).2 ≠ some (.badNumber fault) := by
  induction text using lexemes.induct with
  | case1 => simp [lexemes]
  | case2 c rest other hextent =>
      rw [lexemes, hextent]
      intro h
      obtain rfl := Option.some.inj h
      exact extent_not_badNumber hextent
  | case3 c rest kind n hextent later stop hlater ih =>
      rw [lexemes, hextent]
      exact ih

/-- Only numbers can be without a value, and those that are oversized are. -/
theorem symbol?_badNumber_iff {text : List Char} {l : Lexeme} (h : l ∈ (lexemes text).1) :
    (∃ fault, l.symbol? = .error (.badNumber fault)) ↔ l.kind = .number ∧ Oversized l.text := by
  unfold Lexeme.symbol?
  cases hkind : l.kind with
  | number =>
      rw [← numberSymbol_badNumber_iff (numeralText_of_mem h hkind)]
      cases numberSymbol l.text <;> simp [Except.map]
  | identifier =>
      cases keyword? l.text <;> simp
  | punctuation =>
      simp only [reduceCtorEq, false_and, iff_false]
      split <;> simp
  | comment | string | space => simp

end SupplyGauge.Config
