import SupplyGauge.Proofs.Config.Grammar

/-! # Reading tokens is deriving them

The parser goes through tokens once and keeps what it has read so far. Over the tokens
of a derivation it comes to the items of the derivation, whatever follows. In turn, all
that it has read at any time is the beginning of a derivation: finished items, blocks
that are still open, and the first tokens of an item. So it accepts exactly what the
grammar derives.
-/

namespace SupplyGauge.Config

namespace Parse

/-- Adds finished directives and blocks to the innermost open block, or to the document. -/
def extend (p : Parse) (directives : List Directive) (blocks : List Block) : Parse :=
  match p.enclosing with
  | [] => { p with directives := p.directives ++ directives, blocks := p.blocks ++ blocks }
  | b :: outer =>
    { p with
      enclosing := { b with
        directives := b.directives ++ directives
        blocks := b.blocks ++ blocks } :: outer }

theorem addDirective_eq_extend (p : Parse) (d : Directive) :
    p.addDirective d = p.extend [d] [] := by
  rcases p with ⟨pending, _ | ⟨b, outer⟩, directives, blocks⟩ <;> simp [addDirective, extend]

theorem addBlock_eq_extend (p : Parse) (b : Block) : p.addBlock b = p.extend [] [b] := by
  rcases p with ⟨pending, _ | ⟨o, outer⟩, directives, blocks⟩ <;> simp [addBlock, extend]

@[simp] theorem extend_nil (p : Parse) : p.extend [] [] = p := by
  rcases p with ⟨pending, _ | ⟨b, outer⟩, directives, blocks⟩ <;> simp [extend]

@[simp] theorem extend_pending (p : Parse) (directives : List Directive) (blocks : List Block) :
    (p.extend directives blocks).pending = p.pending := by
  unfold extend
  split <;> rfl

theorem extend_extend (p : Parse) (directives directives' : List Directive)
    (blocks blocks' : List Block) :
    (p.extend directives blocks).extend directives' blocks' =
      p.extend (directives ++ directives') (blocks ++ blocks') := by
  rcases p with ⟨pending, _ | ⟨b, outer⟩, _, _⟩ <;> simp [extend]

theorem run_cons_ok {p p' : Parse} {t : Token} (rest : List Token) (h : p.step t = .ok p') :
    p.run (t :: rest) = p'.run rest := by
  rw [run, h]
  rfl

/-- Values are collected in order. -/
theorem run_values {p : Parse} {item : PendingItem} (values : List (Literal × Place))
    (rest : List Token) (hpending : p.pending = some item) :
    p.run (values.map Literal.token ++ rest) =
      { p with pending := some { item with
          values := item.values ++ Literal.valuesOf values } }.run rest := by
  induction values generalizing p item with
  | nil => simp [Literal.valuesOf, ← hpending]
  | cons v values ih =>
      have hstep : p.step (Literal.token v) =
          .ok { p with pending := some { item with values := item.values ++ [v.1.value] } } := by
        simp [step, hpending, stepBody, Literal.token]
      rw [List.map_cons, List.cons_append, run_cons_ok _ hstep, ih rfl]
      simp [Literal.valuesOf]

/-- A block may have one word as its label, or none. -/
theorem label?_labelValues (label : Option (Word × Place)) :
    label? (Literal.valuesOf (labelValues label)) = some (label.map fun w => w.1.text) := by
  rcases label with _ | ⟨w, place⟩ <;> rfl

mutual

/-- Over the tokens of an item the parser comes to the item, whatever follows. -/
theorem run_tokens (item : Item) (p : Parse) (rest : List Token) (hpending : p.pending = none) :
    p.run (item.tokens ++ rest) =
      (p.extend item.directive?.toList item.block?.toList).run rest := by
  match item with
  | .directive name place values semicolon =>
      have hname : p.step ⟨.identifier name, place⟩ =
          .ok { p with pending := some ⟨name, ⟨.identifier name, place⟩, []⟩ } := by
        simp [step, hpending, stepItem]
      rw [Item.tokens, List.cons_append, List.append_assoc, run_cons_ok _ hname,
        run_values values _ rfl]
      refine (run_cons_ok rest rfl).trans ?_
      rw [addDirective_eq_extend, ← hpending]
      rfl
  | .block type place label openBrace items closeBrace =>
      have hname : p.step ⟨.identifier type, place⟩ =
          .ok { p with pending := some ⟨type, ⟨.identifier type, place⟩, []⟩ } := by
        simp [step, hpending, stepItem]
      rw [Item.tokens, List.cons_append, List.append_assoc, run_cons_ok _ hname,
        run_values (labelValues label) _ rfl, List.cons_append, List.append_assoc]
      -- the brace opens a block that has nothing in it yet, and the items go there
      let opened : OpenBlock := ⟨type, label.map fun w => w.1.text, place.line, [], []⟩
      have hopen : step { p with pending := some ⟨type, ⟨.identifier type, place⟩,
            [] ++ Literal.valuesOf (labelValues label)⟩ } ⟨.openBrace, openBrace⟩ =
          .ok { p with enclosing := opened :: p.enclosing } := by
        simp [step, stepBody, Symbol.value?, label?_labelValues, hpending, opened]
      have hclose : step (extend { p with enclosing := opened :: p.enclosing }
            (Item.directivesOf items) (Item.blocksOf items)) ⟨.closeBrace, closeBrace⟩ =
          .ok (p.addBlock (.mk type (label.map fun w => w.1.text) place.line
            (Item.directivesOf items) (Item.blocksOf items))) := by
        obtain ⟨pending, enclosing, directives, blocks⟩ := p
        obtain rfl : pending = none := hpending
        rfl
      rw [run_cons_ok _ hopen, run_tokensOf items { p with enclosing := opened :: p.enclosing }
        _ hpending, List.singleton_append, run_cons_ok _ hclose, addBlock_eq_extend]
      rfl

/-- Over the tokens of items the parser comes to the items, whatever follows. -/
theorem run_tokensOf (items : List Item) (p : Parse) (rest : List Token)
    (hpending : p.pending = none) :
    p.run (Item.tokensOf items ++ rest) =
      (p.extend (Item.directivesOf items) (Item.blocksOf items)).run rest := by
  match items with
  | [] => simp [Item.tokensOf, Item.directivesOf, Item.blocksOf]
  | item :: items =>
      rw [Item.tokensOf, List.append_assoc, run_tokens item p _ hpending,
        run_tokensOf items _ rest (by simpa using hpending), extend_extend, Item.blocksOf,
        Item.directivesOf, Item.directivesOf, List.filterMap_cons]
      cases item.directive? <;> rfl

end

end Parse

/-- A block of which the closing brace has not been derived yet. -/
structure OpenItem where
  type : String
  place : Place
  label : Option (Word × Place)
  openBrace : Place
  items : List Item

namespace OpenItem

def tokens (b : OpenItem) : List Token :=
  ⟨.identifier b.type, b.place⟩ :: ((labelValues b.label).map Literal.token ++
    ⟨.openBrace, b.openBrace⟩ :: Item.tokensOf b.items)

def close (b : OpenItem) (closeBrace : Place) : Item :=
  .block b.type b.place b.label b.openBrace b.items closeBrace

def toBlock (b : OpenItem) : OpenBlock :=
  ⟨b.type, b.label.map fun w => w.1.text, b.place.line, Item.directivesOf b.items,
    Item.blocksOf b.items⟩

theorem close_tokens (b : OpenItem) (closeBrace : Place) :
    (b.close closeBrace).tokens = b.tokens ++ [⟨.closeBrace, closeBrace⟩] := by
  simp [close, Item.tokens, tokens]

end OpenItem

/-- The name of an item with the values that follow it, before it turns out what it is. -/
structure ItemStart where
  name : String
  place : Place
  values : List (Literal × Place)

def ItemStart.tokens (s : ItemStart) : List Token :=
  ⟨.identifier s.name, s.place⟩ :: s.values.map Literal.token

def ItemStart.toPending (s : ItemStart) : PendingItem :=
  ⟨s.name, ⟨.identifier s.name, s.place⟩, Literal.valuesOf s.values⟩

/-- The beginning of a derivation: finished items, open blocks with the innermost first, and the
start of an item. -/
structure Draft where
  items : List Item
  enclosing : List OpenItem
  start : Option ItemStart

namespace Draft

def tokens (k : Draft) : List Token :=
  Item.tokensOf k.items ++ k.enclosing.reverse.flatMap OpenItem.tokens ++
    k.start.toList.flatMap ItemStart.tokens

/-- What the parser has read when it has read a draft. -/
def toParse (k : Draft) : Parse :=
  ⟨k.start.map ItemStart.toPending, k.enclosing.map OpenItem.toBlock, Item.directivesOf k.items,
    Item.blocksOf k.items⟩

/-- Adds a finished item to the innermost open block, or to the document. -/
def add (k : Draft) (item : Item) : Draft :=
  match k.enclosing with
  | [] => { k with items := k.items ++ [item] }
  | b :: outer => { k with enclosing := { b with items := b.items ++ [item] } :: outer }

theorem add_tokens (k : Draft) (item : Item) (hstart : k.start = none) :
    (k.add item).tokens = k.tokens ++ item.tokens := by
  rcases k with ⟨items, _ | ⟨b, outer⟩, start⟩ <;>
    simp_all [add, tokens, OpenItem.tokens, Item.tokensOf_append, Item.tokensOf]

theorem add_toParse (k : Draft) (item : Item) :
    (k.add item).toParse = k.toParse.extend item.directive?.toList item.block?.toList := by
  have hdirectives (items : List Item) :
      Item.directivesOf (items ++ [item]) = Item.directivesOf items ++ item.directive?.toList := by
    rw [Item.directivesOf_append]
    cases item <;> rfl
  have hblocks (items : List Item) :
      Item.blocksOf (items ++ [item]) = Item.blocksOf items ++ item.block?.toList := by
    simp [Item.blocksOf_append, Item.blocksOf]
  rcases k with ⟨items, _ | ⟨b, outer⟩, start⟩ <;>
    simp [add, toParse, Parse.extend, OpenItem.toBlock, hdirectives, hblocks]

/-- A symbol with a value is a literal. -/
theorem exists_literal {t : Token} {v : Scalar} (h : t.symbol.value? = some v) :
    ∃ literal, Literal.token literal = t ∧ literal.1.value = v := by
  obtain ⟨symbol, place⟩ := t
  cases symbol with
  | identifier name => exact ⟨(.word (.bare name), place), rfl, Option.some.inj h⟩
  | string s => exact ⟨(.word (.quoted s), place), rfl, Option.some.inj h⟩
  | number v => exact ⟨(.number v, place), rfl, Option.some.inj h⟩
  | duration v => exact ⟨(.duration v, place), rfl, Option.some.inj h⟩
  | boolean b => exact ⟨(.boolean b, place), rfl, Option.some.inj h⟩
  | openBrace | closeBrace | semicolon => contradiction

/-- Values that make a label are no value or one word. -/
theorem exists_label {values : List (Literal × Place)} {label : Option String}
    (h : Parse.label? (Literal.valuesOf values) = some label) :
    ∃ word, labelValues word = values ∧ (word.map fun w => w.1.text) = label := by
  match values with
  | [] => exact ⟨none, rfl, Option.some.inj h⟩
  | [(.word w, place)] => exact ⟨some (w, place), rfl, Option.some.inj h⟩
  | [(.number v, place)] | [(.duration v, place)] => cases v <;> contradiction
  | [(.boolean b, place)] => contradiction
  | v :: v' :: rest =>
      simp [Literal.valuesOf, Parse.label?] at h

/-- A token at a place where an item may begin begins one or closes a block. -/
theorem exists_stepItem {k : Draft} {t : Token} {p : Parse} (hstart : k.start = none)
    (h : k.toParse.stepItem t = .ok p) :
    ∃ k' : Draft, k'.toParse = p ∧ k'.tokens = k.tokens ++ [t] := by
  obtain ⟨items, enclosing, start⟩ := k
  obtain rfl : start = none := hstart
  obtain ⟨symbol, place⟩ := t
  cases symbol with
  | identifier name =>
      refine ⟨⟨items, enclosing, some ⟨name, place, []⟩⟩, Except.ok.inj h, ?_⟩
      simp [tokens, ItemStart.tokens]
  | closeBrace =>
      cases enclosing with
      | nil => contradiction
      | cons b outer =>
          refine ⟨add ⟨items, outer, none⟩ (b.close place), ?_, ?_⟩
          · rw [add_toParse, ← Except.ok.inj h, Parse.addBlock_eq_extend]
            rfl
          · rw [add_tokens _ _ rfl, OpenItem.close_tokens]
            simp [tokens]
  | string | number | duration | boolean | openBrace | semicolon => contradiction

/-- A token after the start of an item is one more value, or settles what the item is. -/
theorem exists_stepBody {k : Draft} {s : ItemStart} {t : Token} {p : Parse}
    (hstart : k.start = some s) (h : k.toParse.stepBody s.toPending t = .ok p) :
    ∃ k' : Draft, k'.toParse = p ∧ k'.tokens = k.tokens ++ [t] := by
  obtain ⟨items, enclosing, start⟩ := k
  obtain rfl : start = some s := hstart
  unfold Parse.stepBody at h
  split at h
  next v hvalue =>
    obtain ⟨literal, rfl, rfl⟩ := exists_literal hvalue
    refine ⟨⟨items, enclosing, some { s with values := s.values ++ [literal] }⟩, ?_, ?_⟩
    · rw [← Except.ok.inj h]
      simp [toParse, ItemStart.toPending, Literal.valuesOf]
    · simp [tokens, ItemStart.tokens]
  next hsymbol =>
    refine ⟨add ⟨items, enclosing, none⟩ (.directive s.name s.place s.values t.place), ?_, ?_⟩
    · rw [add_toParse, ← Except.ok.inj h, Parse.addDirective_eq_extend]
      rfl
    · rw [add_tokens _ _ rfl]
      simp [tokens, ItemStart.tokens, Item.tokens, ← hsymbol]
  next hsymbol =>
    split at h
    next label hlabel =>
      obtain ⟨word, hword, rfl⟩ := exists_label hlabel
      refine ⟨⟨items, ⟨s.name, s.place, word, t.place, []⟩ :: enclosing, none⟩,
        Except.ok.inj h, ?_⟩
      simp [tokens, ItemStart.tokens, OpenItem.tokens, Item.tokensOf, hword, ← hsymbol]
    next => contradiction
  next => contradiction

/-- With one token more, what has been read is a draft again. -/
theorem exists_step {k : Draft} {t : Token} {p : Parse} (h : k.toParse.step t = .ok p) :
    ∃ k' : Draft, k'.toParse = p ∧ k'.tokens = k.tokens ++ [t] := by
  rcases hstart : k.start with _ | s
  · have hpending : k.toParse.pending = none := by rw [toParse, hstart]; rfl
    rw [Parse.step, hpending] at h
    exact exists_stepItem hstart h
  · have hpending : k.toParse.pending = some s.toPending := by rw [toParse, hstart]; rfl
    rw [Parse.step, hpending] at h
    exact exists_stepBody hstart h

/-- Whatever the parser accepts continues a draft. -/
theorem exists_run {k : Draft} {ts : List Token} {p : Parse} (h : k.toParse.run ts = .ok p) :
    ∃ k' : Draft, k'.toParse = p ∧ k'.tokens = k.tokens ++ ts := by
  induction ts generalizing k with
  | nil => exact ⟨k, Except.ok.inj h, (List.append_nil _).symm⟩
  | cons t rest ih =>
      rcases hstep : k.toParse.step t with e | p'
      · rw [Parse.run, hstep] at h
        contradiction
      · rw [Parse.run_cons_ok rest hstep] at h
        obtain ⟨k', rfl, htokens⟩ := exists_step hstep
        obtain ⟨k'', hparse, htokens'⟩ := ih h
        exact ⟨k'', hparse, by rw [htokens', htokens, List.append_assoc, List.singleton_append]⟩

end Draft

/-- Tokens up to the end of a text are a document if and only if they are derivable, and then the
document is that of their derivation, of which there is only one. -/
theorem ofTokens_eq_ok_iff_derivable : Function.Injective Item.tokensOf ∧
    ∀ (filename : String) (tokens : List Token) (place : Place) (d : Document),
      Document.ofTokens filename ⟨tokens, .ok place⟩ = .ok d ↔
        ∃ items, Item.tokensOf items = tokens ∧ Document.ofItems filename items = d := by
  refine ⟨Item.tokensOf_injective, fun filename tokens place d => ⟨fun h => ?_, ?_⟩⟩
  · rcases hrun : Parse.start.run tokens with e | p
    · rw [Document.ofTokens, hrun] at h
      contradiction
    · obtain ⟨⟨items, enclosing, start⟩, rfl, htokens⟩ :=
        Draft.exists_run (k := ⟨[], [], none⟩) hrun
      rw [Document.ofTokens, hrun] at h
      -- where the text may end, nothing is open
      rcases start with _ | s
      · rcases enclosing with _ | ⟨b, outer⟩
        · refine ⟨items, ?_, Except.ok.inj h⟩
          simpa [Draft.tokens, Item.tokensOf] using htokens
        · contradiction
      · contradiction
  · rintro ⟨items, rfl, rfl⟩
    have hrun := Parse.run_tokensOf items Parse.start [] rfl
    rw [List.append_nil] at hrun
    rw [Document.ofTokens, hrun]
    rfl

end SupplyGauge.Config
