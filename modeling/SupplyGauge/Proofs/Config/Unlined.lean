import SupplyGauge.Proofs.Config.Conversions
import SupplyGauge.Proofs.Config.Rendering

/-! # Reading without places

The parser takes the lines of items from the places of tokens, and nothing else. So where the places
are left out of the tokens, the lines are left out of the document, and texts with the same symbols
give the same document up to lines.
-/

namespace SupplyGauge.Config

theorem toOption_cases {ε ε' α β : Type} {x : Except ε α} {y : Except ε' β} {f : β → α}
    (h : x.toOption = y.toOption.map f) :
    (∃ b, y = .ok b ∧ x = .ok (f b)) ∨ ∃ e e', y = .error e ∧ x = .error e' := by
  cases x <;> cases y <;> simp_all [Except.toOption]

def Token.unlined (t : Token) : Token := ⟨t.symbol, ⟨0, 0⟩⟩

def PendingItem.unlined (item : PendingItem) : PendingItem :=
  { item with token := item.token.unlined }

def OpenBlock.unlined (b : OpenBlock) : OpenBlock where
  type := b.type
  label := b.label
  line := 0
  directives := b.directives.map Directive.unlined
  blocks := b.blocks.map Block.unlined

theorem OpenBlock.close_unlined (b : OpenBlock) : b.unlined.close = b.close.unlined := by
  simp [close, unlined, Block.unlined, Block.allUnlined_eq_map]

namespace Parse

/-- A parse in progress without the places of tokens and the lines of items. -/
def unlined (p : Parse) : Parse where
  pending := p.pending.map PendingItem.unlined
  enclosing := p.enclosing.map OpenBlock.unlined
  directives := p.directives.map Directive.unlined
  blocks := p.blocks.map Block.unlined

theorem unlined_addDirective (p : Parse) (d : Directive) :
    p.unlined.addDirective d.unlined = (p.addDirective d).unlined := by
  rcases p with ⟨pending, _ | ⟨b, outer⟩, directives, blocks⟩ <;>
    simp [addDirective, unlined, OpenBlock.unlined]

theorem unlined_addBlock (p : Parse) (b : Block) :
    p.unlined.addBlock b.unlined = (p.addBlock b).unlined := by
  rcases p with ⟨pending, _ | ⟨o, outer⟩, directives, blocks⟩ <;>
    simp [addBlock, unlined, OpenBlock.unlined]

theorem unlined_stepItem (p : Parse) (t : Token) :
    (p.unlined.stepItem t.unlined).toOption = (p.stepItem t).toOption.map unlined := by
  obtain ⟨symbol, place⟩ := t
  obtain ⟨pending, enclosing, directives, blocks⟩ := p
  cases symbol with
  | identifier name => rfl
  | closeBrace =>
      cases enclosing with
      | nil => rfl
      | cons b outer =>
          have hadd := unlined_addBlock ⟨pending, outer, directives, blocks⟩ b.close
          rw [← OpenBlock.close_unlined] at hadd
          exact congrArg some hadd
  | _ => cases enclosing <;> rfl

theorem unlined_stepBody (p : Parse) (item : PendingItem) (t : Token) :
    (p.unlined.stepBody item.unlined t.unlined).toOption =
      (p.stepBody item t).toOption.map unlined := by
  obtain ⟨symbol, place⟩ := t
  cases symbol with
  | semicolon =>
      exact congrArg some (unlined_addDirective { p with pending := none }
        ⟨item.name, item.values, item.token.place.line⟩)
  | openBrace =>
      unfold stepBody
      simp only [Token.unlined, Symbol.value?, PendingItem.unlined]
      cases label? item.values <;> rfl
  | _ => rfl

theorem unlined_step (p : Parse) (t : Token) :
    (p.unlined.step t.unlined).toOption = (p.step t).toOption.map unlined := by
  unfold step
  cases hpending : p.pending with
  | none =>
      have hnone : p.unlined.pending = none := by rw [unlined, hpending]; rfl
      rw [hnone]
      exact unlined_stepItem p t
  | some item =>
      have hsome : p.unlined.pending = some item.unlined := by rw [unlined, hpending]; rfl
      rw [hsome]
      exact unlined_stepBody p item t

theorem unlined_run (p : Parse) (ts : List Token) :
    (p.unlined.run (ts.map Token.unlined)).toOption = (p.run ts).toOption.map unlined := by
  induction ts generalizing p with
  | nil => rfl
  | cons t rest ih =>
      rw [List.map_cons, run, run]
      rcases toOption_cases (unlined_step p t) with ⟨q, hread, hunlined⟩ | ⟨e, e', hread, hunlined⟩
      · rw [hread, hunlined]
        exact ih q
      · rw [hread, hunlined]
        rfl

theorem endFault?_unlined (p : Parse) : p.unlined.endFault? = p.endFault? := by
  rcases p with ⟨_ | item, _ | ⟨b, outer⟩, directives, blocks⟩ <;> rfl

end Parse

/-- Tokens without places. -/
def Tokens.unlined (ts : Tokens) : Tokens where
  tokens := ts.tokens.map Token.unlined
  ending := ts.ending.map fun _ => ⟨0, 0⟩

/-- Tokens without places give the document without lines. -/
theorem Document.ofTokens_unlined (filename : String) (ts : Tokens) :
    (ofTokens filename ts.unlined).toOption = (ofTokens filename ts).toOption.map unlined := by
  have hrun : (Parse.start.run ts.unlined.tokens).toOption =
      (Parse.start.run ts.tokens).toOption.map Parse.unlined := Parse.unlined_run .start ts.tokens
  unfold ofTokens
  rcases toOption_cases hrun with ⟨p, hread, hunlined⟩ | ⟨e, e', hread, hunlined⟩
  · rw [hread, hunlined, Tokens.unlined]
    cases ts.ending with
    | error e => rfl
    | ok place =>
        simp only [mapError_ok, Except.map, bind, Except.bind, Parse.endFault?_unlined]
        cases p.endFault? with
        | some fault => rfl
        | none => simp [Parse.unlined, unlined, Block.allUnlined_eq_map, pure, Except.pure,
            Except.toOption]
  · rw [hread, hunlined]
    rfl

/-- Texts that are read to their ends with the same symbols give the same document up to lines, or
none. -/
theorem Document.ofText_congr {text text' : List Char} {e e' : Place}
    (h : (Tokens.ofText text).ending = .ok e) (h' : (Tokens.ofText text').ending = .ok e')
    (hsymbols : (Tokens.ofText text').tokens.map Token.symbol =
      (Tokens.ofText text).tokens.map Token.symbol) (filename : String) :
    (ofText filename text').toOption.map unlined = (ofText filename text).toOption.map unlined := by
  have htokens (ts : List Token) :
      ts.map Token.unlined = (ts.map Token.symbol).map fun s => ⟨s, ⟨0, 0⟩⟩ := by
    rw [List.map_map]
    rfl
  have hsame : (Tokens.ofText text').unlined = (Tokens.ofText text).unlined := by
    rw [Tokens.unlined, Tokens.unlined, h, h', htokens, htokens, hsymbols]
    rfl
  unfold ofText
  rw [← ofTokens_unlined, ← ofTokens_unlined, hsame]

end SupplyGauge.Config
