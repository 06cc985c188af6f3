import SupplyGauge.Proofs.Config.Coverage
import SupplyGauge.Proofs.Config.Derivation
import SupplyGauge.Proofs.Config.Failures

/-! # Where errors are reported

Tokens are viable as long as some others after them would make a document. The parser takes
exactly the viable tokens, and it asks for no token before it has taken all those in front of it.
So an error in a text is reported only after viable tokens, and otherwise the error is about the
first token with which they are viable no more, whatever stands behind it.
-/

namespace SupplyGauge.Config

/-- Whether tokens are the beginning of a document. -/
def Viable (tokens : List Token) : Prop :=
  ∃ later items, Item.tokensOf items = tokens ++ later

theorem Viable.of_append {tokens later : List Token} (h : Viable (tokens ++ later)) :
    Viable tokens := by
  obtain ⟨rest, items, hitems⟩ := h
  exact ⟨later ++ rest, items, by rw [hitems, List.append_assoc]⟩

/-! ## What the parser takes -/

namespace Parse

theorem run_append (p : Parse) (tokens later : List Token) :
    p.run (tokens ++ later) = p.run tokens >>= (run · later) := by
  induction tokens generalizing p with
  | nil => rfl
  | cons t tokens ih =>
      rw [List.cons_append, run, run]
      cases p.step t with
      | error e => rfl
      | ok p' => exact ih p'

/-- The parser stops at the first token that cannot stand where it does. -/
theorem run_eq_error_iff {p : Parse} {tokens : List Token} {e : ParseError} :
    p.run tokens = .error e ↔ ∃ before t after p', tokens = before ++ t :: after ∧
      p.run before = .ok p' ∧ p'.step t = .error e := by
  constructor
  · intro h
    induction tokens generalizing p with
    | nil => contradiction
    | cons t tokens ih =>
        rcases hstep : p.step t with e' | p'
        · rw [run, hstep] at h
          obtain rfl := Except.error.inj h
          exact ⟨[], t, tokens, p, rfl, rfl, hstep⟩
        · rw [run_cons_ok tokens hstep] at h
          obtain ⟨before, t', after, p'', rfl, hbefore, ht'⟩ := ih h
          exact ⟨t :: before, t', after, p'', rfl, by rwa [run_cons_ok before hstep], ht'⟩
  · rintro ⟨before, t, after, p', rfl, hbefore, ht⟩
    rw [run_append, hbefore]
    change p'.run (t :: after) = _
    rw [run, ht]
    rfl

end Parse

namespace Draft

/-- A draft becomes a document with a semicolon after the item that has been started, and a brace
for each open block. -/
theorem viable (k : Draft) : Viable k.tokens := by
  have hclosed (n : Nat) (k : Draft) (hstart : k.start = none) (hn : k.enclosing.length = n) :
      Viable k.tokens := by
    induction n generalizing k with
    | zero =>
        obtain ⟨items, enclosing, start⟩ := k
        obtain rfl : enclosing = [] := List.eq_nil_of_length_eq_zero hn
        obtain rfl : start = none := hstart
        exact ⟨[], items, by simp [tokens]⟩
    | succ n ih =>
        obtain ⟨items, _ | ⟨b, outer⟩, start⟩ := k
        · contradiction
        obtain rfl : start = none := hstart
        -- the innermost block is closed, and becomes an item of the one around it
        let closed := add ⟨items, outer, none⟩ (b.close .start)
        have hclosed : closed.tokens =
            tokens ⟨items, b :: outer, none⟩ ++ [⟨.closeBrace, .start⟩] := by
          rw [add_tokens _ _ rfl, OpenItem.close_tokens]
          simp [tokens]
        have hlength : closed.enclosing.length = n := by
          rw [← Nat.succ.inj hn]
          cases outer <;> rfl
        have hstill : closed.start = none := by cases outer <;> rfl
        exact .of_append (hclosed ▸ ih closed hstill hlength)
  obtain ⟨items, enclosing, _ | s⟩ := k
  · exact hclosed _ _ rfl rfl
  · let ended := add ⟨items, enclosing, none⟩ (.directive s.name s.place s.values .start)
    have hended : ended.tokens =
        tokens ⟨items, enclosing, some s⟩ ++ [⟨.semicolon, .start⟩] := by
      rw [add_tokens _ _ rfl]
      simp [tokens, ItemStart.tokens, Item.tokens]
    have hstill : ended.start = none := by cases enclosing <;> rfl
    exact .of_append (hended ▸ hclosed _ ended hstill rfl)

end Draft

/-- The parser takes some tokens exactly if they are viable. What it has read then is a draft of
these tokens. -/
theorem viable_iff_run {tokens : List Token} : Viable tokens ↔
    ∃ k : Draft, k.tokens = tokens ∧ Parse.start.run tokens = .ok k.toParse := by
  constructor
  · rintro ⟨later, items, hitems⟩
    have hrun := Parse.run_tokensOf items .start [] rfl
    rw [List.append_nil, hitems, Parse.run_append] at hrun
    rcases hbefore : Parse.start.run tokens with e | p
    · rw [hbefore] at hrun
      contradiction
    · obtain ⟨k, rfl, htokens⟩ := Draft.exists_run (k := ⟨[], [], none⟩) hbefore
      exact ⟨k, htokens, rfl⟩
  · rintro ⟨k, rfl, -⟩
    exact k.viable

/-- A draft with no open block and no item that has been started is a document. -/
theorem Draft.derivable_iff {k : Draft} (hrun : Parse.start.run k.tokens = .ok k.toParse) :
    (∃ items, Item.tokensOf items = k.tokens) ↔ k.toParse.endFault? = none := by
  constructor
  · rintro ⟨items, hitems⟩
    have hall := Parse.run_tokensOf items .start [] rfl
    rw [List.append_nil, hitems, hrun] at hall
    rw [Except.ok.inj hall]
    rfl
  · intro hnone
    obtain ⟨items, enclosing, start⟩ := k
    rcases start with _ | s
    · rcases enclosing with _ | ⟨b, outer⟩
      · exact ⟨items, by simp [tokens]⟩
      · contradiction
    · contradiction

/-! ## The first token that cannot stand where it does -/

/-- Whether some tokens and no more are viable, so that the document ends in vain or goes wrong
with what is found after them. -/
inductive StopsAt (ts : Tokens) : List Token → Found → Prop
  | token {before after : List Token} {t : Token} (htokens : ts.tokens = before ++ t :: after)
      (hfirst : ∀ n, Viable (ts.tokens.take n) ↔ n ≤ before.length) : StopsAt ts before (.token t)
  | endOfText {place : Place} (hending : ts.ending = .ok place) (hviable : Viable ts.tokens)
      (hopen : ∀ items, Item.tokensOf items ≠ ts.tokens) :
      StopsAt ts ts.tokens (.endOfText place)

/-- What is wrong with what is found after a draft, and which token the error is about: the one that
is found, or the name of a block whose label is none. -/
inductive Blames (k : Draft) : Found → ParseError → Prop
  | item {t : Token} (hstart : k.start = none) (hname : ∀ name, t.symbol ≠ .identifier name)
      (hclose : t.symbol = .closeBrace → k.enclosing = []) :
      Blames k (.token t) ⟨.itemExpected (k.enclosing.head?.map (·.type)), .token t⟩
  | body {s : ItemStart} {t : Token} (hstart : k.start = some s) (hclose : t.symbol = .closeBrace) :
      Blames k (.token t) ⟨.bodyExpected s.name, .token t⟩
  | label {s : ItemStart} {t : Token} (hstart : k.start = some s) (hopen : t.symbol = .openBrace)
      (hvalues : 1 < s.values.length ∨
        ∃ v place, s.values = [(v, place)] ∧ ∀ w, v ≠ .word w) :
      Blames k (.token t) ⟨.badLabel s.name, .token ⟨.identifier s.name, s.place⟩⟩
  | endOfItem {s : ItemStart} (hstart : k.start = some s) (place : Place) :
      Blames k (.endOfText place) ⟨.bodyExpected s.name, .endOfText place⟩
  | endOfBlock {b : OpenItem} {outer : List OpenItem} (hstart : k.start = none)
      (henclosing : k.enclosing = b :: outer) (place : Place) :
      Blames k (.endOfText place) ⟨.unclosed b.type, .endOfText place⟩

/-- Values are no label if they are several, or one that is no word. -/
theorem label?_eq_none_iff {values : List (Literal × Place)} :
    Parse.label? (Literal.valuesOf values) = none ↔
      1 < values.length ∨ ∃ v place, values = [(v, place)] ∧ ∀ w, v ≠ .word w := by
  match values with
  | [] => simp [Literal.valuesOf, Parse.label?]
  | [(.word w, place)] => simp [Literal.valuesOf, Parse.label?, Literal.value]
  | [(.number v, place)] | [(.duration v, place)] =>
      cases v <;> simp [Literal.valuesOf, Parse.label?, Literal.value, Quantity.scalar]
  | [(.boolean b, place)] => simp [Literal.valuesOf, Parse.label?, Literal.value]
  | v :: v' :: rest => simp [Literal.valuesOf, Parse.label?]

theorem blames_iff_of_none {k : Draft} {t : Token} {e : ParseError} (hstart : k.start = none) :
    Blames k (.token t) e ↔ (∀ name, t.symbol ≠ .identifier name) ∧
      (t.symbol = .closeBrace → k.enclosing = []) ∧
      (⟨.itemExpected (k.enclosing.head?.map (·.type)), .token t⟩ : ParseError) = e := by
  constructor
  · intro h
    cases h with
    | item _ hname hclose => exact ⟨hname, hclose, rfl⟩
    | body hsome | label hsome => exact absurd (hstart.symm.trans hsome) (by simp)
  · rintro ⟨hname, hclose, rfl⟩
    exact .item hstart hname hclose

theorem blames_iff_of_some {k : Draft} {s : ItemStart} {t : Token} {e : ParseError}
    (hstart : k.start = some s) :
    Blames k (.token t) e ↔
      t.symbol = .closeBrace ∧ (⟨.bodyExpected s.name, .token t⟩ : ParseError) = e ∨
      t.symbol = .openBrace ∧ Parse.label? (Literal.valuesOf s.values) = none ∧
        (⟨.badLabel s.name, .token ⟨.identifier s.name, s.place⟩⟩ : ParseError) = e := by
  constructor
  · intro h
    cases h with
    | item hnone => exact absurd (hnone.symm.trans hstart) (by simp)
    | body hsome hclose =>
        obtain rfl := Option.some.inj (hstart.symm.trans hsome)
        exact .inl ⟨hclose, rfl⟩
    | label hsome hopen hvalues =>
        obtain rfl := Option.some.inj (hstart.symm.trans hsome)
        exact .inr ⟨hopen, label?_eq_none_iff.mpr hvalues, rfl⟩
  · rintro (⟨hclose, rfl⟩ | ⟨hopen, hnone, rfl⟩)
    · exact .body hstart hclose
    · exact .label hstart hopen (label?_eq_none_iff.mp hnone)

/-- Where an item may begin, only a name and the brace of an open block can stand. -/
theorem stepItem_error_iff {k : Draft} {t : Token} {e : ParseError} (hstart : k.start = none) :
    k.toParse.stepItem t = .error e ↔ Blames k (.token t) e := by
  rw [blames_iff_of_none hstart]
  obtain ⟨items, enclosing, start⟩ := k
  obtain ⟨symbol, place⟩ := t
  cases symbol <;> cases enclosing <;> simp [Parse.stepItem, Draft.toParse, OpenItem.toBlock]

/-- After the start of an item, a closing brace is wrong, and an opening one after values that are
no label. -/
theorem stepBody_error_iff {k : Draft} {s : ItemStart} {t : Token} {e : ParseError}
    (hstart : k.start = some s) :
    k.toParse.stepBody s.toPending t = .error e ↔ Blames k (.token t) e := by
  rw [blames_iff_of_some hstart]
  obtain ⟨symbol, place⟩ := t
  rcases hlabel : Parse.label? (Literal.valuesOf s.values) with _ | label <;> cases symbol <;>
    simp [Parse.stepBody, Symbol.value?, ItemStart.toPending, hlabel]

theorem step_error_iff {k : Draft} {t : Token} {e : ParseError} :
    k.toParse.step t = .error e ↔ Blames k (.token t) e := by
  unfold Parse.step
  rcases hstart : k.start with _ | s
  · rw [show k.toParse.pending = none by rw [Draft.toParse, hstart]; rfl]
    exact stepItem_error_iff hstart
  · rw [show k.toParse.pending = some s.toPending by rw [Draft.toParse, hstart]; rfl]
    exact stepBody_error_iff hstart

/-- At the end of a text, what has been started or opened is missing its end. -/
theorem endFault_iff {k : Draft} {place : Place} {e : ParseError} :
    (∃ fault, k.toParse.endFault? = some fault ∧ e = ⟨fault, .endOfText place⟩) ↔
      Blames k (.endOfText place) e := by
  constructor
  · rintro ⟨fault, hfault, rfl⟩
    obtain ⟨items, enclosing, start⟩ := k
    rcases start with _ | s
    · rcases enclosing with _ | ⟨b, outer⟩
      · contradiction
      · obtain rfl := Option.some.inj hfault
        exact .endOfBlock rfl rfl place
    · obtain rfl := Option.some.inj hfault
      exact .endOfItem rfl place
  · intro h
    obtain ⟨items, enclosing, start⟩ := k
    cases h with
    | endOfItem hstart =>
        obtain rfl : start = _ := hstart
        exact ⟨_, rfl, rfl⟩
    | endOfBlock hstart henclosing =>
        obtain rfl : start = none := hstart
        obtain rfl : enclosing = _ := henclosing
        exact ⟨_, rfl, rfl⟩

/-! ## Errors of a text -/

/-- Whether no further token can be formed at a place of a text, and which tokens stand before
it. -/
structure FailsAt (text : List Char) (offset : Nat) (tokens : List Token) (e : LexError) :
    Prop where
  reading : Tokens.ofText text = ⟨tokens, .error e⟩
  lexes : ∃ ls, Lexes text ls (text.drop offset) ∧
    List.Forall₂ Carries ((located [] ls).filter fun p => !p.2.isTrivia) tokens
  stuck : StuckAt (text.drop offset) e.fault
  place : e.place = .behind (text.take offset)

theorem failsAt_of_ending {text : List Char} {e : LexError}
    (h : (Tokens.ofText text).ending = .error e) :
    ∃ offset, FailsAt text offset (Tokens.ofText text).tokens e := by
  obtain ⟨ls, left, hlexes, hcarries, hending⟩ := reads_from [] text
  have hstart : Tokens.at (.behind []) text = Tokens.ofText text := rfl
  rw [hstart] at hcarries hending
  rw [h] at hending
  obtain ⟨hstuck, hplace⟩ := hending
  have htext := hlexes.text_eq
  have hdrop : text.drop (ls.flatMap Lexeme.text).length = left := by
    conv_lhs => rw [htext]
    exact List.drop_left
  have htake : text.take (ls.flatMap Lexeme.text).length = ls.flatMap Lexeme.text := by
    conv_lhs => rw [htext]
    exact List.take_left
  refine ⟨(ls.flatMap Lexeme.text).length, ?_, ⟨ls, hdrop ▸ hlexes, hcarries⟩, hdrop ▸ hstuck, ?_⟩
  · rw [← h]
  · rw [htake]
    exact hplace

/-- The tokens up to one with which they are viable no more decide the error, whatever follows. -/
theorem ofTokens_of_blames {k : Draft} {t : Token} {e : ParseError} {ts : Tokens}
    (hrun : Parse.start.run k.tokens = .ok k.toParse) (hblames : Blames k (.token t) e)
    (hbefore : k.tokens ++ [t] <+: ts.tokens) (filename : String) :
    Document.ofTokens filename ts = .error (.grammatical e) := by
  obtain ⟨after, hafter⟩ := hbefore
  have herror : Parse.start.run ts.tokens = .error e :=
    Parse.run_eq_error_iff.mpr ⟨k.tokens, t, after, k.toParse, by simp [← hafter], hrun,
      step_error_iff.mpr hblames⟩
  rw [Document.ofTokens, herror]
  rfl

/-- Where the parser stops after a draft, the draft's tokens are the last ones in a row that are
viable. -/
theorem viable_take_iff {ts before after : List Token} {t : Token} {p : Parse} {e : ParseError}
    (htokens : ts = before ++ t :: after) (hrun : Parse.start.run before = .ok p)
    (ht : p.step t = .error e) (n : Nat) : Viable (ts.take n) ↔ n ≤ before.length := by
  obtain ⟨k, rfl, hk⟩ := Draft.exists_run (k := ⟨[], [], none⟩) hrun
  obtain rfl : k.tokens = before := hk
  constructor
  · intro hviable
    by_contra hlarge
    obtain ⟨m, rfl⟩ : ∃ m, n = k.tokens.length + (m + 1) :=
      ⟨n - k.tokens.length - 1, by omega⟩
    rw [htokens, List.take_length_add_append, List.take_succ_cons] at hviable
    obtain ⟨_, -, hall⟩ := viable_iff_run.mp hviable
    rw [Parse.run_eq_error_iff.mpr ⟨k.tokens, t, after.take m, k.toParse, rfl, hrun, ht⟩] at hall
    contradiction
  · intro hsmall
    rw [htokens, List.take_append_of_le_length hsmall]
    have hviable := k.viable
    rw [← List.take_append_drop n k.tokens] at hviable
    exact hviable.of_append

namespace Document

theorem ofTokens_eq_grammatical_iff {filename : String} {ts : Tokens} {e : ParseError} :
    ofTokens filename ts = .error (.grammatical e) ↔
      Parse.start.run ts.tokens = .error e ∨ ∃ p place fault, Parse.start.run ts.tokens = .ok p ∧
        ts.ending = .ok place ∧ p.endFault? = some fault ∧ e = ⟨fault, .endOfText place⟩ := by
  unfold ofTokens
  cases Parse.start.run ts.tokens with
  | error e' => simp [bind, Except.bind]
  | ok p =>
      cases ts.ending with
      | error e' => simp [bind, Except.bind]
      | ok place =>
          simp only [mapError_ok, bind, Except.bind]
          cases hfault : p.endFault? <;>
            simp [throw, throwThe, MonadExceptOf.throw, pure, Except.pure, hfault, eq_comm]

/-- The parser fails with an error if what is found after the last viable tokens is to blame. -/
theorem ofTokens_error_iff_blames {filename : String} {ts : Tokens} {e : ParseError} :
    ofTokens filename ts = .error (.grammatical e) ↔ ∃ k found, StopsAt ts k.tokens found ∧
      Parse.start.run k.tokens = .ok k.toParse ∧ Blames k found e := by
  rw [ofTokens_eq_grammatical_iff]
  constructor
  · rintro (hrun | ⟨p, place, fault, hrun, hending, hfault, rfl⟩)
    · obtain ⟨before, t, after, p, htokens, hbefore, ht⟩ := Parse.run_eq_error_iff.mp hrun
      have hfirst := viable_take_iff htokens hbefore ht
      obtain ⟨k, rfl, hk⟩ := Draft.exists_run (k := ⟨[], [], none⟩) hbefore
      obtain rfl : k.tokens = before := hk
      exact ⟨k, .token t, .token htokens hfirst, hbefore, step_error_iff.mp ht⟩
    · obtain ⟨k, rfl, hk⟩ := Draft.exists_run (k := ⟨[], [], none⟩) hrun
      obtain hk : k.tokens = ts.tokens := hk
      have hopen : ∀ items, Item.tokensOf items ≠ ts.tokens := by
        intro items hitems
        have hnone := (Draft.derivable_iff (hk ▸ hrun)).mp ⟨items, hitems.trans hk.symm⟩
        rw [hfault] at hnone
        contradiction
      refine ⟨k, .endOfText place, ?_, hk ▸ hrun, endFault_iff.mp ⟨fault, hfault, rfl⟩⟩
      rw [hk]
      exact .endOfText hending (hk ▸ k.viable) hopen
  · rintro ⟨k, found, hstops, hrun, hblames⟩
    generalize hk : k.tokens = before at hstops
    cases hstops with
    | token htokens hfirst =>
        subst hk
        exact .inl (Parse.run_eq_error_iff.mpr
          ⟨_, _, _, _, htokens, hrun, step_error_iff.mpr hblames⟩)
    | endOfText hending =>
        obtain ⟨fault, hfault, rfl⟩ := endFault_iff.mpr hblames
        exact .inr ⟨_, _, fault, hk ▸ hrun, hending, hfault, rfl⟩

/-- A text that is no document fails at the earliest place there is. An error in the text counts
only if the tokens in front of it are viable; any other error is that of the first token with which
they are viable no more, and whatever follows that token, the error stays the same. -/
theorem ofText_error_earliest (filename : String) (text : List Char) :
    (∀ e, ofText filename text = .error (.lexical e) ↔
      ∃ offset tokens, FailsAt text offset tokens e ∧ Viable tokens) ∧
    ∀ e, ofText filename text = .error (.grammatical e) ↔ ∃ k found,
      StopsAt (Tokens.ofText text) k.tokens found ∧ Parse.start.run k.tokens = .ok k.toParse ∧
      Blames k found e ∧ ∀ t, found = .token t → ∀ filename' text',
        k.tokens ++ [t] <+: (Tokens.ofText text').tokens →
        ofText filename' text' = .error (.grammatical e) := by
  refine ⟨fun e => ?_, fun e => ?_⟩
  · rw [ofText, ofTokens_lexical_iff]
    constructor
    · rintro ⟨⟨p, hrun⟩, hending⟩
      obtain ⟨offset, hfails⟩ := failsAt_of_ending hending
      obtain ⟨k, rfl, hk⟩ := Draft.exists_run (k := ⟨[], [], none⟩) hrun
      exact ⟨offset, _, hfails, viable_iff_run.mpr ⟨k, hk, hrun⟩⟩
    · rintro ⟨offset, tokens, hfails, hviable⟩
      obtain ⟨k, -, hrun⟩ := viable_iff_run.mp hviable
      rw [hfails.reading]
      exact ⟨⟨_, hrun⟩, rfl⟩
  · rw [ofText, ofTokens_error_iff_blames]
    constructor
    · rintro ⟨k, found, hstops, hrun, hblames⟩
      refine ⟨k, found, hstops, hrun, hblames, ?_⟩
      rintro t rfl filename' text' hbefore
      exact ofTokens_of_blames hrun hblames hbefore filename'
    · rintro ⟨k, found, hstops, hrun, hblames, -⟩
      exact ⟨k, found, hstops, hrun, hblames⟩

/-- The label of a block that is two values is wrong at its name, even if the text goes wrong
later on. -/
example (filename : String) (later : List Token) (e : LexError) :
    ofTokens filename ⟨⟨.identifier "a", .start⟩ :: ⟨.string "b", .start⟩ ::
        ⟨.string "c", .start⟩ :: ⟨.openBrace, .start⟩ :: later, .error e⟩ =
      .error (.grammatical ⟨.badLabel "a", .token ⟨.identifier "a", .start⟩⟩) := rfl

end Document

end SupplyGauge.Config
