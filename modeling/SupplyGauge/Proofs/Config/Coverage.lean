import Mathlib.Data.List.Forall2
import SupplyGauge.Proofs.Config.Lexing
import SupplyGauge.Proofs.Config.TokenPattern

/-! # What is read of a settings text

A text is read in lexemes from its start, each of them what the token pattern matches where the one
before it ended. Reading goes on to the end of the text or to the first place at which no token can
be formed. A place is known by what is read before it: its line by all line feeds, and its column by
what follows the last of them.
-/

namespace SupplyGauge.Config

/-! ## Places -/

/-- The place behind all that has been read of a text. -/
def Place.behind (read : List Char) : Place :=
  ⟨1 + read.count '\n', 1 + (read.reverse.takeWhile (· != '\n')).length⟩

theorem Place.next_behind (read : List Char) (c : Char) :
    (behind read).next c = behind (read ++ [c]) := by
  unfold behind next
  rw [List.count_append, List.count_singleton, List.reverse_append, List.reverse_singleton,
    List.singleton_append, List.takeWhile_cons]
  by_cases hfeed : c = '\n'
  · simp [hfeed, Nat.add_assoc]
  · simp [hfeed, Nat.add_comm]

/-- Reading on moves a place behind what is read then, whatever lines it consists of. -/
theorem Place.after_behind (read text : List Char) :
    (behind read).after text = behind (read ++ text) := by
  induction text generalizing read with
  | nil => rw [List.append_nil]; rfl
  | cons c text ih =>
      rw [after, List.foldl_cons, next_behind, ← after, ih, List.append_assoc]
      rfl

/-! ## Lexemes -/

/-- Whether a text falls into lexemes that can be read and a rest: each lexeme is the match of the
token pattern at its place and begins where the one before it ends. -/
inductive Lexes : List Char → List Lexeme → List Char → Prop
  | stop (text : List Char) : Lexes text [] text
  | read {text rest left : List Char} {l : Lexeme} {ls : List Lexeme}
      (htext : text = l.text ++ rest) (hmatch : firstMatch text = some (some l.kind, rest))
      (hread : l.Readable) (hrest : Lexes rest ls left) : Lexes text (l :: ls) left

/-- Whether no token can be formed where a text begins, and for which fault: nothing matches, or a
comment or a string has no end, or the lexeme there has no value. -/
inductive StuckAt : List Char → LexFault → Prop
  | unexpected {c : Char} {rest : List Char} (hmatch : firstMatch (c :: rest) = none) :
      StuckAt (c :: rest) (.unexpected c)
  | comment {rest : List Char} (hmatch : firstMatch ('/' :: '*' :: rest) = some (none, rest)) :
      StuckAt ('/' :: '*' :: rest) .unterminatedComment
  | string {quote : Char} {rest : List Char} (hquote : quote = '"' ∨ quote = '\'')
      (hmatch : firstMatch (quote :: rest) = some (none, rest)) :
      StuckAt (quote :: rest) .unterminatedString
  | unreadable {text rest : List Char} {l : Lexeme} {fault : LexFault}
      (htext : text = l.text ++ rest) (hmatch : firstMatch text = some (some l.kind, rest))
      (hfault : l.symbol? = .error fault) : StuckAt text fault

/-- Comments and white space. -/
def Lexeme.isTrivia (l : Lexeme) : Bool := l.kind == .comment || l.kind == .space

/-- Lexemes that follow each other, each with all that is read before it. -/
def located (read : List Char) : List Lexeme → List (List Char × Lexeme)
  | [] => []
  | l :: ls => (read, l) :: located (read ++ l.text) ls

/-- Whether a token says what a lexeme says, and where it begins. -/
def Carries (p : List Char × Lexeme) (t : Token) : Prop :=
  p.2.symbol? = .ok (some t.symbol) ∧ t.place = .behind p.1

/-- Comments and white space carry no token, and whatever else can be read carries one. -/
theorem Lexeme.symbol?_eq_none_iff {l : Lexeme} {symbol : Option Symbol}
    (h : l.symbol? = .ok symbol) : symbol = none ↔ l.isTrivia = true := by
  unfold isTrivia
  unfold symbol? at h
  cases hkind : l.kind with
  | comment | space =>
      rw [hkind] at h
      simpa using (Except.ok.inj h).symm
  | string =>
      rw [hkind] at h
      simp [← Except.ok.inj h]
  | number =>
      rw [hkind] at h
      cases hnumber : numberSymbol l.text <;> simp [hnumber, Except.map] at h
      simp [← h]
  | identifier =>
      rw [hkind] at h
      cases hword : keyword? l.text <;> simp [hword] at h <;> simp [← h]
  | punctuation =>
      simp only [hkind] at h
      split at h <;> simp [← Except.ok.inj h]

theorem Lexes.text_eq {text left : List Char} {ls : List Lexeme} (h : Lexes text ls left) :
    text = ls.flatMap Lexeme.text ++ left := by
  induction h with
  | stop text => rfl
  | read htext hmatch hread hrest ih =>
      rw [htext, List.flatMap_cons, List.append_assoc, ← ih]

/-- At one place at most one lexeme matches. -/
theorem lexeme_unique {text rest rest' : List Char} {l l' : Lexeme} (htext : text = l.text ++ rest)
    (hmatch : firstMatch text = some (some l.kind, rest)) (htext' : text = l'.text ++ rest')
    (hmatch' : firstMatch text = some (some l'.kind, rest')) : l' = l ∧ rest' = rest := by
  rw [hmatch] at hmatch'
  simp only [Option.some.injEq, Prod.mk.injEq] at hmatch'
  obtain ⟨hkind, rfl⟩ := hmatch'
  have hsame : l'.text = l.text := List.append_cancel_right (htext'.symm.trans htext)
  cases l
  cases l'
  cases hsame
  cases hkind
  exact ⟨rfl, rfl⟩

/-- Whether no lexeme that can be read begins a text. -/
def Exhausted (text : List Char) : Prop := ∀ (l : Lexeme) (rest : List Char),
  text = l.text ++ rest → firstMatch text = some (some l.kind, rest) → ¬ l.Readable

theorem exhausted_nil : Exhausted [] := by
  intro l rest _ hmatch
  have hnil : firstMatch [] = none := by decide
  rw [hnil] at hmatch
  contradiction

theorem StuckAt.exhausted {text : List Char} {fault : LexFault} (h : StuckAt text fault) :
    Exhausted text := by
  intro l rest htext hmatch
  cases h with
  | unexpected hnone => simp [hnone] at hmatch
  | comment hnone | string hquote hnone => simp [hnone] at hmatch
  | unreadable htext' hmatch' hfault =>
      obtain ⟨rfl, rfl⟩ := lexeme_unique htext' hmatch' htext hmatch
      rintro ⟨symbol, hsymbol⟩
      rw [hfault] at hsymbol
      contradiction

/-- Lexemes up to where none can be read any more are all that can be read. -/
theorem Lexes.isPrefix {text left left' : List Char} {ls ls' : List Lexeme}
    (h : Lexes text ls left) (hend : Exhausted left) (h' : Lexes text ls' left') : ls' <+: ls := by
  induction h generalizing ls' with
  | stop text =>
      cases h' with
      | stop => exact List.prefix_rfl
      | read htext hmatch hread hrest => exact absurd hread (hend _ _ htext hmatch)
  | read htext hmatch hread hrest ih =>
      cases h' with
      | stop => exact List.nil_prefix
      | read htext' hmatch' hread' hrest' =>
          obtain ⟨rfl, rfl⟩ := lexeme_unique htext hmatch htext' hmatch'
          exact (List.cons_prefix_cons.mpr ⟨rfl, ih hend hrest'⟩)

/-! ## Reading -/

theorem extent_pos {c : Char} {rest : List Char} {kind : LexemeKind} {n : Nat}
    (h : extent c rest = .ok (kind, n)) : 0 < n := by
  by_cases hnumber : kind = .number
  · subst hnumber
    obtain ⟨hdigit, rfl⟩ := extent_number h
    unfold numberExtent
    simp only [countWhile, if_pos hdigit]
    omega
  · unfold extent at h
    (repeat' split at h) <;> simp at h <;> first | omega | exact absurd h.1.symm hnumber

/-- Where no lexeme begins, nothing matches, or there is no end of what begins. -/
theorem stuckAt_of_extent {c : Char} {rest : List Char} {fault : LexFault}
    (h : extent c rest = .error fault) : StuckAt (c :: rest) fault := by
  have hmatch := firstMatch_cons c rest
  rw [h] at hmatch
  unfold extent at h
  split at h
  next => contradiction
  split at h
  next hslash =>
    subst hslash
    split at h
    next body =>
      split at h
      next => contradiction
      next =>
        obtain rfl := Except.error.inj h
        exact .comment hmatch
    next =>
      obtain rfl := Except.error.inj h
      exact .unexpected hmatch
  split at h
  next hquote =>
    split at h
    next => contradiction
    next =>
      obtain rfl := Except.error.inj h
      exact .string hquote hmatch
  iterate 4
    split at h
    next => contradiction
  obtain rfl := Except.error.inj h
  exact .unexpected hmatch

/-- The first lexeme is what the pattern matches, and the others are those of what is left then. -/
theorem lexemes_of_extent {c : Char} {rest : List Char} {kind : LexemeKind} {n : Nat}
    (h : extent c rest = .ok (kind, n)) : ∃ l : Lexeme, c :: rest = l.text ++ rest.drop (n - 1) ∧
      firstMatch (c :: rest) = some (some l.kind, rest.drop (n - 1)) ∧
      lexemes (c :: rest) =
        (l :: (lexemes (rest.drop (n - 1))).1, (lexemes (rest.drop (n - 1))).2) := by
  have hrest : rest.drop (n - 1) = (c :: rest).drop n := by
    obtain ⟨m, rfl⟩ := Nat.exists_eq_add_one_of_ne_zero (Nat.ne_of_gt (extent_pos h))
    rfl
  refine ⟨⟨kind, (c :: rest).take n⟩, ?_, ?_, ?_⟩
  · rw [hrest, List.take_append_drop]
  · rw [hrest, firstMatch_cons, h]
  · rw [lexemes, h]

theorem Tokens.at_nil (place : Place) : Tokens.at place [] = ⟨[], .ok place⟩ := by
  unfold Tokens.at
  rw [lexemes]
  rfl

/-- The first lexeme is read, and then what follows it. -/
theorem Tokens.at_cons {text rest : List Char} {l : Lexeme}
    (h : lexemes text = (l :: (lexemes rest).1, (lexemes rest).2)) (place : Place) :
    Tokens.at place text =
      match l.symbol? with
      | .error fault => ⟨[], .error ⟨fault, place⟩⟩
      | .ok none => .at (place.after l.text) rest
      | .ok (some symbol) => .after [⟨symbol, place⟩] (.at (place.after l.text) rest) := by
  unfold Tokens.at
  rw [h, ofLexemes]
  rcases l.symbol? with fault | _ | symbol <;> rfl

/-- Reading on from a place gives a token for each lexeme that can be read, at its own place. -/
theorem reads_from (read text : List Char) : ∃ ls left, Lexes text ls left ∧
    List.Forall₂ Carries ((located read ls).filter fun p => !p.2.isTrivia)
      (Tokens.at (.behind read) text).tokens ∧
    match (Tokens.at (.behind read) text).ending with
    | .ok place => left = [] ∧ place = .behind (read ++ text)
    | .error e => StuckAt left e.fault ∧ e.place = .behind (read ++ ls.flatMap Lexeme.text) := by
  induction text using lexemes.induct generalizing read with
  | case1 =>
      rw [Tokens.at_nil]
      exact ⟨[], [], .stop [], .nil, rfl, by rw [List.append_nil]⟩
  | case2 c rest fault hextent =>
      have htokens : Tokens.at (.behind read) (c :: rest) =
          ⟨[], .error ⟨fault, .behind read⟩⟩ := by
        unfold Tokens.at
        rw [lexemes, hextent]
        rfl
      rw [htokens]
      refine ⟨[], c :: rest, .stop _, .nil, stuckAt_of_extent hextent, ?_⟩
      rw [List.flatMap_nil, List.append_nil]
  | case3 c rest kind n hextent later stop hlater ih =>
      obtain ⟨l, htext, hmatch, hlexemes⟩ := lexemes_of_extent hextent
      have htokens := Tokens.at_cons hlexemes (.behind read)
      rw [Place.after_behind] at htokens
      cases hsymbol : l.symbol? with
      | error fault =>
          rw [htokens, hsymbol]
          refine ⟨[], c :: rest, .stop _, .nil, .unreadable htext hmatch hsymbol, ?_⟩
          rw [List.flatMap_nil, List.append_nil]
      | ok symbol =>
          obtain ⟨ls, left, hlexes, hcarries, hending⟩ := ih (read ++ l.text)
          have htrivia := Lexeme.symbol?_eq_none_iff hsymbol
          refine ⟨l :: ls, left, .read htext hmatch ⟨symbol, hsymbol⟩ hlexes, ?_, ?_⟩
          · rw [htokens, hsymbol, located, List.filter_cons]
            cases symbol with
            | none => simpa [htrivia.mp rfl] using hcarries
            | some symbol =>
                have hkept : l.isTrivia = false :=
                  Bool.eq_false_iff.mpr fun h => by simpa using htrivia.mpr h
                rw [hkept]
                exact .cons ⟨hsymbol, rfl⟩ hcarries
          · have hsame : (Tokens.at (.behind read) (c :: rest)).ending =
                (Tokens.at (.behind (read ++ l.text)) (rest.drop (n - 1))).ending := by
              rw [htokens, hsymbol]
              cases symbol <;> rfl
            rw [hsame, htext, ← List.append_assoc, List.flatMap_cons, ← List.append_assoc]
            exact hending

/-- A text is read in consecutive lexemes, as far as they go, with one token for each that is
neither a comment nor white space. The tokens end with the text, or at the first place at which no
token can be formed. The places of tokens, of the end and of the error are those of their first
characters. -/
theorem reading_covers (text : List Char) : ∃ ls left, Lexes text ls left ∧
    text = ls.flatMap Lexeme.text ++ left ∧
    (∀ ls' left', Lexes text ls' left' → ls' <+: ls) ∧
    List.Forall₂ Carries ((located [] ls).filter fun p => !p.2.isTrivia)
      (Tokens.ofText text).tokens ∧
    match (Tokens.ofText text).ending with
    | .ok place => left = [] ∧ place = .behind text
    | .error e => StuckAt left e.fault ∧ e.place = .behind (ls.flatMap Lexeme.text) := by
  obtain ⟨ls, left, hlexes, hcarries, hending⟩ := reads_from [] text
  have hstart : Tokens.at (.behind []) text = Tokens.ofText text := rfl
  simp only [hstart, List.nil_append] at hcarries hending
  refine ⟨ls, left, hlexes, hlexes.text_eq, fun ls' left' h => ?_, hcarries, hending⟩
  refine hlexes.isPrefix ?_ h
  split at hending
  next => exact hending.1 ▸ exhausted_nil
  next => exact hending.1.exhausted

end SupplyGauge.Config
