import SupplyGauge.Proofs.Config.Coverage

/-! # What follows a lexeme

How far a lexeme goes depends on what follows it only by the first character there. Strings and
comments with an end of their own do not look at it. Numbers and names end at a character that
cannot go on with them, and so do white space and the comments up to the end of a line. So a lexeme
stays the same whenever what follows it is replaced by something at which it ends as well.
-/

namespace SupplyGauge.Config

open Text (isDigit isBlank)

/-- Whether no character of a class stands in front. -/
def NoneAhead (p : Char → Bool) (text : List Char) : Prop := ∀ c ∈ text.head?, p c = false

theorem NoneAhead.of_head?_eq {p : Char → Bool} {text text' : List Char}
    (h : text.head? = text'.head?) (hstop : NoneAhead p text) : NoneAhead p text' := by
  unfold NoneAhead
  rw [← h]
  exact hstop

theorem noneAhead_nil (p : Char → Bool) : NoneAhead p [] := by simp [NoneAhead]

theorem noneAhead_dropWhile (p : Char → Bool) (text : List Char) :
    NoneAhead p (text.dropWhile p) := by
  intro c hc
  have hhead := List.head?_dropWhile_not p text
  rw [hc] at hhead
  exact hhead

/-! ## Characters of a class -/

theorem countWhile_le (p : Char → Bool) (text : List Char) : countWhile p text ≤ text.length := by
  induction text with
  | nil => exact Nat.le_refl 0
  | cons c rest ih =>
      rw [countWhile, List.length_cons]
      split <;> omega

theorem noneAhead_of_countWhile {p : Char → Bool} {text : List Char} (h : countWhile p text = 0) :
    NoneAhead p text := by
  cases text with
  | nil => exact noneAhead_nil p
  | cons c rest =>
      rw [countWhile] at h
      split at h
      next => contradiction
      next hc => simpa [NoneAhead] using hc

theorem all_of_countWhile {p : Char → Bool} {text rest : List Char}
    (h : countWhile p (text ++ rest) = text.length) :
    (∀ c ∈ text, p c = true) ∧ NoneAhead p rest := by
  induction text with
  | nil => exact ⟨by simp, noneAhead_of_countWhile h⟩
  | cons c text ih =>
      rw [List.cons_append, countWhile, List.length_cons] at h
      split at h
      next hc =>
        obtain ⟨hall, hstop⟩ := ih (Nat.succ.inj h)
        exact ⟨List.forall_mem_cons.mpr ⟨hc, hall⟩, hstop⟩
      next => contradiction

/-- Characters of a class that end within a text, or where the text ends, end there whatever
follows. -/
theorem countWhile_congr {p : Char → Bool} {text rest rest' : List Char}
    (h : countWhile p (text ++ rest) ≤ text.length) (hrest : NoneAhead p rest → NoneAhead p rest') :
    countWhile p (text ++ rest') = countWhile p (text ++ rest) := by
  induction text with
  | nil =>
      have hzero := Nat.le_zero.mp h
      exact (countWhile_eq_zero (hrest (noneAhead_of_countWhile hzero))).trans hzero.symm
  | cons c text ih =>
      simp only [List.cons_append, countWhile, List.length_cons] at h ⊢
      split
      next hc =>
        rw [if_pos hc] at h
        rw [ih (Nat.le_of_succ_le_succ h)]
      next => rfl

/-- The number of characters from a point on that belong to a fraction. -/
def fractionExtent : List Char → Nat
  | '.' :: rest => let n := countWhile isDigit rest; if n = 0 then 0 else n + 1
  | _ => 0

theorem numberExtent_eq (text : List Char) : numberExtent text =
    countWhile isDigit text + fractionExtent (text.drop (countWhile isDigit text)) +
      countWhile isLetter (text.drop (countWhile isDigit text +
        fractionExtent (text.drop (countWhile isDigit text)))) := by
  unfold numberExtent fractionExtent
  rfl

theorem fractionExtent_le (text : List Char) : fractionExtent text ≤ text.length := by
  unfold fractionExtent
  split
  next rest =>
    have hplaces := countWhile_le isDigit rest
    dsimp only
    rw [List.length_cons]
    split <;> omega
  next => exact Nat.zero_le _

theorem numberExtent_le (text : List Char) : numberExtent text ≤ text.length := by
  have hunits := countWhile_le isDigit text
  have hplaces := fractionExtent_le (text.drop (countWhile isDigit text))
  rw [numberExtent_eq]
  generalize fractionExtent (text.drop (countWhile isDigit text)) = places at *
  have hletters := countWhile_le isLetter (text.drop (countWhile isDigit text + places))
  rw [List.length_drop] at hplaces hletters
  omega

theorem fractionExtent_congr {text rest rest' : List Char}
    (h : fractionExtent (text ++ rest) ≤ text.length)
    (hdigit : NoneAhead isDigit rest → NoneAhead isDigit rest')
    (hpoint : NoneAhead (· == '.') rest') :
    fractionExtent (text ++ rest') = fractionExtent (text ++ rest) := by
  cases text with
  | nil =>
      have hzero := Nat.le_zero.mp h
      rw [hzero]
      cases rest' with
      | nil => rfl
      | cons c rest' =>
          have hc : c ≠ '.' := by simpa [NoneAhead] using hpoint
          simp [fractionExtent, hc]
  | cons c text =>
      by_cases hc : c = '.'
      · subst hc
        simp only [List.cons_append, fractionExtent, List.length_cons] at h ⊢
        by_cases hzero : countWhile isDigit (text ++ rest) = 0
        · have hle : countWhile isDigit (text ++ rest) ≤ text.length := by omega
          rw [countWhile_congr hle hdigit]
        · rw [if_neg hzero] at h
          rw [countWhile_congr (Nat.le_of_succ_le_succ h) hdigit]
      · simp [fractionExtent, hc]

/-- A number that ends with a text ends there if no digit, point or letter follows. -/
theorem numberExtent_congr {text rest rest' : List Char}
    (h : numberExtent (text ++ rest) = text.length)
    (hdigit : NoneAhead isDigit rest → NoneAhead isDigit rest')
    (hletter : NoneAhead isLetter rest → NoneAhead isLetter rest')
    (hpoint : NoneAhead (· == '.') rest') :
    numberExtent (text ++ rest') = text.length := by
  rw [numberExtent_eq] at h
  have hunits : countWhile isDigit (text ++ rest) ≤ text.length := by omega
  have hfraction : fractionExtent ((text ++ rest).drop (countWhile isDigit (text ++ rest))) ≤
      (text.drop (countWhile isDigit (text ++ rest))).length := by
    rw [List.length_drop]
    omega
  rw [List.drop_append_of_le_length hunits] at h hfraction
  have hsame := fractionExtent_congr hfraction hdigit hpoint
  rw [numberExtent_eq, countWhile_congr hunits hdigit, List.drop_append_of_le_length hunits, hsame]
  generalize countWhile isDigit (text ++ rest) = units at *
  generalize fractionExtent (text.drop units ++ rest) = places at *
  have hplaces : units + places ≤ text.length := by omega
  rw [List.drop_append_of_le_length hplaces] at h ⊢
  rw [countWhile_congr (by rw [List.length_drop]; omega) hletter]
  exact h

/-! ## Comments and strings -/

theorem commentEnd?_bounds {text : List Char} {n : Nat} (h : commentEnd? text = some n) :
    2 ≤ n ∧ n ≤ text.length := by
  induction text using commentEnd?.induct generalizing n with
  | case1 rest =>
      obtain rfl := Option.some.inj h
      simp
  | case2 c rest hne ih =>
      rw [commentEnd?.eq_2 _ _ hne] at h
      obtain ⟨m, hm, rfl⟩ := Option.map_eq_some_iff.mp h
      have hbounds := ih hm
      rw [List.length_cons]
      omega
  | case3 => simp [commentEnd?] at h

/-- A comment that ends within a text ends there whatever follows. -/
theorem commentEnd?_congr {text rest : List Char} {n : Nat}
    (h : commentEnd? (text ++ rest) = some n) (hn : n ≤ text.length) (rest' : List Char) :
    commentEnd? (text ++ rest') = some n := by
  have htwo := (commentEnd?_bounds h).1
  induction text generalizing n with
  | nil => exact absurd (Nat.le_trans htwo hn) (by simp)
  | cons c text ih =>
      by_cases hend : ∃ later, c = '*' ∧ text = '/' :: later
      · obtain ⟨later, rfl, rfl⟩ := hend
        exact h
      · have hne {r : List Char} (later : List Char) (hc : c = '*')
            (hr : text ++ r = '/' :: later) : False := by
          cases text with
          | nil => exact absurd (Nat.le_trans htwo hn) (by simp)
          | cons d text => exact hend ⟨text, hc, by rw [(List.cons.inj hr).1]⟩
        rw [List.cons_append, commentEnd?.eq_2 _ _ hne] at h ⊢
        obtain ⟨m, hm, rfl⟩ := Option.map_eq_some_iff.mp h
        have hlater := ih hm (Nat.le_of_succ_le_succ hn) (commentEnd?_bounds hm).1
        rw [hlater]
        rfl

theorem stringEnd?_bounds {quote : Char} {text : List Char} {n : Nat}
    (h : stringEnd? quote text = some n) : 0 < n ∧ n ≤ text.length := by
  induction text using stringEnd?.induct quote generalizing n with
  | case1 => simp [stringEnd?] at h
  | case2 c rest ih =>
      obtain ⟨m, hm, rfl⟩ := Option.map_eq_some_iff.mp h
      have hbounds := ih hm
      simp only [List.length_cons]
      omega
  | case3 rest hne =>
      rw [stringEnd?.eq_3 _ _ _ hne, if_pos rfl] at h
      obtain rfl := Option.some.inj h
      simp
  | case4 c rest hne hquote hstop =>
      rw [stringEnd?.eq_3 _ _ _ hne, if_neg hquote, if_pos hstop] at h
      contradiction
  | case5 c rest hne hquote hgo ih =>
      rw [stringEnd?.eq_3 _ _ _ hne, if_neg hquote, if_neg hgo] at h
      obtain ⟨m, hm, rfl⟩ := Option.map_eq_some_iff.mp h
      have hbounds := ih hm
      simp only [List.length_cons]
      omega

/-- A string that ends within a text ends there whatever follows. -/
theorem stringEnd?_congr {quote : Char} (hquote : quote ≠ '\\') {text rest : List Char} {n : Nat}
    (h : stringEnd? quote (text ++ rest) = some n) (hn : n ≤ text.length) (rest' : List Char) :
    stringEnd? quote (text ++ rest') = some n := by
  have hne {c : Char} (hc : c ≠ '\\') (r : List Char) (d : Char) (later : List Char)
      (heq : c = '\\') (_ : r = d :: later) : False := hc heq
  induction text using stringEnd?.induct quote generalizing n with
  | case1 => exact absurd (Nat.lt_of_lt_of_le (stringEnd?_bounds h).1 hn) (by simp)
  | case2 c text ih =>
      obtain ⟨m, hm, rfl⟩ := Option.map_eq_some_iff.mp h
      have hlater := ih hm (by simpa using hn)
      rw [List.cons_append, List.cons_append, stringEnd?, hlater]
      rfl
  | case3 text =>
      rw [List.cons_append, stringEnd?.eq_3 _ _ _ (hne hquote _), if_pos rfl] at h ⊢
      exact h
  | case4 c text hlast hc hstop =>
      rcases hstop with rfl | rfl
      · -- a backslash at the end of a text takes a character beyond it
        obtain rfl : text = [] := by
          cases text with
          | nil => rfl
          | cons d text => exact (hlast d text rfl rfl).elim
        cases rest with
        | nil => simp [stringEnd?, hc] at h
        | cons d rest =>
            obtain ⟨m, -, rfl⟩ := Option.map_eq_some_iff.mp h
            simp at hn
      · rw [List.cons_append, stringEnd?.eq_3 _ _ _ (hne (by decide) _), if_neg hc,
          if_pos (.inr rfl)] at h
        contradiction
  | case5 c text hlast hc hgo ih =>
      rw [List.cons_append, stringEnd?.eq_3 _ _ _ (hne (fun hslash => hgo (.inl hslash)) _),
        if_neg hc, if_neg hgo] at h ⊢
      obtain ⟨m, hm, rfl⟩ := Option.map_eq_some_iff.mp h
      rw [ih hm (Nat.le_of_succ_le_succ hn)]
      rfl

/-! ## Lexemes -/

theorem extent_le {c : Char} {rest : List Char} {kind : LexemeKind} {n : Nat}
    (h : extent c rest = .ok (kind, n)) : n ≤ rest.length + 1 := by
  have hcount (p : Char → Bool) := countWhile_le p rest
  by_cases hnumber : kind = .number
  · subst hnumber
    obtain ⟨-, rfl⟩ := extent_number h
    exact numberExtent_le (c :: rest)
  · unfold extent at h
    split at h
    next =>
      obtain ⟨-, rfl⟩ := Prod.mk.inj (Except.ok.inj h)
      exact Nat.succ_le_succ (hcount _)
    split at h
    next =>
      split at h
      next body =>
        split at h
        next n hend =>
          obtain ⟨-, rfl⟩ := Prod.mk.inj (Except.ok.inj h)
          have hbounds := commentEnd?_bounds hend
          rw [List.length_cons]
          omega
        next => contradiction
      next => contradiction
    split at h
    next =>
      split at h
      next n hend =>
        obtain ⟨-, rfl⟩ := Prod.mk.inj (Except.ok.inj h)
        exact Nat.succ_le_succ (stringEnd?_bounds hend).2
      next => contradiction
    split at h
    next => exact absurd (Prod.mk.inj (Except.ok.inj h)).1.symm hnumber
    split at h
    next =>
      obtain ⟨-, rfl⟩ := Prod.mk.inj (Except.ok.inj h)
      exact Nat.succ_le_succ (hcount _)
    split at h
    next =>
      obtain ⟨-, rfl⟩ := Prod.mk.inj (Except.ok.inj h)
      exact Nat.succ_le_succ (Nat.zero_le _)
    split at h
    next =>
      obtain ⟨-, rfl⟩ := Prod.mk.inj (Except.ok.inj h)
      exact Nat.succ_le_succ (hcount _)
    next => contradiction

/-- Whether a lexeme that is followed by one text is one as well where it is followed by another: it
ends there, too. -/
structure EndsAlike (c : Char) (kind : LexemeKind) (rest rest' : List Char) : Prop where
  digit : NoneAhead isDigit rest → NoneAhead isDigit rest'
  letter : NoneAhead isLetter rest → NoneAhead isLetter rest'
  name : NoneAhead isNamePart rest → NoneAhead isNamePart rest'
  point : NoneAhead (· == '.') rest'
  line : c = '#' → NoneAhead (· != '\n') rest → NoneAhead (· != '\n') rest'
  space : kind = .space → NoneAhead isBlank rest → NoneAhead isBlank rest'

theorem EndsAlike.of_head?_eq {rest rest' : List Char} (h : rest.head? = rest'.head?)
    (hpoint : NoneAhead (· == '.') rest) (c : Char) (kind : LexemeKind) :
    EndsAlike c kind rest rest' where
  digit := .of_head?_eq h
  letter := .of_head?_eq h
  name := .of_head?_eq h
  point := hpoint.of_head?_eq h
  line _ := .of_head?_eq h
  space _ := .of_head?_eq h

/-- A lexeme stays the same when something else follows at which it ends as well. -/
theorem extent_congr {c : Char} {text rest rest' : List Char} {kind : LexemeKind}
    (h : extent c (text ++ rest) = .ok (kind, text.length + 1))
    (hends : EndsAlike c kind rest rest') :
    extent c (text ++ rest') = .ok (kind, text.length + 1) := by
  have hcount {p : Char → Bool} (hp : NoneAhead p rest → NoneAhead p rest')
      (hn : countWhile p (text ++ rest) + 1 = text.length + 1) :
      countWhile p (text ++ rest') + 1 = text.length + 1 := by
    rw [countWhile_congr (by omega) hp, hn]
  unfold extent at h ⊢
  by_cases hline : c = '#'
  · rw [if_pos hline] at h ⊢
    obtain ⟨rfl, hn⟩ := Prod.mk.inj (Except.ok.inj h)
    rw [hcount (hends.line hline) hn]
  rw [if_neg hline] at h ⊢
  by_cases hslash : c = '/'
  · rw [if_pos hslash] at h ⊢
    split at h
    next body hbody =>
      split at h
      next n hend =>
        obtain ⟨rfl, hn⟩ := Prod.mk.inj (Except.ok.inj h)
        cases text with
        | nil => simp at hn
        | cons d text =>
            obtain ⟨rfl, rfl⟩ := List.cons.inj hbody
            have hlength : n ≤ text.length := by
              rw [List.length_cons] at hn
              omega
            rw [List.cons_append]
            simp only [commentEnd?_congr hend hlength rest', hn]
      next => contradiction
    next => contradiction
  rw [if_neg hslash] at h ⊢
  by_cases hquote : c = '"' ∨ c = '\''
  · rw [if_pos hquote] at h ⊢
    have hne : c ≠ '\\' := by rcases hquote with rfl | rfl <;> decide
    split at h
    next n hend =>
      obtain ⟨rfl, hn⟩ := Prod.mk.inj (Except.ok.inj h)
      simp only [stringEnd?_congr hne hend (by omega) rest', hn]
    next => contradiction
  rw [if_neg hquote] at h ⊢
  by_cases hdigit : isDigit c = true
  · rw [if_pos hdigit] at h ⊢
    obtain ⟨rfl, hn⟩ := Prod.mk.inj (Except.ok.inj h)
    have hsame : numberExtent (c :: text ++ rest') = (c :: text).length :=
      numberExtent_congr hn hends.digit hends.letter hends.point
    rw [← List.cons_append, hsame, List.length_cons]
  rw [if_neg hdigit] at h ⊢
  by_cases hname : isNameStart c = true
  · rw [if_pos hname] at h ⊢
    obtain ⟨rfl, hn⟩ := Prod.mk.inj (Except.ok.inj h)
    rw [hcount hends.name hn]
  rw [if_neg hname] at h ⊢
  by_cases hmark : c = '{' ∨ c = '}' ∨ c = ';'
  · rw [if_pos hmark] at h ⊢
    exact h
  rw [if_neg hmark] at h ⊢
  by_cases hblank : isBlank c = true
  · rw [if_pos hblank] at h ⊢
    obtain ⟨rfl, hn⟩ := Prod.mk.inj (Except.ok.inj h)
    rw [hcount (hends.space rfl) hn]
  · rw [if_neg hblank] at h
    contradiction

/-- The first character of a lexeme, and how far it goes. -/
theorem extent_of_match {text rest : List Char} {l : Lexeme} (htext : text = l.text ++ rest)
    (hmatch : firstMatch text = some (some l.kind, rest)) : ∃ c body, l.text = c :: body ∧
      extent c (body ++ rest) = .ok (l.kind, body.length + 1) := by
  cases text with
  | nil =>
      have hnil : firstMatch [] = none := by decide
      rw [hnil] at hmatch
      contradiction
  | cons c tail =>
      rw [firstMatch_cons] at hmatch
      rcases hextent : extent c tail with fault | ⟨kind, n⟩
      · rw [hextent] at hmatch
        cases fault <;> simp at hmatch
      · rw [hextent] at hmatch
        simp only [Option.some.injEq, Prod.mk.injEq] at hmatch
        obtain ⟨rfl, hrest⟩ := hmatch
        have hpos := extent_pos hextent
        have hle := extent_le hextent
        have hlength : l.text.length = n := by
          have htotal := congrArg List.length htext
          rw [List.length_append, ← hrest, List.length_drop] at htotal
          rw [List.length_cons] at htotal
          omega
        cases hbody : l.text with
        | nil =>
            rw [hbody, List.length_nil] at hlength
            omega
        | cons d body =>
            rw [hbody, List.cons_append] at htext
            obtain ⟨rfl, rfl⟩ := List.cons.inj htext
            rw [hbody, List.length_cons] at hlength
            exact ⟨c, body, rfl, hlength ▸ hextent⟩

theorem match_of_extent {c : Char} {body rest : List Char} {kind : LexemeKind}
    (h : extent c (body ++ rest) = .ok (kind, body.length + 1)) :
    firstMatch (c :: body ++ rest) = some (some kind, rest) := by
  rw [List.cons_append, firstMatch_cons, h]
  simp

end SupplyGauge.Config
