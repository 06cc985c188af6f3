import SupplyGauge.Proofs.Config.Numerals

/-! # The token pattern

Which lexeme a text begins with is said once more by a pattern: an expression for each kind of
lexeme, tried in a fixed order. An expression matches in several ways, and the ways have an order
of preference: the first alternative comes before the second, and a repetition prefers as many
rounds as possible or, if it is reluctant, as few. A match is the way preferred over all others.
It is the same as what is found by looking at the first character.
-/

namespace SupplyGauge.Config

open Text (isDigit isBlank)

/-- An expression over characters. -/
inductive Shape where
  | nothing
  | one (p : Char → Bool)
  | seq (a b : Shape)
  | either (a b : Shape)
  | many (body : Shape)
  | few (body : Shape)

/-- What rounds of a step leave of a text, in order of preference: of the most rounds first if they
are greedy, and else of the fewest. A step takes at least one character, so no text has more rounds
than characters. -/
def rounds (step : List Char → List (List Char)) (greedy : Bool) :
    Nat → List Char → List (List Char)
  | 0, text => [text]
  | fuel + 1, text =>
    let further := (step text).flatMap (rounds step greedy fuel)
    if greedy then further ++ [text] else text :: further

namespace Shape

/-- What the matches of an expression at the beginning of a text leave of it, in order of
preference. -/
def rests : Shape → List Char → List (List Char)
  | nothing, text => [text]
  | one _, [] => []
  | one p, c :: rest => if p c then [rest] else []
  | seq a b, text => (a.rests text).flatMap b.rests
  | either a b, text => a.rests text ++ b.rests text
  | many body, text => rounds body.rests true text.length text
  | few body, text => rounds body.rests false text.length text

/-- What the preferred match leaves of a text. -/
def rest? (e : Shape) (text : List Char) : Option (List Char) := (e.rests text).head?

def char (c : Char) : Shape := one (· == c)

def any : Shape := one fun _ => true

/-- At least one round of a character of a class. -/
def run (p : Char → Bool) : Shape := seq (one p) (many (one p))

def optional (e : Shape) : Shape := either e nothing

/-- What a string between quotes of a kind consists of; a backslash takes any next character with
it. -/
def stringPart (quote : Char) : Shape :=
  either (one fun c => c != quote && c != '\\' && c != '\n') (seq (char '\\') any)

def quoted (quote : Char) : Shape :=
  seq (char quote) (seq (many (stringPart quote)) (char quote))

def comment : Shape :=
  either (seq (char '#') (many (one (· != '\n'))))
    (seq (char '/') (seq (char '*') (seq (few any) (seq (char '*') (char '/')))))

def string : Shape := either (quoted '"') (quoted '\'')

/-- Digits, a fraction of digits after a point if there is one, and letters if there are any. -/
def number : Shape :=
  seq (run isDigit) <| seq (optional (seq (char '.') (run isDigit))) (optional (run isLetter))

def identifier : Shape := seq (one isNameStart) (many (one isNamePart))

def punctuation : Shape := one fun c => c == '{' || c == '}' || c == ';'

def space : Shape := run isBlank

/-- The beginning of a comment or of a string. -/
def opener : Shape := either (seq (char '/') (char '*')) (one fun c => c == '"' || c == '\'')

end Shape

/-- The alternatives for a token in the order in which they are tried. The last one stands for
something that has no end. -/
def tokenPattern : List (Option LexemeKind × Shape) :=
  [(some .comment, .comment), (some .string, .string), (some .number, .number),
    (some .identifier, .identifier), (some .punctuation, .punctuation), (some .space, .space),
    (none, .opener)]

/-- The first alternative that matches at the beginning of a text, and what its match leaves. -/
def firstMatch (text : List Char) : Option (Option LexemeKind × List Char) :=
  tokenPattern.findSome? fun (kind, e) => (e.rest? text).map fun rest => (kind, rest)

namespace Shape

/-! ## Preferred matches -/

@[simp] theorem rest?_nothing (text : List Char) : nothing.rest? text = some text := rfl

@[simp] theorem rest?_one (p : Char → Bool) (c : Char) (rest : List Char) :
    (one p).rest? (c :: rest) = if p c then some rest else none := by
  unfold rest? rests
  split <;> rfl

@[simp] theorem rest?_either (a b : Shape) (text : List Char) :
    (either a b).rest? text = (a.rest? text).or (b.rest? text) :=
  List.head?_append

@[simp] theorem rest?_seq_one (p : Char → Bool) (e : Shape) (c : Char) (rest : List Char) :
    (seq (one p) e).rest? (c :: rest) = if p c then e.rest? rest else none := by
  simp only [rest?, rests]
  split
  · rw [List.flatMap_singleton]
  · rfl

/-- A match goes on from the preferred match before it, unless it fails there. -/
theorem rest?_seq {a b : Shape} {text middle rest : List Char} (ha : a.rest? text = some middle)
    (hb : b.rest? middle = some rest) : (seq a b).rest? text = some rest := by
  unfold rest? rests
  obtain ⟨others, hothers⟩ := List.head?_eq_some_iff.mp ha
  rw [hothers, List.flatMap_cons, List.head?_append, show (b.rests middle).head? = _ from hb]
  rfl

/-- Rounds of a character of a class go on up to the first other character. -/
theorem rounds_one {p : Char → Bool} {fuel : Nat} {text : List Char} (h : text.length ≤ fuel) :
    (rounds (one p).rests true fuel text).head? = some (text.dropWhile p) := by
  induction fuel generalizing text with
  | zero =>
      rw [List.eq_nil_of_length_eq_zero (Nat.le_zero.mp h)]
      rfl
  | succ fuel ih =>
      cases text with
      | nil => rfl
      | cons c rest =>
          rw [rounds, List.dropWhile_cons]
          by_cases hc : p c = true
          · simp [rests, hc, ih (Nat.le_of_succ_le_succ h)]
          · simp [rests, hc]

@[simp] theorem rest?_many_one (p : Char → Bool) (text : List Char) :
    (many (one p)).rest? text = some (text.dropWhile p) :=
  rounds_one (Nat.le_refl _)

@[simp] theorem rest?_run (p : Char → Bool) (c : Char) (rest : List Char) :
    (run p).rest? (c :: rest) = if p c then some (rest.dropWhile p) else none := by
  rw [run, rest?_seq_one, rest?_many_one]

/-- A run that is left out where there is none. -/
theorem rest?_optional_run (p : Char → Bool) (text : List Char) :
    (optional (run p)).rest? text = some (text.dropWhile p) := by
  rw [optional, rest?_either]
  cases text with
  | nil => rfl
  | cons c rest =>
      rw [rest?_run, List.dropWhile_cons]
      split <;> rfl

/-! ## Kinds of lexemes -/

theorem rest?_closing (rest : List Char) :
    (seq (char '*') (char '/')).rest? ('*' :: '/' :: rest) = some rest := by
  simp [char]

theorem rest?_closing_ne {c : Char} {rest : List Char}
    (h : ∀ later, c = '*' → rest = '/' :: later → False) :
    (seq (char '*') (char '/')).rest? (c :: rest) = none := by
  rw [char, rest?_seq_one]
  split
  next hc =>
    cases rest with
    | nil => rfl
    | cons d later =>
        rw [char, rest?_one]
        exact if_neg fun hd => h later (by simpa using hc) (by simpa using hd)
  next => rfl

/-- A reluctant search ends with the first `*/`. -/
theorem rounds_any {fuel : Nat} {text : List Char} (h : text.length ≤ fuel) :
    ((rounds any.rests false fuel text).flatMap (seq (char '*') (char '/')).rests).head? =
      (commentEnd? text).map text.drop := by
  induction text using commentEnd?.induct generalizing fuel with
  | case1 rest =>
      obtain ⟨fuel, rfl⟩ := Nat.exists_eq_add_one_of_ne_zero (Nat.ne_of_gt (Nat.lt_of_lt_of_le
        (Nat.succ_pos _) h))
      rw [rounds, if_neg Bool.false_ne_true, List.flatMap_cons, List.head?_append,
        show (rests _ _).head? = _ from rest?_closing rest]
      rfl
  | case2 c rest hne ih =>
      obtain ⟨fuel, rfl⟩ := Nat.exists_eq_add_one_of_ne_zero (Nat.ne_of_gt (Nat.lt_of_lt_of_le
        (Nat.succ_pos _) h))
      have hstep : any.rests (c :: rest) = [rest] := rfl
      rw [rounds, if_neg Bool.false_ne_true, List.flatMap_cons, List.head?_append,
        show (rests _ _).head? = _ from rest?_closing_ne hne, Option.none_or, hstep,
        List.flatMap_singleton, ih (Nat.le_of_succ_le_succ h), commentEnd?, Option.map_map]
      · rfl
      · exact hne
  | case3 =>
      cases fuel <;> rfl

/-- A comment goes on to the end of its line or to its first `*/`. -/
theorem rest?_comment (c : Char) (rest : List Char) : comment.rest? (c :: rest) =
    if c = '#' then some (rest.dropWhile (· != '\n'))
    else if c = '/' then match rest with
      | '*' :: body => (commentEnd? body).map body.drop
      | _ => none
    else none := by
  have hbody (text : List Char) : (seq (few any) (seq (char '*') (char '/'))).rest? text =
      (commentEnd? text).map text.drop := rounds_any (Nat.le_refl _)
  rw [comment, rest?_either, char, rest?_seq_one, rest?_many_one, char, rest?_seq_one]
  by_cases hline : c = '#'
  · simp [hline]
  · by_cases hslash : c = '/'
    · rw [if_neg (by simpa using hline), Option.none_or, if_pos (by simpa using hslash),
        if_neg hline, if_pos hslash]
      split
      next body => rw [char, rest?_seq_one, ← hbody]; rfl
      next hne =>
        cases rest with
        | nil => rfl
        | cons d body =>
            rw [char, rest?_seq_one]
            exact if_neg fun hd => hne body (by rw [show d = '*' by simpa using hd])
    · simp [hline, hslash]

/-- Where a greedy repetition has a single way to begin, it goes on from there or takes no round. -/
theorem rounds_step {step after : List Char → List (List Char)} {fuel : Nat}
    {text rest : List Char} (hstep : step text = [rest]) (hfuel : 0 < fuel) :
    ((rounds step true fuel text).flatMap after).head? =
      ((rounds step true (fuel - 1) rest).flatMap after).head?.or (after text).head? := by
  obtain ⟨fuel, rfl⟩ := Nat.exists_eq_add_one_of_ne_zero (Nat.ne_of_gt hfuel)
  rw [rounds, hstep, if_pos rfl, List.flatMap_singleton, List.flatMap_append, List.head?_append,
    List.flatMap_singleton, Nat.add_sub_cancel]

theorem rounds_stop {step after : List Char → List (List Char)} {fuel : Nat} {text : List Char}
    (hstep : step text = []) :
    ((rounds step true fuel text).flatMap after).head? = (after text).head? := by
  cases fuel with
  | zero => rw [rounds, List.flatMap_singleton]
  | succ fuel => rw [rounds, hstep, if_pos rfl, List.flatMap_nil, List.nil_append,
      List.flatMap_singleton]

theorem rests_char_ne {c quote : Char} (h : c ≠ quote) (rest : List Char) :
    (char quote).rests (c :: rest) = [] := by
  simp [char, rests, h]

/-- Rounds of the parts of a string reach the closing quote or nothing: no part begins with the
quote, so taking fewer of them does not help. -/
theorem rounds_stringPart {quote : Char} (hquote : quote ≠ '\\') {fuel : Nat} {text : List Char}
    (h : text.length ≤ fuel) :
    ((rounds (stringPart quote).rests true fuel text).flatMap (char quote).rests).head? =
      (stringEnd? quote text).map text.drop := by
  induction text using stringEnd?.induct quote generalizing fuel with
  | case1 => exact rounds_stop rfl
  | case2 c rest ih =>
      simp only [List.length_cons] at h
      have hstep : (stringPart quote).rests ('\\' :: c :: rest) = [rest] := by
        simp [stringPart, char, any, rests]
      rw [rounds_step hstep (by omega), rests_char_ne (Ne.symm hquote), stringEnd?,
        ih (by omega), List.head?_nil, Option.or_none, Option.map_map]
      rfl
  | case3 rest hescape =>
      have hstep : (stringPart quote).rests (quote :: rest) = [] := by
        simp [stringPart, char, rests, hquote]
      rw [rounds_stop hstep, stringEnd?.eq_3 _ _ _ hescape]
      simp [char, rests]
  | case4 c rest hescape hne hstop =>
      have hstep : (stringPart quote).rests (c :: rest) = [] := by
        rcases hstop with rfl | rfl
        · cases rest with
          | nil => simp [stringPart, char, any, rests]
          | cons d rest => exact (hescape d rest rfl rfl).elim
        · simp [stringPart, char, rests]
      rw [rounds_stop hstep, rests_char_ne hne, stringEnd?.eq_3 _ _ _ hescape, if_neg hne,
        if_pos hstop]
      rfl
  | case5 c rest hescape hne hstop ih =>
      simp only [List.length_cons] at h
      rw [not_or] at hstop
      have hstep : (stringPart quote).rests (c :: rest) = [rest] := by
        simp [stringPart, char, rests, hne, hstop.1, hstop.2]
      rw [rounds_step hstep (by omega), rests_char_ne hne, stringEnd?.eq_3 _ _ _ hescape,
        if_neg hne, if_neg (not_or.mpr hstop), ih (by omega), List.head?_nil, Option.or_none,
        Option.map_map]
      rfl

theorem rest?_string (c : Char) (rest : List Char) : string.rest? (c :: rest) =
    if c = '"' ∨ c = '\'' then (stringEnd? c rest).map rest.drop else none := by
  have hquoted (quote : Char) (hquote : quote ≠ '\\') : (quoted quote).rest? (c :: rest) =
      if c = quote then (stringEnd? quote rest).map rest.drop else none := by
    rw [quoted, char, rest?_seq_one]
    simp only [beq_iff_eq]
    split
    · exact rounds_stringPart hquote (Nat.le_refl _)
    · rfl
  rw [string, rest?_either, hquoted '"' (by decide), hquoted '\'' (by decide)]
  by_cases hdouble : c = '"'
  · simp [hdouble]
  · by_cases hsingle : c = '\'' <;> simp [hdouble, hsingle]

/-- A point is taken with the digits after it, and not without any. -/
theorem rest?_fraction (text : List Char) :
    (optional (seq (char '.') (run isDigit))).rest? text = some (text.drop <| match text with
      | '.' :: rest =>
        let n := countWhile isDigit rest
        if n = 0 then 0 else n + 1
      | _ => 0) := by
  rw [optional, rest?_either, rest?_nothing]
  split
  next rest =>
    rw [char, rest?_seq_one, if_pos (beq_self_eq_true _)]
    cases rest with
    | nil => rfl
    | cons d later =>
        rw [rest?_run]
        by_cases hd : isDigit d = true
        · simp [countWhile, hd, drop_countWhile]
        · simp [countWhile, hd]
  next hpoint =>
    cases text with
    | nil => rfl
    | cons c rest =>
        rw [char, rest?_seq_one, if_neg]
        · rfl
        · exact fun hc => hpoint rest (by rw [show c = '.' by simpa using hc])

/-- A number takes all its digits, a fraction only if a digit follows the point, and all letters. -/
theorem rest?_number (c : Char) (rest : List Char) : number.rest? (c :: rest) =
    if isDigit c then some ((c :: rest).drop (numberExtent (c :: rest))) else none := by
  split
  next hc =>
    have hunits : (run isDigit).rest? (c :: rest) =
        some ((c :: rest).drop (countWhile isDigit (c :: rest))) := by
      rw [rest?_run, if_pos hc, drop_countWhile, List.dropWhile_cons, if_pos hc]
    refine rest?_seq hunits (rest?_seq (rest?_fraction _) ?_)
    rw [rest?_optional_run, ← drop_countWhile, List.drop_drop, List.drop_drop, List.drop_drop,
      ← Nat.add_assoc]
    rfl
  next hc =>
    have hunits : (run isDigit).rests (c :: rest) = [] := by
      simp [run, rests, hc]
    rw [number, rest?, rests, hunits]
    rfl

theorem rest?_opener (c : Char) (rest : List Char) : opener.rest? (c :: rest) =
    if c = '/' then match rest with
      | '*' :: body => some body
      | _ => none
    else if c = '"' ∨ c = '\'' then some rest
    else none := by
  rw [opener, rest?_either, char, rest?_seq_one, rest?_one]
  simp only [beq_iff_eq, Bool.or_eq_true]
  split
  next hslash =>
    subst hslash
    rw [if_neg (by decide), Option.or_none]
    split
    next body => rw [char, rest?_one, if_pos (beq_self_eq_true _)]
    next hne =>
      cases rest with
      | nil => rfl
      | cons d body =>
          rw [char, rest?_one]
          exact if_neg fun hd => hne body (by rw [show d = '*' by simpa using hd])
  next => rw [Option.none_or]

end Shape

/-- A character that a comment or a string begins with begins nothing else. -/
theorem not_other_of_opener {c : Char} (h : c = '/' ∨ c = '"' ∨ c = '\'') :
    isDigit c = false ∧ isNameStart c = false ∧ ¬ (c = '{' ∨ c = '}' ∨ c = ';') ∧
      isBlank c = false := by
  rcases h with rfl | rfl | rfl <;> decide +kernel

/-- The first alternative that matches is the lexeme that the first character decides on. Where
there is none, nothing matches, unless a comment or a string begins that does not end. -/
theorem firstMatch_cons (c : Char) (rest : List Char) : firstMatch (c :: rest) =
    match extent c rest with
    | .ok (kind, n) => some (some kind, (c :: rest).drop n)
    | .error (.unexpected _) => none
    | .error .unterminatedComment => some (none, rest.drop 1)
    | .error _ => some (none, rest) := by
  unfold firstMatch tokenPattern
  iterate 7 rw [List.findSome?_cons]
  dsimp only [List.findSome?_nil]
  rw [Shape.rest?_comment, Shape.rest?_string, Shape.rest?_number, Shape.identifier,
    Shape.rest?_seq_one, Shape.rest?_many_one, Shape.punctuation, Shape.rest?_one,
    Shape.space, Shape.rest?_run, Shape.rest?_opener]
  unfold extent
  by_cases hline : c = '#'
  · simp [hline, drop_countWhile]
  by_cases hslash : c = '/'
  · obtain ⟨hdigit, hname, hmark, hblank⟩ := not_other_of_opener (.inl hslash)
    subst hslash
    cases rest with
    | nil => simp [hdigit, hname, hblank]
    | cons d body =>
        by_cases hd : d = '*'
        · subst hd
          cases hend : commentEnd? body <;> simp [hend, hdigit, hname, hblank]
        · simp [hd, hdigit, hname, hblank]
  by_cases hquote : c = '"' ∨ c = '\''
  · obtain ⟨hdigit, hname, hmark, hblank⟩ := not_other_of_opener (.inr hquote)
    cases stringEnd? c rest <;>
      simp [hline, hslash, hquote, hdigit, hname, hmark, hblank, or_assoc]
  by_cases hdigit : isDigit c = true
  · simp [hline, hslash, hquote, hdigit]
  by_cases hname : isNameStart c = true
  · simp [hline, hslash, hquote, hdigit, hname, drop_countWhile]
  by_cases hmark : c = '{' ∨ c = '}' ∨ c = ';'
  · simp [hline, hslash, hquote, hdigit, hname, hmark, or_assoc]
  by_cases hblank : isBlank c = true
  · simp [hline, hslash, hquote, hdigit, hname, hmark, hblank, drop_countWhile, or_assoc]
  · simp [hline, hslash, hquote, hdigit, hname, hmark, hblank, or_assoc]

end SupplyGauge.Config
