import SupplyGauge.Config.Lexeme

/-! # Numerals in settings texts

A numeral of a settings text is a row of digits of any script, perhaps a point and a
second row, and perhaps a unit. Its value can be read unless it is a whole number with too
many digits, or one of milliseconds that is too large for a real number.
-/

namespace SupplyGauge

namespace Text

/-! ## Classes of characters -/

theorem isDigit_eq (c : Char) : isDigit c =
    (zeroDigits.find? fun start => start ≤ c.toNat ∧ c.toNat < start + 10).isSome := by
  unfold isDigit digit?
  cases zeroDigits.find? _ <;> rfl

theorem isDigit_ascii {c : Char} (h : c.toNat < 128) :
    isDigit c = decide (48 ≤ c.toNat ∧ c.toNat ≤ 57) := by
  have hcodes : ∀ code < 128,
      (zeroDigits.find? fun start => start ≤ code ∧ code < start + 10).isSome =
        decide (48 ≤ code ∧ code ≤ 57) := by
    decide +kernel
  rw [isDigit_eq, hcodes c.toNat h]

/-- A digit is one of the ten that begin with the zero of its script. -/
theorem exists_zero_of_isDigit {c : Char} (h : isDigit c = true) :
    ∃ start ∈ zeroDigits, ∃ d < 10, c.toNat = start + d := by
  rw [isDigit_eq, List.find?_isSome] at h
  obtain ⟨start, hstart, hrange⟩ := h
  rw [decide_eq_true_eq] at hrange
  exact ⟨start, hstart, c.toNat - start, by omega, by omega⟩

/-- Digits are no white space. -/
theorem isBlank_of_isDigit {c : Char} (h : isDigit c = true) : isBlank c = false := by
  have hcodes : ∀ start ∈ zeroDigits, ∀ d < 10,
      insideBounds (start + d) blankBounds false = false := by
    decide +kernel
  obtain ⟨start, hstart, d, hd, hcode⟩ := exists_zero_of_isDigit h
  rw [isBlank, inBounds, hcode, hcodes start hstart d hd]

theorem isBlank_ascii {c : Char} (h : c.toNat < 128) :
    isBlank c = decide (9 ≤ c.toNat ∧ c.toNat ≤ 13 ∨ 28 ≤ c.toNat ∧ c.toNat ≤ 32) := by
  have hcodes : ∀ code < 128, insideBounds code blankBounds false =
      decide (9 ≤ code ∧ code ≤ 13 ∨ 28 ≤ code ∧ code ≤ 32) := by
    decide +kernel
  rw [isBlank, inBounds, hcodes c.toNat h]

theorem isPadding_of_isDigit {c : Char} (h : isDigit c = true) : isPadding c = false := by
  rw [isPadding, isBlank_of_isDigit h, Bool.false_and]

theorem digit?_of_isDigit {c : Char} (h : isDigit c = true) : ∃ d, digit? c = some d :=
  Option.isSome_iff_exists.mp h

theorem digit?_of_not_isDigit {c : Char} (h : isDigit c = false) : digit? c = none :=
  Option.not_isSome_iff_eq_none.mp (by rw [← isDigit, h]; decide)

end Text

namespace Decimal

theorem mem_digitsOnto {n d : Nat} {written : List Nat} (hwritten : ∀ d ∈ written, d < 10)
    (h : d ∈ digitsOnto n written) : d < 10 := by
  induction n using Nat.strongRecOn generalizing written with
  | ind n ih =>
    rw [digitsOnto] at h
    split at h
    next hsmall =>
      rcases List.mem_cons.mp h with rfl | h
      · exact hsmall
      · exact hwritten d h
    next hlarge =>
      refine ih (n / 10) (by omega) (fun e he => ?_) h
      rcases List.mem_cons.mp he with rfl | he
      · exact Nat.mod_lt n (by decide)
      · exact hwritten e he

theorem digits_lt {n d : Nat} (h : d ∈ digits n) : d < 10 := mem_digitsOnto (by simp) h

theorem digitsOnto_ne_nil (n : Nat) (written : List Nat) : digitsOnto n written ≠ [] := by
  induction n using Nat.strongRecOn generalizing written with
  | ind n ih =>
    rw [digitsOnto]
    split
    next => exact List.cons_ne_nil n written
    next hlarge => exact ih (n / 10) (by omega) _

theorem ofNat_ne_nil (n : Nat) : ofNat n ≠ [] := fun hnil =>
  digitsOnto_ne_nil n [] (List.map_eq_nil_iff.mp hnil)

theorem digit?_digitChar {d : Nat} (h : d < 10) : Text.digit? (digitChar d) = some d := by
  have hdigits : ∀ d < 10, Text.digit? (digitChar d) = some d := by decide +kernel
  exact hdigits d h

theorem isDigit_ofNat {n : Nat} : ∀ c ∈ ofNat n, Text.isDigit c = true := by
  intro c hc
  obtain ⟨d, hd, rfl⟩ := List.mem_map.mp hc
  rw [Text.isDigit, digit?_digitChar (digits_lt hd), Option.isSome_some]

end Decimal

namespace Numeral

open Text (isDigit)

/-- The numbers that digits stand for. -/
def digitValues (digits : List Char) : List Nat := digits.filterMap Text.digit?

theorem length_digitValues {digits : List Char} (h : ∀ c ∈ digits, isDigit c = true) :
    (digitValues digits).length = digits.length := by
  induction digits with
  | nil => rfl
  | cons c digits ih =>
      obtain ⟨d, hd⟩ := Text.digit?_of_isDigit (h c List.mem_cons_self)
      rw [digitValues, List.filterMap_cons_some hd, List.length_cons, List.length_cons]
      exact congrArg (· + 1) (ih fun c hc => h c (List.mem_cons_of_mem _ hc))

theorem digitValues_ofNat (n : Nat) : digitValues (Decimal.ofNat n) = Decimal.digits n := by
  have hdigits (digits : List Nat) (h : ∀ d ∈ digits, d < 10) :
      digitValues (digits.map Decimal.digitChar) = digits := by
    induction digits with
    | nil => rfl
    | cons d digits ih =>
        rw [List.map_cons, digitValues,
          List.filterMap_cons_some (Decimal.digit?_digitChar (h d List.mem_cons_self))]
        exact congrArg (d :: ·) (ih fun e he => h e (List.mem_cons_of_mem _ he))
  exact hdigits _ fun d hd => Decimal.digits_lt hd

/-- A row of digits ends at the first character that is neither a digit nor an underscore. -/
theorem digitGroup_append {digits tail : List Char} (h : ∀ c ∈ digits, isDigit c = true)
    (htail : ∀ c ∈ tail.head?, isDigit c = false ∧ c ≠ '_') (after : Bool) :
    digitGroup after (digits ++ tail) = some (digitValues digits, tail) := by
  induction digits generalizing after with
  | nil =>
      cases tail with
      | nil => rfl
      | cons c tail =>
          obtain ⟨hdigit, hunderscore⟩ := htail c rfl
          rw [List.nil_append, digitGroup.eq_def]
          simp only [Text.digit?_of_not_isDigit hdigit, hunderscore, if_false]
          rfl
  | cons c digits ih =>
      obtain ⟨d, hd⟩ := Text.digit?_of_isDigit (h c List.mem_cons_self)
      have hrest := ih (fun c hc => h c (List.mem_cons_of_mem _ hc)) true
      rw [List.cons_append, digitGroup.eq_def]
      simp only [hd, hrest, Option.map_some]
      rw [digitValues, digitValues, List.filterMap_cons_some hd]

theorem digitGroup_digits {digits : List Char} (h : ∀ c ∈ digits, isDigit c = true)
    (after : Bool) : digitGroup after digits = some (digitValues digits, []) := by
  have hnone : ∀ c ∈ ([] : List Char).head?, isDigit c = false ∧ c ≠ '_' := by simp
  rw [← digitGroup_append h hnone after, List.append_nil]

theorem sign_of_isDigit {c : Char} (rest : List Char) (h : isDigit c = true) :
    sign (c :: rest) = (false, c :: rest) := by
  unfold sign
  split
  next hminus =>
    obtain ⟨rfl, -⟩ := List.cons.inj hminus
    exact absurd h (by decide +kernel)
  next hplus =>
    obtain ⟨rfl, -⟩ := List.cons.inj hplus
    exact absurd h (by decide +kernel)
  next => rfl

theorem dropWhile_padding {c : Char} (rest : List Char) (h : isDigit c = true) :
    (c :: rest).dropWhile Text.isPadding = c :: rest := by
  rw [List.dropWhile_cons, Text.isPadding_of_isDigit h]
  rfl

theorem trim_of_none {p : Char → Bool} {text : List Char} (h : ∀ c ∈ text, p c = false) :
    Text.trim p text = text := by
  have hdrop (text : List Char) (h : ∀ c ∈ text, p c = false) : text.dropWhile p = text := by
    cases text with
    | nil => rfl
    | cons c rest =>
        rw [List.dropWhile_cons, h c List.mem_cons_self]
        rfl
  rw [Text.trim, hdrop text h, hdrop text.reverse fun c hc => h c (List.mem_reverse.mp hc),
    List.reverse_reverse]

/-- What begins with a digit is no name of a number. -/
theorem named?_of_isDigit {c : Char} (rest : List Char) (h : isDigit c = true) (negative : Bool) :
    named? (c :: rest) negative = none := by
  have hlower : c.toLower = c := by
    unfold Char.toLower
    split
    next hupper =>
      -- the capital letters are ASCII characters, and no digits
      have hrange : 65 ≤ c.toNat ∧ c.toNat ≤ 90 := hupper
      rw [Text.isDigit_ascii (by omega), decide_eq_true_eq] at h
      omega
    next => rfl
  have hfirst {name : String} (hname : String.ofList ((c :: rest).map Char.toLower) = name) :
      name.toList.head? = some c := by
    rw [← hname, String.toList_ofList, List.map_cons, hlower]
    rfl
  unfold named?
  split
  next hname => exact absurd h (by rw [← Option.some.inj (hfirst hname)]; decide +kernel)
  next hname => exact absurd h (by rw [← Option.some.inj (hfirst hname)]; decide +kernel)
  next hname => exact absurd h (by rw [← Option.some.inj (hfirst hname)]; decide +kernel)
  next => rfl

/-- A row of digits is a whole number unless it is too long. -/
theorem whole_digits {digits : List Char} (hne : digits ≠ [])
    (h : ∀ c ∈ digits, isDigit c = true) : whole (String.ofList digits) =
      if digitLimit < digits.length then .error (.tooManyDigits digits.length)
      else .ok (Decimal.value (digitValues digits)) := by
  obtain ⟨c, rest, rfl⟩ := List.exists_cons_of_ne_nil hne
  have hgroup := digitGroup_digits h false
  obtain ⟨d, hd⟩ := Text.digit?_of_isDigit (h c List.mem_cons_self)
  have hvalues : digitValues (c :: rest) = d :: digitValues rest := List.filterMap_cons_some hd
  have hlength := length_digitValues h
  unfold whole
  rw [String.toList_ofList, dropWhile_padding rest (h c List.mem_cons_self),
    sign_of_isDigit rest (h c List.mem_cons_self)]
  simp only [hgroup]
  rw [← hlength, hvalues]
  simp

/-- A row of digits, a point and a second row are a real number. -/
theorem real_digits {units places : List Char} (hunits : units ≠ [])
    (h : ∀ c ∈ units, isDigit c = true) (h' : ∀ c ∈ places, isDigit c = true) :
    ∃ x, real (String.ofList (units ++ '.' :: places)) = .ok x := by
  have hpoint : isDigit '.' = false := by decide +kernel
  have htrim : Text.trim Text.isPadding (units ++ '.' :: places) = units ++ '.' :: places := by
    refine trim_of_none fun c hc => ?_
    rcases List.mem_append.mp hc with hc | hc
    · exact Text.isPadding_of_isDigit (h c hc)
    · rcases List.mem_cons.mp hc with rfl | hc
      · decide +kernel
      · exact Text.isPadding_of_isDigit (h' c hc)
  obtain ⟨c, rest, rfl⟩ := List.exists_cons_of_ne_nil hunits
  have hgroup : digitGroup false (c :: rest ++ '.' :: places) =
      some (digitValues (c :: rest), '.' :: places) :=
    digitGroup_append h (by simp [hpoint]) false
  have hgroup' := digitGroup_digits h' false
  have hnamed := named?_of_isDigit (rest ++ '.' :: places) (h c List.mem_cons_self)
  obtain ⟨d, hd⟩ := Text.digit?_of_isDigit (h c List.mem_cons_self)
  have hvalues : digitValues (c :: rest) = d :: digitValues rest := List.filterMap_cons_some hd
  unfold real
  rw [String.toList_ofList, htrim, List.cons_append, sign_of_isDigit _ (h c List.mem_cons_self)]
  simp only [hnamed]
  rw [List.cons_append] at hgroup
  unfold magnitude?
  simp [hgroup, hgroup', hvalues, exponent?]

end Numeral

namespace Config

open Text (isDigit)

/-! ## Numeral lexemes -/

theorem isLetter_iff {c : Char} : isLetter c = true ↔
    97 ≤ c.toNat ∧ c.toNat ≤ 122 ∨ 65 ≤ c.toNat ∧ c.toNat ≤ 90 := by
  rw [isLetter, Bool.or_eq_true, Bool.and_eq_true, Bool.and_eq_true, decide_eq_true_eq,
    decide_eq_true_eq, decide_eq_true_eq, decide_eq_true_eq]
  exact Iff.rfl

/-- Letters are ASCII characters, so none of them is a digit. -/
theorem isLetter_of_isDigit {c : Char} (h : isDigit c = true) : isLetter c = false := by
  refine Bool.eq_false_iff.mpr fun hletter => ?_
  rw [isLetter_iff] at hletter
  rw [Text.isDigit_ascii (by omega), decide_eq_true_eq] at h
  omega

/-- The text of a numeral: digits, perhaps a point and more digits, and the letters of a unit. -/
inductive NumeralText : List Char → Prop
  | whole (digits unit : List Char) (hne : digits ≠ []) (hdigits : ∀ c ∈ digits, isDigit c = true)
      (hunit : ∀ c ∈ unit, isLetter c = true) : NumeralText (digits ++ unit)
  | real (digits places unit : List Char) (hne : digits ≠ [])
      (hdigits : ∀ c ∈ digits, isDigit c = true) (hplaces : ∀ c ∈ places, isDigit c = true)
      (hunit : ∀ c ∈ unit, isLetter c = true) : NumeralText (digits ++ '.' :: places ++ unit)

/-- The name of a unit in small letters. -/
def unitName (unit : List Char) : String := String.ofList (unit.map Text.asciiLower)

/-- A numeral that has no value: a whole number with too many digits, or one of milliseconds that is
too large for a real number. -/
inductive Oversized : List Char → Prop
  | digits (digits unit : List Char) (hdigits : ∀ c ∈ digits, isDigit c = true)
      (hunit : ∀ c ∈ unit, isLetter c = true) (hlong : Numeral.digitLimit < digits.length) :
      Oversized (digits ++ unit)
  | milliseconds (digits unit : List Char) (negative : Bool) (hne : digits ≠ [])
      (hdigits : ∀ c ∈ digits, isDigit c = true) (hunit : ∀ c ∈ unit, isLetter c = true)
      (hname : unitName unit = "ms")
      (hlarge : Binary64.ofInt (Decimal.value (Numeral.digitValues digits)) = .infinite negative) :
      Oversized (digits ++ unit)

theorem take_countWhile (p : Char → Bool) (text : List Char) :
    text.take (countWhile p text) = text.takeWhile p := by
  induction text with
  | nil => rfl
  | cons c rest ih =>
      rw [countWhile, List.takeWhile_cons]
      split
      next => rw [List.take_succ_cons, ih]
      next => rfl

theorem drop_countWhile (p : Char → Bool) (text : List Char) :
    text.drop (countWhile p text) = text.dropWhile p := by
  induction text with
  | nil => rfl
  | cons c rest ih =>
      rw [countWhile, List.dropWhile_cons]
      split
      next => rw [List.drop_succ_cons, ih]
      next => rfl

/-- What begins with a digit is a numeral up to where its letters end. -/
theorem numeralText_take {c : Char} {rest : List Char} (h : isDigit c = true) :
    NumeralText ((c :: rest).take (numberExtent (c :: rest))) := by
  have hall (p : Char → Bool) (text : List Char) : ∀ c ∈ text.takeWhile p, p c = true :=
    List.all_eq_true.mp List.all_takeWhile
  have hne : (c :: rest).takeWhile isDigit ≠ [] := by
    rw [List.takeWhile_cons, h]
    exact List.cons_ne_nil c _
  unfold numberExtent
  simp only [List.take_add, take_countWhile, drop_countWhile]
  split
  next places hplaces =>
    split
    next =>
      rw [List.take_zero, List.append_nil]
      exact .whole _ _ hne (hall _ _) (hall _ _)
    next =>
      rw [hplaces, List.take_succ_cons, take_countWhile]
      exact .real _ _ _ hne (hall _ _) (hall _ _) (hall _ _)
  next =>
    rw [List.take_zero, List.append_nil]
    exact .whole _ _ hne (hall _ _) (hall _ _)

/-- The digits of a numeral end where its unit begins. -/
theorem takeWhile_digits {digits unit : List Char} (hdigits : ∀ c ∈ digits, isLetter c = false)
    (hunit : ∀ c ∈ unit, isLetter c = true) :
    (digits ++ unit).takeWhile (!isLetter ·) = digits ∧
      (digits ++ unit).dropWhile (!isLetter ·) = unit := by
  have hdigits : ∀ c ∈ digits, (!isLetter c) = true := fun c hc => by rw [hdigits c hc]; rfl
  rw [List.takeWhile_append_of_pos hdigits, List.dropWhile_append_of_pos hdigits]
  cases unit with
  | nil => simp
  | cons c rest => simp [hunit c List.mem_cons_self]

theorem isSome_realOfWhole_unit :
    ∀ n ∈ [(1 : Int), 60, 3600, 86400], (Numeral.realOfWhole n).toOption.isSome = true := by
  decide +kernel

/-- A minute, an hour and a day are small numbers of seconds. -/
theorem realOfWhole_unit {n : Int} (h : n ∈ [1, 60, 3600, 86400]) :
    ∃ x, Numeral.realOfWhole n = .ok x := by
  have hread := isSome_realOfWhole_unit n h
  cases hwhole : Numeral.realOfWhole n with
  | error fault =>
      rw [hwhole] at hread
      simp [Except.toOption] at hread
  | ok x => exact ⟨x, rfl⟩

/-- Milliseconds are no whole number of seconds. All other units are, and not large ones. -/
theorem unitSeconds?_cases {name : String} {seconds : Quantity}
    (h : unitSeconds? name = some seconds) :
    (name = "ms" ∧ ∃ x, seconds = .real x) ∨
      name ≠ "ms" ∧ ∃ n, seconds = .whole n ∧ ∃ x, Numeral.realOfWhole n = .ok x := by
  unfold unitSeconds? at h
  split at h
  case h_1 => exact .inl ⟨rfl, _, (Option.some.inj h).symm⟩
  case h_6 => contradiction
  all_goals exact .inr ⟨by decide, _, (Option.some.inj h).symm, realOfWhole_unit (by simp)⟩

/-- A number with the name of its unit, which is empty where there is none. -/
def withUnit (name : String) (value : Quantity) : Except LexFault Symbol := do
  if name.isEmpty then return .number value
  match unitSeconds? name with
  | none => throw (.unknownUnit name)
  | some seconds => return .duration (← (times value seconds).mapError .badNumber)

/-- The value of a numeral, by its digits and the name of its unit. -/
theorem numberSymbol_append {digits unit : List Char} (hdigits : ∀ c ∈ digits, isLetter c = false)
    (hunit : ∀ c ∈ unit, isLetter c = true) : numberSymbol (digits ++ unit) =
      (numeralValue digits).mapError .badNumber >>= withUnit (unitName unit) := by
  obtain ⟨htake, hdrop⟩ := takeWhile_digits hdigits hunit
  unfold numberSymbol
  rw [htake, hdrop]
  rfl

theorem numeralValue_digits {digits : List Char} (hne : digits ≠ [])
    (h : ∀ c ∈ digits, isDigit c = true) : numeralValue digits =
      if Numeral.digitLimit < digits.length then .error (.tooManyDigits digits.length)
      else .ok (.whole (Decimal.value (Numeral.digitValues digits))) := by
  have hpoint : digits.contains '.' = false := by
    refine Bool.eq_false_iff.mpr fun hpoint => ?_
    exact absurd (h '.' (List.contains_iff_mem.mp hpoint)) (by decide +kernel)
  rw [numeralValue, hpoint, if_neg Bool.false_ne_true, Numeral.whole_digits hne h]
  split <;> rfl

theorem numeralValue_real {digits places : List Char} (hne : digits ≠ [])
    (h : ∀ c ∈ digits, isDigit c = true) (h' : ∀ c ∈ places, isDigit c = true) :
    ∃ x, numeralValue (digits ++ '.' :: places) = .ok (.real x) := by
  obtain ⟨x, hx⟩ := Numeral.real_digits hne h h'
  refine ⟨x, ?_⟩
  rw [numeralValue, if_pos (by simp), hx]
  rfl

/-- A real number of any unit is a real number. -/
theorem times_real {x : Binary64} {name : String} {seconds : Quantity}
    (h : unitSeconds? name = some seconds) : ∃ v, times (.real x) seconds = .ok v := by
  rcases unitSeconds?_cases h with ⟨-, y, rfl⟩ | ⟨-, n, rfl, y, hy⟩
  · exact ⟨_, rfl⟩
  · refine ⟨.real (x.mul y), ?_⟩
    unfold times Quantity.scalar Scalar.toReal
    simp only [hy]
    rfl

/-- A whole number of any unit but milliseconds is a whole number. -/
theorem times_whole {n : Int} {name : String} {seconds : Quantity}
    (h : unitSeconds? name = some seconds) (hname : name ≠ "ms") :
    ∃ v, times (.whole n) seconds = .ok v := by
  rcases unitSeconds?_cases h with ⟨hms, -⟩ | ⟨-, m, rfl, -⟩
  · exact absurd hms hname
  · exact ⟨_, rfl⟩

theorem times_whole_real (n : Int) (y : Binary64) :
    times (.whole n) (.real y) = (Numeral.realOfWhole n).map fun x => .real (x.mul y) := by
  unfold times
  have hread : (Quantity.whole n).scalar.toReal = Numeral.realOfWhole n := rfl
  have hunit : (Quantity.real y).scalar.toReal = .ok y := rfl
  simp only [hread, hunit]
  cases Numeral.realOfWhole n <;> rfl

theorem realOfWhole_error_iff {n : Int} : (∃ fault, Numeral.realOfWhole n = .error fault) ↔
    ∃ negative, Binary64.ofInt n = .infinite negative := by
  unfold Numeral.realOfWhole
  generalize Binary64.ofInt n = x
  cases x <;> simp [Numeral.ofRounded]

/-- A number has a value in any known unit, but for a whole number of milliseconds that is too
large. -/
theorem withUnit_badNumber_iff {name : String} {value : Quantity} :
    (∃ fault, withUnit name value = .error (.badNumber fault)) ↔
      name = "ms" ∧ ∃ n negative, value = .whole n ∧ Binary64.ofInt n = .infinite negative := by
  constructor
  · rintro ⟨fault, hfault⟩
    unfold withUnit at hfault
    split at hfault
    next => contradiction
    split at hfault
    next => simp [throw, throwThe, MonadExceptOf.throw] at hfault
    next seconds hseconds =>
      have hvalue {v : Quantity} (htimes : times value seconds = .ok v) : False := by
        rw [htimes] at hfault
        contradiction
      cases value with
      | real x =>
          obtain ⟨v, htimes⟩ := times_real (x := x) hseconds
          exact (hvalue htimes).elim
      | whole n =>
          by_cases hname : name = "ms"
          · obtain ⟨y, rfl⟩ : ∃ y, seconds = .real y :=
              (unitSeconds?_cases hseconds).elim And.right fun h => absurd hname h.1
            have hread : ∃ fault, Numeral.realOfWhole n = .error fault := by
              rcases hread : Numeral.realOfWhole n with fault | x
              · exact ⟨fault, rfl⟩
              · exact (hvalue (by rw [times_whole_real, hread]; rfl)).elim
            obtain ⟨negative, hlarge⟩ := realOfWhole_error_iff.mp hread
            exact ⟨hname, n, negative, rfl, hlarge⟩
          · obtain ⟨v, htimes⟩ := times_whole (n := n) hseconds hname
            exact (hvalue htimes).elim
  · rintro ⟨rfl, n, negative, rfl, hlarge⟩
    obtain ⟨fault, hfault⟩ := realOfWhole_error_iff.mpr ⟨negative, hlarge⟩
    refine ⟨fault, ?_⟩
    unfold withUnit unitSeconds?
    simp only [times_whole_real, hfault]
    rfl

/-- The numerals that have no value are the whole numbers that are too long, or too large. -/
theorem numberSymbol_badNumber_iff {text : List Char} (h : NumeralText text) :
    (∃ fault, numberSymbol text = .error (.badNumber fault)) ↔ Oversized text := by
  have hletters {digits : List Char} (h : ∀ c ∈ digits, isDigit c = true) :
      ∀ c ∈ digits, isLetter c = false := fun c hc => isLetter_of_isDigit (h c hc)
  constructor
  · rintro ⟨fault, hfault⟩
    cases h with
    | real digits places unit hne hdigits hplaces hunit =>
        -- a real number has a value in any unit
        obtain ⟨x, hx⟩ := numeralValue_real hne hdigits hplaces
        have hreal : ∀ c ∈ digits ++ '.' :: places, isLetter c = false := by
          intro c hc
          rcases List.mem_append.mp hc with hc | hc
          · exact hletters hdigits c hc
          · rcases List.mem_cons.mp hc with rfl | hc
            · decide
            · exact hletters hplaces c hc
        rw [numberSymbol_append hreal hunit, hx] at hfault
        obtain ⟨-, n, negative, hwhole, -⟩ := withUnit_badNumber_iff.mp ⟨fault, hfault⟩
        contradiction
    | whole digits unit hne hdigits hunit =>
        rw [numberSymbol_append (hletters hdigits) hunit, numeralValue_digits hne hdigits] at hfault
        by_cases hlong : Numeral.digitLimit < digits.length
        · exact .digits digits unit hdigits hunit hlong
        · rw [if_neg hlong] at hfault
          obtain ⟨hname, n, negative, hwhole, hlarge⟩ := withUnit_badNumber_iff.mp ⟨fault, hfault⟩
          obtain rfl := Quantity.whole.inj hwhole
          exact .milliseconds digits unit negative hne hdigits hunit hname hlarge
  · intro h
    cases h with
    | digits digits unit hdigits hunit hlong =>
        have hne : digits ≠ [] := by
          rintro rfl
          simp at hlong
        refine ⟨.tooManyDigits digits.length, ?_⟩
        rw [numberSymbol_append (hletters hdigits) hunit, numeralValue_digits hne hdigits,
          if_pos hlong]
        rfl
    | milliseconds digits unit negative hne hdigits hunit hname hlarge =>
        rw [numberSymbol_append (hletters hdigits) hunit, numeralValue_digits hne hdigits]
        by_cases hlong : Numeral.digitLimit < digits.length
        · rw [if_pos hlong]
          exact ⟨_, rfl⟩
        · rw [if_neg hlong]
          exact withUnit_badNumber_iff.mpr ⟨hname, _, negative, rfl, hlarge⟩

end Config

end SupplyGauge
