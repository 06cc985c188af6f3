import SupplyGauge.Proofs.Json.Grammar
import SupplyGauge.Proofs.Number.Shortest

/-! # Numbers are read as they were written

A finite double is written with its shortest digits, positionally or with an exponent, and
always with a fraction or an exponent. Readers therefore take it for a double, and what
they make of its digits is the double itself. A whole number has neither, and is read as a
whole number.
-/

namespace SupplyGauge.Json

/-! ## Rows of digits -/

/-- A row of decimal digits. -/
structure Digits (ds : List Char) : Prop where
  nonempty : ds ≠ []
  digits : ∀ c ∈ ds, isDigit c = true

theorem digitChar_spec {d : Nat} (h : d < 10) :
    isDigit (Decimal.digitChar d) = true ∧ (Decimal.digitChar d).toNat - 48 = d := by
  have hall : ∀ d < 10,
      isDigit (Decimal.digitChar d) = true ∧ (Decimal.digitChar d).toNat - 48 = d := by
    decide +kernel
  exact hall d h

theorem digits_ofNat (n : Nat) : Digits (Decimal.ofNat n) where
  nonempty := Decimal.ofNat_ne_nil n
  digits c hc := by
    obtain ⟨d, hd, rfl⟩ := List.mem_map.mp hc
    exact (digitChar_spec (Decimal.digits_lt hd)).1

theorem digitsValue_ofNat (n : Nat) : digitsValue (Decimal.ofNat n) = n := by
  have hdigits : (Decimal.ofNat n).map (fun c => c.toNat - 48) = Decimal.digits n := by
    rw [Decimal.ofNat, List.map_map]
    refine (List.map_congr_left fun d hd => ?_).trans (List.map_id _)
    exact (digitChar_spec (Decimal.digits_lt hd)).2
  rw [digitsValue, hdigits, Decimal.value_digits]

/-- A positive number is not written with a zero in front. -/
theorem ofNat_head {n : Nat} (hn : 0 < n) : (Decimal.ofNat n).head? ≠ some '0' := by
  obtain ⟨d, ds, hdigits, hd⟩ := Decimal.digits_head hn
  have hlt : d < 10 := Decimal.digits_lt (n := n) (by rw [hdigits]; exact List.mem_cons_self)
  have hnot : ∀ d < 10, 0 < d → Decimal.digitChar d ≠ '0' := by decide +kernel
  rw [Decimal.ofNat, hdigits]
  exact fun hzero => hnot d hlt hd (Option.some.inj hzero)

theorem digitsValue_append (ds es : List Char) :
    digitsValue (ds ++ es) = digitsValue ds * tenTo es.length + digitsValue es := by
  rw [digitsValue, List.map_append, Decimal.value_append, List.length_map]
  rfl

theorem digitsValue_zeros (k : Nat) : digitsValue (List.replicate k '0') = 0 := by
  rw [digitsValue, List.map_replicate]
  exact Decimal.value_zeros k

theorem digitsValue_zero_cons (ds : List Char) : digitsValue ('0' :: ds) = digitsValue ds := by
  rw [← List.singleton_append, digitsValue_append, show digitsValue ['0'] = 0 from rfl,
    Nat.zero_mul, Nat.zero_add]

theorem digitsValue_lt {ds : List Char} (h : ∀ c ∈ ds, isDigit c = true) :
    digitsValue ds < tenTo ds.length := by
  have hlt := @Decimal.value_lt (ds.map fun c => c.toNat - 48) fun d hd => by
    obtain ⟨c, hc, rfl⟩ := List.mem_map.mp hd
    have hdigit := h c hc
    simp only [isDigit, Bool.and_eq_true, decide_eq_true_eq] at hdigit
    omega
  rwa [List.length_map] at hlt

/-- A text does not go on with a digit. -/
def NoDigit (text : List Char) : Prop := ∀ c ∈ text.head?, isDigit c = false

theorem takeWhile_digits {ds text : List Char} (h : Digits ds) (htext : NoDigit text) :
    (ds ++ text).takeWhile isDigit = ds ∧ (ds ++ text).dropWhile isDigit = text := by
  rw [List.takeWhile_append_of_pos h.digits, List.dropWhile_append_of_pos h.digits]
  cases text with
  | nil => exact ⟨List.append_nil ds, rfl⟩
  | cons c text =>
      have hc : isDigit c = false := htext c rfl
      rw [List.takeWhile_cons_of_neg (by simp [hc]), List.dropWhile_cons_of_neg (by simp [hc])]
      exact ⟨List.append_nil ds, rfl⟩

/-! ## The parts of a number -/

/-- The parts of a number: its digits before and after the point, and its exponent with its
sign. -/
structure NumberParts where
  units : List Char
  places : Option (List Char) := none
  exponent : Option (Bool × List Char) := none

def placesText : Option (List Char) → List Char
  | none => []
  | some ds => '.' :: ds

def exponentText : Option (Bool × List Char) → List Char
  | none => []
  | some (negative, ds) => 'e' :: (if negative then '-' else '+') :: ds

def exponentValue (e : Bool × List Char) : Int :=
  if e.1 then -(digitsValue e.2 : Int) else digitsValue e.2

namespace NumberParts

def text (p : NumberParts) : List Char :=
  p.units ++ (placesText p.places ++ exponentText p.exponent)

def value (negative : Bool) (p : NumberParts) : Value :=
  numberValue negative p.units p.places (p.exponent.map exponentValue)

/-- Parts that make a number: rows of digits, of which the first one is zero or does not begin with
one. -/
structure WellFormed (p : NumberParts) : Prop where
  units : Digits p.units
  leading : p.units.head? = some '0' → p.units = ['0']
  places : ∀ ds ∈ p.places, Digits ds
  exponent : ∀ e ∈ p.exponent, Digits e.2

end NumberParts

/-- What follows a value inside of a list or an object, or at its end. -/
def Closed (text : List Char) : Prop := ∀ c ∈ text.head?, c = ',' ∨ c = ']' ∨ c = '\x7d'

section Reading

variable {rest : List Char}

theorem Closed.noDigit (h : Closed rest) : NoDigit rest := by
  intro c hc
  rcases h c hc with rfl | rfl | rfl <;> decide

theorem readExponent_text {e : Option (Bool × List Char)} (he : ∀ e' ∈ e, Digits e'.2)
    (hrest : Closed rest) :
    readExponent (exponentText e ++ rest) = some (e.map exponentValue, rest) := by
  cases e with
  | none =>
      cases rest with
      | nil => rfl
      | cons c rest =>
          have hc : ¬ (c = 'e' ∨ c = 'E') := by
            rcases hrest c rfl with rfl | rfl | rfl <;> decide
          exact if_neg hc
  | some e =>
      obtain ⟨negative, ds⟩ := e
      have hds : Digits ds := he _ rfl
      have hsign : Numeral.sign ((if negative then '-' else '+') :: (ds ++ rest)) =
          (negative, ds ++ rest) := by
        cases negative <;> rfl
      obtain ⟨htake, hdrop⟩ := takeWhile_digits hds hrest.noDigit
      change readExponent ('e' :: (if negative then '-' else '+') :: (ds ++ rest)) = _
      rw [readExponent, if_pos (.inl rfl), hsign]
      dsimp only
      rw [htake, hdrop]
      cases ds with
      | nil => exact absurd rfl hds.nonempty
      | cons d ds => rfl

theorem head_exponentText {e : Option (Bool × List Char)} (hrest : Closed rest) :
    ∀ c ∈ (exponentText e ++ rest).head?, isDigit c = false ∧ c ≠ '.' := by
  intro c hc
  cases e with
  | none => rcases hrest c hc with rfl | rfl | rfl <;> decide
  | some e =>
      obtain rfl := Option.mem_some.mp hc
      decide

theorem readPlaces_text {places : Option (List Char)} (hplaces : ∀ ds ∈ places, Digits ds)
    {e : Option (Bool × List Char)} (hrest : Closed rest) :
    readPlaces (placesText places ++ (exponentText e ++ rest)) =
      some (places, exponentText e ++ rest) := by
  have htail := head_exponentText (e := e) hrest
  generalize exponentText e ++ rest = tail at *
  cases places with
  | none =>
      cases tail with
      | nil => rfl
      | cons c tail =>
          refine readPlaces.eq_2 (c :: tail) fun rest heq => ?_
          obtain ⟨rfl, -⟩ := List.cons.inj heq
          exact (htail _ rfl).2 rfl
  | some ds =>
      have hds : Digits ds := hplaces ds rfl
      obtain ⟨htake, hdrop⟩ := takeWhile_digits hds fun c hc => (htail c hc).1
      change readPlaces ('.' :: (ds ++ tail)) = _
      rw [readPlaces, htake, hdrop]
      cases ds with
      | nil => exact absurd rfl hds.nonempty
      | cons d ds => rfl

theorem readUnits_text {units text : List Char} (h : Digits units)
    (hleading : units.head? = some '0' → units = ['0']) (htext : NoDigit text) :
    readUnits (units ++ text) = some (units, text) := by
  obtain ⟨htake, hdrop⟩ := takeWhile_digits h htext
  unfold readUnits
  rw [htake, hdrop]
  split
  next => exact absurd rfl h.nonempty
  next => exact absurd (hleading rfl) (by simp)
  next => rfl

/-- A number is read as its value, up to its end. -/
theorem readNumber_text (negative : Bool) {p : NumberParts} (h : p.WellFormed)
    (hrest : Closed rest) :
    readNumber ((if negative then '-' :: p.text else p.text) ++ rest) =
      some (p.value negative, rest) := by
  have hminus : readMinus ((if negative then '-' :: p.text else p.text) ++ rest) =
      (negative, p.text ++ rest) := by
    cases negative with
    | true => rfl
    | false =>
        obtain ⟨c, ds, hunits⟩ := List.exists_cons_of_ne_nil h.units.nonempty
        have hc : isDigit c = true := h.units.digits c (by rw [hunits]; exact List.mem_cons_self)
        refine readMinus.eq_2 (p.text ++ rest) fun text heq => ?_
        rw [NumberParts.text, hunits] at heq
        obtain ⟨rfl, -⟩ := List.cons.inj heq
        contradiction
  have hplaces := readPlaces_text h.places (e := p.exponent) hrest
  have hexponent := readExponent_text h.exponent hrest
  have hunits : readUnits (p.text ++ rest) =
      some (p.units, placesText p.places ++ (exponentText p.exponent ++ rest)) := by
    rw [NumberParts.text, List.append_assoc, List.append_assoc]
    refine readUnits_text h.units h.leading ?_
    cases p.places with
    | none => exact fun c hc => (head_exponentText hrest c hc).1
    | some ds =>
        intro c hc
        obtain rfl := Option.mem_some.mp hc
        decide
  unfold readNumber
  rw [hminus]
  simp only [hunits, hplaces, hexponent, Option.bind_eq_bind, Option.bind_some]
  rfl

end Reading

/-! ## Doubles -/

open Binary64 (NearDecimal)

/-- Parts that give a decimal as a number with a fraction or an exponent. -/
structure NumberParts.Spells (p : NumberParts) (c : Nat) (x : Int) : Prop extends p.WellFormed where
  fractional : p.places.isSome = true ∨ p.exponent.isSome = true
  short : (p.units ++ p.places.getD []).length ≤ 24
  value : ∃ zeros : Nat, digitsValue (p.units ++ p.places.getD []) = c * tenTo zeros ∧
    (p.exponent.map exponentValue).getD 0 - (p.places.getD []).length = x - zeros

theorem NumberParts.WellFormed.row (p : NumberParts) (h : p.WellFormed) :
    ∀ c ∈ p.units ++ p.places.getD [], isDigit c = true := by
  intro c hc
  rcases List.mem_append.mp hc with hc | hc
  · exact h.units.digits c hc
  · cases hplaces : p.places with
    | none =>
        rw [hplaces] at hc
        contradiction
    | some ds =>
        rw [hplaces] at hc
        exact (h.places ds hplaces).digits c hc

/-- What is written for a decimal near to a double is read as the double. -/
theorem NumberParts.Spells.value_eq {p : NumberParts} {c m s : Nat} {x : Int} (h : p.Spells c x)
    (hcanonical : Canonical m s) (hm : 0 < m) (hnear : NearDecimal m s c x) (negative : Bool) :
    p.value negative = .real (.finite negative m s hcanonical) := by
  obtain ⟨zeros, hdigits, hexponent⟩ := h.value
  have hfew : digitsValue (p.units ++ p.places.getD []) < twoTo 100 := by
    have hlt := digitsValue_lt h.toWellFormed.row
    exact (hlt.trans_le (tenTo_le h.short)).trans (by decide +kernel)
  have hread : Binary64.ofDecimal negative (digitsValue (p.units ++ p.places.getD []))
      ((p.exponent.map exponentValue).getD 0 - (p.places.getD []).length) =
        .finite negative m s hcanonical := by
    refine Binary64.ofDecimal_of_near negative hcanonical hm hfew ?_
    rw [hdigits, hexponent]
    exact Binary64.nearDecimal_shift.mpr hnear
  unfold NumberParts.value
  rw [numberValue.eq_2, hread]
  intro hplaces hexponent
  rcases h.fractional with hsome | hsome
  · rw [hplaces] at hsome
    contradiction
  · rw [Option.map_eq_none_iff.mp hexponent] at hsome
    contradiction

section Forms

variable {ds : List Char}

theorem digits_zeros (k : Nat) : ∀ c ∈ List.replicate k '0', isDigit c = true := by
  intro c hc
  obtain rfl := List.eq_of_mem_replicate hc
  rfl

theorem Digits.append {es : List Char} (h : Digits ds) (hes : ∀ c ∈ es, isDigit c = true) :
    Digits (ds ++ es) where
  nonempty hnil := h.nonempty (List.append_eq_nil_iff.mp hnil).1
  digits c hc := (List.mem_append.mp hc).elim (h.digits c) (hes c)

theorem NumberParts.wellFormed_places {units places : List Char} (hunits : Digits units)
    (hleading : units.head? = some '0' → units = ['0']) (hplaces : Digits places) :
    (NumberParts.mk units (some places) none).WellFormed where
  units := hunits
  leading := hleading
  places := by
    rintro _ ⟨⟩
    exact hplaces
  exponent := by
    rintro _ ⟨⟩

theorem digits_zero : Digits ['0'] := ⟨List.cons_ne_nil _ _, by simp [isDigit]⟩

/-- A row of digits behind the point, with zeros between. -/
theorem spells_behind (h : Digits ds) (hshort : ds.length ≤ 18) {k : Nat} (hk : k < 4) :
    (NumberParts.mk ['0'] (some (List.replicate k '0' ++ ds)) none).Spells (digitsValue ds)
      (-k - ds.length) where
  toWellFormed := by
    refine NumberParts.wellFormed_places digits_zero (fun _ => rfl) ⟨by simp [h.nonempty], ?_⟩
    intro c hc
    exact (List.mem_append.mp hc).elim (digits_zeros k c) (h.digits c)
  fractional := .inl rfl
  short := by
    simp only [Option.getD_some, List.length_append, List.length_replicate, List.length_singleton]
    omega
  value := by
    refine ⟨0, ?_, ?_⟩
    · simp [digitsValue_zero_cons, digitsValue_append, digitsValue_zeros]
    · simp only [Option.map_none, Option.getD_none, Option.getD_some, List.length_append,
        List.length_replicate]
      omega

/-- A row of digits before the point, with zeros between. -/
theorem spells_before (h : Digits ds) (hhead : ds.head? ≠ some '0') {k : Nat}
    (hshort : ds.length + k ≤ 18) :
    (NumberParts.mk (ds ++ List.replicate k '0') (some ['0']) none).Spells (digitsValue ds) k where
  toWellFormed := by
    refine NumberParts.wellFormed_places (h.append (digits_zeros k)) ?_ digits_zero
    intro heq
    obtain ⟨c, rest, rfl⟩ := List.exists_cons_of_ne_nil h.nonempty
    exact absurd heq hhead
  fractional := .inl rfl
  short := by
    simp only [Option.getD_some, List.length_append, List.length_replicate, List.length_singleton]
    omega
  value := by
    have hplace : digitsValue ['0'] = 0 := rfl
    -- the zero behind the point is one more place
    refine ⟨k + 1, ?_, ?_⟩
    · simp [digitsValue_append, digitsValue_zeros, hplace, tenTo_add]
    · simp only [Option.map_none, Option.getD_none, Option.getD_some, List.length_singleton]
      omega

/-- A row of digits with the point between them. -/
theorem spells_within (h : Digits ds) (hhead : ds.head? ≠ some '0') (hshort : ds.length ≤ 18)
    {k : Nat} (hpos : 0 < k) (hlt : k < ds.length) :
    (NumberParts.mk (ds.take k) (some (ds.drop k)) none).Spells (digitsValue ds)
      (k - ds.length) where
  toWellFormed := by
    refine NumberParts.wellFormed_places ⟨fun hnil => ?_, fun c hc => ?_⟩ ?_
      ⟨fun hnil => ?_, fun c hc => ?_⟩
    · rcases List.take_eq_nil_iff.mp hnil with hzero | hnil
      · omega
      · exact h.nonempty hnil
    · exact h.digits c (List.mem_of_mem_take hc)
    · rw [List.head?_take, if_neg (Nat.ne_of_gt hpos)]
      exact fun heq => absurd heq hhead
    · exact absurd (List.drop_eq_nil_iff.mp hnil) (Nat.not_le.mpr hlt)
    · exact h.digits c (List.mem_of_mem_drop hc)
  fractional := .inl rfl
  short := by
    simp only [Option.getD_some, List.take_append_drop]
    omega
  value := by
    refine ⟨0, ?_, ?_⟩
    · simp
    · simp only [Option.map_none, Option.getD_none, Option.getD_some, List.length_drop]
      omega

/-- The positional form of a row of digits. -/
theorem positional_spells (h : Digits ds) (hhead : ds.head? ≠ some '0') (hshort : ds.length ≤ 18)
    {point : Int} (hlow : -4 < point) (hhigh : point ≤ 16) :
    ∃ p : NumberParts, Binary64.positional ds point = p.text ∧
      p.Spells (digitsValue ds) (point - ds.length) := by
  unfold Binary64.positional
  split
  next hsmall =>
    obtain ⟨k, rfl⟩ : ∃ k : Nat, point = -k := ⟨(-point).toNat, by omega⟩
    refine ⟨_, ?_, spells_behind h hshort (by omega)⟩
    simp [NumberParts.text, placesText, exponentText]
  next hlarge =>
    obtain ⟨k, rfl⟩ : ∃ k : Nat, point = k := ⟨point.toNat, by omega⟩
    rw [Int.toNat_natCast]
    split
    next hwhole =>
      have hspells := spells_before h hhead (k := k - ds.length) (by omega)
      rw [Int.ofNat_sub hwhole] at hspells
      refine ⟨_, ?_, hspells⟩
      simp [NumberParts.text, placesText, exponentText]
    next hsplit =>
      refine ⟨_, ?_, spells_within h hhead hshort (by omega) (Nat.not_le.mp hsplit)⟩
      simp [NumberParts.text, placesText, exponentText]

/-- The digits of a written exponent. -/
theorem exponent_digits (n : Nat) :
    Digits (if (Decimal.ofNat n).length < 2 then '0' :: Decimal.ofNat n else Decimal.ofNat n) ∧
      digitsValue (if (Decimal.ofNat n).length < 2 then '0' :: Decimal.ofNat n
        else Decimal.ofNat n) = n := by
  have hdigits := digits_ofNat n
  split
  · refine ⟨⟨List.cons_ne_nil _ _, fun c hc => ?_⟩, ?_⟩
    · rcases List.mem_cons.mp hc with rfl | hc
      · rfl
      · exact hdigits.digits c hc
    · rw [digitsValue_zero_cons, digitsValue_ofNat]
  · exact ⟨hdigits, digitsValue_ofNat n⟩

theorem exponentValue_of_natAbs {exponent : Int} {es : List Char}
    (h : digitsValue es = exponent.natAbs) :
    exponentValue (decide (exponent < 0), es) = exponent := by
  unfold exponentValue
  rw [h]
  split
  next hneg =>
    have hneg := of_decide_eq_true hneg
    omega
  next hpos =>
    have hpos := of_decide_eq_false (Bool.eq_false_iff.mpr hpos)
    omega

/-- The form of a row of digits with an exponent. -/
theorem scientific_spells (h : Digits ds) (hhead : ds.head? ≠ some '0') (hshort : ds.length ≤ 18)
    (exponent : Int) : ∃ p : NumberParts, Binary64.scientific ds exponent = p.text ∧
      p.Spells (digitsValue ds) (exponent + 1 - ds.length) := by
  obtain ⟨hexponent, hvalue⟩ := exponent_digits exponent.natAbs
  unfold Binary64.scientific
  dsimp only
  generalize (if (Decimal.ofNat exponent.natAbs).length < 2 then
    '0' :: Decimal.ofNat exponent.natAbs else Decimal.ofNat exponent.natAbs) = es at *
  have hread := exponentValue_of_natAbs hvalue
  have hsign : (if exponent < 0 then '-' else '+') =
      if decide (exponent < 0) = true then '-' else '+' := by
    simp only [decide_eq_true_eq]
  obtain ⟨d, rest, rfl⟩ := List.exists_cons_of_ne_nil h.nonempty
  have hunits : Digits [d] := by
    refine ⟨List.cons_ne_nil _ _, fun c hc => ?_⟩
    obtain rfl := List.mem_singleton.mp hc
    exact h.digits c List.mem_cons_self
  have hleading : [d].head? = some '0' → [d] = ['0'] := fun heq => absurd heq hhead
  have hdigits : ∀ e ∈ some (decide (exponent < 0), es), Digits e.2 := by
    rintro _ ⟨⟩
    exact hexponent
  cases rest with
  | nil =>
      refine ⟨⟨[d], none, some (decide (exponent < 0), es)⟩, ?_,
        ⟨hunits, hleading, by rintro _ ⟨⟩, hdigits⟩, .inr rfl, ?_, 0, ?_, ?_⟩
      · rw [hsign]
        rfl
      · exact Nat.le_of_ble_eq_true rfl
      · simp
      · simp [hread]
  | cons d' rest =>
      have hplaces : Digits (d' :: rest) :=
        ⟨List.cons_ne_nil _ _, fun c hc => h.digits c (List.mem_cons_of_mem _ hc)⟩
      refine ⟨⟨[d], some (d' :: rest), some (decide (exponent < 0), es)⟩, ?_,
        ⟨hunits, hleading, ?_, hdigits⟩, .inl rfl, ?_, 0, ?_, ?_⟩
      · rw [hsign]
        rfl
      · rintro _ ⟨⟩
        exact hplaces
      · exact Nat.le_trans hshort (by decide)
      · simp
      · simp only [Option.map_some, Option.getD_some, hread, List.length_cons]
        omega

/-- What is stripped from the end of a row is a row of zeros. -/
theorem stripped_append (cs : List Char) : cs = (cs.reverse.dropWhile (· == '0')).reverse ++
    List.replicate (cs.reverse.takeWhile (· == '0')).length '0' := by
  have hzeros : (cs.reverse.takeWhile (· == '0')).reverse =
      List.replicate (cs.reverse.takeWhile (· == '0')).length '0' := by
    refine List.eq_replicate_iff.mpr ⟨List.length_reverse, fun c hc => ?_⟩
    have hzero := List.all_eq_true.mp List.all_takeWhile c (List.mem_reverse.mp hc)
    exact eq_of_beq hzero
  calc cs
    _ = (cs.reverse.takeWhile (· == '0') ++ cs.reverse.dropWhile (· == '0')).reverse := by
      rw [List.takeWhile_append_dropWhile, List.reverse_reverse]
    _ = _ := by rw [List.reverse_append, hzeros]

/-- The digits of a positive number without the zeros at its end. -/
theorem stripped_digits {n : Nat} (hn : 0 < n) : ∃ (ds : List Char) (zeros : Nat),
    ((Decimal.ofNat n).reverse.dropWhile (· == '0')).reverse = ds ∧ Digits ds ∧
      ds.head? ≠ some '0' ∧ n = digitsValue ds * tenTo zeros ∧
      (Decimal.ofNat n).length = ds.length + zeros := by
  generalize hds : ((Decimal.ofNat n).reverse.dropWhile (· == '0')).reverse = ds
  have hall := stripped_append (Decimal.ofNat n)
  rw [hds] at hall
  generalize ((Decimal.ofNat n).reverse.takeWhile (· == '0')).length = zeros at hall
  have hvalue := digitsValue_ofNat n
  rw [hall, digitsValue_append, digitsValue_zeros, List.length_replicate, Nat.add_zero] at hvalue
  have hnonempty : ds ≠ [] := by
    rintro rfl
    rw [show digitsValue [] = 0 from rfl, Nat.zero_mul] at hvalue
    omega
  refine ⟨ds, zeros, rfl, ⟨hnonempty, fun c hc => ?_⟩, ?_, hvalue.symm, ?_⟩
  · refine (digits_ofNat n).digits c ?_
    rw [hall]
    exact List.mem_append_left _ hc
  · have hhead := ofNat_head hn
    obtain ⟨c, tail, rfl⟩ := List.exists_cons_of_ne_nil hnonempty
    rw [hall] at hhead
    exact hhead
  · rw [hall, List.length_append, List.length_replicate]

end Forms

/-- A double that is not negative is written as a number, which is read as the double. -/
theorem magnitudeText_parts {m s : Nat} (h : Canonical m s) : ∃ p : NumberParts, p.WellFormed ∧
    Binary64.magnitudeText m s = p.text ∧
      ∀ negative, p.value negative = .real (.finite negative m s h) := by
  rcases Nat.eq_zero_or_pos m with rfl | hm
  · have hshift : s = 0 := h.2.2.resolve_right (Nat.not_le.mpr (twoTo_pos 52))
    subst hshift
    exact ⟨⟨['0'], some ['0'], none⟩,
      NumberParts.wellFormed_places digits_zero (fun _ => rfl) digits_zero, rfl, fun _ => rfl⟩
  · obtain ⟨hnear, hdigits⟩ := Binary64.shortest_spec h hm
    have hpos := hnear.digits_pos hm
    obtain ⟨ds, zeros, hstripped, hds, hhead, hvalue, hlength⟩ := stripped_digits hpos
    have hshort : ds.length ≤ 18 := by
      have hcount := Decimal.length_digits_le hpos hdigits
      rw [Decimal.ofNat, List.length_map] at hlength
      omega
    unfold Binary64.magnitudeText
    rw [if_neg (Nat.ne_of_gt hm)]
    dsimp only
    rw [hstripped, hlength]
    -- the digits before the zeros are the same decimal
    generalize hpoint : ((ds.length + zeros : Nat) : Int) + (Binary64.shortest m s).exponent = point
    have hsame : NearDecimal m s (digitsValue ds) (point - ds.length) := by
      rw [hvalue, show (Binary64.shortest m s).exponent = point - ds.length - zeros by omega]
        at hnear
      exact Binary64.nearDecimal_shift.mp hnear
    split
    next hrange =>
      obtain ⟨p, htext, hspells⟩ := positional_spells hds hhead hshort hrange.1 hrange.2
      exact ⟨p, hspells.toWellFormed, htext, hspells.value_eq h hm hsame⟩
    next =>
      obtain ⟨p, htext, hspells⟩ := scientific_spells hds hhead hshort (point - 1)
      rw [Int.sub_add_cancel] at hspells
      exact ⟨p, hspells.toWellFormed, htext, hspells.value_eq h hm hsame⟩

end SupplyGauge.Json
