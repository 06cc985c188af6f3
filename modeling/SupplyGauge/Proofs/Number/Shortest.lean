import SupplyGauge.Proofs.Number.Nearness

/-! # Shortest decimals round to their doubles

The grid with seventeen places is finer than the gap between a double and its neighbours,
so one of the two decimals beside a double on it is near to the double. The search for a
decimal therefore ends with one that is near, and it has at most seventeen digits.
-/

namespace SupplyGauge.Binary64

/-! ## The magnitude -/

section Magnitude

variable {num den : Nat}

theorem leadingZeros_spec (bound : Nat) (h : num < den) (hbound : den ≤ num * tenTo bound) :
    num * tenTo (leadingZeros num den bound) < den ∧
      den ≤ 10 * (num * tenTo (leadingZeros num den bound)) := by
  induction bound generalizing num with
  | zero =>
      rw [tenTo_zero, Nat.mul_one] at hbound
      omega
  | succ bound ih =>
      unfold leadingZeros
      split
      next hnext =>
        rw [tenTo_zero, Nat.mul_one]
        exact ⟨h, by omega⟩
      next hnext =>
        rw [Nat.add_comm, tenTo_add, show tenTo 1 = 10 from rfl, ← Nat.mul_assoc]
        rw [Nat.add_comm, tenTo_add, show tenTo 1 = 10 from rfl, ← Nat.mul_assoc] at hbound
        exact ih (Nat.not_le.mp hnext) hbound

/-- The magnitude of a ratio is the power of ten above it. -/
theorem decimalMagnitude_spec (hden : 0 < den) (hbound : den ≤ num * tenTo 400) :
    num * tenTo (-decimalMagnitude num den).toNat < den * tenTo (decimalMagnitude num den).toNat ∧
      den * tenTo (decimalMagnitude num den).toNat ≤
        10 * (num * tenTo (-decimalMagnitude num den).toNat) := by
  unfold decimalMagnitude
  split
  next h =>
    have hpos : 0 < num / den := Nat.div_pos h hden
    have hupper := (Nat.div_lt_iff_lt_mul hden).mp (Decimal.lt_tenTo_length (num / den))
    have hlower := Nat.mul_le_mul_right den (Decimal.tenTo_length_le hpos)
    have hquotient : num / den * den ≤ num := Nat.div_mul_le_self num den
    rw [Int.toNat_natCast, show (-((Decimal.digits (num / den)).length : Int)).toNat = 0 by omega,
      tenTo_zero, Nat.mul_one, Nat.mul_comm den]
    rw [Nat.mul_assoc] at hlower
    exact ⟨hupper, by omega⟩
  next h =>
    have hzeros := leadingZeros_spec 400 (Nat.not_le.mp h) hbound
    rw [Int.neg_neg, Int.toNat_natCast,
      show (-(leadingZeros num den 400 : Int)).toNat = 0 by omega, tenTo_zero,
      Nat.mul_one]
    exact hzeros

/-- On a grid some places below its magnitude a ratio has as many digits. -/
theorem grid_spec (hden : 0 < den) (hbound : den ≤ num * tenTo 400) (places : Nat) :
    num * tenTo (-(decimalMagnitude num den - places)).toNat <
        den * tenTo (decimalMagnitude num den - places).toNat * tenTo places ∧
      den * tenTo (decimalMagnitude num den - places).toNat * tenTo places ≤
        10 * (num * tenTo (-(decimalMagnitude num den - places)).toNat) := by
  obtain ⟨hupper, hlower⟩ := decimalMagnitude_spec hden hbound
  generalize decimalMagnitude num den = x at *
  have hplaces : tenTo (-(x - places)).toNat * tenTo x.toNat =
      tenTo (-x).toNat * (tenTo (x - places).toNat * tenTo places) := by
    rw [← tenTo_add, ← tenTo_add, ← tenTo_add]
    congr 1
    omega
  have hnum : num * tenTo (-(x - places)).toNat * tenTo x.toNat =
      num * tenTo (-x).toNat * (tenTo (x - places).toNat * tenTo places) := by
    rw [Nat.mul_assoc, hplaces, Nat.mul_assoc]
  have hgrid : den * tenTo (x - places).toNat * tenTo places * tenTo x.toNat =
      den * tenTo x.toNat * (tenTo (x - places).toNat * tenTo places) := by ac_rfl
  have hscale : 0 < tenTo (x - places).toNat * tenTo places :=
    Nat.mul_pos (tenTo_pos _) (tenTo_pos _)
  constructor
  · refine Nat.lt_of_mul_lt_mul_right (a := tenTo x.toNat) ?_
    rw [hnum, hgrid]
    exact Nat.mul_lt_mul_of_pos_right hupper hscale
  · refine Nat.le_of_mul_le_mul_right ?_ (tenTo_pos x.toNat)
    rw [hgrid, Nat.mul_assoc 10, hnum, ← Nat.mul_assoc 10]
    exact Nat.mul_le_mul_right _ hlower

end Magnitude

/-! ## The search -/

variable {m s : Nat} {x : Int}

/-- What a grid gives is near to the double, and one of its neighbours on the grid. -/
theorem nearestOnGrid?_spec {d : DecimalForm} (h : nearestOnGrid? m s x = some d) :
    NearDecimal m s d.digits d.exponent ∧ d.exponent = x ∧
      d.digits ≤ m * twoTo s * tenTo (-x).toNat / (tenTo x.toNat * twoTo quantumExponent) + 1 := by
  unfold nearestOnGrid? at h
  dsimp only at h
  generalize hnum : m * twoTo s * tenTo (-x).toNat = num at *
  generalize hden : tenTo x.toNat * twoTo quantumExponent = den at *
  split at h
  next hbelow habove =>
    rw [roundsTo_iff] at hbelow habove
    obtain rfl := Option.some.inj h
    refine ⟨?_, rfl, roundEven_le num den⟩
    have hneighbour : roundEven num den = num / den ∨ roundEven num den = num / den + 1 := by
      have hle := le_roundEven num den
      have hge := roundEven_le num den
      omega
    rcases hneighbour with heq | heq
    · rw [heq]
      exact hbelow
    · rw [heq]
      exact habove
  next hbelow _ =>
    rw [roundsTo_iff] at hbelow
    obtain rfl := Option.some.inj h
    exact ⟨hbelow, rfl, Nat.le_succ _⟩
  next _ habove =>
    rw [roundsTo_iff] at habove
    obtain rfl := Option.some.inj h
    exact ⟨habove, rfl, Nat.le_refl _⟩
  next => cases h

/-- Of the two multiples of a unit beside a double one is near to it if the unit is less than a gap,
and not more than half of one where the gap below is narrow. -/
theorem nearby_multiple {den unit : Nat} (hunit : 0 < unit) (hfine : unit < den * twoTo s)
    (hnarrow : m = twoTo 52 → 2 * unit ≤ den * twoTo s) :
    Nearby m s (m * (den * twoTo s) / unit * unit) den ∨
      Nearby m s ((m * (den * twoTo s) / unit + 1) * unit) den := by
  have hsplit := Nat.div_add_mod' (m * (den * twoTo s)) unit
  have hrest := Nat.mod_lt (m * (den * twoTo s)) hunit
  by_cases hhalf : 2 * (m * (den * twoTo s) % unit) ≤ unit
  · left
    constructor <;> omega
  · right
    rw [Nat.add_mul, Nat.one_mul]
    constructor <;> omega

/-- A grid that is fine enough has a decimal that is near to the double. -/
theorem exists_nearestOnGrid?
    (hfine : tenTo x.toNat * twoTo quantumExponent < tenTo (-x).toNat * twoTo s)
    (hnarrow : m = twoTo 52 →
      2 * (tenTo x.toNat * twoTo quantumExponent) ≤ tenTo (-x).toNat * twoTo s) :
    ∃ d, nearestOnGrid? m s x = some d := by
  have hunit : 0 < tenTo x.toNat * twoTo quantumExponent :=
    Nat.mul_pos (tenTo_pos _) (twoTo_pos _)
  have hneighbour := nearby_multiple hunit hfine hnarrow
  unfold nearestOnGrid?
  dsimp only
  rw [show m * twoTo s * tenTo (-x).toNat = m * (tenTo (-x).toNat * twoTo s) by ac_rfl]
  generalize m * (tenTo (-x).toNat * twoTo s) / (tenTo x.toNat * twoTo quantumExponent) =
    below at *
  replace hneighbour : roundsTo m s below x = true ∨ roundsTo m s (below + 1) x = true := by
    rw [roundsTo_iff, roundsTo_iff, NearDecimal, NearDecimal, Nat.mul_assoc, Nat.mul_assoc]
    exact hneighbour
  split
  next => exact ⟨_, rfl⟩
  next => exact ⟨_, rfl⟩
  next => exact ⟨_, rfl⟩
  next hbelow habove => simp [hbelow, habove] at hneighbour

/-- The search ends with what some grid gives, if there is one among those that it comes to. -/
theorem firstOnGrids_spec {magnitude : Int} {more places last : Nat} (hfirst : places ≤ last)
    (hlast : last < places + more)
    (hfound : ∃ d, nearestOnGrid? m s (magnitude - last) = some d) :
    ∃ at_, at_ ≤ last ∧
      nearestOnGrid? m s (magnitude - at_) = some (firstOnGrids m s magnitude more places) := by
  induction more generalizing places with
  | zero => omega
  | succ more ih =>
      unfold firstOnGrids
      split
      next d hd => exact ⟨places, hfirst, hd⟩
      next hnone =>
        refine ih (Nat.lt_of_le_of_ne hfirst ?_) (by omega)
        rintro rfl
        obtain ⟨d, hd⟩ := hfound
        rw [hd] at hnone
        contradiction

/-- The shortest decimal of a double is near to it, and has at most seventeen digits. -/
theorem shortest_spec (h : Canonical m s) (hm : 0 < m) :
    NearDecimal m s (shortest m s).digits (shortest m s).exponent ∧
      (shortest m s).digits ≤ tenTo 17 := by
  have hden : 0 < twoTo quantumExponent := twoTo_pos _
  have hvalue : 0 < m * twoTo s := Nat.mul_pos hm (twoTo_pos s)
  have hbound : twoTo quantumExponent ≤ m * twoTo s * tenTo 400 := by
    have hquantum : twoTo quantumExponent ≤ tenTo 400 := by decide +kernel
    exact hquantum.trans (Nat.le_mul_of_pos_left _ hvalue)
  have hgrid := grid_spec hden hbound
  unfold shortest
  generalize decimalMagnitude (m * twoTo s) (twoTo quantumExponent) = magnitude at *
  -- all grids are given by a unit and a gap, whose powers do not matter any more
  have hshape (places : Nat) : m * (tenTo (-(magnitude - places)).toNat * twoTo s) <
        tenTo (magnitude - places).toNat * twoTo quantumExponent * tenTo places ∧
      tenTo (magnitude - places).toNat * twoTo quantumExponent * tenTo places ≤
        10 * (m * (tenTo (-(magnitude - places)).toNat * twoTo s)) := by
    have hplaces := hgrid places
    rwa [Nat.mul_assoc m, Nat.mul_comm (twoTo s), Nat.mul_comm (twoTo quantumExponent)] at hplaces
  have hfound : ∃ d, nearestOnGrid? m s (magnitude - (17 : Nat)) = some d := by
    have hgap : 0 < tenTo (-(magnitude - (17 : Nat))).toNat * twoTo s :=
      Nat.mul_pos (tenTo_pos _) (twoTo_pos s)
    have hfine := (hshape 17).2
    have hfew := Nat.mul_le_mul_right (tenTo (-(magnitude - (17 : Nat))).toNat * twoTo s)
      (Nat.le_sub_one_of_lt h.1)
    rw [show tenTo 17 = 100000000000000000 from rfl] at hfine
    rw [twoTo_53] at hfew
    refine exists_nearestOnGrid? (by omega) fun hm => ?_
    rw [hm, twoTo_52] at hfine
    omega
  obtain ⟨places, hplaces, hnearest⟩ :=
    firstOnGrids_spec (show 1 ≤ 17 by decide) (show 17 < 1 + 18 by decide) hfound
  obtain ⟨hnear, -, hdigits⟩ := nearestOnGrid?_spec hnearest
  refine ⟨hnear, hdigits.trans ?_⟩
  refine Nat.le_trans ?_ (tenTo_le hplaces)
  rw [show m * twoTo s * tenTo (-(magnitude - places)).toNat =
    m * (tenTo (-(magnitude - places)).toNat * twoTo s) by ac_rfl]
  exact (Nat.div_lt_iff_lt_mul (Nat.mul_pos (tenTo_pos _) hden)).mpr
    ((hshape places).1.trans_eq (Nat.mul_comm _ _))

/-- The shortest decimal of a double is read as the double. -/
theorem ofDecimal_shortest (negative : Bool) (h : Canonical m s) (hm : 0 < m) :
    ofDecimal negative (shortest m s).digits (shortest m s).exponent = .finite negative m s h := by
  obtain ⟨hnear, hdigits⟩ := shortest_spec h hm
  exact ofDecimal_of_near negative h hm (Nat.lt_of_le_of_lt hdigits (by decide +kernel)) hnear

end SupplyGauge.Binary64
