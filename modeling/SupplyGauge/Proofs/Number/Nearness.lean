import SupplyGauge.Number.Shortest
import SupplyGauge.Proofs.Number.Digits
import SupplyGauge.Proofs.Number.Rounding

/-! # What rounds to a double

A ratio of quanta rounds to a double if it is at most half a gap away from it, and less
than that if the significand is odd. Below a power of two the gap is half as wide. The
test of a decimal and the rounding of a ratio agree on this, so what passes the test is
read as the double.
-/

namespace SupplyGauge.Binary64

/-- A ratio of quanta that is no farther from a significand at a shift than half of the gap on its
side, where a tie needs an even significand. -/
structure Nearby (m s num den : Nat) : Prop where
  above : 2 * num ≤ 2 * (m * (den * twoTo s)) + den * twoTo s
  below : 2 * (m * (den * twoTo s)) ≤ 2 * num + den * twoTo s
  untied : m % 2 = 1 → 2 * num < 2 * (m * (den * twoTo s)) + den * twoTo s ∧
    2 * (m * (den * twoTo s)) < 2 * num + den * twoTo s
  narrow : m = twoTo 52 → 0 < s → 4 * (m * (den * twoTo s)) ≤ 4 * num + den * twoTo s

theorem twoTo_52 : twoTo 52 = 4503599627370496 := by decide

theorem twoTo_53 : twoTo 53 = 9007199254740992 := by decide

/-! ## Ratios -/

/-- What is at most half of the denominator away from a multiple is rounded to it. -/
theorem roundEven_eq {m num den : Nat} (hden : 0 < den)
    (habove : 2 * num ≤ 2 * (m * den) + den) (hbelow : 2 * (m * den) ≤ 2 * num + den)
    (huntied : m % 2 = 1 → 2 * num < 2 * (m * den) + den ∧ 2 * (m * den) < 2 * num + den) :
    roundEven num den = m := by
  have hsplit : den * (num / den) + num % den = num := Nat.div_add_mod num den
  have hrest : num % den < den := Nat.mod_lt num hden
  by_cases hside : m * den ≤ num
  · have hquotient : num / den = m := by
      refine (Nat.div_eq_iff hden).mpr ⟨hside, ?_⟩
      omega
    rw [hquotient, Nat.mul_comm] at hsplit
    unfold roundEven
    dsimp only
    rw [hquotient]
    repeat' split
    all_goals omega
  · -- below the multiple the quotient is one less
    obtain ⟨k, rfl⟩ : ∃ k, m = k + 1 := by
      refine Nat.exists_eq_succ_of_ne_zero fun hzero => hside ?_
      rw [hzero, Nat.zero_mul]
      exact Nat.zero_le num
    rw [Nat.add_mul, Nat.one_mul] at hside habove hbelow huntied
    have hquotient : num / den = k := by
      refine (Nat.div_eq_iff hden).mpr ⟨?_, ?_⟩ <;> omega
    rw [hquotient, Nat.mul_comm] at hsplit
    unfold roundEven
    dsimp only
    rw [hquotient]
    repeat' split
    all_goals omega

theorem dropped_eq {n s : Nat} (hlt : n < twoTo 53 * twoTo s)
    (hle : s = 0 ∨ twoTo 52 * twoTo s ≤ n) : dropped n = s := by
  rw [← twoTo_add] at hlt
  by_cases hzero : n = 0
  · subst hzero
    rcases hle with rfl | hle
    · rfl
    · exact absurd (Nat.mul_pos (twoTo_pos 52) (twoTo_pos s)) (Nat.not_lt.mpr hle)
  · have hupper : n.log2 < 53 + s := (Nat.log2_lt hzero).mpr hlt
    unfold dropped
    rcases hle with rfl | hle
    · omega
    · rw [← twoTo_add] at hle
      have hlower : 52 + s ≤ n.log2 := le_log2 hle
      omega

theorem ofQuanta_eq (negative : Bool) {num den s : Nat} (hshift : dropped (num / den) = s) :
    ofQuanta negative num den =
      if roundEven num (den * twoTo s) = twoTo 53 then pack negative (twoTo 52) (s + 1)
      else pack negative (roundEven num (den * twoTo s)) s := by
  subst hshift
  rfl

theorem pack_eq (negative : Bool) {m s : Nat} (h : Canonical m s) :
    pack negative m s = .finite negative m s h := dif_pos h

/-- Closely below a power of two a ratio is rounded by a finer shift, up to the power. -/
theorem ofQuanta_below_power (negative : Bool) {t num den : Nat}
    (h : Canonical (twoTo 52) (t + 1)) (hden : 0 < den)
    (hless : num < twoTo 52 * (den * twoTo (t + 1)))
    (hnarrow : 4 * (twoTo 52 * (den * twoTo (t + 1))) ≤ 4 * num + den * twoTo (t + 1)) :
    ofQuanta negative num den = .finite negative (twoTo 52) (t + 1) h := by
  have hgap : 0 < den * twoTo t := Nat.mul_pos hden (twoTo_pos t)
  have hdouble : den * twoTo (t + 1) = 2 * (den * twoTo t) := by
    rw [twoTo_add, Nat.mul_left_comm 2, Nat.mul_comm (twoTo t)]
    rfl
  simp only [hdouble, twoTo_52] at hnarrow hless
  have hshift : dropped (num / den) = t := by
    refine dropped_eq ?_ (.inr ?_)
    · rw [Nat.div_lt_iff_lt_mul hden, Nat.mul_assoc, Nat.mul_comm (twoTo t), twoTo_53]
      omega
    · rw [Nat.le_div_iff_mul_le hden, Nat.mul_assoc, Nat.mul_comm (twoTo t), twoTo_52]
      omega
  have hround : roundEven num (den * twoTo t) = twoTo 53 := by
    refine roundEven_eq hgap ?_ ?_ ?_
    all_goals
      rw [twoTo_53]
      omega
  rw [ofQuanta_eq negative hshift, if_pos hround, pack_eq negative h]

/-- A ratio that is near to a double is rounded to it. -/
theorem ofQuanta_of_nearby (negative : Bool) {m s num den : Nat} (h : Canonical m s)
    (hden : 0 < den) (hnear : Nearby m s num den) :
    ofQuanta negative num den = .finite negative m s h := by
  obtain ⟨habove, hbelow, huntied, hnarrow⟩ := hnear
  have hgap : 0 < den * twoTo s := Nat.mul_pos hden (twoTo_pos s)
  by_cases hside : s = 0 ∨ twoTo 52 * (den * twoTo s) ≤ num
  · have hfew : num < twoTo 53 * twoTo s * den := by
      have hmany : m * (den * twoTo s) + den * twoTo s ≤ twoTo 53 * (den * twoTo s) := by
        rw [← Nat.succ_mul]
        exact Nat.mul_le_mul_right (den * twoTo s) h.1
      rw [Nat.mul_assoc, Nat.mul_comm (twoTo s)]
      omega
    have hshift : dropped (num / den) = s := by
      refine dropped_eq ((Nat.div_lt_iff_lt_mul hden).mpr hfew) (hside.imp_right fun hle => ?_)
      rw [Nat.le_div_iff_mul_le hden, Nat.mul_assoc, Nat.mul_comm (twoTo s)]
      exact hle
    rw [ofQuanta_eq negative hshift, roundEven_eq hgap habove hbelow huntied,
      if_neg (Nat.ne_of_lt h.1), pack_eq]
  · -- the double is a power of two, since the others have their neighbours at the same shift
    obtain ⟨hs, hless⟩ := not_or.mp hside
    obtain ⟨t, rfl⟩ : ∃ t, s = t + 1 := Nat.exists_eq_succ_of_ne_zero hs
    obtain rfl : m = twoTo 52 := by
      refine Nat.le_antisymm (Nat.not_lt.mp fun hlt => hless ?_) (h.2.2.resolve_left hs)
      have hmore := Nat.mul_le_mul_right (den * twoTo (t + 1)) hlt
      rw [Nat.succ_mul] at hmore
      omega
    exact ofQuanta_below_power negative h hden (Nat.not_le.mp hless) (hnarrow rfl (Nat.succ_pos t))

theorem le_iff_of_ratio {a b a' b' d d' : Nat} (hd : 0 < d) (hd' : 0 < d')
    (ha : a * d' = a' * d) (hb : b * d' = b' * d) : a ≤ b ↔ a' ≤ b' := by
  rw [← Nat.mul_le_mul_right_iff hd', ha, hb, Nat.mul_le_mul_right_iff hd]

theorem lt_iff_of_ratio {a b a' b' d d' : Nat} (hd : 0 < d) (hd' : 0 < d')
    (ha : a * d' = a' * d) (hb : b * d' = b' * d) : a < b ↔ a' < b' := by
  rw [← Nat.not_le, ← Nat.not_le, le_iff_of_ratio hd hd' hb ha]

/-- Nearness only depends on the ratio. -/
theorem Nearby.of_ratio {m s num den num' den' : Nat} (h : Nearby m s num den) (hden : 0 < den)
    (hden' : 0 < den') (hratio : num * den' = num' * den) : Nearby m s num' den' := by
  obtain ⟨habove, hbelow, huntied, hnarrow⟩ := h
  -- all conditions compare with the gap and its multiple, and these are in the same ratio
  have hgap : den * twoTo s * den' = den' * twoTo s * den := by ac_rfl
  have hvalue : m * (den * twoTo s) * den' = m * (den' * twoTo s) * den := by ac_rfl
  have hmultiple (k a a' : Nat) (h : a * den' = a' * den) : k * a * den' = k * a' * den := by
    rw [Nat.mul_assoc, Nat.mul_assoc, h]
  have hsum (k a a' : Nat) (h : a * den' = a' * den) :
      (k * a + den * twoTo s) * den' = (k * a' + den' * twoTo s) * den := by
    rw [Nat.add_mul, Nat.add_mul, hmultiple k a a' h, hgap]
  have htwice := hmultiple 2 _ _ hratio
  have htwiceValue := hmultiple 2 _ _ hvalue
  constructor
  · exact (le_iff_of_ratio hden hden' htwice (hsum 2 _ _ hvalue)).mp habove
  · exact (le_iff_of_ratio hden hden' htwiceValue (hsum 2 _ _ hratio)).mp hbelow
  · intro hodd
    obtain ⟨hlt, hgt⟩ := huntied hodd
    exact ⟨(lt_iff_of_ratio hden hden' htwice (hsum 2 _ _ hvalue)).mp hlt,
      (lt_iff_of_ratio hden hden' htwiceValue (hsum 2 _ _ hratio)).mp hgt⟩
  · intro hm hs
    exact (le_iff_of_ratio hden hden' (hmultiple 4 _ _ hvalue) (hsum 4 _ _ hratio)).mp
      (hnarrow hm hs)

/-! ## Decimals -/

/-- A decimal number of which so many quanta are near to a double. -/
def NearDecimal (m s c : Nat) (x : Int) : Prop :=
  Nearby m s (c * tenTo x.toNat * twoTo quantumExponent) (tenTo (-x).toNat)

theorem roundsTo_iff {m s c : Nat} {x : Int} : roundsTo m s c x = true ↔ NearDecimal m s c x := by
  unfold roundsTo NearDecimal
  dsimp only
  have heven : m = twoTo 52 → m % 2 = 0 := by
    rintro rfl
    decide
  have hvalue : m * twoTo s * tenTo (-x).toNat = m * (tenTo (-x).toNat * twoTo s) := by ac_rfl
  rw [hvalue]
  generalize c * tenTo x.toNat * twoTo quantumExponent = num
  constructor
  · intro h
    constructor
    all_goals
      generalize tenTo (-x).toNat * twoTo s = gap at *
      generalize m * gap = value at *
      split at h
      · split at h <;> (rw [decide_eq_true_eq] at h; omega)
      · split at h <;> split at h <;> (rw [decide_eq_true_eq] at h; omega)
  · rintro ⟨habove, hbelow, huntied, hnarrow⟩
    generalize tenTo (-x).toNat * twoTo s = gap at *
    generalize m * gap = value at *
    repeat' split
    all_goals
      rw [decide_eq_true_eq]
      omega

theorem shift_ratio (c unit k : Nat) (x : Int) :
    c * tenTo x.toNat * unit * tenTo (-(x - k)).toNat =
      c * tenTo k * tenTo (x - k).toNat * unit * tenTo (-x).toNat := by
  have hplaces : tenTo x.toNat * tenTo (-(x - k)).toNat =
      tenTo k * tenTo (x - k).toNat * tenTo (-x).toNat := by
    rw [← tenTo_add, ← tenTo_add, ← tenTo_add]
    congr 1
    omega
  calc c * tenTo x.toNat * unit * tenTo (-(x - k)).toNat
    _ = c * unit * (tenTo x.toNat * tenTo (-(x - k)).toNat) := by ac_rfl
    _ = c * unit * (tenTo k * tenTo (x - k).toNat * tenTo (-x).toNat) := by rw [hplaces]
    _ = c * tenTo k * tenTo (x - k).toNat * unit * tenTo (-x).toNat := by ac_rfl

/-- Zeros at the end of the digits can as well stand in the exponent. -/
theorem nearDecimal_shift {m s c k : Nat} {x : Int} :
    NearDecimal m s (c * tenTo k) (x - k) ↔ NearDecimal m s c x := by
  have hratio := shift_ratio c (twoTo quantumExponent) k x
  constructor
  · intro h
    exact Nearby.of_ratio h (tenTo_pos _) (tenTo_pos _) hratio.symm
  · intro h
    exact Nearby.of_ratio h (tenTo_pos _) (tenTo_pos _) hratio

section Limits

variable {m s c : Nat} {x : Int}

theorem NearDecimal.digits_pos (h : NearDecimal m s c x) (hm : 0 < m) : 0 < c := by
  have hgap : 0 < tenTo (-x).toNat * twoTo s := Nat.mul_pos (tenTo_pos _) (twoTo_pos s)
  have hbelow := h.below
  have hvalue := Nat.mul_le_mul_right (tenTo (-x).toNat * twoTo s) hm
  refine Nat.pos_of_ne_zero ?_
  rintro rfl
  rw [Nat.zero_mul, Nat.zero_mul] at hbelow
  omega

/-- Decimals near to a double are not larger than all doubles. -/
theorem NearDecimal.exponent_lt (h : NearDecimal m s c x) (hcanonical : Canonical m s)
    (hm : 0 < m) : x < 309 := by
  have hc := h.digits_pos hm
  by_contra hlarge
  have hpos : (-x).toNat = 0 := by omega
  have habove := h.above
  rw [hpos, tenTo_zero, Nat.one_mul] at habove
  have hvalue : m * twoTo s + twoTo s ≤ twoTo 2098 := by
    calc m * twoTo s + twoTo s
      _ = (m + 1) * twoTo s := (Nat.succ_mul m _).symm
      _ ≤ twoTo 53 * twoTo 2045 := Nat.mul_le_mul hcanonical.1 (twoTo_le hcanonical.2.1)
      _ = twoTo 2098 := (twoTo_add 53 2045).symm
  have hten : tenTo 309 ≤ tenTo x.toNat := tenTo_le (by omega)
  have hmany : tenTo 309 * twoTo 1074 ≤ c * tenTo x.toNat * twoTo quantumExponent := by
    refine Nat.mul_le_mul_right (twoTo 1074) ?_
    exact hten.trans (Nat.le_mul_of_pos_left _ hc)
  have hbeyond : twoTo 2098 < tenTo 309 * twoTo 1074 := by decide +kernel
  omega

/-- Decimals near to a positive double are not smaller than all positive doubles. -/
theorem NearDecimal.lt_exponent (h : NearDecimal m s c x) (hm : 0 < m) (hc : c < twoTo 100) :
    -354 < x := by
  by_contra hsmall
  have hneg : x.toNat = 0 := by omega
  have hbelow := h.below
  have hvalue := Nat.mul_le_mul_right (tenTo (-x).toNat * twoTo s) hm
  have hten : tenTo 354 ≤ tenTo (-x).toNat * twoTo s := by
    calc tenTo 354
      _ ≤ tenTo (-x).toNat := tenTo_le (by omega)
      _ ≤ tenTo (-x).toNat * twoTo s := Nat.le_mul_of_pos_right _ (twoTo_pos s)
  have hfew : c * tenTo x.toNat * twoTo quantumExponent ≤ twoTo 1174 := by
    rw [hneg, tenTo_zero, Nat.mul_one, show 1174 = 100 + 1074 from rfl, twoTo_add]
    exact Nat.mul_le_mul_right (twoTo 1074) (Nat.le_of_lt hc)
  have hbeyond : 2 * twoTo 1174 < tenTo 354 := by decide +kernel
  omega

/-- A decimal near to a double is read as the double. It does not run into the limits beyond which
exponents decide alone. -/
theorem ofDecimal_of_near (negative : Bool) (h : Canonical m s) (hm : 0 < m)
    (hc : c < twoTo 100) (hnear : NearDecimal m s c x) :
    ofDecimal negative c x = .finite negative m s h := by
  have hpos := hnear.digits_pos hm
  have hupper := hnear.exponent_lt h hm
  have hlower := hnear.lt_exponent hm hc
  have hlog : c.log2 < 100 := (Nat.log2_lt (Nat.ne_of_gt hpos)).mpr hc
  have hround := ofQuanta_of_nearby negative h (tenTo_pos _) hnear
  unfold ofDecimal
  dsimp only
  rw [if_neg (Nat.ne_of_gt hpos), if_neg (by omega), if_neg (by omega)]
  split
  next hx =>
    rw [show (-x).toNat = 0 by omega] at hround
    exact hround
  next hx =>
    rw [show x.toNat = 0 by omega, tenTo_zero, Nat.mul_one] at hround
    exact hround

end Limits

end SupplyGauge.Binary64
