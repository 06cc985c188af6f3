import SupplyGauge.Proofs.Number.Nearness

/-! # Integers that are doubles

Every integer of at most 2^53, of either sign, is a double: nothing is rounded when it is made one,
and its decimal text is read as this double.
-/

namespace SupplyGauge

namespace Decimal

/-- The decimal text of an integer consists of digits, and of a minus if it is negative. -/
theorem forall_mem_ofInt {p : Char → Prop} (hminus : p '-') (hdigits : ∀ d < 10, p (digitChar d))
    (n : Int) : ∀ c ∈ ofInt n, p c := by
  have hnat : ∀ c ∈ ofNat n.natAbs, p c := by
    intro c hc
    obtain ⟨d, hd, rfl⟩ := List.mem_map.mp hc
    exact hdigits d (digits_lt hd)
  unfold ofInt
  split
  · exact List.forall_mem_cons.mpr ⟨hminus, hnat⟩
  · exact hnat

theorem ofInt_ne_nil (n : Int) : ofInt n ≠ [] := by
  unfold ofInt
  split
  · exact List.cons_ne_nil _ _
  · exact ofNat_ne_nil _

/-- The decimal text of an integer. -/
def text (n : Int) : String := String.ofList (ofInt n)

end Decimal

namespace Binary64

/-- A ratio that is a double is near to it. -/
theorem nearby_exact (m s : Nat) {den : Nat} (hden : 0 < den) :
    Nearby m s (m * (den * twoTo s)) den := by
  have hgap : 0 < den * twoTo s := Nat.mul_pos hden (twoTo_pos s)
  constructor <;> omega

/-- A number up to 2^53 has as many quanta as a significand at some shift. -/
theorem exists_canonical {k : Nat} (h : k ≤ twoTo 53) :
    ∃ m s, Canonical m s ∧ m * twoTo s = k * twoTo quantumExponent := by
  rcases Nat.eq_zero_or_pos k with rfl | hk
  · exact ⟨0, 0, by decide, by simp⟩
  rcases Nat.lt_or_eq_of_le h with hless | rfl
  · -- the significand is moved up until its first place is the highest one
    have hlog : k.log2 ≤ 52 := Nat.lt_succ_iff.mp ((Nat.log2_lt (Nat.ne_of_gt hk)).mpr hless)
    have hplaces : 52 - k.log2 + (1022 + k.log2) = 1074 := by omega
    refine ⟨k * twoTo (52 - k.log2), 1022 + k.log2, ⟨?_, by omega, .inr ?_⟩, ?_⟩
    · calc k * twoTo (52 - k.log2)
        _ < twoTo (k.log2 + 1) * twoTo (52 - k.log2) :=
          Nat.mul_lt_mul_of_pos_right Nat.lt_log2_self (twoTo_pos _)
        _ = twoTo 53 := by rw [← twoTo_add, show k.log2 + 1 + (52 - k.log2) = 53 by omega]
    · calc twoTo 52
        _ = twoTo k.log2 * twoTo (52 - k.log2) := by
          rw [← twoTo_add, show k.log2 + (52 - k.log2) = 52 by omega]
        _ ≤ k * twoTo (52 - k.log2) :=
          Nat.mul_le_mul_right _ (Nat.log2_self_le (Nat.ne_of_gt hk))
    · rw [Nat.mul_assoc, ← twoTo_add, hplaces]
      rfl
  · refine ⟨twoTo 52, 1075, by decide, ?_⟩
    rw [← twoTo_add, ← twoTo_add]
    rfl

variable {n : Int}

/-- An integer up to 2^53 is a double with its sign and its quanta. -/
theorem ofInt_exact (h : n.natAbs ≤ twoTo 53) : ∃ m s canonical,
    ofInt n = .finite (n < 0) m s canonical ∧
      m * twoTo s = n.natAbs * twoTo quantumExponent := by
  obtain ⟨m, s, hcanonical, hquanta⟩ := exists_canonical h
  refine ⟨m, s, hcanonical, ?_, hquanta⟩
  have hnear := nearby_exact m s Nat.one_pos
  rw [Nat.one_mul, hquanta] at hnear
  exact ofQuanta_of_nearby _ hcanonical Nat.one_pos hnear

theorem signed_natAbs (n : Int) :
    (if decide (n < 0) = true then -(n.natAbs : Int) else n.natAbs) = n := by
  simp only [decide_eq_true_eq]
  split <;> omega

/-- The double of an integer is the integer, counted in quanta. -/
theorem quanta?_ofInt (h : n.natAbs ≤ twoTo 53) :
    (ofInt n).quanta? = some (n * twoTo quantumExponent) := by
  obtain ⟨m, s, canonical, hdouble, hquanta⟩ := ofInt_exact h
  rw [hdouble, quanta?, hquanta, Int.natCast_mul]
  have hsign := signed_natAbs n
  split at hsign
  next hneg => rw [if_pos hneg, ← Int.neg_mul, hsign]
  next hpos => rw [if_neg hpos, hsign]

/-- The double of an integer is known to be this integer. -/
theorem integer?_ofInt (h : n.natAbs ≤ twoTo 53) : (ofInt n).integer? = some n := by
  obtain ⟨m, s, canonical, hdouble, hquanta⟩ := ofInt_exact h
  rw [hdouble, integer?, hquanta, Nat.mul_mod_left, if_pos rfl,
    Nat.mul_div_cancel _ (twoTo_pos quantumExponent)]
  exact congrArg some (signed_natAbs n)

/-- A number up to 2^53 is far from the limits beyond which exponents decide alone. -/
theorem ofDecimal_whole (negative : Bool) {k : Nat} (h : k ≤ twoTo 53) :
    ofDecimal negative k 0 = ofRatio negative k 1 := by
  unfold ofDecimal
  by_cases hzero : k = 0
  · subst hzero
    rw [if_pos rfl, ofRatio, Nat.zero_mul]
    rfl
  · have hlog : k.log2 < 54 :=
      (Nat.log2_lt hzero).mpr (Nat.lt_of_le_of_lt h (by decide))
    dsimp only
    rw [if_neg hzero, if_neg (by omega), if_neg (by omega), if_pos (Int.le_refl 0)]
    exact congrArg (ofRatio negative · 1) (Nat.mul_one k)

end Binary64

namespace Numeral

open Text (isDigit)

/-- A row of digits is a real number without a fraction. -/
theorem magnitude?_digits (negative : Bool) {digits : List Char} (hne : digits ≠ [])
    (h : ∀ c ∈ digits, isDigit c = true) : magnitude? negative digits =
      some (.ofDecimal negative (Decimal.value (digitValues digits)) 0) := by
  have hgroup := digitGroup_digits h false
  have hvalues : digitValues digits ≠ [] := fun hnil =>
    hne (List.eq_nil_of_length_eq_zero (by rw [← length_digitValues h, hnil, List.length_nil]))
  unfold magnitude?
  simp [hgroup, hvalues, exponent?]

/-- Decimal digits, perhaps after a minus, are read as the signed number. -/
theorem real_ofNat (negative : Bool) (k : Nat) :
    real (String.ofList (if negative then '-' :: Decimal.ofNat k else Decimal.ofNat k)) =
      .ok (.ofDecimal negative k 0) := by
  have hdigits := Decimal.isDigit_ofNat (n := k)
  have hne := Decimal.ofNat_ne_nil k
  have hmagnitude := magnitude?_digits negative hne hdigits
  rw [digitValues_ofNat, Decimal.value_digits] at hmagnitude
  have hpadding : ∀ c ∈ Decimal.ofNat k, Text.isPadding c = false := fun c hc =>
    Text.isPadding_of_isDigit (hdigits c hc)
  obtain ⟨c, rest, hcons⟩ := List.exists_cons_of_ne_nil hne
  rw [hcons] at hmagnitude hpadding hdigits ⊢
  have hnamed := named?_of_isDigit rest (hdigits c List.mem_cons_self) negative
  unfold real
  rw [String.toList_ofList]
  cases negative with
  | false =>
      rw [if_neg Bool.false_ne_true, trim_of_none hpadding,
        sign_of_isDigit rest (hdigits c List.mem_cons_self)]
      simp only [hnamed, hmagnitude]
  | true =>
      have hminus : ∀ d ∈ '-' :: c :: rest, Text.isPadding d = false :=
        List.forall_mem_cons.mpr ⟨by decide +kernel, hpadding⟩
      rw [if_pos rfl, trim_of_none hminus, sign]
      simp only [hnamed, hmagnitude]

/-- The decimal text of an integer up to 2^53 is read as the integer. -/
theorem real_text {n : Int} (h : n.natAbs ≤ twoTo 53) :
    real (Decimal.text n) = .ok (.ofInt n) := by
  have hread := real_ofNat (decide (n < 0)) n.natAbs
  rw [Binary64.ofDecimal_whole _ h] at hread
  simpa [Decimal.text, Decimal.ofInt, Binary64.ofInt] using hread

end Numeral

end SupplyGauge
