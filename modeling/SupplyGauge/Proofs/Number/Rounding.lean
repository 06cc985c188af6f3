import Mathlib.Data.Nat.Log
import SupplyGauge.Number.Binary64

/-! # Rounding to doubles

A number of quanta is rounded to the nearest number of quanta that a double has, and beyond all
doubles to infinity. Rounding keeps the order and leaves doubles as they are. Sums and comparisons
of doubles that are not negative are those of their numbers of quanta, rounded once.
-/

namespace SupplyGauge

theorem twoTo_add (a b : Nat) : twoTo (a + b) = twoTo a * twoTo b := Nat.pow_add 2 a b

theorem twoTo_le {a b : Nat} (h : a ≤ b) : twoTo a ≤ twoTo b :=
  Nat.pow_le_pow_right (by decide) h

theorem le_log2 {k n : Nat} (h : twoTo k ≤ n) : k ≤ n.log2 :=
  (Nat.le_log2 (Nat.ne_of_gt (Nat.lt_of_lt_of_le (twoTo_pos k) h))).mpr h

namespace Binary64

/-! ## Rounding to whole numbers -/

theorem le_roundEven (num den : Nat) : num / den ≤ roundEven num den := by
  unfold roundEven
  dsimp only
  repeat' split
  all_goals omega

theorem roundEven_le (num den : Nat) : roundEven num den ≤ num / den + 1 := by
  unfold roundEven
  dsimp only
  repeat' split
  all_goals omega

/-- Up to half of the denominator is left out. -/
theorem roundEven_mul_add (m : Nat) {den rest : Nat} (h : 2 * rest < den) :
    roundEven (m * den + rest) den = m := by
  have hden : 0 < den := by omega
  have hquotient : (m * den + rest) / den = m := by
    rw [Nat.mul_comm, Nat.mul_add_div hden, Nat.div_eq_of_lt (by omega), Nat.add_zero]
  have hrest : (m * den + rest) % den = rest := by
    rw [Nat.mul_comm, Nat.mul_add_mod, Nat.mod_eq_of_lt (by omega)]
  simp only [roundEven, hquotient, hrest, if_pos h]

theorem roundEven_mono {a b : Nat} (h : a ≤ b) (den : Nat) : roundEven a den ≤ roundEven b den := by
  rcases Nat.lt_or_eq_of_le (Nat.div_le_div_right (c := den) h) with hlt | heq
  · exact (roundEven_le a den).trans (Nat.le_trans hlt (le_roundEven b den))
  · -- with the same quotient, the remainders are in the same order
    have hrest : a % den ≤ b % den := by
      have ha := Nat.div_add_mod a den
      have hb := Nat.div_add_mod b den
      rw [← heq] at hb
      omega
    unfold roundEven
    dsimp only
    rw [heq]
    repeat' split
    all_goals omega

/-! ## Rounding to doubles -/

/-- The number of binary places that a double has no room for. -/
def dropped (n : Nat) : Nat := n.log2 + 1 - 53

/-- The first number of quanta beyond all doubles. -/
def limit : Nat := twoTo 2098

/-- The number of quanta of the double nearest to a number of quanta. -/
def nearest (n : Nat) : Nat := min (roundEven n (twoTo (dropped n)) * twoTo (dropped n)) limit

theorem lt_twoTo_dropped (n : Nat) : n < twoTo 53 * twoTo (dropped n) := by
  rw [← twoTo_add]
  exact Nat.lt_of_lt_of_le Nat.lt_log2_self (twoTo_le (by unfold dropped; omega))

theorem twoTo_dropped_le {n : Nat} (h : dropped n ≠ 0) : twoTo 52 * twoTo (dropped n) ≤ n := by
  unfold dropped at h
  have hn : n ≠ 0 := by
    rintro rfl
    simp at h
  rw [← twoTo_add, show 52 + dropped n = n.log2 by unfold dropped; omega]
  exact Nat.log2_self_le hn

theorem roundEven_dropped_le (n : Nat) : roundEven n (twoTo (dropped n)) ≤ twoTo 53 :=
  (roundEven_le _ _).trans
    ((Nat.div_lt_iff_lt_mul (twoTo_pos _)).mpr (lt_twoTo_dropped n))

theorem le_roundEven_dropped {n : Nat} (h : dropped n ≠ 0) :
    twoTo 52 ≤ roundEven n (twoTo (dropped n)) :=
  ((Nat.le_div_iff_mul_le (twoTo_pos _)).mpr (twoTo_dropped_le h)).trans (le_roundEven _ _)

theorem dropped_mono {a b : Nat} (h : a ≤ b) : dropped a ≤ dropped b := by
  have hlog : a.log2 ≤ b.log2 := by
    rw [Nat.log2_eq_log_two, Nat.log2_eq_log_two]
    exact Nat.log_mono_right h
  unfold dropped
  omega

theorem nearest_mono {a b : Nat} (h : a ≤ b) : nearest a ≤ nearest b := by
  suffices hround : roundEven a (twoTo (dropped a)) * twoTo (dropped a) ≤
      roundEven b (twoTo (dropped b)) * twoTo (dropped b) by
    unfold nearest
    omega
  rcases Nat.lt_or_eq_of_le (dropped_mono h) with hlt | heq
  · -- what drops fewer places is rounded to at most the power of two above it
    calc roundEven a (twoTo (dropped a)) * twoTo (dropped a)
      _ ≤ twoTo 53 * twoTo (dropped a) := Nat.mul_le_mul_right _ (roundEven_dropped_le a)
      _ = twoTo 52 * twoTo (dropped a + 1) := by
        rw [← twoTo_add, ← twoTo_add, show 53 + dropped a = 52 + (dropped a + 1) by omega]
      _ ≤ twoTo 52 * twoTo (dropped b) := Nat.mul_le_mul_left _ (twoTo_le hlt)
      _ ≤ roundEven b (twoTo (dropped b)) * twoTo (dropped b) :=
        Nat.mul_le_mul_right _ (le_roundEven_dropped (by omega))
  · rw [heq]
    exact Nat.mul_le_mul_right _ (roundEven_mono h _)

theorem nearest_le_limit (n : Nat) : nearest n ≤ limit := Nat.min_le_right _ _

/-- A significand is exact in every place that it leaves. -/
theorem nearest_shifted {m s : Nat} (hm : m < twoTo 53) (hlimit : m * twoTo s ≤ limit) :
    nearest (m * twoTo s) = m * twoTo s := by
  have hplaces : dropped (m * twoTo s) ≤ s := by
    by_cases hzero : m * twoTo s = 0
    · rw [hzero]
      exact Nat.zero_le s
    · have hlog : (m * twoTo s).log2 < 53 + s := by
        rw [Nat.log2_lt hzero]
        change _ < twoTo (53 + s)
        rw [twoTo_add]
        exact Nat.mul_lt_mul_of_pos_right hm (twoTo_pos s)
      unfold dropped
      omega
  have hsplit : m * twoTo s = m * twoTo (s - dropped (m * twoTo s)) *
      twoTo (dropped (m * twoTo s)) := by
    rw [Nat.mul_assoc, ← twoTo_add, Nat.sub_add_cancel hplaces]
  have hexact : roundEven (m * twoTo s) (twoTo (dropped (m * twoTo s))) =
      m * twoTo (s - dropped (m * twoTo s)) := by
    have hnone : 2 * 0 < twoTo (dropped (m * twoTo s)) := twoTo_pos _
    have hround := roundEven_mul_add (m * twoTo (s - dropped (m * twoTo s))) hnone
    rwa [Nat.add_zero, ← hsplit] at hround
  rw [nearest, hexact, ← hsplit, Nat.min_eq_left hlimit]

theorem nearest_zero : nearest 0 = 0 := by
  have hzero := nearest_shifted (m := 0) (s := 0) (twoTo_pos 53) (by simp)
  rwa [Nat.zero_mul] at hzero

theorem nearest_limit : nearest limit = limit := by
  have hlimit : twoTo 52 * twoTo 2046 = limit := (twoTo_add 52 2046).symm
  rw [← hlimit]
  exact nearest_shifted (by decide) (Nat.le_of_eq hlimit)

theorem nearest_of_limit_le {n : Nat} (h : limit ≤ n) : nearest n = limit :=
  Nat.le_antisymm (nearest_le_limit n) (nearest_limit ▸ nearest_mono h)

/-! ## Doubles that are not negative -/

/-- Whether a double is a number of quanta, where infinity counts as the first one beyond all
doubles. -/
def Measures (x : Binary64) (n : Nat) : Prop :=
  x.quanta? = some (n : Int) ∨ x = .infinite false ∧ n = limit

theorem lt_limit {m s : Nat} (h : Canonical m s) : m * twoTo s < limit := by
  calc m * twoTo s
    _ < twoTo 53 * twoTo s := Nat.mul_lt_mul_of_pos_right h.1 (twoTo_pos s)
    _ ≤ twoTo 53 * twoTo 2045 := Nat.mul_le_mul_left _ (twoTo_le h.2.1)
    _ = limit := (twoTo_add 53 2045).symm

theorem measures_cases {x : Binary64} {n : Nat} (h : Measures x n) :
    x = .infinite false ∧ n = limit ∨ ∃ negative m s canonical,
      x = .finite negative m s canonical ∧ (if negative then -(n : Int) else n) = n ∧
        n = m * twoTo s := by
  rcases h with hquanta | hinfinite
  · cases x with
    | nan => contradiction
    | infinite => contradiction
    | finite negative m s canonical =>
        refine .inr ⟨negative, m, s, canonical, rfl, ?_⟩
        simp only [quanta?, Option.some.injEq] at hquanta
        cases negative with
        | false => exact ⟨rfl, Int.ofNat.inj hquanta.symm⟩
        | true =>
            simp only [if_true] at hquanta ⊢
            omega
  · exact .inl hinfinite

theorem Measures.nearest_eq {x : Binary64} {n : Nat} (h : Measures x n) : nearest n = n := by
  rcases measures_cases h with ⟨-, hn⟩ | ⟨_, m, s, canonical, -, -, rfl⟩
  · rw [hn, nearest_limit]
  · exact nearest_shifted canonical.1 (Nat.le_of_lt (lt_limit canonical))

/-- What is counted from zero is compared as it is counted. -/
theorem Measures.le_iff {x y : Binary64} {a b : Nat} (hx : Measures x a) (hy : Measures y b) :
    x.le y = true ↔ a ≤ b := by
  rcases measures_cases hx with ⟨rfl, ha⟩ | ⟨negx, mx, sx, cx, rfl, hnegx, ha⟩
  all_goals rcases measures_cases hy with ⟨rfl, hb⟩ | ⟨negy, my, sy, cy, rfl, hnegy, hb⟩
  · simp [le, lt, same, ha, hb]
  · have hlt := lt_limit cy
    rw [← hb, ← ha] at hlt
    simp [le, lt, same, hlt]
  · have hlt := lt_limit cx
    rw [← hb, ← ha] at hlt
    simp [le, lt, same, Nat.le_of_lt hlt]
  · simp only [le, lt, same, ← ha, ← hb, hnegx, hnegy]
    rcases Nat.lt_trichotomy a b with hlt | rfl | hlt
    · simp [hlt, Nat.le_of_lt hlt]
    · simp
    · simp [hlt, Nat.lt_asymm hlt]

/-- What is not before a double that is not negative is not negative either. -/
theorem Measures.exists_of_le {x y : Binary64} {a : Nat} (hx : Measures x a)
    (hle : x.le y = true) : ∃ b, Measures y b ∧ a ≤ b := by
  suffices hy : ∃ b, Measures y b by
    obtain ⟨b, hb⟩ := hy
    exact ⟨b, hb, (hx.le_iff hb).mp hle⟩
  rcases measures_cases hx with ⟨rfl, -⟩ | ⟨negx, mx, sx, cx, rfl, hnegx, ha⟩
  all_goals
    rcases y with _ | (_ | _) | ⟨_ | _, m, s, canonical⟩
    case infinite.false => exact ⟨limit, .inr ⟨rfl, rfl⟩⟩
    case finite.false => exact ⟨m * twoTo s, .inl rfl⟩
  case inr.finite.true =>
    have hzero : m * twoTo s = 0 := by
      simp only [le, lt, same, ← ha, hnegx, if_true] at hle
      simp at hle
      omega
    exact ⟨0, .inl (by simp [quanta?, hzero])⟩
  all_goals simp [le, lt, same] at hle

theorem Measures.le_trans {x y z : Binary64} {a : Nat} (hx : Measures x a) (hxy : x.le y = true)
    (hyz : y.le z = true) : x.le z = true := by
  obtain ⟨b, hy, hab⟩ := hx.exists_of_le hxy
  obtain ⟨c, hz, hbc⟩ := hy.exists_of_le hyz
  exact (hx.le_iff hz).mpr (Nat.le_trans hab hbc)

theorem measures_pack {m s : Nat} (hm : m < twoTo 53) (hs : s = 0 ∨ twoTo 52 ≤ m) :
    Measures (pack false m s) (min (m * twoTo s) limit) := by
  unfold pack
  split
  next h =>
    rw [Nat.min_eq_left (Nat.le_of_lt (lt_limit h))]
    exact .inl rfl
  next h =>
    refine .inr ⟨rfl, Nat.min_eq_right ?_⟩
    have hshift : 2046 ≤ s := by
      by_contra hshift
      exact h ⟨hm, by omega, hs⟩
    calc limit
      _ = twoTo 52 * twoTo 2046 := twoTo_add 52 2046
      _ ≤ m * twoTo s := Nat.mul_le_mul (hs.resolve_left (by omega)) (twoTo_le hshift)

theorem measures_ofQuanta (n : Nat) : Measures (ofQuanta false n 1) (nearest n) := by
  have hround : ofQuanta false n 1 =
      if roundEven n (twoTo (dropped n)) = twoTo 53 then pack false (twoTo 52) (dropped n + 1)
      else pack false (roundEven n (twoTo (dropped n))) (dropped n) := by
    simp only [ofQuanta, Nat.div_one, Nat.one_mul]
    rfl
  rw [hround, nearest]
  split
  next hcarry =>
    rw [hcarry, show twoTo 53 * twoTo (dropped n) = twoTo 52 * twoTo (dropped n + 1) by
      rw [← twoTo_add, ← twoTo_add, ← Nat.add_assoc, Nat.add_right_comm]]
    exact measures_pack (by decide) (.inr (Nat.le_refl _))
  next hcarry =>
    refine measures_pack (Nat.lt_of_le_of_ne (roundEven_dropped_le n) hcarry) ?_
    by_cases hdropped : dropped n = 0
    · exact .inl hdropped
    · exact .inr (le_roundEven_dropped hdropped)

/-- A sum is what is nearest to the sum of the numbers of quanta. -/
theorem Measures.add {x y : Binary64} {a b : Nat} (hx : Measures x a) (hy : Measures y b) :
    Measures (x.add y) (nearest (a + b)) := by
  rcases measures_cases hx with ⟨rfl, ha⟩ | ⟨negx, mx, sx, cx, rfl, hnegx, ha⟩
  all_goals rcases measures_cases hy with ⟨rfl, hb⟩ | ⟨negy, my, sy, cy, rfl, hnegy, hb⟩
  · exact .inr ⟨rfl, nearest_of_limit_le (by omega)⟩
  · exact .inr ⟨rfl, nearest_of_limit_le (by omega)⟩
  · exact .inr ⟨rfl, nearest_of_limit_le (by omega)⟩
  · simp only [Binary64.add, ← ha, ← hb, hnegx, hnegy]
    split
    next hzero =>
      obtain ⟨rfl, rfl⟩ : a = 0 ∧ b = 0 := by omega
      rw [Nat.add_zero, nearest_zero]
      cases negx <;> cases negy <;> exact .inl rfl
    next hpos =>
      rw [decide_eq_false (by omega), show (a + b : Int).natAbs = a + b from rfl]
      exact measures_ofQuanta (a + b)

/-- Whole seconds. -/
theorem measures_ofInt (seconds : Nat) :
    Measures (ofInt seconds) (nearest (seconds * twoTo quantumExponent)) := by
  have hround : ofInt seconds = ofQuanta false (seconds * twoTo quantumExponent) 1 := by
    unfold ofInt ofRatio
    rw [decide_eq_false (by omega)]
    rfl
  rw [hround]
  exact measures_ofQuanta _

/-- What is less than half of the last place is lost in a sum. -/
theorem nearest_add_eq {n rest : Nat} (hn : nearest n = n) (hrest : 2 * rest < twoTo (dropped n)) :
    nearest (n + rest) = n := by
  by_cases hlimit : limit ≤ n
  · rw [nearest_of_limit_le (Nat.le_add_right_of_le hlimit), ← nearest_of_limit_le hlimit, hn]
  · have hexact : roundEven n (twoTo (dropped n)) * twoTo (dropped n) = n := by
      unfold nearest at hn
      omega
    generalize roundEven n (twoTo (dropped n)) = m at hexact
    have hm : m < twoTo 53 := by
      have hlt : m * twoTo (dropped n) < twoTo 53 * twoTo (dropped n) := by
        rw [hexact]
        exact lt_twoTo_dropped n
      exact Nat.lt_of_mul_lt_mul_right hlt
    have hplaces : dropped (n + rest) = dropped n := by
      refine Nat.le_antisymm ?_ (dropped_mono (Nat.le_add_right n rest))
      have hlt : n + rest < twoTo (53 + dropped n) := by
        calc n + rest
          _ < m * twoTo (dropped n) + twoTo (dropped n) := by omega
          _ = (m + 1) * twoTo (dropped n) := (Nat.succ_mul _ _).symm
          _ ≤ twoTo 53 * twoTo (dropped n) := Nat.mul_le_mul_right _ hm
          _ = twoTo (53 + dropped n) := (twoTo_add _ _).symm
      by_cases hzero : n + rest = 0
      · rw [hzero]
        exact Nat.zero_le _
      · have hlog : (n + rest).log2 < 53 + dropped n := (Nat.log2_lt hzero).mpr hlt
        unfold dropped at hlog ⊢
        omega
    have hround : roundEven (n + rest) (twoTo (dropped n)) = m := by
      have hpart := roundEven_mul_add m hrest
      rwa [hexact] at hpart
    rw [nearest, hplaces, hround, hexact, Nat.min_eq_left (Nat.le_of_not_le hlimit)]

end Binary64

end SupplyGauge
