import SupplyGauge.Number.Power
import SupplyGauge.Proofs.Config.Numerals

/-! # Rows of digits

The number of digits of a number tells between which powers of ten it lies, and a row of
digits after another one shifts its value by as many places.
-/

namespace SupplyGauge

@[simp] theorem tenTo_zero : tenTo 0 = 1 := rfl

theorem tenTo_add (a b : Nat) : tenTo (a + b) = tenTo a * tenTo b := Nat.pow_add 10 a b

theorem tenTo_le {a b : Nat} (h : a ≤ b) : tenTo a ≤ tenTo b :=
  Nat.pow_le_pow_right (by decide) h

theorem tenTo_succ (n : Nat) : tenTo (n + 1) = 10 * tenTo n := Nat.pow_succ'

namespace Decimal

theorem digitsOnto_eq (n : Nat) (written : List Nat) :
    digitsOnto n written = digits n ++ written := by
  induction n using Nat.strongRecOn generalizing written with
  | ind n ih =>
      rw [digits, digitsOnto.eq_def n written, digitsOnto.eq_def n []]
      split
      · rfl
      · rw [ih (n / 10) (by omega) (n % 10 :: written), ih (n / 10) (by omega) [n % 10],
          List.append_assoc, List.singleton_append]

theorem digits_of_lt {n : Nat} (h : n < 10) : digits n = [n] := by
  rw [digits, digitsOnto.eq_def, if_pos h]

theorem digits_of_le {n : Nat} (h : 10 ≤ n) : digits n = digits (n / 10) ++ [n % 10] := by
  rw [digits, digitsOnto.eq_def, if_neg (Nat.not_lt.mpr h), digitsOnto_eq]

theorem lt_tenTo_length (n : Nat) : n < tenTo (digits n).length := by
  induction n using Nat.strongRecOn with
  | ind n ih =>
      rcases Nat.lt_or_ge n 10 with h | h
      · rw [digits_of_lt h]
        exact h
      · have hrest := ih (n / 10) (by omega)
        rw [digits_of_le h, List.length_append, List.length_singleton, tenTo_succ]
        omega

/-- A positive number has its first digit in the place that the number of its digits tells. -/
theorem tenTo_length_le {n : Nat} (hn : 0 < n) : tenTo (digits n).length ≤ 10 * n := by
  induction n using Nat.strongRecOn with
  | ind n ih =>
      rcases Nat.lt_or_ge n 10 with h | h
      · rw [digits_of_lt h]
        change 10 ≤ 10 * n
        omega
      · have hrest := ih (n / 10) (by omega) (by omega)
        rw [digits_of_le h, List.length_append, List.length_singleton, tenTo_succ]
        omega

/-- Powers of ten bound the number of digits. -/
theorem length_digits_le {n k : Nat} (hn : 0 < n) (h : n ≤ tenTo k) :
    (digits n).length ≤ k + 1 := by
  refine Nat.not_lt.mp fun hmore => ?_
  have hlarge : tenTo (k + 2) ≤ tenTo (digits n).length := tenTo_le hmore
  have hsmall := tenTo_length_le hn
  rw [tenTo_succ, tenTo_succ] at hlarge
  have hpos := tenTo_pos k
  omega

/-- A positive number does not begin with a zero. -/
theorem digits_head {n : Nat} (hn : 0 < n) : ∃ d ds, digits n = d :: ds ∧ 0 < d := by
  induction n using Nat.strongRecOn with
  | ind n ih =>
      rcases Nat.lt_or_ge n 10 with h | h
      · exact ⟨n, [], digits_of_lt h, hn⟩
      · obtain ⟨d, ds, hdigits, hd⟩ := ih (n / 10) (by omega) (by omega)
        exact ⟨d, ds ++ [n % 10], by rw [digits_of_le h, hdigits, List.cons_append], hd⟩

theorem value_foldl (ds : List Nat) (start : Nat) :
    ds.foldl (fun n d => 10 * n + d) start = start * tenTo ds.length + value ds := by
  induction ds generalizing start with
  | nil => exact (Nat.mul_one start).symm
  | cons d ds ih =>
      rw [value, List.foldl_cons, List.foldl_cons, ih, ih (10 * 0 + d), List.length_cons,
        tenTo_succ, Nat.mul_zero, Nat.zero_add, Nat.add_mul, Nat.add_assoc]
      congr 1
      ac_rfl

theorem value_append (ds es : List Nat) :
    value (ds ++ es) = value ds * tenTo es.length + value es := by
  rw [value, List.foldl_append, value_foldl]
  rfl

theorem value_cons (d : Nat) (ds : List Nat) :
    value (d :: ds) = d * tenTo ds.length + value ds := by
  rw [← List.singleton_append, value_append]
  simp [value]

theorem value_lt {ds : List Nat} (h : ∀ d ∈ ds, d < 10) : value ds < tenTo ds.length := by
  induction ds with
  | nil => exact Nat.one_pos
  | cons d ds ih =>
      have hrest := ih fun e he => h e (List.mem_cons_of_mem _ he)
      have hd : d ≤ 9 := Nat.le_of_lt_succ (h d List.mem_cons_self)
      have hfirst := Nat.mul_le_mul_right (tenTo ds.length) hd
      rw [value_cons, List.length_cons, tenTo_succ]
      omega

theorem value_zeros (k : Nat) : value (List.replicate k 0) = 0 := by
  induction k with
  | zero => rfl
  | succ k ih => rw [List.replicate_succ, value_cons, ih, Nat.zero_mul]

end Decimal

end SupplyGauge
