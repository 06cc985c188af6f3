/-! # Decimal numerals

Natural numbers and integers as decimal text. `digits` is the digit list of a
number, most significant first and without leading zeros, and `value` reads a
digit list back; `value_digits` says that the two agree.
-/

namespace SupplyGauge.Decimal

/-- Digits of `n` in front of the digits already written. -/
def digitsOnto (n : Nat) (written : List Nat) : List Nat :=
  if n < 10 then n :: written else digitsOnto (n / 10) (n % 10 :: written)
termination_by n

/-- Decimal digits, most significant first; zero has the one digit `0`. -/
def digits (n : Nat) : List Nat := digitsOnto n []

def value (ds : List Nat) : Nat := ds.foldl (fun n d => 10 * n + d) 0

/-- The ASCII character of a digit. -/
def digitChar (d : Nat) : Char := Char.ofNat (48 + d)

/-- The digit an ASCII character stands for. -/
def asciiDigit? (c : Char) : Option Nat :=
  if 48 ≤ c.toNat ∧ c.toNat ≤ 57 then some (c.toNat - 48) else none

def ofNat (n : Nat) : List Char := (digits n).map digitChar

/-- Decimal text of an integer: a minus sign in front of negative ones only. -/
def ofInt (n : Int) : List Char :=
  if n < 0 then '-' :: ofNat n.natAbs else ofNat n.natAbs

theorem value_foldl_digitsOnto (n : Nat) (written : List Nat) (start : Nat) :
    (digitsOnto n written).foldl (fun n d => 10 * n + d) start =
      written.foldl (fun n d => 10 * n + d) ((digits n).foldl (fun n d => 10 * n + d) start) := by
  induction n using Nat.strongRecOn generalizing written start with
  | ind n ih =>
    rw [digits, digitsOnto.eq_def n written, digitsOnto.eq_def n []]
    split
    · rfl
    · rw [ih (n / 10) (by omega) (n % 10 :: written), ih (n / 10) (by omega) [n % 10]]
      rfl

/-- Reading the digits of a number gives the number back. -/
theorem value_digits (n : Nat) : value (digits n) = n := by
  induction n using Nat.strongRecOn with
  | ind n ih =>
    rw [digits, digitsOnto.eq_def]
    split
    · simp [value]
    · have h := ih (n / 10) (by omega)
      rw [value, value_foldl_digitsOnto]
      rw [value] at h
      rw [h]
      simp only [List.foldl_cons, List.foldl_nil]
      omega

end SupplyGauge.Decimal
