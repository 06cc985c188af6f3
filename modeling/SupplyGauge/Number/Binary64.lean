import SupplyGauge.Number.Power
/-! # Exact double-precision numbers

A finite double is a whole number of quanta, one quantum being 2^-1074, the
smallest positive double. It is kept as a significand below 2^53 shifted left,
so that arithmetic is exact integer arithmetic followed by one rounding to the
nearest representable number of quanta, a half going to the even significand.
-/

namespace SupplyGauge

/-- The one accepted way to write a number of quanta as a shifted significand. -/
def Canonical (significand shift : Nat) : Prop :=
  significand < twoTo 53 ∧ shift ≤ 2045 ∧ (shift = 0 ∨ twoTo 52 ≤ significand)

instance (significand shift : Nat) : Decidable (Canonical significand shift) :=
  inferInstanceAs (Decidable (_ ∧ _ ∧ _))

/-- A double: not a number, an infinity, or a signed multiple of the quantum. -/
inductive Binary64 where
  | nan
  | infinite (negative : Bool)
  | finite (negative : Bool) (significand shift : Nat) (canonical : Canonical significand shift)
  deriving DecidableEq

namespace Binary64

/-- Binary exponent of the quantum, the unit in which finite doubles are counted. -/
def quantumExponent : Nat := 1074

/-- Quotient rounded to the nearest whole number, a half going to the even one. -/
def roundEven (num den : Nat) : Nat :=
  let q := num / den
  let twice := 2 * (num % den)
  if twice < den then q
  else if den < twice then q + 1
  else if q % 2 = 0 then q else q + 1

/-- A shifted significand as a double; beyond the largest exponent it is infinite. -/
def pack (negative : Bool) (significand shift : Nat) : Binary64 :=
  if h : Canonical significand shift then .finite negative significand shift h
  else .infinite negative

def ofQuanta (negative : Bool) (num den : Nat) : Binary64 :=
  let shift := (num / den).log2 + 1 - 53
  let significand := roundEven num (den * twoTo shift)
  if significand = twoTo 53 then pack negative (twoTo 52) (shift + 1)
  else pack negative significand shift

def ofRatio (negative : Bool) (num den : Nat) : Binary64 :=
  ofQuanta negative (num * twoTo quantumExponent) den

def zero : Binary64 := .finite false 0 0 (by decide)

def isFinite : Binary64 → Bool
  | .finite .. => true
  | _ => false

/-- The double nearest to an integer, infinite when the integer is out of range. -/
def ofInt (n : Int) : Binary64 := ofRatio (n < 0) n.natAbs 1

/-- The double nearest to `digits * 10 ^ exponent`. Exponents far outside the
range of doubles are decided by the number of digits alone. -/
def ofDecimal (negative : Bool) (digits : Nat) (exponent : Int) : Binary64 :=
  let magnitude := exponent + (digits.log2 : Int) * 30103 / 100000
  if digits = 0 then .finite negative 0 0 (by decide)
  else if 400 < magnitude then .infinite negative
  else if magnitude < -400 then .finite negative 0 0 (by decide)
  else if 0 ≤ exponent then ofRatio negative (digits * tenTo exponent.toNat) 1
  else ofRatio negative digits (tenTo (-exponent).toNat)

/-- Signed number of quanta of a finite double. -/
def quanta? : Binary64 → Option Int
  | .finite negative m s _ =>
    let magnitude : Int := (m * twoTo s : Nat)
    some (if negative then -magnitude else magnitude)
  | _ => none

/-- Strict order of doubles; nothing is ordered with respect to `nan`. -/
def lt : Binary64 → Binary64 → Bool
  | .nan, _ => false
  | _, .nan => false
  | .infinite a, .infinite b => a && !b
  | .infinite a, .finite .. => a
  | .finite .., .infinite b => !b
  | .finite na ma sa _, .finite nb mb sb _ =>
    let a : Int := (ma * twoTo sa : Nat)
    let b : Int := (mb * twoTo sb : Nat)
    decide ((if na then -a else a) < (if nb then -b else b))

/-- Equality of values: both zeros are equal and `nan` equals nothing. -/
def same : Binary64 → Binary64 → Bool
  | .nan, _ => false
  | _, .nan => false
  | a, b => !lt a b && !lt b a

def le (a b : Binary64) : Bool := lt a b || same a b

/-- Sum, rounded once. -/
def add : Binary64 → Binary64 → Binary64
  | .nan, _ => .nan
  | _, .nan => .nan
  | .infinite a, .infinite b => if a = b then .infinite a else .nan
  | .infinite a, _ => .infinite a
  | _, .infinite b => .infinite b
  | .finite na ma sa _, .finite nb mb sb _ =>
    let a : Int := (ma * twoTo sa : Nat)
    let b : Int := (mb * twoTo sb : Nat)
    let sum := (if na then -a else a) + (if nb then -b else b)
    if sum = 0 then ofQuanta (na && nb) 0 1
    else ofQuanta (sum < 0) sum.natAbs 1

/-- Product, rounded once. -/
def mul : Binary64 → Binary64 → Binary64
  | .nan, _ => .nan
  | _, .nan => .nan
  | .infinite a, .infinite b => .infinite (a != b)
  | .infinite a, .finite b m _ _ => if m = 0 then .nan else .infinite (a != b)
  | .finite a m _ _, .infinite b => if m = 0 then .nan else .infinite (a != b)
  | .finite na ma sa _, .finite nb mb sb _ =>
    ofQuanta (na != nb) (ma * mb * twoTo (sa + sb)) (twoTo quantumExponent)

/-- Integer part toward zero of a finite double. -/
def truncate? : Binary64 → Option Int
  | .finite negative m s _ =>
    let magnitude : Int := (m * twoTo s / twoTo quantumExponent : Nat)
    some (if negative then -magnitude else magnitude)
  | _ => none

/-- The integer that a finite double equals, if it equals one. -/
def integer? : Binary64 → Option Int
  | .finite negative m s _ =>
    if m * twoTo s % twoTo quantumExponent = 0 then
      let magnitude : Int := (m * twoTo s / twoTo quantumExponent : Nat)
      some (if negative then -magnitude else magnitude)
    else none
  | _ => none

/-- The integer nearest to a finite double, a half going to the even one. -/
def nearestInt? : Binary64 → Option Int
  | .finite negative m s _ =>
    let magnitude : Int := (roundEven (m * twoTo s) (twoTo quantumExponent) : Nat)
    some (if negative then -magnitude else magnitude)
  | _ => none

end Binary64

end SupplyGauge
