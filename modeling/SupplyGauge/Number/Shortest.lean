import SupplyGauge.Number.Binary64
import SupplyGauge.Number.Decimal
/-! # Shortest decimal of a double

Every positive double is the nearest double of a whole interval of reals. Among
the decimals of that interval the shortest are those with the fewest digits;
of these the one nearest to the double is taken, an exact tie going to the even
last digit. Everything is decided in whole numbers.
-/

namespace SupplyGauge.Binary64

/-- A positive decimal number `digits * 10 ^ exponent`. -/
structure DecimalForm where
  digits : Nat
  exponent : Int
  deriving DecidableEq, Repr

/-- Number of leading decimal zeros after the point of `num / den < 1`, at most `bound`. -/
def leadingZeros (num den : Nat) : Nat → Nat
  | 0 => 0
  | bound + 1 => if den ≤ num * 10 then 0 else leadingZeros (num * 10) den bound + 1

/-- The exponent `k` with `10 ^ (k - 1) ≤ num / den < 10 ^ k`, for a ratio in the range of
doubles. -/
def decimalMagnitude (num den : Nat) : Int :=
  if den ≤ num then ((Decimal.digits (num / den)).length : Int)
  else -(leadingZeros num den 400 : Int)

/-- Whether `c * 10 ^ x` rounds to the double with the given significand and shift.
Half the gap to a neighbour is `2 ^ shift / 2 ^ 1075`; below a power of two the gap is half
as wide, and the ends of the interval belong to even significands. -/
def roundsTo (m shift : Nat) (c : Nat) (x : Int) : Bool :=
  let up := tenTo x.toNat
  let down := tenTo (-x).toNat
  let candidate := c * up * twoTo quantumExponent
  let exact := m * twoTo shift * down
  let half := down * twoTo shift
  if exact ≤ candidate then
    let twice := 2 * (candidate - exact)
    if m % 2 = 0 then twice ≤ half else twice < half
  else
    let scaled := (if m = twoTo 52 ∧ 0 < shift then 4 else 2) * (exact - candidate)
    if m % 2 = 0 then scaled ≤ half else scaled < half

/-- The decimal with exponent `x` nearest to the double among its two neighbours on that
grid that round to it. -/
def nearestOnGrid? (m shift : Nat) (x : Int) : Option DecimalForm :=
  let num := m * twoTo shift * tenTo (-x).toNat
  let den := tenTo x.toNat * twoTo quantumExponent
  let below := num / den
  match roundsTo m shift below x, roundsTo m shift (below + 1) x with
  | true, true => some ⟨roundEven num den, x⟩
  | true, false => some ⟨below, x⟩
  | false, true => some ⟨below + 1, x⟩
  | false, false => none

/-- The first grid, from coarse to fine, that holds a decimal rounding to the double. -/
def firstOnGrids (m shift : Nat) (magnitude : Int) : Nat → Nat → DecimalForm
  | 0, places => ⟨m, places⟩
  | more + 1, places =>
    match nearestOnGrid? m shift (magnitude - places) with
    | some d => d
    | none => firstOnGrids m shift magnitude more (places + 1)

/-- The shortest decimal of the positive double with this significand and shift. Seventeen
digits always suffice. -/
def shortest (m shift : Nat) : DecimalForm :=
  firstOnGrids m shift (decimalMagnitude (m * twoTo shift) (twoTo quantumExponent)) 18 1

end SupplyGauge.Binary64
