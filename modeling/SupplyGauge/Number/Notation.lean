import SupplyGauge.Number.Shortest
/-! # Text of doubles

A style names the values that are not numbers. Numbers are written with their
shortest digits: positionally, with at least one place after the point, while
the first digit stands between 10^-4 and 10^15, and with an exponent of at
least two digits otherwise.
-/

namespace SupplyGauge.Binary64

/-- Spellings of the values that are not finite. -/
structure Style where
  notANumber : String
  infinity : String
  negativeInfinity : String

def Style.plain : Style := ⟨"nan", "inf", "-inf"⟩

def Style.payload : Style := ⟨"NaN", "Infinity", "-Infinity"⟩

/-- Digits with the decimal point after the first `point` of them. -/
def positional (digits : List Char) (point : Int) : List Char :=
  if point ≤ 0 then
    '0' :: '.' :: (List.replicate (-point).toNat '0' ++ digits)
  else if digits.length ≤ point.toNat then
    digits ++ List.replicate (point.toNat - digits.length) '0' ++ ['.', '0']
  else digits.take point.toNat ++ '.' :: digits.drop point.toNat

/-- Digits with the point after the first one and a signed exponent of two or more digits. -/
def scientific (digits : List Char) (exponent : Int) : List Char :=
  let mantissa := match digits with
    | [] => []
    | [d] => [d]
    | d :: rest => d :: '.' :: rest
  let text := Decimal.ofNat exponent.natAbs
  let padded := if text.length < 2 then '0' :: text else text
  mantissa ++ 'e' :: (if exponent < 0 then '-' else '+') :: padded

/-- Text of the positive double with this significand and shift. -/
def magnitudeText (m shift : Nat) : List Char :=
  if m = 0 then ['0', '.', '0']
  else
    let d := shortest m shift
    let all := Decimal.ofNat d.digits
    let point := (all.length : Int) + d.exponent
    let digits := (all.reverse.dropWhile (· == '0')).reverse
    if -4 < point ∧ point ≤ 16 then positional digits point else scientific digits (point - 1)

def text (style : Style) : Binary64 → String
  | .nan => style.notANumber
  | .infinite true => style.negativeInfinity
  | .infinite false => style.infinity
  | .finite negative m shift _ =>
    String.ofList (if negative then '-' :: magnitudeText m shift else magnitudeText m shift)

end SupplyGauge.Binary64
