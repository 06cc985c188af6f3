import SupplyGauge.Number.Notation
import SupplyGauge.Text.Blank
import SupplyGauge.Text.Digit
import SupplyGauge.Text.Quoted
/-! # Numbers written as text

Numerals may be padded with white space, carry one sign, use the decimal digits
of any script and separate digits by single underscores. A whole number has a
bounded number of digits, whether it is read or written; a real number may have a
fraction, an exponent, or be one of the names of infinity and not-a-number in any
letter case.
-/

namespace SupplyGauge.Numeral

/-- Why a text or a number cannot be converted. -/
inductive Fault where
  | notWhole (text : String)
  | notReal (text : String)
  | tooManyDigits (count : Nat)
  | tooLongToWrite
  | infinityNotWhole
  | nanNotWhole
  | wholeTooLarge
  deriving DecidableEq, Repr

/-- Largest number of digits with which a whole number is read or written. -/
def digitLimit : Nat := 4300

def Fault.message : Fault → String
  | .notWhole text =>
    let shown := String.ofList ((Text.quotedChars text.toList).take 200)
    s!"invalid literal for int() with base 10: {shown}"
  | .notReal text => s!"could not convert string to float: {Text.quoted text}"
  | .tooManyDigits count =>
    s!"Exceeds the limit ({digitLimit} digits) for integer string conversion: value has {count} " ++
      "digits; use sys.set_int_max_str_digits() to increase the limit"
  | .tooLongToWrite =>
    s!"Exceeds the limit ({digitLimit} digits) for integer string conversion; use " ++
      "sys.set_int_max_str_digits() to increase the limit"
  | .infinityNotWhole => "cannot convert float infinity to integer"
  | .nanNotWhole => "cannot convert float NaN to integer"
  | .wholeTooLarge => "int too large to convert to float"

/-- Digits with their underscores: each underscore stands between two digits. Gives the digits
and the rest of the text, or nothing where an underscore is out of place. -/
def digitGroup (afterDigit : Bool) : List Char → Option (List Nat × List Char)
  | [] => some ([], [])
  | c :: rest =>
    match Text.digit? c with
    | some d => (digitGroup true rest).map fun (ds, tail) => (d :: ds, tail)
    | none =>
      if c = '_' then
        match rest with
        | next :: _ =>
          if afterDigit && Text.isDigit next then digitGroup false rest else none
        | [] => none
      else some ([], c :: rest)

/-- A leading sign: whether it is a minus, and the rest. -/
def sign : List Char → Bool × List Char
  | '-' :: rest => (true, rest)
  | '+' :: rest => (false, rest)
  | text => (false, text)

/-- Reads a whole number. The digit limit is checked before anything that follows the digits. -/
def whole (text : String) : Except Fault Int :=
  let (negative, body) := sign (text.toList.dropWhile Text.isPadding)
  match digitGroup false body with
  | none => .error (.notWhole text)
  | some ([], _) => .error (.notWhole text)
  | some (ds, tail) =>
    if digitLimit < ds.length then .error (.tooManyDigits ds.length)
    else if tail.all Text.isPadding then
      let n : Int := Decimal.value ds
      .ok (if negative then -n else n)
    else .error (.notWhole text)

def textOf (n : Int) : Except Fault String :=
  if digitLimit < (Decimal.ofNat n.natAbs).length then .error .tooLongToWrite
  else .ok (String.ofList (Decimal.ofInt n))

/-- Names of the values that are not finite, in lower case. -/
def named? (name : List Char) (negative : Bool) : Option Binary64 :=
  match String.ofList (name.map Char.toLower) with
  | "inf" | "infinity" => some (.infinite negative)
  | "nan" => some .nan
  | _ => none

/-- Exponent part of a real number; absent it is zero. -/
def exponent? : List Char → Option Int
  | [] => some 0
  | c :: rest =>
    if c = 'e' ∨ c = 'E' then
      let (negative, body) := sign rest
      match digitGroup false body with
      | some (d :: ds, []) =>
        let n : Int := Decimal.value (d :: ds)
        some (if negative then -n else n)
      | _ => none
    else none

def magnitude? (negative : Bool) (body : List Char) : Option Binary64 := do
  let (units, afterUnits) ← digitGroup false body
  let (places, afterPlaces) ← match afterUnits with
    | '.' :: rest => digitGroup false rest
    | rest => some ([], rest)
  if units.isEmpty && places.isEmpty then none
  let exponent ← exponent? afterPlaces
  some (.ofDecimal negative (Decimal.value (units ++ places)) (exponent - places.length))

def real (text : String) : Except Fault Binary64 :=
  let (negative, body) := sign (Text.trim Text.isPadding text.toList)
  match named? body negative with
  | some x => .ok x
  | none =>
    match magnitude? negative body with
    | some x => .ok x
    | none => .error (.notReal text)

/-- A rounded whole number, unless it was too large for a double. -/
def ofRounded : Binary64 → Except Fault Binary64
  | .infinite _ => .error .wholeTooLarge
  | x => .ok x

/-- The double nearest to a whole number that is not too large for one. -/
def realOfWhole (n : Int) : Except Fault Binary64 := ofRounded (Binary64.ofInt n)

def wholeOfReal : Binary64 → Except Fault Int
  | .nan => .error .nanNotWhole
  | .infinite _ => .error .infinityNotWhole
  | .finite negative m s h =>
    match Binary64.truncate? (.finite negative m s h) with
    | some n => .ok n
    | none => .error .nanNotWhole

end SupplyGauge.Numeral
