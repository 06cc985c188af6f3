import SupplyGauge.Number.Numeral
/-! # Setting values

A value written in a settings text is a text, a flag, a whole number or a real
number. Settings that expect another type convert it; the conversions, and writing a
value, fail with the faults of numerals.
-/

namespace SupplyGauge.Config

/-- A value of a directive. -/
inductive Scalar where
  | text (s : String)
  | flag (b : Bool)
  | whole (n : Int)
  | real (x : Binary64)
  deriving DecidableEq

namespace Scalar

/-- A value as it reads in a message. Only a whole number with too many digits has no text. -/
def display : Scalar → Except Numeral.Fault String
  | .text s => .ok s
  | .flag true => .ok "True"
  | .flag false => .ok "False"
  | .whole n => Numeral.textOf n
  | .real x => .ok (x.text .plain)

/-- A value as it reads in a message that shows texts between quotes. -/
def shown : Scalar → Except Numeral.Fault String
  | .text s => .ok (Text.quoted s)
  | v => v.display

def typeName : Scalar → String
  | .text _ => "str"
  | .flag _ => "bool"
  | .whole _ => "int"
  | .real _ => "float"

/-- Whether a value counts as set: empty texts, zeros and `off` do not. -/
def isSet : Scalar → Bool
  | .text s => !s.isEmpty
  | .flag b => b
  | .whole n => n != 0
  | .real x => !x.same .zero

/-- A value as a whole number; a real number loses its fraction. -/
def toWhole : Scalar → Except Numeral.Fault Int
  | .text s => Numeral.whole s
  | .flag b => .ok (if b then 1 else 0)
  | .whole n => .ok n
  | .real x => Numeral.wholeOfReal x

def toReal : Scalar → Except Numeral.Fault Binary64
  | .text s => Numeral.real s
  | .flag b => .ok (.ofInt (if b then 1 else 0))
  | .whole n => Numeral.realOfWhole n
  | .real x => .ok x

end Scalar

end SupplyGauge.Config
