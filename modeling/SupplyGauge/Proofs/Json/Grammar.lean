import SupplyGauge.Json.Value
import SupplyGauge.Number.Numeral

/-! # JSON as readers have it

A JSON text is a value with white space around it. Numbers are decimal, with no zero in
front of other digits; one with a fraction or an exponent is the nearest double, any other
a whole number. Texts are sequences of UTF-16 units, given by characters or escapes; a
unit that is half of a pair without the other half stands for a replacement character.
Readers of strict JSON have no names for doubles that are not numbers.
-/

namespace SupplyGauge.Json

/-- White space between the parts of a text. -/
def isBlank (c : Char) : Bool := c = ' ' || c = '\t' || c = '\n' || c = '\r'

def skipBlanks (text : List Char) : List Char := text.dropWhile isBlank

/-! ## Numbers -/

def isDigit (c : Char) : Bool := 48 ≤ c.toNat && c.toNat ≤ 57

def digitsValue (digits : List Char) : Nat := Decimal.value (digits.map fun c => c.toNat - 48)

/-- The digits of a whole part: one zero, or digits that do not begin with a zero. -/
def readUnits (text : List Char) : Option (List Char × List Char) :=
  match text.takeWhile isDigit with
  | [] => none
  | '0' :: _ :: _ => none
  | units => some (units, text.dropWhile isDigit)

/-- The digits of a fraction, if there is one. -/
def readPlaces : List Char → Option (Option (List Char) × List Char)
  | '.' :: rest =>
    match rest.takeWhile isDigit with
    | [] => none
    | places => some (some places, rest.dropWhile isDigit)
  | text => some (none, text)

/-- The value of an exponent, if there is one. -/
def readExponent : List Char → Option (Option Int × List Char)
  | [] => some (none, [])
  | c :: rest =>
    if c = 'e' ∨ c = 'E' then
      let (negative, body) := Numeral.sign rest
      match body.takeWhile isDigit with
      | [] => none
      | digits =>
        let n : Int := digitsValue digits
        some (some (if negative then -n else n), body.dropWhile isDigit)
    else some (none, c :: rest)

def numberValue (negative : Bool) (units : List Char) :
    Option (List Char) → Option Int → Value
  | none, none =>
    let n : Int := digitsValue units
    .whole (if negative then -n else n)
  | places, exponent =>
    let places := places.getD []
    .real (.ofDecimal negative (digitsValue (units ++ places)) (exponent.getD 0 - places.length))

/-- A minus sign in front of a number. -/
def readMinus : List Char → Bool × List Char
  | '-' :: rest => (true, rest)
  | text => (false, text)

def readNumber (text : List Char) : Option (Value × List Char) := do
  let (negative, text) := readMinus text
  let (units, text) ← readUnits text
  let (places, text) ← readPlaces text
  let (exponent, text) ← readExponent text
  some (numberValue negative units places exponent, text)

/-! ## Texts -/

def hexValue? (c : Char) : Option Nat :=
  let n := c.toNat
  if 48 ≤ n ∧ n ≤ 57 then some (n - 48)
  else if 97 ≤ n ∧ n ≤ 102 then some (n - 87)
  else if 65 ≤ n ∧ n ≤ 70 then some (n - 55)
  else none

/-- The unit that four hexadecimal digits stand for. -/
def hexUnit? (a b c d : Char) : Option Nat := do
  some (4096 * (← hexValue? a) + 256 * (← hexValue? b) + 16 * (← hexValue? c) + (← hexValue? d))

/-- The unit that a character after a backslash stands for. -/
def shortEscape? : Char → Option Nat
  | '"' => some 34
  | '\\' => some 92
  | '/' => some 47
  | 'b' => some 8
  | 'f' => some 12
  | 'n' => some 10
  | 'r' => some 13
  | 't' => some 9
  | _ => none

/-- The units of a text up to its closing quote, and what follows it. -/
def readUnits16 : List Char → Option (List Nat × List Char)
  | [] => none
  | '"' :: rest => some ([], rest)
  | '\\' :: 'u' :: a :: b :: c :: d :: rest => do
    let unit ← hexUnit? a b c d
    let (units, rest) ← readUnits16 rest
    some (unit :: units, rest)
  | '\\' :: c :: rest => do
    let unit ← shortEscape? c
    let (units, rest) ← readUnits16 rest
    some (unit :: units, rest)
  | c :: rest =>
    if c = '\\' ∨ c.toNat < 32 then none
    else do
      let (units, rest) ← readUnits16 rest
      some (units16 c ++ units, rest)

/-- The character of a unit that stands for itself. -/
def unitChar (unit : Nat) : Char :=
  if 0xD800 ≤ unit ∧ unit < 0xE000 then Char.ofNat 0xFFFD else Char.ofNat unit

/-- The characters of a sequence of units. -/
def joinUnits : List Nat → List Char
  | [] => []
  | [unit] => [unitChar unit]
  | high :: low :: rest =>
    if 0xD800 ≤ high ∧ high < 0xDC00 ∧ 0xDC00 ≤ low ∧ low < 0xE000 then
      Char.ofNat (0x10000 + (high - 0xD800) * 0x400 + (low - 0xDC00)) :: joinUnits rest
    else unitChar high :: joinUnits (low :: rest)

def readText (text : List Char) : Option (String × List Char) := do
  let (units, rest) ← readUnits16 text
  some (String.ofList (joinUnits units), rest)

/-! ## Values -/

/-- A value without parts. -/
def readScalar : List Char → Option (Value × List Char)
  | '"' :: body => do
    let (s, rest) ← readText body
    some (.text s, rest)
  | 'n' :: 'u' :: 'l' :: 'l' :: rest => some (.null, rest)
  | 't' :: 'r' :: 'u' :: 'e' :: rest => some (.bool true, rest)
  | 'f' :: 'a' :: 'l' :: 's' :: 'e' :: rest => some (.bool false, rest)
  | text => readNumber text

/-- The name of a member and its colon. -/
inductive ReadsKey : List Char → String → List Char → Prop
  | intro {text body key after inner} (hopen : skipBlanks text = '"' :: body)
      (hname : readText body = some (key, after)) (hcolon : skipBlanks after = ':' :: inner) :
      ReadsKey text key inner

mutual

/-- A value with white space before it, and what follows it in a text. -/
inductive Reads : List Char → Value → List Char → Prop
  | scalar {text v rest} (h : readScalar (skipBlanks text) = some (v, rest)) : Reads text v rest
  | emptyList {text inner rest} (hopen : skipBlanks text = '[' :: inner)
      (hclose : skipBlanks inner = ']' :: rest) : Reads text (.list []) rest
  | list {text inner items rest} (hopen : skipBlanks text = '[' :: inner)
      (h : ReadsItems inner items rest) : Reads text (.list items) rest
  | emptyObject {text inner rest} (hopen : skipBlanks text = '\x7b' :: inner)
      (hclose : skipBlanks inner = '\x7d' :: rest) : Reads text (.object []) rest
  | object {text inner members rest} (hopen : skipBlanks text = '\x7b' :: inner)
      (h : ReadsMembers inner members rest) : Reads text (.object members) rest

/-- The items of a list up to its closing bracket. -/
inductive ReadsItems : List Char → List Value → List Char → Prop
  | last {text v after rest} (h : Reads text v after) (hclose : skipBlanks after = ']' :: rest) :
      ReadsItems text [v] rest
  | more {text v after later items rest} (h : Reads text v after)
      (hcomma : skipBlanks after = ',' :: later) (hmore : ReadsItems later items rest) :
      ReadsItems text (v :: items) rest

/-- The members of an object up to its closing brace. -/
inductive ReadsMembers : List Char → List (String × Value) → List Char → Prop
  | last {text key inner v after rest} (hkey : ReadsKey text key inner) (h : Reads inner v after)
      (hclose : skipBlanks after = '\x7d' :: rest) : ReadsMembers text [(key, v)] rest
  | more {text key inner v after later members rest} (hkey : ReadsKey text key inner)
      (h : Reads inner v after) (hcomma : skipBlanks after = ',' :: later)
      (hmore : ReadsMembers later members rest) : ReadsMembers text ((key, v) :: members) rest

end

/-- Whether a text is the text of a value, and of nothing else. -/
def IsText (text : String) (v : Value) : Prop :=
  ∃ rest, Reads text.toList v rest ∧ skipBlanks rest = []

end SupplyGauge.Json
