import SupplyGauge.Number.Numeral
/-! # Fields of log lines

A field shows one value in a shape: flags, a least width and a precision. The letter
at its end says how: as text, as a whole number in some base, as a real number, or as
a character. A value that cannot be shown that way is a fault.
-/

namespace SupplyGauge.Log

/-- A value that a field shows. Values that are neither texts nor whole numbers have a type and
one way to be shown. -/
inductive FieldValue where
  | text (s : String)
  | number (n : Int)
  | other (typeName shown : String)
  deriving DecidableEq, Repr

/-- The value of a field that is there but not set. -/
def FieldValue.unset : FieldValue := .other "NoneType" "None"

def FieldValue.typeName : FieldValue → String
  | .text _ => "str"
  | .number _ => "int"
  | .other typeName _ => typeName

def FieldValue.shown : FieldValue → List Char
  | .text s => s.toList
  | .number n => Decimal.ofInt n
  | .other _ shown => shown.toList

/-- A value as text, with texts between quotes. -/
def FieldValue.quoted : FieldValue → List Char
  | .text s => Text.quotedChars s.toList
  | v => v.shown

/-- Why a line cannot be written. -/
inductive FieldFault where
  | unknownName (name : String)
  | unclosedName
  | incomplete
  | widthTooLarge
  | precisionTooLarge
  | unknownLetter (letter : Char) (index : Nat)
  | sizeNotWhole
  | sizeOutOfRange (limitName : String)
  | noValue
  | notWhole (letter : Char) (typeName : String)
  | notNumber (letter : Char) (typeName : String)
  | notReal (typeName : String)
  | notCharacter
  | number (fault : Numeral.Fault)
  | noSuchCharacter
  | precisionOutOfRange
  | noRoom
  deriving DecidableEq, Repr

/-- What a fault is about: the template, the type of a value, a number out of range, or the room
that a line takes. -/
inductive FaultKind where
  | template
  | type
  | range
  | room
  deriving DecidableEq, Repr

def FieldFault.kind : FieldFault → FaultKind
  | .unknownName _ | .unclosedName | .incomplete | .widthTooLarge | .precisionTooLarge
  | .unknownLetter _ _ => .template
  | .sizeNotWhole | .noValue | .notWhole _ _ | .notNumber _ _ | .notReal _ | .notCharacter =>
    .type
  | .number _ | .sizeOutOfRange _ | .noSuchCharacter | .precisionOutOfRange => .range
  | .noRoom => .room

def FieldFault.message : FieldFault → String
  | .unknownName name => s!"Formatting field not found in record: {Text.quoted name}"
  | .unclosedName => "incomplete format key"
  | .incomplete => "incomplete format"
  | .widthTooLarge => "width too big"
  | .precisionTooLarge => "precision too big"
  | .unknownLetter letter index =>
    let shown := if 31 ≤ letter.toNat ∧ letter.toNat ≤ 126 then letter else '?'
    let digits := (Text.hex 6 letter.toNat).dropWhile (· == '0')
    let code := if digits.isEmpty then ['0'] else digits
    s!"unsupported format character '{shown}' (0x{String.ofList code}) at index {index}"
  | .sizeNotWhole => "* wants int"
  | .sizeOutOfRange limitName => s!"Python int too large to convert to C {limitName}"
  | .noValue => "not enough arguments for format string"
  | .notWhole letter typeName =>
    s!"%{letter} format: an integer is required, not {typeName}"
  | .notNumber letter typeName =>
    s!"%{letter} format: a real number is required, not {typeName}"
  | .notReal typeName => s!"must be real number, not {typeName}"
  | .notCharacter => "%c requires int or char"
  | .number fault => fault.message
  | .noSuchCharacter => "%c arg not in range(0x110000)"
  | .precisionOutOfRange => "precision too large"
  | .noRoom => ""

/-- Flags, least width and precision of a field. -/
structure FieldShape where
  left : Bool := false
  plus : Bool := false
  space : Bool := false
  alternate : Bool := false
  zeros : Bool := false
  width : Nat := 0
  precision : Option Nat := none
  deriving DecidableEq, Repr

namespace FieldShape

/-- Widest field that there is room for. -/
def room : Nat := 0x4000000

/-- A text as wide as the shape asks, between `lead` and `body` filled with zeros on demand. -/
def pad (s : FieldShape) (fillZeros : Bool) (lead body : List Char) : List Char :=
  let missing := s.width - (lead.length + body.length)
  if s.left then lead ++ body ++ List.replicate missing ' '
  else if fillZeros then lead ++ List.replicate missing '0' ++ body
  else List.replicate missing ' ' ++ lead ++ body

def text (s : FieldShape) (chars : List Char) : List Char :=
  s.pad false [] (match s.precision with
    | some n => chars.take n
    | none => chars)

def sign (s : FieldShape) (n : Int) : List Char :=
  if n < 0 then ['-'] else if s.plus then ['+'] else if s.space then [' '] else []

/-- Digits with zeros in front up to the precision, after a sign and a mark of the base. -/
def digits (s : FieldShape) (n : Int) (mark digits : List Char) : List Char :=
  let wanted := s.precision.getD 0
  let mark := if s.alternate then mark else []
  s.pad s.zeros (s.sign n ++ mark) (List.replicate (wanted - digits.length) '0' ++ digits)

/-- A natural number in a base that is a power of two. -/
def binaryDigits (bits n : Nat) : List Char :=
  if _h : n < twoTo bits ∨ bits = 0 then [Text.hexDigit n]
  else binaryDigits bits (n / twoTo bits) ++ [Text.hexDigit (n % twoTo bits)]
termination_by n
decreasing_by
  have one := one_lt_twoTo (show bits ≠ 0 by omega)
  exact Nat.div_lt_self (by have := twoTo_pos bits; omega) one

/-- The first digits of a natural number, rounded, and the decimal exponent of the first one. -/
def leadingDigits (n count : Nat) : List Char × Nat :=
  let all := Decimal.ofNat n
  if all.length ≤ count then (all ++ List.replicate (count - all.length) '0', all.length - 1)
  else
    let rounded := Decimal.ofNat (Binary64.roundEven n (tenTo (all.length - count)))
    if count < rounded.length then (rounded.take count, all.length)
    else (rounded, all.length - 1)

/-- Digits with an exponent; a point follows the first digit in any case if the shape asks for
it. -/
def scientific (s : FieldShape) (digits : List Char) (exponent : Nat) : List Char :=
  match s.alternate, digits with
  | true, [d] => d :: '.' :: (Binary64.scientific [d] exponent).drop 1
  | _, digits => Binary64.scientific digits exponent

/-- A point and places after it; without places the point stands only if the shape asks for
it. -/
def places (s : FieldShape) (count : Nat) : List Char :=
  if count = 0 ∧ !s.alternate then [] else '.' :: List.replicate count '0'

/-- A natural number as a real number in a number of significant digits: with an exponent if it
has more of them. Zeros at the end are shown only if the shape asks for it. -/
def general (s : FieldShape) (n count : Nat) : List Char :=
  let all := Decimal.ofNat n
  if all.length ≤ count then
    if s.alternate then all ++ s.places (count - all.length) else all
  else
    let (digits, exponent) := leadingDigits n count
    let kept := if s.alternate then digits
      else (digits.reverse.dropWhile (· == '0')).reverse
    s.scientific kept exponent

/-- A real number that is a whole number, as the letter says. -/
def real (s : FieldShape) (letter : Char) (n : Int) : List Char :=
  let places := s.precision.getD 6
  let magnitude := n.natAbs
  s.pad s.zeros (s.sign n) <| match letter with
    | 'f' | 'F' => Decimal.ofNat magnitude ++ s.places places
    | 'e' =>
      let (digits, exponent) := leadingDigits magnitude (places + 1)
      s.scientific digits exponent
    | 'E' =>
      let (digits, exponent) := leadingDigits magnitude (places + 1)
      (s.scientific digits exponent).map Char.toUpper
    | 'G' => (s.general magnitude (max places 1)).map Char.toUpper
    | _ => s.general magnitude (max places 1)

/-- Largest precision with which whole numbers are written. -/
def precisionLimit : Nat := 2147483644

/-- Whether a precision asks for more places than there is room for. -/
def isVast (s : FieldShape) (letter : Char) : Bool :=
  room < s.width || (room < s.precision.getD 0 &&
    (letter ∈ ['d', 'i', 'u', 'o', 'x', 'X', 'e', 'E', 'f', 'F'] ||
      (letter ∈ ['g', 'G'] && s.alternate)))

/-- A whole number, as the letter says. -/
def whole (s : FieldShape) (letter : Char) (n : Int) : List Char :=
  match letter with
  | 'o' => s.digits n ['0', 'o'] (binaryDigits 3 n.natAbs)
  | 'x' => s.digits n ['0', 'x'] (binaryDigits 4 n.natAbs)
  | 'X' => s.digits n ['0', 'X'] ((binaryDigits 4 n.natAbs).map Char.toUpper)
  | _ => s.digits n [] (Decimal.ofNat n.natAbs)

def wholeValue (letter : Char) : FieldValue → Except FieldFault Int
  | .number n => .ok n
  | v =>
    if letter ∈ ['o', 'x', 'X'] then .error (.notWhole letter v.typeName)
    else .error (.notNumber letter v.typeName)

/-- A value as a real number, which is the nearest one to a whole number. -/
def realValue : FieldValue → Except FieldFault Int
  | .number n =>
    match Numeral.realOfWhole n with
    | .ok x => .ok ((Binary64.truncate? x).getD n)
    | .error fault => .error (.number fault)
  | v => .error (.notReal v.typeName)

def character : FieldValue → Except FieldFault Char
  | .number n =>
    if 0 ≤ n ∧ n ≤ 0x10FFFF then .ok (Char.ofNat n.toNat) else .error .noSuchCharacter
  | .text s =>
    match s.toList with
    | [c] => .ok c
    | _ => .error .notCharacter
  | .other _ _ => .error .notCharacter

/-- The text of a value written as a letter says; the letter stands at `index`. -/
def write (s : FieldShape) (letter : Char) (index : Nat) (value : FieldValue) :
    Except FieldFault (List Char) := do
  let room (chars : List Char) : Except FieldFault (List Char) :=
    if s.isVast letter then .error .noRoom else .ok chars
  match letter with
  | 's' => room (s.text value.shown)
  | 'r' => room (s.text value.quoted)
  | 'a' => room (s.text (value.quoted.flatMap fun c =>
      if c.toNat < 128 then [c] else Text.escapeCode c))
  | 'd' | 'i' | 'u' | 'o' | 'x' | 'X' =>
    let n ← wholeValue letter value
    if precisionLimit < s.precision.getD 0 then throw .precisionOutOfRange
    else if s.isVast letter then throw .noRoom
    else return s.whole letter n
  | 'e' | 'E' | 'f' | 'F' | 'g' | 'G' =>
    let n ← realValue value
    if s.isVast letter then throw .noRoom
    else return s.real letter n
  | 'c' =>
    let c ← character value
    if s.isVast letter then throw .noRoom
    else return s.pad false [] [c]
  | _ => throw (.unknownLetter letter index)

end FieldShape

end SupplyGauge.Log
