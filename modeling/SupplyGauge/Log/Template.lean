import SupplyGauge.Config.Scalar
import SupplyGauge.Log.Field
import SupplyGauge.Pattern.Search
/-! # Templates of log lines

A template is a text with fields. A field begins with a percent sign and the name of
the field in parentheses, and ends with a letter that says how its value is written;
flags, a least width and a precision may stand between them. A field without a name
shows what the field before it has left: all values together at first, and nothing
after a name has been used. Two percent signs next to each other are one that is
shown. A template needs at least one complete field. Faults inside a field show when
a line is written, from left to right: an unknown name first, then what follows it.
-/

namespace SupplyGauge.Log

/-- Why a setting is no template. -/
inductive TemplateError where
  | noField (text : String)
  | notText (typeName : String)
  deriving DecidableEq, Repr

def TemplateError.message : TemplateError → String
  | .noField text => s!"Invalid format '{text}' for '%' style"
  | .notText typeName => s!"expected string or bytes-like object, got '{typeName}'"

/-- The name of a field up to the parenthesis that closes it, and the rest. -/
def fieldName : Nat → List Char → Option (List Char × List Char)
  | _, [] => none
  | depth, c :: rest =>
    if c = ')' ∧ depth = 0 then some ([], rest)
    else
      let deeper := if c = '(' then depth + 1 else if c = ')' then depth - 1 else depth
      (fieldName deeper rest).map fun (name, tail) => (c :: name, tail)

/-- The shape with one more flag, if the character is one. -/
def FieldShape.withFlag? (s : FieldShape) : Char → Option FieldShape
  | '-' => some { s with left := true }
  | '+' => some { s with plus := true }
  | ' ' => some { s with space := true }
  | '#' => some { s with alternate := true }
  | '0' => some { s with zeros := true }
  | _ => none

/-- Reads flags. Gives the rest. -/
def FieldShape.readFlags (s : FieldShape) : List Char → FieldShape × List Char
  | [] => (s, [])
  | c :: rest =>
    match s.withFlag? c with
    | some s => s.readFlags rest
    | none => (s, c :: rest)

/-- The number that ASCII digits denote. -/
def numberOf (digits : List Char) : Nat :=
  Decimal.value (digits.filterMap Decimal.asciiDigit?)

/-- The range of sizes that can be asked for: the largest one, the name of the range, and the fault
of a size written in digits that is larger. -/
structure SizeRange where
  limit : Nat
  name : String
  tooLarge : FieldFault

def SizeRange.width : SizeRange := ⟨9223372036854775807, "ssize_t", .widthTooLarge⟩

def SizeRange.precision : SizeRange := ⟨2147483647, "int", .precisionTooLarge⟩

def SizeRange.ofInt (range : SizeRange) (n : Int) : Except FieldFault Nat :=
  if (range.limit : Int) < n ∨ n < -(range.limit : Int) - 1 then
    .error (.sizeOutOfRange range.name)
  else .ok n.natAbs

/-- Takes the value that is left, if there is one. -/
def takeValue (left : Option FieldValue) : Except FieldFault FieldValue :=
  match left with
  | some v => .ok v
  | none => .error .noValue

/-- A width or a precision: decimal digits, or a star that takes the value that is left, which
has to be a whole number. Gives the number, the rest, and the value that is left now. -/
def readSize (range : SizeRange) (left : Option FieldValue) :
    List Char → Except FieldFault (Option Nat × List Char × Option FieldValue)
  | '*' :: rest => do
    match ← takeValue left with
    | .number n => return (some (← range.ofInt n), rest, none)
    | _ => throw .sizeNotWhole
  | text => do
    match text.takeWhile Char.isDigit with
    | [] => return (none, text, left)
    | digits =>
      if range.limit < numberOf digits then throw range.tooLarge
      return (some (numberOf digits), text.dropWhile Char.isDigit, left)

/-- A precision after a point, if there is one. -/
def readPrecision (shape : FieldShape) (left : Option FieldValue) :
    List Char → Except FieldFault (FieldShape × List Char × Option FieldValue)
  | '.' :: rest => do
    let (precision, rest, left) ← readSize .precision left rest
    return ({ shape with precision := some (precision.getD 0) }, rest, left)
  | rest => .ok (shape, rest, left)

/-- One letter that says nothing about how a value is shown may stand before the letter that
does. -/
def skipSize : List Char → List Char
  | 'h' :: rest | 'l' :: rest | 'L' :: rest => rest
  | rest => rest

/-- The value that a name in parentheses selects, if there is one; then what is left is that
value. -/
def readName (value? : String → Option FieldValue) (left : Option FieldValue) :
    List Char → Except FieldFault (List Char × Option FieldValue)
  | '(' :: rest =>
    match fieldName 0 rest with
    | none => .error .unclosedName
    | some (name, tail) =>
      match value? (String.ofList name) with
      | none => .error (.unknownName (String.ofList name))
      | some value => .ok (tail, some value)
  | rest => .ok (rest, left)

/-- One field, after its percent sign, which stands at `index`: its text, the rest, and the value
that is left after it. -/
def writeField (value? : String → Option FieldValue) (left : Option FieldValue) (index : Nat)
    (text : List Char) : Except FieldFault (List Char × List Char × Option FieldValue) := do
  let (named, left) ← readName value? left text
  let (shape, flagged) := FieldShape.readFlags {} named
  let (width, sized, left) ← readSize .width left flagged
  let (shape, precise, left) ← readPrecision { shape with width := width.getD 0 } left sized
  match skipSize precise with
  | [] => throw .incomplete
  | letter :: rest =>
    let value ← takeValue left
    let written ← shape.write letter (index + (text.length - rest.length)) value
    return (written, rest, none)

/-- The text of a template from an index on. Every field takes at least one character. -/
def writeFrom (value? : String → Option FieldValue) :
    Nat → Option FieldValue → Nat → List Char → Except FieldFault (List Char)
  | 0, _, _, _ => .ok []
  | _, _, _, [] => .ok []
  | fuel + 1, left, index, '%' :: '%' :: rest => do
    return '%' :: (← writeFrom value? fuel left (index + 2) rest)
  | fuel + 1, left, index, '%' :: rest => do
    let (written, tail, left) ← writeField value? left index rest
    return written ++
      (← writeFrom value? fuel left (index + 1 + (rest.length - tail.length)) tail)
  | fuel + 1, left, index, c :: rest => do
    return c :: (← writeFrom value? fuel left (index + 1) rest)

/-- A text with at least one field. -/
structure Template where
  text : String
  deriving DecidableEq, Repr

namespace Template

/-- The template of lines that are just the message. -/
def bare : Template := ⟨"%(message)s"⟩

/-- What a complete field looks like. -/
def fieldPattern : String :=
  "(?i)%\\(\\w+\\)[#0+ -]*(\\*|\\d+)?(\\.(\\*|\\d+))?[diouxefgcrsa%]"

def hasField (text : String) : Bool :=
  match Pattern.ofText fieldPattern with
  | .ok p => p.search text
  | .error _ => false

/-- The template that a setting gives. A setting that is not set stands for bare messages. -/
def ofScalar (v : Config.Scalar) : Except TemplateError Template :=
  if !v.isSet then .ok bare
  else match v with
    | .text text => if hasField text then .ok ⟨text⟩ else .error (.noField text)
    | v => .error (.notText v.typeName)

/-- The line that a template gives for the values of its fields; `all` is all of them together,
which a field without a name may show before the first name. -/
def write (t : Template) (all : FieldValue) (value? : String → Option FieldValue) :
    Except FieldFault String :=
  (writeFrom value? (t.text.length + 1) (some all) 0 t.text.toList).map String.ofList

end Template

end SupplyGauge.Log
