import SupplyGauge.Config.Token
import SupplyGauge.Text.LetterCase
/-! # Lexemes of a settings text

A text falls into consecutive lexemes: comments, quoted strings, numbers with an
optional unit, identifiers, punctuation and white space. The first character
decides the kind, and `extent` the length. Comments and white space carry no
token; every other lexeme carries one.
-/

namespace SupplyGauge.Config

/-- Kinds of lexemes. -/
inductive LexemeKind where
  | comment
  | string
  | number
  | identifier
  | punctuation
  | space
  deriving DecidableEq, Repr

/-- A lexeme with its exact text. -/
structure Lexeme where
  kind : LexemeKind
  text : List Char
  deriving DecidableEq, Repr

/-- ASCII letters. -/
def isLetter (c : Char) : Bool := ('a' ≤ c && c ≤ 'z') || ('A' ≤ c && c ≤ 'Z')

def isNameStart (c : Char) : Bool := isLetter c || c == '_'

def isNamePart (c : Char) : Bool := isNameStart c || ('0' ≤ c && c ≤ '9') || c == '-'

/-- Length of the characters in front that belong to a class. -/
def countWhile (p : Char → Bool) : List Char → Nat
  | [] => 0
  | c :: rest => if p c then countWhile p rest + 1 else 0

/-- Length of a text up to and including its first `*/`. -/
def commentEnd? : List Char → Option Nat
  | '*' :: '/' :: _ => some 2
  | _ :: rest => (commentEnd? rest).map (· + 1)
  | [] => none

/-- Length of a string body with its closing quote. A backslash takes the next character with
it, whatever it is; an unescaped line feed ends the search in vain. -/
def stringEnd? (quote : Char) : List Char → Option Nat
  | [] => none
  | '\\' :: _ :: rest => (stringEnd? quote rest).map (· + 2)
  | c :: rest =>
    if c = quote then some 1
    else if c = '\\' ∨ c = '\n' then none
    else (stringEnd? quote rest).map (· + 1)

/-- Length of a numeral and its unit: digits, a fraction if a digit follows the point, letters. -/
def numberExtent (text : List Char) : Nat :=
  let units := countWhile Text.isDigit text
  let places := match text.drop units with
    | '.' :: rest =>
      let n := countWhile Text.isDigit rest
      if n = 0 then 0 else n + 1
    | _ => 0
  units + places + countWhile isLetter (text.drop (units + places))

/-- Kind and length of the lexeme that `c :: rest` begins with. -/
def extent (c : Char) (rest : List Char) : Except LexFault (LexemeKind × Nat) :=
  if c = '#' then .ok (.comment, countWhile (· != '\n') rest + 1)
  else if c = '/' then
    match rest with
    | '*' :: body =>
      match commentEnd? body with
      | some n => .ok (.comment, n + 2)
      | none => .error .unterminatedComment
    | _ => .error (.unexpected c)
  else if c = '"' ∨ c = '\'' then
    match stringEnd? c rest with
    | some n => .ok (.string, n + 1)
    | none => .error .unterminatedString
  else if Text.isDigit c then .ok (.number, numberExtent (c :: rest))
  else if isNameStart c then .ok (.identifier, countWhile isNamePart rest + 1)
  else if c = '{' ∨ c = '}' ∨ c = ';' then .ok (.punctuation, 1)
  else if Text.isBlank c then .ok (.space, countWhile Text.isBlank rest + 1)
  else .error (.unexpected c)

/-- The lexemes of a text up to its end or up to the first character that begins none. -/
def lexemes (text : List Char) : List Lexeme × Option LexFault :=
  match text with
  | [] => ([], none)
  | c :: rest =>
    match extent c rest with
    | .error fault => ([], some fault)
    | .ok (kind, n) =>
      let (later, stop) := lexemes (rest.drop (n - 1))
      (⟨kind, (c :: rest).take n⟩ :: later, stop)
termination_by text.length
decreasing_by simp only [List.length_drop, List.length_cons]; omega

def escape? : Char → Option Char
  | 'n' => some '\n'
  | 't' => some '\t'
  | 'r' => some '\r'
  | '\\' => some '\\'
  | '"' => some '"'
  | '\'' => some '\''
  | _ => none

/-- A string body with its known escapes replaced; other escapes stay as written. -/
def unescape : List Char → List Char
  | '\\' :: c :: rest =>
    match escape? c with
    | some image => image :: unescape rest
    | none => '\\' :: c :: unescape rest
  | c :: rest => c :: unescape rest
  | [] => []

/-- Words that are booleans in any letter case. -/
def keyword? (word : List Char) : Option Bool :=
  match String.ofList (word.map Text.asciiLower) with
  | "on" | "true" => some true
  | "off" | "false" => some false
  | _ => none

/-- Value of a numeral without unit: whole unless it has a point. -/
def numeralValue (digits : List Char) : Except Numeral.Fault Quantity :=
  if digits.contains '.' then (Numeral.real (String.ofList digits)).map .real
  else (Numeral.whole (String.ofList digits)).map .whole

/-- Seconds in a unit of time, a millisecond being no whole number of them. -/
def unitSeconds? : String → Option Quantity
  | "ms" => some (.real (.ofDecimal false 1 (-3)))
  | "s" => some (.whole 1)
  | "m" => some (.whole 60)
  | "h" => some (.whole 3600)
  | "d" => some (.whole 86400)
  | _ => none

/-- Product of a number and a unit, whole when both are. -/
def times (value unit : Quantity) : Except Numeral.Fault Quantity :=
  match value, unit with
  | .whole a, .whole b => .ok (.whole (a * b))
  | _, _ => do return .real ((← value.scalar.toReal).mul (← unit.scalar.toReal))

def numberSymbol (text : List Char) : Except LexFault Symbol := do
  let digits := text.takeWhile (!isLetter ·)
  let unit := String.ofList ((text.dropWhile (!isLetter ·)).map Text.asciiLower)
  let value ← (numeralValue digits).mapError .badNumber
  if unit.isEmpty then return .number value
  match unitSeconds? unit with
  | none => throw (.unknownUnit unit)
  | some seconds => return .duration (← (times value seconds).mapError .badNumber)

/-- The symbol that a lexeme carries, if it carries one. -/
def Lexeme.symbol? (l : Lexeme) : Except LexFault (Option Symbol) :=
  match l.kind with
  | .comment | .space => .ok none
  | .string => .ok (some (.string (String.ofList (unescape (l.text.drop 1).dropLast))))
  | .number => (numberSymbol l.text).map some
  | .identifier =>
    match keyword? l.text with
    | some b => .ok (some (.boolean b))
    | none => .ok (some (.identifier (String.ofList l.text)))
  | .punctuation =>
    match l.text with
    | ['{'] => .ok (some .openBrace)
    | ['}'] => .ok (some .closeBrace)
    | _ => .ok (some .semicolon)

/-- Tokens of lexemes that begin at a place and are followed by the end of the text or a fault. -/
def Tokens.ofLexemes (place : Place) : List Lexeme → Option LexFault → Tokens
  | [], none => ⟨[], .ok place⟩
  | [], some fault => ⟨[], .error ⟨fault, place⟩⟩
  | l :: rest, stop =>
    match l.symbol? with
    | .error fault => ⟨[], .error ⟨fault, place⟩⟩
    | .ok none => ofLexemes (place.after l.text) rest stop
    | .ok (some symbol) =>
      let later := ofLexemes (place.after l.text) rest stop
      ⟨⟨symbol, place⟩ :: later.tokens, later.ending⟩

def Tokens.ofText (text : List Char) : Tokens :=
  let (all, stop) := lexemes text
  ofLexemes .start all stop

end SupplyGauge.Config
