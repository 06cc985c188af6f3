import SupplyGauge.Config.Scalar
/-! # Tokens of a settings text

A token is a symbol and the place of its first character. The tokens of a text
end either at its end, whose place is kept, or at the first fault.
-/

namespace SupplyGauge.Config

/-- Line and column of a character, both counted from one. -/
structure Place where
  line : Nat
  column : Nat
  deriving DecidableEq, Repr

def Place.start : Place := ⟨1, 1⟩

/-- The place after one more character; only a line feed begins a new line. -/
def Place.next (p : Place) (c : Char) : Place :=
  if c = '\n' then ⟨p.line + 1, 1⟩ else ⟨p.line, p.column + 1⟩

def Place.after (p : Place) (text : List Char) : Place := text.foldl Place.next p

/-- What a numeral stands for. -/
inductive Quantity where
  | whole (n : Int)
  | real (x : Binary64)
  deriving DecidableEq

def Quantity.scalar : Quantity → Scalar
  | .whole n => .whole n
  | .real x => .real x

/-- What a token says. A number or a duration carries its value. -/
inductive Symbol where
  | identifier (name : String)
  | string (s : String)
  | number (v : Quantity)
  | duration (v : Quantity)
  | boolean (b : Bool)
  | openBrace
  | closeBrace
  | semicolon
  deriving DecidableEq

/-- The value that a symbol contributes to a directive, for symbols that may stand there. -/
def Symbol.value? : Symbol → Option Scalar
  | .identifier name => some (.text name)
  | .string s => some (.text s)
  | .number v => some v.scalar
  | .duration v => some v.scalar
  | .boolean b => some (.flag b)
  | .openBrace | .closeBrace | .semicolon => none

/-- A symbol and where it begins. -/
structure Token where
  symbol : Symbol
  place : Place
  deriving DecidableEq

/-- Why a text cannot be read as tokens any further. -/
inductive LexFault where
  | unexpected (c : Char)
  | unterminatedComment
  | unterminatedString
  | unknownUnit (unit : String)
  | badNumber (fault : Numeral.Fault)
  deriving DecidableEq, Repr

/-- A fault and the place of the character at which no token begins. -/
structure LexError where
  fault : LexFault
  place : Place
  deriving DecidableEq, Repr

def Place.locate (p : Place) (message : String) : String :=
  s!"Line {p.line}, column {p.column}: {message}"

/-- Wording of a lexical error. Number conversion reports no place. -/
def LexError.message (e : LexError) : String :=
  match e.fault with
  | .unexpected c => e.place.locate s!"Unexpected character: {String.ofList (Text.quotedChars [c])}"
  | .unterminatedComment => e.place.locate "Unterminated multi-line comment"
  | .unterminatedString => e.place.locate "Unterminated string literal"
  | .unknownUnit unit => e.place.locate s!"Unknown duration unit: {unit}"
  | .badNumber fault => fault.message

/-- The tokens of a text, and its end or the error that stopped the reading. -/
structure Tokens where
  tokens : List Token
  ending : Except LexError Place

end SupplyGauge.Config
