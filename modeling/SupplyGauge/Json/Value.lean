import SupplyGauge.Number.Notation
import SupplyGauge.Text.Quoted
/-! # JSON texts

JSON values and their text: one space after commas and colons, texts in ASCII with
characters beyond it as escapes of their UTF-16 units, and doubles with their
shortest digits. The three doubles that are not numbers get names of their own,
which readers of strict JSON refuse.
-/

namespace SupplyGauge.Json

/-- A JSON value. Members of an object keep their order. -/
inductive Value where
  | null
  | bool (b : Bool)
  | whole (n : Int)
  | real (x : Binary64)
  | text (s : String)
  | list (items : List Value)
  | object (members : List (String × Value))
  deriving Inhabited

def units16 (c : Char) : List Nat :=
  if c.toNat < 0x10000 then [c.toNat]
  else [0xD800 + (c.toNat - 0x10000) / 0x400, 0xDC00 + (c.toNat - 0x10000) % 0x400]

def escapeChar (c : Char) : List Char :=
  if c = '"' ∨ c = '\\' then ['\\', c]
  else if c = '\n' then ['\\', 'n']
  else if c = '\r' then ['\\', 'r']
  else if c = '\t' then ['\\', 't']
  else if c = '\x08' then ['\\', 'b']
  else if c = '\x0c' then ['\\', 'f']
  else if 32 ≤ c.toNat ∧ c.toNat < 127 then [c]
  else (units16 c).flatMap fun u => '\\' :: 'u' :: Text.hex 4 u

def quote (s : String) : String :=
  String.ofList ('"' :: (s.toList.flatMap escapeChar ++ ['"']))

mutual

def Value.render : Value → String
  | .null => "null"
  | .bool true => "true"
  | .bool false => "false"
  | .whole n => String.ofList (Decimal.ofInt n)
  | .real x => x.text .payload
  | .text s => quote s
  | .list items => "[" ++ renderItems items ++ "]"
  | .object members => "\x7b" ++ renderMembers members ++ "\x7d"

def renderItems : List Value → String
  | [] => ""
  | [v] => v.render
  | v :: rest => v.render ++ ", " ++ renderItems rest

def renderMembers : List (String × Value) → String
  | [] => ""
  | [(k, v)] => quote k ++ ": " ++ v.render
  | (k, v) :: rest => quote k ++ ": " ++ v.render ++ ", " ++ renderMembers rest

end

end SupplyGauge.Json
