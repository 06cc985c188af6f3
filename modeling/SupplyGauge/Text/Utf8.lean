import SupplyGauge.Text.Quoted
/-! # UTF-8

Decoding proceeds by one step per character. A step that fails says how many
octets form the maximal part that could still have begun a character; strict
decoding reports that part, lenient decoding writes U+FFFD for it.
-/

namespace SupplyGauge.Utf8

/-- Why octets do not form a character. -/
inductive Fault where
  | badStart
  | badContinuation
  | truncated
  deriving DecidableEq, Repr

/-- How a character continues after its first octet: the number of further octets, the range
of the next one, and the value bits of the first. -/
structure Lead where
  tails : Nat
  low : UInt8
  high : UInt8
  bits : Nat

/-- What the first octet of a character says; octets that start none give nothing. -/
def lead? (b : UInt8) : Option Lead :=
  if b < 0x80 then some ⟨0, 0x80, 0xBF, b.toNat⟩
  else if b < 0xC2 then none
  else if b < 0xE0 then some ⟨1, 0x80, 0xBF, b.toNat - 0xC0⟩
  else if b = 0xE0 then some ⟨2, 0xA0, 0xBF, 0⟩
  else if b = 0xED then some ⟨2, 0x80, 0x9F, 0xD⟩
  else if b < 0xF0 then some ⟨2, 0x80, 0xBF, b.toNat - 0xE0⟩
  else if b = 0xF0 then some ⟨3, 0x90, 0xBF, 0⟩
  else if b < 0xF4 then some ⟨3, 0x80, 0xBF, b.toNat - 0xF0⟩
  else if b = 0xF4 then some ⟨3, 0x80, 0x8F, 4⟩
  else none

/-- Outcome of reading `tails` further octets: the value and their number, or the fault and the
number of octets that were still good. -/
def readTails : Nat → UInt8 → UInt8 → Nat → Nat → List UInt8 → Except (Fault × Nat) (Nat × Nat)
  | 0, _, _, bits, used, _ => .ok (bits, used)
  | _ + 1, _, _, _, used, [] => .error (.truncated, used)
  | tails + 1, low, high, bits, used, b :: rest =>
    if low ≤ b ∧ b ≤ high then
      readTails tails 0x80 0xBF (bits * 64 + (b.toNat - 0x80)) (used + 1) rest
    else .error (.badContinuation, used)

/-- The character at the start of `b :: rest` and its length, or the fault and the length of the
part it covers. -/
def step (b : UInt8) (rest : List UInt8) : Except (Fault × Nat) (Char × Nat) :=
  match lead? b with
  | none => .error (.badStart, 1)
  | some l =>
    match readTails l.tails l.low l.high l.bits 1 rest with
    | .ok (code, used) => .ok (Char.ofNat code, used)
    | .error fault => .error fault

/-- Decoded text in which every undecodable part is one U+FFFD. -/
def decodeLenient (bytes : List UInt8) : List Char :=
  match bytes with
  | [] => []
  | b :: rest =>
    match step b rest with
    | .ok (c, used) => c :: decodeLenient (rest.drop (used - 1))
    | .error (_, used) => '\uFFFD' :: decodeLenient (rest.drop (used - 1))
termination_by bytes.length
decreasing_by all_goals simp only [List.length_drop, List.length_cons]; omega

/-- A part of a text that is not UTF-8. -/
structure Failure where
  fault : Fault
  position : Nat
  octets : Nat
  first : UInt8
  deriving DecidableEq

/-- Decoded text, or the first part that cannot be decoded. -/
def decodeFrom (position : Nat) (bytes : List UInt8) : Except Failure (List Char) :=
  match bytes with
  | [] => .ok []
  | b :: rest =>
    match step b rest with
    | .ok (c, used) =>
      match decodeFrom (position + used) (rest.drop (used - 1)) with
      | .ok text => .ok (c :: text)
      | .error failure => .error failure
    | .error (fault, used) => .error ⟨fault, position, used, b⟩
termination_by bytes.length
decreasing_by simp only [List.length_drop, List.length_cons]; omega

def decode (bytes : List UInt8) : Except Failure (List Char) := decodeFrom 0 bytes

def Fault.message : Fault → String
  | .badStart => "invalid start byte"
  | .badContinuation => "invalid continuation byte"
  | .truncated => "unexpected end of data"

/-- Report of an undecodable part with its place in the octets. -/
def Failure.message (f : Failure) : String :=
  if f.octets = 1 then
    let octet := String.ofList (Text.hex 2 f.first.toNat)
    s!"'utf-8' codec can't decode byte 0x{octet} in position {f.position}: {f.fault.message}"
  else
    let last := f.position + f.octets - 1
    s!"'utf-8' codec can't decode bytes in position {f.position}-{last}: {f.fault.message}"

/-- The UTF-8 octets of a text. -/
def encode (text : String) : List UInt8 := text.toUTF8.toList

end SupplyGauge.Utf8
