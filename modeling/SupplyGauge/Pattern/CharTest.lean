import SupplyGauge.Pattern.Syntax
import SupplyGauge.Text.Blank
import SupplyGauge.Text.Digit
import SupplyGauge.Text.LetterCase
import SupplyGauge.Text.Word
/-! # Tests on single characters

What matches one character is turned into a test under the options that hold where it
stands. Without regard to letter case, the test looks at the lower-case form of a
character, and the characters of a set are lowered as well. Characters beyond U+FFFF
are an exception: in a set they stand for themselves only, and in a range also for
those whose upper-case form is in it.
-/

namespace SupplyGauge.Pattern

/-- How a character is seen before it is compared: as it is, with ASCII letters lowered, or with
all letters lowered. -/
inductive Fold where
  | none
  | ascii
  | full
  deriving DecidableEq, Repr

/-- A code point as it is seen. -/
def Fold.apply : Fold → Nat → Nat
  | .none, code => code
  | .ascii, code => if 65 ≤ code ∧ code ≤ 90 then code + 32 else code
  | .full, code => Text.lowerCode code

/-- Whether letter case tells a code point apart from another one. -/
def Fold.tellsApart : Fold → Nat → Bool
  | .none, _ => false
  | .ascii, code => (65 ≤ code && code ≤ 90) || (97 ≤ code && code ≤ 122)
  | .full, code => Text.isCased code

/-- Other code points that count as the same lowered letter. -/
def Fold.twins : Fold → Nat → List Nat
  | .full, code => (Text.twinCodes code).filter (· != code)
  | _, _ => []

def Fold.ofFlags (flags : List Flag) : Fold :=
  if !flags.contains .ignoreCase then .none
  else if flags.contains .ascii then .ascii
  else .full

/-- Membership in a named class, whose alphabet may be ASCII. -/
def Category.has (asciiOnly : Bool) (category : Category) (code : Nat) : Bool :=
  if asciiOnly && 128 ≤ code then false
  else
    let c := Char.ofNat code
    match category with
    | .digit => Text.isDigit c
    | .space => if asciiOnly then Text.isPadding c else Text.isBlank c
    | .word => Text.isWord c

/-- A part of a test on a set. `eitherCase` is a range that has a code point also if it has the
upper-case form. -/
inductive TestPart where
  | range (low high : Nat)
  | eitherCase (low high : Nat)
  | category (c : Category) (asciiOnly negated : Bool)
  deriving DecidableEq, Repr

def TestPart.has (code : Nat) : TestPart → Bool
  | .range low high => low ≤ code && code ≤ high
  | .eitherCase low high =>
    let upper := Text.upperCode code
    (low ≤ code && code ≤ high) || (low ≤ upper && upper ≤ high)
  | .category c asciiOnly negated => c.has asciiOnly code != negated

/-- A test on one character. -/
inductive CharTest where
  | literal (fold : Fold) (negated : Bool) (code : Nat)
  | set (fold : Fold) (negated : Bool) (parts : List TestPart)
  | any (lineFeeds : Bool)
  deriving DecidableEq, Repr

/-- Whether a character passes a test. -/
def CharTest.has (c : Char) : CharTest → Bool
  | .literal fold negated code => (fold.apply c.toNat == code) != negated
  | .set fold negated parts => parts.any (·.has (fold.apply c.toNat)) != negated
  | .any lineFeeds => lineFeeds || c != '\n'

def SetItem.part (asciiOnly : Bool) : SetItem → TestPart
  | .literal code => .range code code
  | .range low high => .range low high
  | .category c negated => .category c asciiOnly negated

/-- The least code point beyond those that a set keeps by their lowered letters. -/
def foldLimit : Nat := 0x10000

/-- Code points that a set keeps, by code point. -/
abbrev Marked := Array Bool

/-- Marks code points below the limit. -/
def Marked.add (m : Marked) (codes : List Nat) : Marked :=
  codes.foldl (fun m code => m.setIfInBounds code true) m

/-- Marks the lowered letter of a code point and its twins. -/
def Marked.addFolded (fold : Fold) (m : Marked) (code : Nat) : Marked :=
  let lowered := fold.apply code
  m.add (lowered :: fold.twins lowered)

/-- Marks what an item keeps by lowered letters. -/
def Marked.addItem (fold : Fold) (m : Marked) : SetItem → Marked
  | .literal code => if fold.apply code < foldLimit then m.addFolded fold code else m
  | .range low high =>
    (List.range (min (high + 1) foldLimit - low)).foldl (fun m n => m.addFolded fold (low + n)) m
  | .category _ _ => m

/-- The marked code points as ranges, from `start` on. `opened` is where the present range
began. -/
def Marked.ranges (m : Marked) : Nat → Nat → Option Nat → List (Nat × Nat)
  | 0, start, some low => [(low, start - 1)]
  | 0, _, none => []
  | fuel + 1, start, opened =>
    match m[start]?.getD false, opened with
    | true, none => m.ranges fuel (start + 1) (some start)
    | false, some low => (low, start - 1) :: m.ranges fuel (start + 1) none
    | _, _ => m.ranges fuel (start + 1) opened

/-- Whether an item reaches beyond the code points that are kept by lowered letters. -/
def SetItem.isBeyond (fold : Fold) : SetItem → Bool
  | .literal code => foldLimit ≤ fold.apply code
  | .range _ high => foldLimit ≤ high
  | .category _ _ => false

/-- Whether an item has a code point that letter case tells apart. -/
def SetItem.isCased (fold : Fold) : SetItem → Bool
  | .literal code => fold.tellsApart code
  | .range low high =>
    (List.range (high + 1 - low)).any fun n => fold.tellsApart (low + n)
  | .category _ _ => false

def SetItem.extraPart? (fold : Fold) (asciiOnly : Bool) (item : SetItem) : Option TestPart :=
  match item with
  | .category .. => some (item.part asciiOnly)
  | .literal code => if item.isBeyond fold then some (.range code code) else none
  | .range low high => if item.isBeyond fold then some (.eitherCase low high) else none

/-- The test of a set. Where letter case does not count, the items are marked by lowered letters;
but if case tells none of them apart and this would not make the set shorter, the items stay as
they are, unless they fall into more than two ranges. -/
def setTest (flags : List Flag) (negated : Bool) (items : List SetItem) : CharTest :=
  let asciiOnly := flags.contains .ascii
  let plain : CharTest := .set .none negated (items.map (SetItem.part asciiOnly))
  match Fold.ofFlags flags with
  | .none => plain
  | fold =>
    let marked : Marked := items.foldl (Marked.addItem fold) (Array.replicate foldLimit false)
    let ranges := marked.ranges foldLimit 0 none
    let extra := items.filterMap (SetItem.extraPart? fold asciiOnly)
    let parts := ranges.map (fun (low, high) => TestPart.range low high) ++ extra
    if items.any fun item => item.isBeyond fold || item.isCased fold then .set fold negated parts
    else if 2 < ranges.length || parts.length < items.length then .set .none negated parts
    else plain

def literalTest (flags : List Flag) (negated : Bool) (code : Nat) : CharTest :=
  let fold := Fold.ofFlags flags
  if fold.tellsApart code then
    let lowered := fold.apply code
    match fold.twins lowered with
    | [] => .literal fold negated lowered
    | twins => .set fold negated ((lowered :: twins).map fun c => .range c c)
  else .literal .none negated code

/-- The character that a test is for, if it is for just that one as it is. -/
def CharTest.exactly? : CharTest → Option Nat
  | .literal .none false code => some code
  | _ => none

end SupplyGauge.Pattern
