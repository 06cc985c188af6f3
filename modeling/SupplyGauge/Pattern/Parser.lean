import SupplyGauge.Pattern.Syntax
import SupplyGauge.Text.CharName
import SupplyGauge.Text.LetterCase
import SupplyGauge.Text.Word
/-! # Reading patterns

A pattern text is read in units: a character, or a backslash with the character
after it. One unit is always looked at ahead, so a backslash at the very end is
refused as soon as the unit in front of it has been taken. Every loop takes a
unit or ends, and the fuel is a multiple of the length of the text. What is refused,
and with which words, is as in release 3.11 of the pattern compiler.
-/

namespace SupplyGauge.Pattern

/-- A pattern text while it is read: what has been taken, what is left, the options and groups
met so far. `lookbehind` is the number of groups before the look-behind being read. -/
structure Reading where
  pattern : String
  taken : Nat
  rest : List Char
  flags : List Flag
  names : List (String × Nat)
  widths : List (Option Width)
  lookbehind : Option Nat
  numbered : List (Nat × Nat)

/-- Steps of reading, which may be refused. -/
abbrev Reader := StateT Reading (Except Error)

/-- A unit of a pattern text. -/
abbrev Unit_ := List Char

namespace Reader

/-- The unit ahead; the end of the text gives none. -/
def unitOf : List Char → Option Unit_
  | [] => none
  | '\\' :: c :: _ => some ['\\', c]
  | c :: _ => some [c]

def peek : Reader (Option Unit_) := do return unitOf (← get).rest

/-- Refuses the pattern at a position counted back from the unit ahead. -/
def refuse {α : Type} (fault : Fault) (back : Nat) : Reader α := do
  let r ← get
  throw (.syntax_ fault (some (r.taken - back)) r.pattern)

def refuseAt {α : Type} (fault : Fault) (position : Nat) : Reader α := do
  throw (.syntax_ fault (some position) (← get).pattern)

/-- Looks at what is left, which must not be a lone backslash. -/
def settle : Reader PUnit := do
  let r ← get
  if r.rest = ['\\'] then throw (.syntax_ .danglingBackslash (some r.taken) r.pattern)

def take : Reader (Option Unit_) := do
  let r ← get
  match unitOf r.rest with
  | none => return none
  | some u =>
    set { r with taken := r.taken + u.length, rest := r.rest.drop u.length }
    settle
    return some u

/-- Takes the unit ahead if it is the character `c`. -/
def accept (c : Char) : Reader Bool := do
  if (← peek) = some [c] then
    let _ ← take
    return true
  return false

def tell : Reader Nat := do return (← get).taken

def takeWhile (p : Char → Bool) : Nat → Reader (List Char)
  | 0 => return []
  | n + 1 => do
    match ← peek with
    | some [c] =>
      if p c then
        let _ ← take
        return c :: (← takeWhile p n)
      else return []
    | _ => return []

/-- Takes everything up to a closing character and that character itself. -/
def takeUntil (closer : Char) (what : String) : Nat → List Char → Reader String
  | 0, _ => refuse .tooDeep 0
  | fuel + 1, name => do
    match ← take with
    | none =>
      if name.isEmpty then refuse (.missing what) 0
      else refuse (.unterminatedName closer) name.length
    | some u =>
      if u = [closer] then
        if name.isEmpty then refuse (.missing what) 1
        else return String.ofList name
      else takeUntil closer what fuel (name ++ u)

/-- Fuel for a loop that takes a unit each time. -/
def fuel : Reader Nat := do return (← get).rest.length + 2

def hexValue (c : Char) : Nat :=
  if c.isDigit then c.toNat - 48 else (Text.asciiLower c).toNat - 87

def isHex (c : Char) : Bool :=
  ('0' ≤ c && c ≤ '9') || ('a' ≤ c && c ≤ 'f') || ('A' ≤ c && c ≤ 'F')

def isOctal (c : Char) : Bool := '0' ≤ c && c ≤ '7'

/-- ASCII decimal digits. -/
def isDecimal (c : Char) : Bool := '0' ≤ c && c ≤ '9'

def baseValue (base : Nat) (digits : List Char) : Nat :=
  digits.foldl (fun n c => base * n + hexValue c) 0

def checkName (name : String) (offset : Nat) : Reader PUnit := do
  unless Text.isName name.toList do
    refuse (.badGroupName name) (name.length + offset)

/-- Number of groups, counting the whole match as one. -/
def groupCount (r : Reading) : Nat := r.widths.length + 1

def isClosed (r : Reading) (n : Nat) : Bool :=
  n != 0 && ((r.widths[n - 1]?).getD none).isSome

/-- Checks that a group may be referred to from inside a look-behind. -/
def checkLookbehind (n : Nat) : Reader PUnit := do
  let r ← get
  match r.lookbehind with
  | none => return
  | some outer =>
    unless n < groupCount r && isClosed r n do refuse .openGroup 0
    if outer ≤ n then refuse .lookbehindGroup 0

/-- A character written by its code in hexadecimal digits. -/
def hexEscape (escape : Unit_) (digits : Nat) : Reader Nat := do
  let code ← takeWhile isHex digits
  let text := escape ++ code
  if code.length < digits then refuse (.incompleteEscape (String.ofList text)) text.length
  let value := baseValue 16 code
  if 0x10FFFF < value then refuse (.badEscape (String.ofList text)) text.length
  return value

def nameEscape : Reader Nat := do
  unless ← accept '\x7b' do refuse .braceMissing 0
  let name ← takeUntil '\x7d' "character name" (← fuel) []
  match Text.namedChar? name.toList with
  | some code => return code
  | none => refuse (.undefinedCharacter name) (name.length + 4)

/-- Letters that stand for control characters after a backslash. -/
def controlCode? : Char → Option Nat
  | 'a' => some 7
  | 'b' => some 8
  | 'f' => some 12
  | 'n' => some 10
  | 'r' => some 13
  | 't' => some 9
  | 'v' => some 11
  | '\\' => some 92
  | _ => none

/-- Letters that stand for classes of characters after a backslash. -/
def categoryOf? : Char → Option SetItem
  | 'd' => some (.category .digit false)
  | 'D' => some (.category .digit true)
  | 's' => some (.category .space false)
  | 'S' => some (.category .space true)
  | 'w' => some (.category .word false)
  | 'W' => some (.category .word true)
  | _ => none

/-- Letters that stand for places after a backslash. -/
def anchorOf? : Char → Option Anchor
  | 'A' => some .textStart
  | 'b' => some .boundary
  | 'B' => some .noBoundary
  | 'Z' => some .textEnd
  | _ => none

/-- An escape that is written by code or stands for itself. -/
def plainEscape (escape : Unit_) (c : Char) : Reader Nat := do
  match c with
  | 'x' => hexEscape escape 2
  | 'u' => hexEscape escape 4
  | 'U' => hexEscape escape 8
  | 'N' => nameEscape
  | _ =>
    if c.isAlpha || isDecimal c then refuse (.badEscape (String.ofList escape)) 2
    else return c.toNat

/-- An octal code of at most three digits. -/
def octalEscape (digits : List Char) : Reader Nat := do
  let value := baseValue 8 digits
  if 0o377 < value then
    refuse (.octalTooLarge (String.ofList ('\\' :: digits))) (digits.length + 1)
  return value

def setEscape (escape : Unit_) (c : Char) : Reader SetItem := do
  match controlCode? c, categoryOf? c with
  | some code, _ => return .literal code
  | none, some item => return item
  | none, none =>
    if isOctal c then
      return .literal (← octalEscape (c :: (← takeWhile isOctal 2)))
    else return .literal (← plainEscape escape c)

def groupEscape (digits : List Char) : Reader Node := do
  let n := baseValue 10 digits
  let r ← get
  if n < groupCount r then
    unless isClosed r n do refuse .openGroup (digits.length + 1)
    checkLookbehind n
    return .backreference n
  else refuse (.invalidGroup n) digits.length

def escape (u : Unit_) (c : Char) : Reader Node := do
  match anchorOf? c, categoryOf? c, controlCode? c with
  | some a, _, _ => return .anchor a
  | none, some item, _ => return .set false [item]
  | none, none, some code => return .literal code
  | none, none, none =>
    if c = '0' then
      return .literal (baseValue 8 (c :: (← takeWhile isOctal 2)))
    else if isDecimal c then
      match ← takeWhile isDecimal 1 with
      | [d] =>
        let third ← if isOctal c && isOctal d then takeWhile isOctal 1 else pure []
        match third with
        | [] => groupEscape [c, d]
        | more => return .literal (← octalEscape (c :: d :: more))
      | _ => groupEscape [c]
    else return .literal (← plainEscape u c)

def setUnit (u : Unit_) : Reader SetItem := do
  match u with
  | ['\\', c] => setEscape u c
  | [c] => return .literal c.toNat
  | _ => return .literal 0

/-- The items of a set up to its closing bracket. -/
def setItems (start : Nat) : Nat → List SetItem → Reader (List SetItem)
  | 0, _ => refuse .tooDeep 0
  | fuel + 1, items => do
    match ← take with
    | none => refuseAt .unterminatedSet start
    | some u =>
      if u = [']'] ∧ !items.isEmpty then return items
      let low ← setUnit u
      unless ← accept '-' do return ← setItems start fuel (items ++ [low])
      match ← take with
      | none => refuseAt .unterminatedSet start
      | some v =>
        if v = [']'] then return items ++ [low, .literal '-'.toNat]
        let high ← setUnit v
        match low, high with
        | .literal a, .literal b =>
          if b < a then badRange u v
          else setItems start fuel (items ++ [.range a b])
        | _, _ => badRange u v
where
  badRange (u v : Unit_) : Reader (List SetItem) :=
    refuse (.badRange (String.ofList u) (String.ofList v)) (u.length + 1 + v.length)

/-- A set after its opening bracket. A set of one character is that character or any other one. -/
def charSet (start : Nat) : Reader Node := do
  let negated ← accept '^'
  match (← setItems start (← fuel) []).eraseDups with
  | [.literal code] => return if negated then .notLiteral code else .literal code
  | items => return .set negated items

def repeatLimit : Nat := 4294967295

def count (digits : List Char) : Reader Nat := do
  match Numeral.whole (String.ofList digits) with
  | .error fault => throw (.number fault)
  | .ok n =>
    if repeatLimit ≤ n.toNat then throw .repetitionTooLarge
    return n.toNat

/-- The bounds of a counted repetition after its brace; nothing if the brace stands for itself. -/
def bounds : Reader (Option (Nat × Option Nat)) := do
  if (← peek) = some ['\x7d'] then return none
  let before ← get
  let n ← fuel
  let low ← takeWhile isDecimal n
  let high ← if ← accept ',' then takeWhile isDecimal n else pure low
  unless ← accept '\x7d' do
    set before
    return none
  let least ← if low.isEmpty then pure 0 else count low
  if high.isEmpty then return some (least, none)
  let most ← count high
  if most < least then refuseAt .crossedRepeat before.taken
  return some (least, some most)

def repeatLast (start : Nat) (least : Nat) (most : Option Nat) (items : List Node) :
    Reader (List Node) := do
  match items with
  | [] => refuseAt .nothingToRepeat start
  | .anchor _ :: _ => refuseAt .nothingToRepeat start
  | .repeated .. :: _ => refuseAt .multipleRepeat start
  | item :: before =>
    let body := match item with
      | .group none [] [] body => body
      | item => .seq item .empty
    if ← accept '?' then return .repeated .lazy least most body :: before
    else if ← accept '+' then return .repeated .possessive least most body :: before
    else return .repeated .greedy least most body :: before

/-- Flag letters: one unit as a flag. -/
def flagOf? : Unit_ → Option Flag
  | [c] => Flag.ofChar? c
  | _ => none

/-- What is wrong with a unit that is no flag letter. -/
def flagFault (expected : String) : Unit_ → Fault
  | [c] => if Text.isLetter c then .unknownFlag else .flagPart expected
  | _ => .flagPart expected

/-- Flags to turn on, and the unit that ends them. -/
def flagsOn : Nat → Flag → List Flag → Reader (List Flag × Unit_)
  | 0, _, _ => refuse .tooDeep 0
  | fuel + 1, flag, on => do
    if flag = .locale then refuse .localeFlag 0
    let on := if on.contains flag then on else on ++ [flag]
    if flag.isAlphabet && on.any (fun f => f.isAlphabet && f != flag) then
      refuse .incompatibleFlags 0
    match ← take with
    | none => refuse (.flagPart "-, : or )") 0
    | some u =>
      if u = [')'] ∨ u = ['-'] ∨ u = [':'] then return (on, u)
      match flagOf? u with
      | some f => flagsOn fuel f on
      | none => refuse (flagFault "-, : or )" u) u.length

/-- Flags to turn off, up to the colon. -/
def flagsOff : Nat → Flag → List Flag → Reader (List Flag)
  | 0, _, _ => refuse .tooDeep 0
  | fuel + 1, flag, off => do
    if flag.isAlphabet then refuse .alphabetFlagOff 0
    let off := if off.contains flag then off else off ++ [flag]
    match ← take with
    | none => refuse (.flagPart ":") 0
    | some u =>
      if u = [':'] then return off
      match flagOf? u with
      | some f => flagsOff fuel f off
      | none => refuse (flagFault ":" u) u.length

/-- Inline flags from their first unit: none if they apply to the whole pattern, else those
turned on and off for a group. -/
def inlineFlags (first : Unit_) : Reader (Option (List Flag × List Flag)) := do
  let (on, ender) ← match flagOf? first with
    | some f => flagsOn (← fuel) f []
    | none => pure ([], first)
  if ender = [')'] then
    modify fun r => { r with flags := r.flags ++ on.filter (!r.flags.contains ·) }
    return none
  if on.contains .template then refuse .globalFlagOn 1
  let off ← if ender = ['-'] then
      match ← take with
      | none => refuse (.flagPart "flag") 0
      | some u =>
        match flagOf? u with
        | some f => flagsOff (← fuel) f []
        | none => refuse (flagFault "flag" u) u.length
    else pure []
  if off.contains .template then refuse .globalFlagOff 1
  if on.any off.contains then refuse .flagOnAndOff 1
  return some (on, off)

def openGroup (name : Option String) : Reader Nat := do
  let r ← get
  let n := groupCount r
  match name with
  | none => set { r with widths := r.widths ++ [none] }
  | some s =>
    match r.names.find? (·.1 == s) with
    | some (_, old) => refuse (.redefined s n old) (s.length + 1)
    | none => set { r with widths := r.widths ++ [none], names := (s, n) :: r.names }
  return n

def groupWidths (r : Reading) (n : Nat) : Width :=
  if n = 0 then ⟨0, 0⟩ else ((r.widths[n - 1]?).getD none).getD ⟨0, 0⟩

def closeGroup (n : Nat) (body : Node) : Reader PUnit :=
  modify fun r => { r with widths := r.widths.set (n - 1) (some (body.width (groupWidths r))) }

def skipComment (start : Nat) : Nat → Reader PUnit
  | 0 => refuse .tooDeep 0
  | fuel + 1 => do
    match ← take with
    | none => refuseAt .unterminatedComment start
    | some u => if u = [')'] then return else skipComment start fuel

/-- Skips a verbose comment up to the end of the line. -/
def skipLine : Nat → Reader PUnit
  | 0 => refuse .tooDeep 0
  | fuel + 1 => do
    match ← take with
    | none => return
    | some u => if u = ['\n'] then return else skipLine fuel

/-- A reference to a group by name, after `(?P=`. -/
def namedReference : Reader Node := do
  let name ← takeUntil ')' "group name" (← fuel) []
  checkName name 1
  let r ← get
  match r.names.find? (·.1 == name) with
  | none => refuse (.unknownGroup name) (name.length + 1)
  | some (_, n) =>
    unless isClosed r n do refuse .openGroup (name.length + 1)
    checkLookbehind n
    return .backreference n

def groupLimit : Nat := 1073741823

/-- The group that a conditional asks about, after `(?(`. -/
def condition : Reader Nat := do
  let name ← takeUntil ')' "group name" (← fuel) []
  let r ← get
  let n ← if Text.isName name.toList then
      match r.names.find? (·.1 == name) with
      | none => refuse (.unknownGroup name) (name.length + 1)
      | some (_, n) => pure n
    else
      match Numeral.whole name with
      | .error _ => refuse (.badGroupName name) (name.length + 1)
      | .ok n =>
        if n < 0 then refuse (.badGroupName name) (name.length + 1)
        if n = 0 then refuse .badGroupNumber (name.length + 1)
        if groupLimit ≤ n then refuse (.invalidGroup n.toNat) (name.length + 1)
        let position := r.taken - name.length - 1
        unless r.numbered.any (·.1 == n.toNat) do
          set { r with numbered := r.numbered ++ [(n.toNat, position)] }
        pure n.toNat
  checkLookbehind n
  return n

/-- Requires the closing parenthesis of a group that starts at a position. -/
def close (start : Nat) : Reader PUnit := do
  unless ← accept ')' do refuseAt .unterminatedGroup start

/-- What begins after an opening parenthesis. -/
inductive Opening where
  | capture (name : Option String)
  | plain (on off : List Flag)
  | atomic
  | look (ahead negative : Bool)
  | conditional (group : Nat)
  | done (item : Option Node)
  | globalFlags

def opening (start : Nat) : Reader Opening := do
  unless ← accept '?' do return .capture none
  match ← take with
  | none => refuse .unexpectedEnd 0
  | some ['P'] =>
    if ← accept '<' then
      let name ← takeUntil '>' "group name" (← fuel) []
      checkName name 1
      return .capture (some name)
    if ← accept '=' then return .done (some (← namedReference))
    match ← take with
    | none => refuse .unexpectedEnd 0
    | some u => refuse (.unknownExtension (String.ofList ('P' :: u))) (u.length + 2)
  | some [':'] => return .plain [] []
  | some ['#'] =>
    skipComment start (← fuel)
    return .done none
  | some ['='] => return .look true false
  | some ['!'] => return .look true true
  | some ['<'] =>
    match ← take with
    | none => refuse .unexpectedEnd 0
    | some ['='] => return .look false false
    | some ['!'] => return .look false true
    | some u => refuse (.unknownExtension (String.ofList ('<' :: u))) (u.length + 2)
  | some ['('] => return .conditional (← condition)
  | some ['>'] => return .atomic
  | some u =>
    if (flagOf? u).isSome ∨ u = ['-'] then
      match ← inlineFlags u with
      | none => return .globalFlags
      | some (on, off) => return .plain on off
    else refuse (.unknownExtension (String.ofList u)) (u.length + 1)

/-- Characters skipped between items of a verbose pattern. -/
def isVerboseBlank (u : Unit_) : Bool :=
  u = [' '] || u = ['\t'] || u = ['\n'] || u = ['\r'] || u = ['\x0b'] || u = ['\x0c']

mutual

/-- Alternatives up to a closing parenthesis or the end. -/
def alternatives (verbose nested : Bool) : Nat → List (List Node) → Reader Node
  | 0, _ => refuse .tooDeep 0
  | fuel + 1, before => do
    let item ← sequence verbose nested (!nested && before.isEmpty) fuel []
    if ← accept '|' then
      let r ← get
      let verbose := if nested then verbose else r.flags.contains .verbose
      alternatives verbose nested fuel (before ++ [item])
    else return .ofList (anyOf (before ++ [item]))

/-- Items up to a bar, a closing parenthesis or the end, in which plain groups are replaced by what
they hold; `items` holds those read, latest first. -/
def sequence (verbose nested first : Bool) : Nat → List Node → Reader (List Node)
  | 0, _ => refuse .tooDeep 0
  | fuel + 1, items => do
    match ← peek with
    | none => return unwrapGroups items.reverse
    | some ['|'] => return unwrapGroups items.reverse
    | some [')'] => return unwrapGroups items.reverse
    | some u =>
      let start ← tell
      let _ ← take
      if verbose && isVerboseBlank u then return ← sequence verbose nested first fuel items
      if verbose && u = ['#'] then
        skipLine (← Reader.fuel)
        return ← sequence verbose nested first fuel items
      match u with
      | ['\\', c] => sequence verbose nested first fuel ((← escape u c) :: items)
      | ['['] => sequence verbose nested first fuel ((← charSet start) :: items)
      | ['?'] => sequence verbose nested first fuel (← repeatLast start 0 (some 1) items)
      | ['*'] => sequence verbose nested first fuel (← repeatLast start 0 none items)
      | ['+'] => sequence verbose nested first fuel (← repeatLast start 1 none items)
      | ['\x7b'] =>
        match ← bounds with
        | none => sequence verbose nested first fuel (.literal '\x7b'.toNat :: items)
        | some (least, most) =>
          sequence verbose nested first fuel (← repeatLast start least most items)
      | ['.'] => sequence verbose nested first fuel (.any :: items)
      | ['^'] => sequence verbose nested first fuel (.anchor .lineStart :: items)
      | ['$'] => sequence verbose nested first fuel (.anchor .lineEnd :: items)
      | ['('] =>
        match ← opening start with
        | .done none => sequence verbose nested first fuel items
        | .done (some item) => sequence verbose nested first fuel (item :: items)
        | .globalFlags =>
          unless first && items.isEmpty do refuseAt .lateFlags start
          sequence ((← get).flags.contains .verbose) nested first fuel items
        | .capture name =>
          let n ← openGroup name
          let body ← alternatives verbose true fuel []
          close start
          closeGroup n body
          sequence verbose nested first fuel (.group (some n) [] [] body :: items)
        | .plain on off =>
          let inner := (verbose || on.contains .verbose) && !off.contains .verbose
          let body ← alternatives inner true fuel []
          close start
          sequence verbose nested first fuel (.group none on off body :: items)
        | .atomic =>
          let body ← alternatives verbose true fuel []
          close start
          sequence verbose nested first fuel (.atomic body :: items)
        | .look ahead negative =>
          let outer := (← get).lookbehind
          if !ahead && outer.isNone then
            modify fun r => { r with lookbehind := some (groupCount r) }
          let body ← alternatives verbose true fuel []
          if !ahead && outer.isNone then modify fun r => { r with lookbehind := none }
          close start
          sequence verbose nested first fuel (.look ahead negative body :: items)
        | .conditional n =>
          let yes ← sequence verbose true false fuel []
          let no ← if ← accept '|' then sequence verbose true false fuel [] else pure []
          if (← peek) = some ['|'] then refuse .tooManyBranches 0
          close start
          sequence verbose nested first fuel (.conditional n (.ofList yes) (.ofList no) :: items)
      | [c] => sequence verbose nested first fuel (.literal c.toNat :: items)
      | _ => sequence verbose nested first fuel items

end

end Reader

end SupplyGauge.Pattern
