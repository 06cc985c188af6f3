import SupplyGauge.Number.Numeral
/-! # Pattern expressions

The syntax tree of a search pattern, the reasons for which a pattern text is
refused, and the range of lengths that an expression can match. Look-behind needs
one single length.
-/

namespace SupplyGauge.Pattern

/-- Options that change how an expression matches. -/
inductive Flag where
  | ignoreCase
  | locale
  | multiline
  | dotAll
  | verbose
  | ascii
  | template
  | unicode
  deriving DecidableEq, Repr

def Flag.ofChar? : Char → Option Flag
  | 'i' => some .ignoreCase
  | 'L' => some .locale
  | 'm' => some .multiline
  | 's' => some .dotAll
  | 'x' => some .verbose
  | 'a' => some .ascii
  | 't' => some .template
  | 'u' => some .unicode
  | _ => none

/-- Options that choose an alphabet; at most one may be on. -/
def Flag.isAlphabet : Flag → Bool
  | .ascii | .locale | .unicode => true
  | _ => false

/-- Classes of characters with a name of their own. -/
inductive Category where
  | digit
  | space
  | word
  deriving DecidableEq, Repr

/-- A part of a character set. Characters are given by code point. -/
inductive SetItem where
  | literal (code : Nat)
  | range (low high : Nat)
  | category (c : Category) (negated : Bool)
  deriving DecidableEq, Repr

/-- Places in a text, which match without taking a character. -/
inductive Anchor where
  | lineStart
  | lineEnd
  | textStart
  | textEnd
  | boundary
  | noBoundary
  deriving DecidableEq, Repr

/-- How a repetition chooses its count: as many as possible, as few, or as many without
ever giving one back. -/
inductive Greed where
  | greedy
  | lazy
  | possessive
  deriving DecidableEq, Repr

/-- Pattern expressions. A sequence is `empty` or a `seq` of an item and a sequence, and the bodies
of items are sequences; the second part of `alt` is the last alternative or an `alt` of those that
are left. A conditional without a second branch has the empty one. -/
inductive Node where
  | empty
  | seq (item rest : Node)
  | literal (code : Nat)
  | notLiteral (code : Nat)
  | any
  | set (negated : Bool) (items : List SetItem)
  | anchor (a : Anchor)
  | alt (first others : Node)
  | group (capture : Option Nat) (on off : List Flag) (body : Node)
  | atomic (body : Node)
  | repeated (greed : Greed) (least : Nat) (most : Option Nat) (body : Node)
  | backreference (group : Nat)
  | look (ahead negative : Bool) (body : Node)
  | conditional (group : Nat) (yes no : Node)
  deriving DecidableEq

def Node.ofList (items : List Node) : Node := items.foldr .seq .empty

def Node.items : Node → List Node
  | .seq item rest => item :: rest.items
  | _ => []

/-- Whether an item is known by its looks alone: a character, a set, a place or a reference. Other
items are told apart even if they look the same. -/
def Node.isPlain : Node → Bool
  | .literal _ | .notLiteral _ | .any | .set _ _ | .anchor _ | .backreference _ => true
  | _ => false

/-- Items with plain groups replaced by what they hold. -/
def unwrapGroups (items : List Node) : List Node :=
  items.flatMap fun
    | .group none [] [] body => body.items
    | item => [item]

/-- The items that all alternatives begin with, and the alternatives without them. -/
def commonStart (alternatives : List (List Node)) : Nat → List Node × List (List Node)
  | 0 => ([], alternatives)
  | fuel + 1 =>
    match alternatives with
    | (item :: _) :: _ =>
      if item.isPlain && alternatives.all (·.head? == some item) then
        let (start, rest) := commonStart (alternatives.map List.tail) fuel
        (item :: start, rest)
      else ([], alternatives)
    | _ => ([], alternatives)

/-- What an alternative gives to a set: itself if it is a single character or a set that is not
negated. -/
def setPart? : List Node → Option (List SetItem)
  | [.literal code] => some [.literal code]
  | [.set false items] => some items
  | _ => none

/-- Alternatives as an expression of their own. -/
def branches : List (List Node) → Node
  | [] => .empty
  | [last] => .ofList last
  | first :: others => .alt (.ofList first) (branches others)

/-- One of several alternatives: what all begin with stands before them, and alternatives that are
single characters or sets are one set. -/
def anyOf (alternatives : List (List Node)) : List Node :=
  match alternatives with
  | [only] => only
  | _ =>
    let (start, rest) := commonStart alternatives ((alternatives.head?.map List.length).getD 0)
    match rest.mapM setPart? with
    | some parts => start ++ [.set false parts.flatten.eraseDups]
    | none => start ++ [branches rest]

/-- Why a pattern text is refused. -/
inductive Fault where
  | danglingBackslash
  | badEscape (text : String)
  | incompleteEscape (text : String)
  | octalTooLarge (text : String)
  | braceMissing
  | missing (what : String)
  | unterminatedName (closer : Char)
  | undefinedCharacter (name : String)
  | badGroupName (name : String)
  | openGroup
  | lookbehindGroup
  | invalidGroup (number : Nat)
  | badGroupNumber
  | unknownGroup (name : String)
  | redefined (name : String) (new old : Nat)
  | unterminatedSet
  | badRange (low high : String)
  | nothingToRepeat
  | multipleRepeat
  | crossedRepeat
  | unexpectedEnd
  | unknownExtension (text : String)
  | unterminatedComment
  | unterminatedGroup
  | unbalanced
  | lateFlags
  | tooManyBranches
  | localeFlag
  | incompatibleFlags
  | unknownFlag
  | flagPart (expected : String)
  | globalFlagOn
  | globalFlagOff
  | alphabetFlagOff
  | flagOnAndOff
  | unfixedLookbehind
  | templateRepeat (greed : Greed)
  | tooDeep
  deriving DecidableEq, Repr

def Fault.message : Fault → String
  | .danglingBackslash => "bad escape (end of pattern)"
  | .badEscape text => s!"bad escape {text}"
  | .incompleteEscape text => s!"incomplete escape {text}"
  | .octalTooLarge text => s!"octal escape value {text} outside of range 0-0o377"
  | .braceMissing => "missing \x7b"
  | .missing what => s!"missing {what}"
  | .unterminatedName closer => s!"missing {closer}, unterminated name"
  | .undefinedCharacter name => s!"undefined character name {Text.quoted name}"
  | .badGroupName name => s!"bad character in group name {Text.quoted name}"
  | .openGroup => "cannot refer to an open group"
  | .lookbehindGroup => "cannot refer to group defined in the same lookbehind subpattern"
  | .invalidGroup number => s!"invalid group reference {number}"
  | .badGroupNumber => "bad group number"
  | .unknownGroup name => s!"unknown group name {Text.quoted name}"
  | .redefined name new old =>
    s!"redefinition of group name {Text.quoted name} as group {new}; was group {old}"
  | .unterminatedSet => "unterminated character set"
  | .badRange low high => s!"bad character range {low}-{high}"
  | .nothingToRepeat => "nothing to repeat"
  | .multipleRepeat => "multiple repeat"
  | .crossedRepeat => "min repeat greater than max repeat"
  | .unexpectedEnd => "unexpected end of pattern"
  | .unknownExtension text => s!"unknown extension ?{text}"
  | .unterminatedComment => "missing ), unterminated comment"
  | .unterminatedGroup => "missing ), unterminated subpattern"
  | .unbalanced => "unbalanced parenthesis"
  | .lateFlags => "global flags not at the start of the expression"
  | .tooManyBranches => "conditional backref with more than two branches"
  | .localeFlag => "bad inline flags: cannot use 'L' flag with a str pattern"
  | .incompatibleFlags => "bad inline flags: flags 'a', 'u' and 'L' are incompatible"
  | .unknownFlag => "unknown flag"
  | .flagPart expected => s!"missing {expected}"
  | .globalFlagOn => "bad inline flags: cannot turn on global flag"
  | .globalFlagOff => "bad inline flags: cannot turn off global flag"
  | .alphabetFlagOff => "bad inline flags: cannot turn off flags 'a', 'u' and 'L'"
  | .flagOnAndOff => "bad inline flags: flag turned on and off"
  | .unfixedLookbehind => "look-behind requires fixed-width pattern"
  | .templateRepeat .greedy => "internal: unsupported template operator MAX_REPEAT"
  | .templateRepeat .lazy => "internal: unsupported template operator MIN_REPEAT"
  | .templateRepeat .possessive => "internal: unsupported template operator POSSESSIVE_REPEAT"
  | .tooDeep => "pattern is nested too deeply"

/-- Why a pattern cannot be used: a fault in its text with the position if it has one, a number
that no repetition can have, two alphabets at once, or a look-behind that goes back too far. -/
inductive Error where
  | syntax_ (fault : Fault) (position : Option Nat) (pattern : String)
  | repetitionTooLarge
  | number (fault : Numeral.Fault)
  | twoAlphabets
  | lookbehindTooLong
  deriving DecidableEq, Repr

/-- Position of a fault, with line and column where the pattern has several lines. -/
def positionText (pattern : List Char) (position : Nat) : String :=
  let before := pattern.take position
  let line := before.count '\n' + 1
  let column := (before.reverse.takeWhile (· != '\n')).length + 1
  if pattern.contains '\n' then s!" at position {position} (line {line}, column {column})"
  else s!" at position {position}"

def Error.message : Error → String
  | .syntax_ fault none _ => fault.message
  | .syntax_ fault (some position) pattern =>
    fault.message ++ positionText pattern.toList position
  | .repetitionTooLarge => "the repetition number is too large"
  | .number fault => fault.message
  | .twoAlphabets => "ASCII and UNICODE flags are incompatible"
  | .lookbehindTooLong => "invalid SRE code"

/-- Shortest and longest length that an expression matches. -/
structure Width where
  least : Nat
  most : Nat
  deriving DecidableEq, Repr

/-- Shortest lengths are not told apart from here on. -/
def Width.leastBound : Nat := 4294967294

/-- Longest lengths are not told apart from here on. It also counts for a repetition without an
upper bound. -/
def Width.mostBound : Nat := 4294967295

def Width.bounded (w : Width) : Width := ⟨min w.least leastBound, min w.most mostBound⟩

def Width.add (a b : Width) : Width := ⟨a.least + b.least, a.most + b.most⟩

def Width.either (a b : Width) : Width := ⟨min a.least b.least, max a.most b.most⟩

/-- Lengths that an expression can match, given those of the groups it refers to. The bounds apply
to whole bodies, whose items are added up first. -/
def Node.extent (groups : Nat → Width) : Node → Width
  | .empty => ⟨0, 0⟩
  | .seq item rest => (item.extent groups).add (rest.extent groups)
  | .literal _ | .notLiteral _ | .any | .set _ _ => ⟨1, 1⟩
  | .anchor _ => ⟨0, 0⟩
  | .alt first others =>
    (first.extent groups).bounded.either (others.extent groups).bounded
  | .group _ _ _ body => (body.extent groups).bounded
  | .atomic body => (body.extent groups).bounded
  | .repeated _ least most body =>
    let w := (body.extent groups).bounded
    ⟨w.least * least, w.most * most.getD Width.mostBound⟩
  | .backreference n => groups n
  | .look _ _ _ => ⟨0, 0⟩
  | .conditional _ yes no => (yes.extent groups).bounded.either (no.extent groups).bounded

def Node.width (groups : Nat → Width) (body : Node) : Width := (body.extent groups).bounded

end SupplyGauge.Pattern
