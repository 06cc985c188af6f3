import SupplyGauge.Pattern.CharTest
/-! # Prepared patterns

Before it is matched, a pattern expression is prepared: options are resolved into
tests and places, groups without a number disappear, and a repeated single character
is told apart from a repeated body. A prepared pattern is a chain of steps. What is
known about the first character of a match is collected beside it.
-/

namespace SupplyGauge.Pattern

/-- A place in a text with the options that it depends on. -/
structure Spot where
  anchor : Anchor
  multiline : Bool
  asciiOnly : Bool
  deriving DecidableEq, Repr

/-- A chain of steps. Every step but the last ones holds the steps after it. Group `n` has the
marks `2 n` and `2 n + 1`, counted from group zero for the first one. The second part of `branch`
is `fail` or a `branch` with the alternatives that are left. -/
inductive Code where
  | done
  | fail
  | take (t : CharTest) (rest : Code)
  | stand (s : Spot) (rest : Code)
  | mark (index : Nat) (rest : Code)
  | again (group : Nat) (fold : Fold) (rest : Code)
  | branch (first others rest : Code)
  | many (greed : Greed) (least : Nat) (most : Option Nat) (t : CharTest) (rest : Code)
  | rounds (greed : Greed) (least : Nat) (most : Option Nat) (body rest : Code)
  | atomic (body rest : Code)
  | look (back : Nat) (negative : Bool) (body rest : Code)
  | depends (group : Nat) (yes no rest : Code)

/-- Options after those of a group are turned on and off. -/
def combineFlags (flags on off : List Flag) : List Flag :=
  let kept := if on.any Flag.isAlphabet then flags.filter (!·.isAlphabet) else flags
  (kept ++ on).filter (!off.contains ·)

/-- The test of a body that is one character, if it is. -/
def Node.test? (flags : List Flag) : Node → Option CharTest
  | .literal code => some (literalTest flags false code)
  | .notLiteral code => some (literalTest flags true code)
  | .any => some (.any (flags.contains .dotAll))
  | .set negated items => some (setTest flags negated items)
  | .group none on off body => body.test? (combineFlags flags on off)
  | .seq item .empty => item.test? flags
  | _ => none

/-- An expression in front of the steps after it. -/
def Node.code (groups : Nat → Width) (flags : List Flag) : Node → Code → Code
  | .empty, next => next
  | .seq item rest, next => item.code groups flags (rest.code groups flags next)
  | .literal code, next => .take (literalTest flags false code) next
  | .notLiteral code, next => .take (literalTest flags true code) next
  | .any, next => .take (.any (flags.contains .dotAll)) next
  | .set negated items, next => .take (setTest flags negated items) next
  | .anchor a, next => .stand ⟨a, flags.contains .multiline, flags.contains .ascii⟩ next
  | .alt first others, next =>
    let others := match others with
      | .alt _ _ => others.code groups flags .done
      | _ => .branch (others.code groups flags .done) .fail .done
    .branch (first.code groups flags .done) others next
  | .group capture on off body, next =>
    let flags := combineFlags flags on off
    match capture with
    | some n => .mark (2 * n - 2) (body.code groups flags (.mark (2 * n - 1) next))
    | none => body.code groups flags next
  | .atomic body, next => .atomic (body.code groups flags .done) next
  | .repeated greed least most body, next =>
    match body.test? flags with
    | some t => .many greed least most t next
    | none => .rounds greed least most (body.code groups flags .done) next
  | .backreference n, next => .again (n - 1) (Fold.ofFlags flags) next
  | .look ahead negative body, next =>
    .look (if ahead then 0 else (body.width groups).least) negative (body.code groups flags .done)
      next
  | .conditional n yes no, next =>
    .depends (n - 1) (yes.code groups flags .done) (no.code groups flags .done) next

/-- What is known about the characters that a match begins with. -/
inductive Start where
  | known
  | open_
  | nothing
  deriving DecidableEq, Repr

/-- Whether a match of an expression begins with a character that is known: certainly, not, or by
what follows, as the expression is nothing at all. -/
def Node.start (flags : List Flag) : Node → Start
  | .empty => .nothing
  | .seq item rest =>
    match item.start flags with
    | .nothing => rest.start flags
    | s => s
  | .literal code => if (Fold.ofFlags flags).tellsApart code then .open_ else .known
  | .group _ on off body => body.start (combineFlags flags on off)
  | _ => .open_

/-- The set that a match of an expression begins with, if there is one that letter case does not
change. Its named classes are taken under the options `outer` of the whole pattern. -/
def Node.startSet? (outer flags : List Flag) : Node → Option CharTest
  | .seq item _ => item.startSet? outer flags
  | .group _ on off body => body.startSet? outer (combineFlags flags on off)
  | .set negated items =>
    let fold := Fold.ofFlags flags
    let changes : SetItem → Bool
      | .range low high =>
        fold != .none && (foldLimit ≤ high || (SetItem.range low high).isCased fold)
      | item => item.isCased fold
    if items.any changes then none
    else some (.set .none negated (items.map (SetItem.part (outer.contains .ascii))))
  | _ => none

/-- Longest distance that a look-behind may go back. -/
def lookbehindLimit : Nat := 0x7FFFFFFF

def Code.goesTooFar : Code → Bool
  | .done | .fail => false
  | .take _ rest | .stand _ rest | .mark _ rest | .again _ _ rest | .many _ _ _ _ rest =>
    rest.goesTooFar
  | .branch first others rest => first.goesTooFar || others.goesTooFar || rest.goesTooFar
  | .rounds _ _ _ body rest | .atomic body rest => body.goesTooFar || rest.goesTooFar
  | .look back _ body rest => lookbehindLimit < back || body.goesTooFar || rest.goesTooFar
  | .depends _ yes no rest => yes.goesTooFar || no.goesTooFar || rest.goesTooFar

end SupplyGauge.Pattern
