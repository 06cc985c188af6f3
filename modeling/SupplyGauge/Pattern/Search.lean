import SupplyGauge.Pattern.Match
import SupplyGauge.Pattern.Parser
/-! # Patterns

A pattern is read once: its text is turned into an expression, which is checked as a
whole and prepared for matching. A search tries the places of a text in order. Places
from which the shortest match would not fit are left out, and so are those whose
character is not in the set that every match begins with.
-/

namespace SupplyGauge

/-- A search pattern: its expression, the options of the whole pattern, the lengths of its groups,
and the steps prepared from them. -/
structure Pattern where
  node : Pattern.Node
  flags : List Pattern.Flag
  widths : Nat → Pattern.Width
  code : Pattern.Code := node.code widths flags .done

namespace Pattern

/-- The fault that shows only when the whole expression is known, if it has one. -/
def Node.lateFault? (groups : Nat → Width) (template : Bool) : Node → Option Fault
  | .seq a b => (a.lateFault? groups template).or (b.lateFault? groups template)
  | .alt a b => (a.lateFault? groups template).or (b.lateFault? groups template)
  | .group _ _ _ body => body.lateFault? groups template
  | .atomic body => body.lateFault? groups template
  | .repeated greed _ _ body =>
    if template then some (.templateRepeat greed) else body.lateFault? groups template
  | .look ahead _ body =>
    let w := body.width groups
    if !ahead && w.least != w.most then some .unfixedLookbehind
    else body.lateFault? groups template
  | .conditional _ yes no => (yes.lateFault? groups template).or (no.lateFault? groups template)
  | _ => none

def Reader.whole : Reader Node := do
  settle
  let node ← alternatives false false (4 * (← get).rest.length + 8) []
  let flags := (← get).flags
  if flags.contains .ascii && flags.contains .unicode then throw .twoAlphabets
  if (← peek).isSome then refuse .unbalanced 0
  let r ← get
  match r.numbered.find? (fun g => groupCount r ≤ g.1) with
  | some (n, position) => refuseAt (.invalidGroup n) position
  | none => return node

def ofText (pattern : String) : Except Error Pattern := do
  let (node, r) ← Reader.whole.run ⟨pattern, 0, pattern.toList, [], [], [], none, []⟩
  let widths := Reader.groupWidths r
  if let some fault := node.lateFault? widths (r.flags.contains .template) then
    throw (.syntax_ fault none pattern)
  let p : Pattern := { node, flags := r.flags, widths }
  if p.code.goesTooFar then throw .lookbehindTooLong
  return p

/-- Whether a match begins at a place of a text. -/
def matchesAt (p : Pattern) (text : Array Char) (place : Nat) : Bool :=
  (p.code.run text false .unknown .stop place {}).1

def search (p : Pattern) (text : String) : Bool :=
  let chars := text.toList.toArray
  let least := (p.node.width p.widths).least
  let places :=
    if least = 0 then List.range (chars.size + 1)
    else if chars.size < least then []
    else
      match p.node.start p.flags, p.node.startSet? p.flags p.flags with
      | .known, _ => List.range chars.size
      | _, some t => (List.range chars.size).filter fun i => (chars[i]?.map t.has).getD false
      | _, none => List.range (chars.size - least + 2)
  places.any (p.matchesAt chars)

end Pattern

end SupplyGauge
