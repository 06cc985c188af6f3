import SupplyGauge.Pattern.Code
/-! # Matching

Matching goes on with a continuation: a step tries its ways to match in order and
hands on to what follows after each, until one succeeds. Every attempt, also one that
fails, leaves a record: the marks of the groups, and the place up to which it has
looked. Marks that an attempt has added are dropped when it fails; marks that it has
moved are put back only inside the rounds of a repetition that may be reconsidered.
-/

namespace SupplyGauge.Pattern

/-- What matching has left behind: the place up to which it has looked, and the marks set so far,
some of which may have been passed over. -/
structure Record where
  seen : Nat := 0
  marks : Array (Option Nat) := #[]

namespace Record

/-- With another place up to which it has looked. -/
def at_ (r : Record) (p : Nat) : Record := { r with seen := p }

/-- With a mark. Marks below it that have never been set are passed over. -/
def mark (r : Record) (index p : Nat) : Record :=
  if index < r.marks.size then { r with marks := r.marks.set! index (some p) }
  else { r with marks :=
    (r.marks ++ Array.replicate (index - r.marks.size) (none : Option Nat)).push (some p) }

/-- With the marks as they were before an attempt. Unless they are put back, only those added since
are dropped. -/
def undo (r : Record) (before : Record) (putBack : Bool) : Record :=
  { r with marks := if putBack then before.marks else r.marks.shrink before.marks.size }

/-- The span of a group that has begun and ended. -/
def span? (r : Record) (group : Nat) : Option (Nat × Nat) :=
  match r.marks[2 * group]?.join, r.marks[2 * group + 1]?.join with
  | some first, some last => if last < first then none else some (first, last)
  | _, _ => none

end Record

/-- Whether an attempt succeeds, and the record it leaves. -/
abbrev Outcome := Bool × Record

/-- What to try from a place on. -/
abbrev Next := Nat → Record → Outcome

/-- The end of an expression that is matched on its own. -/
def Next.stop : Next := fun p r => (true, r.at_ p)

/-- Whether a place in a text is of a kind. -/
def Spot.holds (s : Spot) (text : Array Char) (p : Nat) : Bool :=
  match s.anchor with
  | .lineStart => p == 0 || (s.multiline && text[p - 1]? == some '\n')
  | .lineEnd =>
    p == text.size || (text[p]? == some '\n' && (s.multiline || p + 1 == text.size))
  | .textStart => p == 0
  | .textEnd => p == text.size
  | .boundary => text.size != 0 && wordBefore != wordAfter
  | .noBoundary => text.size != 0 && wordBefore == wordAfter
where
  isWord (p : Nat) : Bool :=
    (text[p]?.map fun c => Category.word.has s.asciiOnly c.toNat).getD false
  wordBefore : Bool := p != 0 && isWord (p - 1)
  wordAfter : Bool := isWord p

/-- Number of characters from a place on that pass a test, at most `most`. -/
def countPassing (text : Array Char) (t : CharTest) : Nat → Nat → Nat
  | 0, _ => 0
  | most + 1, p =>
    match text[p]? with
    | some c => if t.has c then countPassing text t most (p + 1) + 1 else 0
    | none => 0

/-- Where the text of a span ends if it stands at a place again. -/
def sameAgain? (text : Array Char) (fold : Fold) (span : Nat × Nat) (p : Nat) : Option Nat :=
  let length := span.2 - span.1
  let same := (List.range length).all fun i =>
    match text[span.1 + i]?, text[p + i]? with
    | some a, some b => fold.apply a.toNat == fold.apply b.toNat
    | _, _ => false
  if same then some (p + length) else none

/-- What the first step of a chain asks of the character at its place: exactly one character,
membership in a set as it stands, or nothing that is known beforehand. -/
inductive Demand where
  | character (code : Nat)
  | member (t : CharTest)
  | unknown

/-- The demand of a chain, given that of what follows it. -/
def Code.demand (follow : Demand) : Code → Demand
  | .done => follow
  | .take t _ =>
    match t with
    | .literal .none false code => .character code
    | .set .none _ _ => .member t
    | _ => .unknown
  | _ => .unknown

/-- Whether a demand is met at a place. -/
def Demand.isMet (text : Array Char) (p : Nat) : Demand → Bool
  | .character code => (text[p]?.map fun c => c.toNat == code).getD false
  | .member t => (text[p]?.map t.has).getD false
  | .unknown => true

/-- Whether only a character is demanded that is not there. -/
def Demand.isOtherCharacter (text : Array Char) (p : Nat) : Demand → Bool
  | .character code => !(Demand.character code).isMet text p
  | _ => false

/-- Whether characters that pass a test are looked at one by one, so that the record shows how far
they go. -/
def CharTest.isStepwise : CharTest → Bool
  | .set .none _ _ => false
  | .set _ _ _ => true
  | _ => false

/-- Tries what follows after `least + n`, …, `least` passing characters from `p` on. -/
def manyGreedily (text : Array Char) (follow : Demand) (putBack : Bool) (before : Record)
    (next : Next) (p least : Nat) : Nat → Record → Outcome
  | n, r =>
    let here := p + least + n
    let (ok, r) :=
      if follow.isOtherCharacter text here then (false, r)
      else
        let (ok, r) := next here (r.at_ here)
        if ok then (true, r) else (false, r.undo before putBack)
    if ok then (true, r)
    else match n with
      | 0 => (false, r)
      | n + 1 => manyGreedily text follow putBack before next p least n r

/-- Tries what follows from `p` on, and again after each further passing character, of which there
may be `n`. -/
def manyLazily (text : Array Char) (t : CharTest) (putBack : Bool) (before : Record)
    (next : Next) : Nat → Nat → Record → Outcome
  | n, p, r =>
    let (ok, r) := next p (r.at_ p)
    if ok then (true, r)
    else
      let r := (r.undo before putBack).at_ p
      match n with
      | 0 => (false, r)
      | n + 1 =>
        if (text[p]?.map t.has).getD false then
          let r := if t.isStepwise then r.at_ (p + 1) else r
          manyLazily text t putBack before next n (p + 1) r
        else (false, r)

/-- Rounds of a body, more of them first. `count` rounds have been made, the latest optional one
from `last` on. The fuel is spent by rounds. -/
def roundsGreedily (body : Next → Next) (next : Next) (least : Nat) (most : Option Nat) :
    Nat → Nat → Option Nat → Next
  | 0, _, _, _, r => (false, r)
  | fuel + 1, count, last, p, r =>
    let r := r.at_ p
    if count < least then
      let (ok, s) := body (roundsGreedily body next least most fuel (count + 1) last) p r
      if ok then (true, s) else (false, s.at_ p)
    else
      let mayGoOn := (most.all fun n => count < n) && last != some p
      let (ok, r) :=
        if mayGoOn then
          let (ok, s) := body (roundsGreedily body next least most fuel (count + 1) (some p)) p r
          if ok then (true, s) else (false, (s.undo r true).at_ p)
        else (false, r)
      if ok then (true, r)
      else
        let (ok, s) := next p r
        if ok then (true, s) else (false, s.at_ p)

/-- Rounds of a body, fewer of them first. -/
def roundsLazily (body : Next → Next) (next : Next) (least : Nat) (most : Option Nat)
    (putBack : Bool) : Nat → Nat → Option Nat → Next
  | 0, _, _, _, r => (false, r)
  | fuel + 1, count, last, p, r =>
    let r := r.at_ p
    if count < least then
      let (ok, s) :=
        body (roundsLazily body next least most putBack fuel (count + 1) last) p r
      if ok then (true, s) else (false, s.at_ p)
    else
      let (ok, s) := next p r
      if ok then (true, s)
      else
        let s := (s.undo r putBack).at_ p
        if (most.any fun n => n ≤ count) || last == some p then (false, s)
        else
          let (ok, s) := body
            (roundsLazily body next least most putBack fuel (count + 1) (some p)) p s
          if ok then (true, s) else (false, s.at_ p)

/-- A number of rounds of a body, none of which is reconsidered. -/
def exactRounds (body : Next → Next) : Nat → Nat → Record → Option Record
  | 0, _, r => some r
  | n + 1, p, r =>
    match body .stop p r with
    | (true, s) => exactRounds body n s.seen s
    | (false, _) => none

/-- Up to `n` more rounds of a body, none of which is reconsidered. After a round that fails, what
follows goes on from the place up to which the round has looked. -/
def moreRounds (body : Next → Next) : Nat → Option Nat → Record → Record
  | 0, _, r => r
  | n + 1, last, r =>
    if last = some r.seen then r
    else
      let (ok, s) := body .stop r.seen r
      if ok then moreRounds body n (some r.seen) s else s.undo r true

/-- Matches a chain of steps and then what follows. `inRounds` says whether the chain stands inside
rounds that may be reconsidered, and `follow` what is demanded after the chain. -/
def Code.run (text : Array Char) (inRounds : Bool) (follow : Demand) : Code → Next → Next
  | .done, next => next
  | .fail, _ => fun _ r => (false, r)
  | .take t rest, next => fun p r =>
    match text[p]? with
    | some c => if t.has c then rest.run text inRounds follow next (p + 1) r else (false, r)
    | none => (false, r)
  | .stand s rest, next => fun p r =>
    if s.holds text p then rest.run text inRounds follow next p r else (false, r)
  | .mark index rest, next => fun p r =>
    rest.run text inRounds follow next p (r.mark index p)
  | .again group fold rest, next => fun p r =>
    match (r.span? group).bind (sameAgain? text fold · p) with
    | some q => rest.run text inRounds follow next q r
    | none => (false, r)
  | .branch first others rest, next => fun p r =>
    let after := rest.run text inRounds follow next
    let (ok, s) :=
      if (first.demand .unknown).isMet text p then
        let (ok, s) := first.run text inRounds .unknown after p (r.at_ p)
        if ok then (true, s) else (false, s.undo r inRounds)
      else (false, r)
    if ok then (true, s) else others.run text inRounds .unknown after p s
  | .many greed least most t rest, next => fun p r =>
    let after := rest.run text inRounds follow next
    if text.size < p + least then (false, r)
    else
      let r := r.at_ p
      match greed with
      | .greedy =>
        let n := countPassing text t (min (most.getD text.size) (text.size - p)) p
        let r := if t.isStepwise then r.at_ (p + n) else r
        if n < least then (false, r)
        else manyGreedily text (rest.demand follow) inRounds r after p least (n - least) r
      | .lazy =>
        let n := if least = 0 then 0 else countPassing text t least p
        let r := if t.isStepwise then r.at_ (p + n) else r
        if n < least then (false, r)
        else manyLazily text t inRounds r after (min (most.getD text.size - least) text.size)
          (p + least) r
      | .possessive =>
        let n := countPassing text t (min (most.getD text.size) (text.size - p)) p
        let r := if t.isStepwise then r.at_ (p + n) else r
        if n < least then (false, r) else after (p + n) (r.at_ (p + n))
  | .rounds greed least most body rest, next => fun p r =>
    let after := rest.run text inRounds follow next
    let fuel := least + text.size + 3
    match greed with
    | .greedy =>
      roundsGreedily (body.run text true .unknown) after least most fuel 0 none p (r.at_ p)
    | .lazy =>
      roundsLazily (body.run text true .unknown) after least most inRounds fuel 0 none p (r.at_ p)
    | .possessive =>
      let r := r.at_ p
      match exactRounds (body.run text inRounds .unknown) least p r with
      | none => (false, r)
      | some s =>
        let more := match most with
          | some n => min (n - least) (text.size + 2)
          | none => text.size + 2
        let s := moreRounds (body.run text inRounds .unknown) more none s
        after s.seen s
  | .atomic body rest, next => fun p r =>
    let (ok, s) := body.run text inRounds .unknown .stop p (r.at_ p)
    if ok then rest.run text inRounds follow next s.seen s else (false, s.at_ p)
  | .look back negative body rest, next => fun p r =>
    if negative then
      if p < back then rest.run text inRounds follow next p r
      else
        let (ok, s) := body.run text inRounds .unknown .stop (p - back) (r.at_ (p - back))
        if ok then (false, s) else rest.run text inRounds follow next p (s.undo r inRounds)
    else if p < back then (false, r)
    else
      let (ok, s) := body.run text inRounds .unknown .stop (p - back) (r.at_ (p - back))
      if ok then rest.run text inRounds follow next p s else (false, s)
  | .depends group yes no rest, next => fun p r =>
    let after := rest.run text inRounds follow next
    let follow := rest.demand follow
    if (r.span? group).isSome then
      let follow := match no with
        | .done => follow
        | _ => .unknown
      yes.run text inRounds follow after p r
    else no.run text inRounds follow after p r

end SupplyGauge.Pattern
