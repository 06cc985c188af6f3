import SupplyGauge.Number.Binary64
/-! # Timers

Timers that are set form a heap: none is due before the one above it. A timer that is
called off becomes void and stays until it is the first one; only where most timers of
a large heap are void, they are all left out at once. The places in the heap settle the
order of timers that are due at the same moment.
-/

namespace SupplyGauge

/-- A moment, in seconds since the start of a run. -/
abbrev Instant := Binary64

/-- A timer: when it is due, its number among all timers, what it is for, and whether it has been
called off. -/
structure Timer (α : Type) where
  due : Instant
  number : Nat
  purpose : α
  void : Bool := false

/-- A heap of timers by place. -/
abbrev TimerHeap (α : Type) := Array (Timer α)

namespace TimerHeap

variable {α : Type}

/-- Whether the timer at a place is due before the one at another place. -/
def precedes (h : TimerHeap α) (i j : Nat) : Bool :=
  match h[i]?, h[j]? with
  | some a, some b => a.due.lt b.due
  | _, _ => false

/-- Moves a timer up as long as it is due before the one above it, but not above the place
`top`. -/
def rise (h : TimerHeap α) (top place : Nat) : TimerHeap α :=
  if place ≤ top then h
  else
    let above := (place - 1) / 2
    if precedes h place above then rise (h.swapIfInBounds place above) top above else h
termination_by place

/-- Moves a timer down to the last place on its way, where at every place the timer below that is
due first makes room. Gives that place. -/
def sink : Nat → TimerHeap α → Nat → TimerHeap α × Nat
  | 0, h, place => (h, place)
  | fuel + 1, h, place =>
    let left := 2 * place + 1
    if left < h.size then
      let below := if left + 1 < h.size && !precedes h left (left + 1) then left + 1 else left
      sink fuel (h.swapIfInBounds place below) below
    else (h, place)

/-- Brings a timer to where it belongs among those below the place `top`, at which it stands. -/
def settle (h : TimerHeap α) (top : Nat) : TimerHeap α :=
  let (h, place) := sink h.size h top
  rise h top place

def insert (h : TimerHeap α) (t : Timer α) : TimerHeap α := rise (h.push t) 0 h.size

def removeFirst (h : TimerHeap α) : TimerHeap α :=
  match h.back? with
  | some last => if h.size ≤ 1 then #[] else settle ((h.setIfInBounds 0 last).pop) 0
  | none => h

def ofArray (timers : Array (Timer α)) : TimerHeap α :=
  (List.range (timers.size / 2)).reverse.foldl settle timers

/-- Takes out the timers that are due before a moment, in order. A timer without a proper moment
does not have to wait. -/
def takeBefore (limit : Instant) : Nat → TimerHeap α → List (Timer α) × TimerHeap α
  | 0, h => ([], h)
  | fuel + 1, h =>
    match h[0]? with
    | some t =>
      if limit.le t.due then ([], h)
      else
        let (taken, h) := takeBefore limit fuel (removeFirst h)
        (t :: taken, h)
    | none => ([], h)

/-- Takes out void timers as long as one is the first. Gives their number. -/
def dropVoid : Nat → TimerHeap α → Nat × TimerHeap α
  | 0, h => (0, h)
  | fuel + 1, h =>
    match h[0]? with
    | some t =>
      if t.void then
        let (n, h) := dropVoid fuel (removeFirst h)
        (n + 1, h)
      else (0, h)
    | none => (0, h)

end TimerHeap

/-- Timers, the number of timers that have been set so far, and how many have been called off and
are not yet known to be gone. -/
structure Timers (α : Type) where
  heap : TimerHeap α := #[]
  made : Nat := 0
  voided : Int := 0

namespace Timers

variable {α : Type}

/-- Sets a timer. Gives its number. -/
def set (t : Timers α) (due : Instant) (purpose : α) : Nat × Timers α :=
  (t.made, { t with heap := t.heap.insert ⟨due, t.made, purpose, false⟩, made := t.made + 1 })

/-- Calls off a timer, if it is still there. -/
def callOff (t : Timers α) (number : Nat) : Timers α :=
  match t.heap.findIdx? fun x => x.number == number && !x.void with
  | some i =>
    { t with
      heap := t.heap.modify i fun x => { x with void := true }
      voided := t.voided + 1 }
  | none => t

/-- Heaps up to this size keep their void timers. -/
def smallSize : Nat := 100

/-- Leaves out void timers: all of them where they are most of a large heap, else those that come
first. -/
def clear (t : Timers α) : Timers α :=
  if smallSize < t.heap.size && (t.heap.size : Int) < 2 * t.voided then
    { t with heap := .ofArray (t.heap.filter (!·.void)), voided := 0 }
  else
    let (n, heap) := TimerHeap.dropVoid t.heap.size t.heap
    { t with heap, voided := t.voided - n }

/-- Takes out the timers that are due before a moment. -/
def takeBefore (t : Timers α) (limit : Instant) : List (Timer α) × Timers α :=
  let (taken, heap) := t.heap.takeBefore limit t.heap.size
  (taken, { t with heap })

end Timers

end SupplyGauge
