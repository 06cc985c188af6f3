import SupplyGauge.History.Timer
/-! # Schedules

Nothing in a run happens by itself: every party goes on when its turn comes. Turns are
taken in rounds. A turn that is given out during a round belongs to the next one, and
timers that have become due join the end of that one. Time moves only when no turn is
left: then it moves to the moment of the first timer.
-/

namespace SupplyGauge

/-- Turns of the present round in order, those of the next one with the latest first, and
timers. -/
structure Schedule (α : Type) where
  present : List α := []
  upcoming : List α := []
  timers : Timers α := {}

namespace Schedule

variable {α : Type}

/-- The shortest time that the clock tells apart from none: a nanosecond. -/
def resolution : Instant := .ofDecimal false 1 (-9)

def give (s : Schedule α) (turn : α) : Schedule α := { s with upcoming := turn :: s.upcoming }

/-- Sets a timer that gives out a turn. Gives its number. -/
def setTimer (s : Schedule α) (due : Instant) (turn : α) : Nat × Schedule α :=
  let (number, timers) := s.timers.set due turn
  (number, { s with timers })

def callOff (s : Schedule α) (number : Nat) : Schedule α :=
  { s with timers := s.timers.callOff number }

/-- The moment at which the next round begins, where void timers have been left out. -/
def nextMoment (s : Schedule α) (now : Instant) : Instant :=
  match s.upcoming, s.timers.heap[0]? with
  | [], some t => if (now.add resolution).le t.due then t.due else now
  | _, _ => now

def nextRound (s : Schedule α) (now : Instant) : Instant × Schedule α :=
  let s := { s with timers := s.timers.clear }
  let now := s.nextMoment now
  let (due, timers) := s.timers.takeBefore (now.add resolution)
  let turns := (due.filter (!·.void)).map (·.purpose)
  (now, { present := s.upcoming.reverse ++ turns, timers })

/-- The turn that comes next, its moment, and the schedule without it. -/
def next? (s : Schedule α) (now : Instant) : Option (α × Instant × Schedule α) :=
  let (now, s) := if s.present.isEmpty then s.nextRound now else (now, s)
  match s.present with
  | [] => none
  | turn :: rest => some (turn, now, { s with present := rest })

end Schedule

end SupplyGauge
