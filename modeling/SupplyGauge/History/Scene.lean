import SupplyGauge.History.Schedule
import SupplyGauge.Log.Entry
import SupplyGauge.Mqtt.Broker
/-! # What happens in a run

A scene is a moment of a run: the time, whose turn comes when, what the broker will
still answer, and everything that has happened so far. Time is counted in seconds from
the start and moves only when nothing else can happen.
-/

namespace SupplyGauge

/-- A request from outside to end. -/
inductive Signal where
  | terminate
  | interrupt
  deriving DecidableEq, Repr

/-- Something that happens. -/
inductive Event where
  | called (c : Mqtt.Call) (refusal : Option Mqtt.Refusal)
  | accepted (m : Mqtt.Message)
  | taken (m : Mqtt.Message)
  | returned (m : Mqtt.Message)
  | dropped (m : Mqtt.Message)
  | reported (e : Log.Entry)
  | signalled (s : Signal) (handled : Bool)
  | limitReached
  deriving DecidableEq

/-- Whoever takes part in a run: the caller of a client, a collector, the delivery loops of a
client, and for each of them the one that fetches its messages. -/
inductive Party where
  | caller
  | collector
  | delivery (loop : Nat)
  | fetch (loop : Nat)
  deriving DecidableEq, Repr

/-- What can have its turn: a party goes on, a wait of a party is over, something happens from
outside, or the run is cut short. The waits of a party are numbered. -/
inductive Turn where
  | goOn (p : Party)
  | release (p : Party) (wait : Nat)
  | outside (n : Nat)
  | cut
  deriving DecidableEq, Repr

/-- The present, the turns and answers to come, and the past with the latest event first. Log
entries that no journal has taken are kept apart as well, latest first. -/
structure Scene where
  now : Instant := .zero
  schedule : Schedule Turn := {}
  script : Mqtt.Script := {}
  past : List (Instant × Event) := []
  unwritten : List Log.Entry := []

namespace Scene

def note (s : Scene) (e : Event) : Scene := { s with past := (s.now, e) :: s.past }

def log (s : Scene) (e : Log.Entry) : Scene :=
  { s.note (.reported e) with unwritten := e :: s.unwritten }

/-- Adds a log entry about what has just happened. -/
def report (s : Scene) (severity : Log.Severity) (component message : String) : Scene :=
  s.log (Log.note severity component message)

def reportAll (s : Scene) (entries : List Log.Entry) : Scene := entries.foldl log s

def perform (s : Scene) (c : Mqtt.Call) : Option Mqtt.Refusal × Scene :=
  let (refusal, script) := s.script.next c
  (refusal, { s with script }.note (.called c refusal))

def give (s : Scene) (turn : Turn) : Scene := { s with schedule := s.schedule.give turn }

/-- Sets a timer that gives out a turn after some seconds. Gives its number. -/
def giveAfter (s : Scene) (seconds : Instant) (turn : Turn) : Nat × Scene :=
  let (number, schedule) := s.schedule.setTimer (s.now.add seconds) turn
  (number, { s with schedule })

def callOff (s : Scene) (number : Nat) : Scene :=
  { s with schedule := s.schedule.callOff number }

/-- The turn that comes next, and the scene in which it is taken. -/
def next? (s : Scene) : Option (Turn × Scene) :=
  (s.schedule.next? s.now).map fun (turn, now, schedule) => (turn, { s with now, schedule })

/-- The events in the order in which they happened. -/
def events (s : Scene) : List (Instant × Event) := s.past.reverse

end Scene

end SupplyGauge
