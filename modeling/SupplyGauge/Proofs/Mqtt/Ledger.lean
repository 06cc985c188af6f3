import Mathlib.Logic.Relation
import SupplyGauge.Proofs.Mqtt.Course

/-! # The ledger of a client

What a client does with messages and with its session shows in a few places: the
queue, the messages in the hands of loops, the session and the history. The ledger
keeps only these. A turn changes it by a few moves, however the loops, the timers
and the schedule come to it, and laws about messages and sessions are laws about
moves.
-/

namespace SupplyGauge.Mqtt

open Relation

def Fetch.message? : Fetch → Option Message
  | .holding m => some m
  | _ => none

/-- The entry that tells of a message lost because the queue is full. -/
def overflowEntry (topic : String) : Log.Entry :=
  Log.note .warning component s!"Message queue full, dropping message for {topic}"

/-- The entry that tells of an unexpected failure of a loop. -/
def failureEntry (e : ClientError) : Log.Entry :=
  Log.note .error component s!"Publisher loop error: {e.message}"

namespace Client

/-- The events in the scene of a client, in order. -/
def events (c : Client) : List Event := c.scene.events.map Prod.snd

/-- The messages in the hands of the loops. -/
def inHand (c : Client) : List Message := c.loops.toList.filterMap fun d => d.fetch.message?

end Client

/-- The places in which the work of a client shows. The latest event of the past comes first, and
`voice` gives the announcements. -/
structure Ledger where
  offered : List Message
  queue : List Message
  inHand : List Message
  attached : Bool
  connected : Bool
  past : List Event
  voice : String → Publication

namespace Ledger

def events (l : Ledger) : List Event := l.past.reverse

def note (l : Ledger) (events : List Event) : Ledger := { l with past := events.reverse ++ l.past }

theorem events_note (l : Ledger) (events : List Event) :
    (l.note events).events = l.events ++ events := by
  simp [Ledger.events, note]

def detach (l : Ledger) : Ledger := { l with attached := false, connected := false }

def refuse (l : Ledger) (at_ : Connection) (r : Refusal) : Ledger :=
  { l.note [.called (.enter at_) (some r)] with attached := true }

/-- A session is opened and announced. -/
def enter (l : Ledger) (at_ : Connection) (answer : Option Refusal) : Ledger :=
  { l.note [.called (.enter at_) none, .called (.announce (l.voice "online")) answer] with
    attached := true
    connected := true }

/-- What can happen to a ledger. Unless sessions are also opened and ended by hand, loops take
messages only while connected, sessions are opened only while not connected, and ended only while no
message is in hand. -/
inductive Move (byHand : Prop) : Ledger → Ledger → Prop
  | remark (l : Ledger) (e : Event) (hremark : e.isRemark) : Move byHand l (l.note [e])
  | accept (l : Ledger) (m : Message) (hroom : l.queue.length < queueLimit)
      (hserial : m.serial = l.offered.length) :
      Move byHand l { l.note [.accepted m] with
        offered := l.offered ++ [m], queue := l.queue ++ [m] }
  | take (l : Ledger) (m : Message) (rest : List Message) (hqueue : l.queue = m :: rest)
      (hhand : l.inHand = []) (hconnected : byHand ∨ l.connected = true) :
      Move byHand l { l.note [.taken m] with queue := rest, inHand := [m] }
  | deliver (l : Ledger) (m : Message) (hhand : l.inHand = [m]) (hattached : l.attached = true) :
      Move byHand l { l.note [.called (.deliver m) none] with inHand := [] }
  | putBack (l : Ledger) (m : Message) (r : Refusal) (e : Log.Entry) (hhand : l.inHand = [m])
      (hattached : l.attached = true) (hkind : r.kind = .protocol)
      (hroom : l.queue.length < queueLimit) :
      Move byHand l
        { l.detach.note [.called (.deliver m) (some r), .reported e, .returned m] with
          queue := l.queue ++ [m], inHand := [] }
  | overflow (l : Ledger) (m : Message) (r : Refusal) (e : Log.Entry) (hhand : l.inHand = [m])
      (hattached : l.attached = true) (hkind : r.kind = .protocol) :
      Move byHand l
        { l.detach.note [.called (.deliver m) (some r), .reported e, .dropped m,
            .reported (overflowEntry m.topic)] with inHand := [] }
  | lose (l : Ledger) (m : Message) (r : Refusal) (hhand : l.inHand = [m])
      (hattached : l.attached = true) (hkind : r.kind ≠ .protocol) :
      Move byHand l
        { l.note [.called (.deliver m) (some r), .dropped m,
            .reported (failureEntry (.refused r))] with
          inHand := [], connected := false }
  | orphan (l : Ledger) (m : Message) (hhand : l.inHand = [m]) (hattached : l.attached = false) :
      Move byHand l
        { l.note [.dropped m, .reported (failureEntry .noSession)] with
          inHand := [], connected := false }
  | refuse (l : Ledger) (at_ : Connection) (r : Refusal)
      (hconnected : byHand ∨ l.connected = false) : Move byHand l (l.refuse at_ r)
  | enter (l : Ledger) (at_ : Connection) (answer : Option Refusal)
      (hconnected : byHand ∨ l.connected = false ∧ ∀ r ∈ answer, r.kind = .protocol) :
      Move byHand l (l.enter at_ answer)
  | abandon (l : Ledger) (at_ : Connection) (r : Refusal) (hconnected : l.connected = false)
      (hkind : r.kind ≠ .protocol) :
      Move byHand l { l.enter at_ (some r) with connected := false }
  | depart (l : Ledger) (r : Refusal) (hattached : l.attached = true)
      (hconnected : l.connected = true) (hhand : byHand ∨ l.inHand = []) :
      Move byHand l (l.detach.note [.called (.announce (l.voice "offline")) (some r)])
  | leave (l : Ledger) (answer : Option Refusal) (hattached : l.attached = true)
      (hconnected : l.connected = true) (hhand : byHand ∨ l.inHand = []) :
      Move byHand l
        (l.detach.note [.called (.announce (l.voice "offline")) none, .called .leave answer])

/-- Moves, one after the other. -/
abbrev Moves (byHand : Prop) : Ledger → Ledger → Prop := ReflTransGen (Move byHand)

variable {byHand : Prop} {l l' : Ledger}

theorem disconnect_eq (hconnected : l.connected = false) : { l with connected := false } = l := by
  cases l
  simp_all

theorem Moves.remark (e : Event) (hremark : e.isRemark) : Moves byHand l (l.note [e]) :=
  .single (.remark l e hremark)

/-- What every move keeps, moves keep. -/
theorem Moves.keep {kept : Ledger → Prop}
    (hmove : ∀ l l', Move byHand l l' → kept l → kept l') (hmoves : Moves byHand l l')
    (hkept : kept l) : kept l' := by
  induction hmoves with
  | refl => exact hkept
  | tail _ hlast ih => exact hmove _ _ hlast ih

theorem Moves.voice (hmoves : Moves byHand l l') : l'.voice = l.voice := by
  have hmove (l₁ l₂ : Ledger) (hmove : Move byHand l₁ l₂) (hvoice : l₁.voice = l.voice) :
      l₂.voice = l.voice := by
    cases hmove <;> exact hvoice
  exact hmoves.keep hmove rfl

/-- What counts as a session stays attached. -/
theorem Moves.attached (hmoves : Moves byHand l l') (h : l.connected = true → l.attached = true) :
    l'.connected = true → l'.attached = true := by
  have hmove (l l' : Ledger) (hmove : Move byHand l l')
      (hkept : l.connected = true → l.attached = true) :
      l'.connected = true → l'.attached = true := by
    cases hmove with
    | remark | accept | take | deliver => exact hkept
    | refuse | enter => exact fun _ => rfl
    | putBack | overflow | lose | orphan | abandon | depart | leave =>
        exact fun hconnected => absurd hconnected Bool.false_ne_true
  exact hmoves.keep hmove h

end Ledger

end SupplyGauge.Mqtt
