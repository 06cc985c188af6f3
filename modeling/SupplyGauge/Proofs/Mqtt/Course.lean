import SupplyGauge.Mqtt.Delivery

/-! # The course of a client's use

A client is used by one caller, who starts and stops it and lets time pass, and by
anybody who offers messages. Between any two of their deeds the loops, their fetches
and the timers have their turns in the order of the schedule, one turn at a time.
Others act in the same scene: they report, take turns and set timers of their own.
Every list of deeds is a run; a deed that is not possible at its place is left out.
The caller stops the client once at a time. Where several callers do, and one stop
begins while another one waits, the runs are those of `Shared`.
-/

namespace SupplyGauge

/-- Whether a turn is the caller's, or brings it about. -/
def Turn.isCallers : Turn → Bool
  | .goOn .caller | .release .caller _ => true
  | _ => false

/-- Whether a turn belongs to the loops of a client or to their fetches. -/
def Turn.isLoops : Turn → Bool
  | .goOn (.delivery _) | .goOn (.fetch _) => true
  | .release (.delivery _) _ | .release (.fetch _) _ => true
  | _ => false

/-- Whether a turn belongs neither to the caller nor to the loops. -/
def Turn.isForeign (turn : Turn) : Bool := !turn.isCallers && !turn.isLoops

/-- Whether an event is not the client's business. -/
def Event.isRemark : Event → Bool
  | .reported _ | .signalled _ _ | .limitReached => true
  | _ => false

namespace Scene

/-- Gives out a turn, at once or after some seconds. -/
def lend (s : Scene) (after : Option Instant) (turn : Turn) : Scene :=
  match after with
  | none => s.give turn
  | some seconds => (s.giveAfter seconds turn).2

end Scene

namespace Mqtt

/-- What the caller of a client is doing: it acts, it is away, it has been called back, or it waits
for the end of the current loop. -/
inductive Conduct where
  | acting
  | away
  | called
  | stopping
  deriving DecidableEq, Repr

/-- What others do in the scene of a client: they remark something, write their journal, and have
turns and timers of their own. -/
inductive Errand where
  | remark (e : Event)
  | write
  | lend (after : Option Instant) (turn : Turn)
  | callOff (timer : Nat)

/-- What can happen to a client in use. `call` calls the caller back, and `goOn` is whatever turn
comes next. -/
inductive Deed where
  | publish (topic : String) (payload : Payload) (retain : Option Bool)
  | start
  | stop
  | connect
  | disconnect
  | leave
  | call (after : Option Instant) (turn : Turn)
  | aside (e : Errand)
  | goOn

/-- Whether a deed leaves it to the loops to open sessions, and to stopping to end them. -/
def Deed.leavesSessions : Deed → Bool
  | .connect | .disconnect => false
  | _ => true

/-- A client in use, its caller, and the messages for which publishing has answered yes, in
order. -/
structure Course where
  client : Client
  conduct : Conduct := .acting
  offered : List Message := []

/-- Does an errand. Turns and timers of the client and its caller are not touched. -/
def Errand.perform (s : Scene) : Errand → Scene
  | .remark (.reported e) => s.log e
  | .remark e => if e.isRemark then s.note e else s
  | .write => { s with unwritten := [] }
  | .lend after turn => if turn.isForeign then s.lend after turn else s
  | .callOff number =>
    if s.schedule.timers.heap.all fun t => t.number != number || t.purpose.isForeign then
      s.callOff number
    else s

def Client.fresh (settings : Config.MqttSettings) (availabilityTopic : String)
    (identifier : Config.Scalar) (now : Instant) (script : Script) : Client :=
  { settings, availabilityTopic, identifier, scene := { now, script } }

namespace Course

/-- The message that an offer makes: what publishing fixes, with the place in the order of
acceptance. -/
def message (p : Course) (topic : String) (payload : Payload) (retain : Option Bool) : Message :=
  { topic
    payload := payload.render
    qos := p.client.settings.qos
    retain := retain.getD p.client.settings.retain.data
    serial := p.offered.length }

def publish (p : Course) (topic : String) (payload : Payload) (retain : Option Bool) : Course :=
  match p.client.publish topic payload retain with
  | (true, c) => { p with client := c, offered := p.offered ++ [p.message topic payload retain] }
  | (false, c) => { p with client := c }

/-- Begins to stop, and completes it if no loop is there to wait for. -/
def stop (p : Course) : Course :=
  match p.client.beginStop with
  | (true, c) => { p with client := c, conduct := .stopping }
  | (false, c) => { p with client := c.finishStop.2 }

/-- The caller has its turn again. If it has waited for the end of a loop, stopping is completed. -/
def resume (p : Course) : Course :=
  match p.conduct with
  | .stopping => { p with client := p.client.finishStop.2, conduct := .acting }
  | _ => { p with conduct := .acting }

/-- The turn that comes next is taken. -/
def goOn (p : Course) : Course :=
  match p.client.scene.next? with
  | none => p
  | some (.goOn .caller, scene) => { p with client := { p.client with scene } }.resume
  | some (turn, scene) => { p with client := { p.client with scene }.takeTurn turn }

/-- A deed. A client is started only where it is not running and not being stopped, and only the
caller that acts can stop it or go away. -/
def act (p : Course) : Deed → Course
  | .publish topic payload retain => p.publish topic payload retain
  | .start => if p.client.current = none then { p with client := p.client.start } else p
  | .stop => if p.conduct = .acting then p.stop else p
  | .connect => { p with client := p.client.connect.2 }
  | .disconnect => { p with client := p.client.disconnect.2 }
  | .leave => if p.conduct = .acting then { p with conduct := .away } else p
  | .call after turn =>
    if p.conduct = .away ∧ turn.isCallers then
      { p with
        client := { p.client with scene := p.client.scene.lend after turn }
        conduct := .called }
    else p
  | .aside e => { p with client := { p.client with scene := e.perform p.client.scene } }
  | .goOn => p.goOn

/-- A run: deeds in order. -/
def run (p : Course) (deeds : List Deed) : Course := deeds.foldl act p

theorem run_append (p : Course) (earlier later : List Deed) :
    p.run (earlier ++ later) = (p.run earlier).run later := by
  rw [run, List.foldl_append]
  rfl

/-- The use of a client that has just been made. -/
def fresh (settings : Config.MqttSettings) (availabilityTopic : String)
    (identifier : Config.Scalar) (now : Instant) (script : Script) : Course :=
  { client := .fresh settings availabilityTopic identifier now script }

end Course

end Mqtt

end SupplyGauge
