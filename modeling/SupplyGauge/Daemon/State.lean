import SupplyGauge.Files.Change
import SupplyGauge.Log.Journal
import SupplyGauge.Mqtt.Passage
/-! # The daemon

The daemon starts a client, waits until it is connected, and then lets a collector run
collection cycles at an interval until a signal asks it to end. Every cycle's messages
go to the client at once. The journal is written before anybody looks at the files.
Each function here is what happens at one turn.
-/

namespace SupplyGauge.Daemon

open Mqtt (Client ClientError)

/-- How a run ends. -/
inductive Ending where
  | returned
  | cancelled
  | interrupted
  | failed (e : ClientError)
  deriving DecidableEq

/-- What the daemon itself is doing: nothing yet, waiting for a connection until a moment, letting
the collector work, waiting for the collector to end, waiting for the client to stop, or nothing
any more. -/
inductive Stage where
  | beginning
  | connecting (deadline : Instant)
  | serving
  | gathering
  | stopping
  | over (e : Ending)
  deriving DecidableEq

/-- What the collector is doing: nothing yet, about to begin, resting between cycles, or nothing any
more. -/
inductive Work where
  | absent
  | beginning
  | resting
  | over
  deriving DecidableEq, Repr

/-- A collector at work. `called` says that its turn has been given out, `cancelled` that it is
asked to end at its next turn. -/
structure Duty where
  work : Work := .absent
  called : Bool := false
  cancelled : Bool := false
  timer : Nat := 0

/-- Why settings do not make a daemon. -/
inductive SettingError where
  | unwritable (fault : Numeral.Fault)
  | pattern (e : Pattern.Error)
  | prefixNotText (typeName : String)
  deriving DecidableEq

def SettingError.message : SettingError → String
  | .unwritable fault => fault.message
  | .pattern e => e.message
  | .prefixNotText typeName => s!"'{typeName}' object has no attribute 'rstrip'"

/-- Something that happens around the daemon. -/
inductive Step where
  | files (changes : List (Files.Path × Files.Change))
  | signal (s : Signal)

/-- The component under which the daemon reports. -/
def component : String := "app"

/-- Seconds to wait for the first connection. -/
def connectionPatience : Nat := 30

/-- A daemon, with what it writes on and what is going to happen around it. `interruptible` says
whether an interrupt ends it before it handles signals itself; `asked` says that a signal has asked
it to end. -/
structure State where
  client : Client
  collector : Supply.Collector
  topicPrefix : String
  journal : Log.Journal
  stamp : Log.Stamp
  paper : Log.Paper
  steps : Array Step := #[]
  stage : Stage := .beginning
  duty : Duty := {}
  last : Option Supply.Result := none
  handlesSignals : Bool := false
  interruptible : Bool := false
  asked : Bool := false

namespace State

def make (s : Config.Settings) (digits : String) (journal : Log.Journal) (stamp : Log.Stamp)
    (paper : Log.Paper) (interruptible : Bool) (scene : Scene) : Except SettingError State := do
  let topic ← (Mqtt.availabilityTopic s.mqtt.topicPrefix).mapError .unwritable
  let client ← (Client.make s.mqtt (some topic) digits scene).mapError .unwritable
  let topicPrefix ← match s.mqtt.topicPrefix with
    | .text t => pure t
    | v => throw (.prefixNotText v.typeName)
  let collector ← (Supply.Collector.ofSettings s.supply).mapError .pattern
  return { client, collector, topicPrefix, journal, stamp, paper, interruptible }

def onScene (d : State) (f : Scene → Scene) : State :=
  { d with client := { d.client with scene := f d.client.scene } }

def report (d : State) (severity : Log.Severity) (message : String) : State :=
  d.onScene (·.report severity component message)

def now (d : State) : Instant := d.client.scene.now

def writeJournal (d : State) : State :=
  let entries := d.client.scene.unwritten.reverse
  let d := d.onScene fun s => { s with unwritten := [] }
  let (journal, paper) := d.journal.recordAll d.stamp entries d.paper
  { d with journal, paper }

/-- Ends the client's session, and with it the run. -/
def finish (d : State) : State :=
  match d.client.finishStop with
  | (.ok (), client) =>
    let d := { d with client, stage := .over .returned }
    if d.handlesSignals then d.report .info "Power Supply Metrics stopped" else d
  | (.error e, client) => { d with client, stage := .over (.failed e) }

/-- Stops the client; the run ends when the client's loop is over. -/
def stopClient (d : State) : State :=
  match d.client.beginStop with
  | (true, client) => { d with client, stage := .stopping }
  | (false, client) => { d with client }.finish

/-- One collection cycle, whose messages go to the client. -/
def cycle (d : State) : State :=
  let d := d.writeJournal
  let (log, r) := d.collector.safeCollect d.paper.files
  let d := { d with last := some r }.onScene (·.reportAll log)
  let d := match r.error with
    | none => d
    | some e => d.report .warning s!"Collector {d.collector.settings.name} failed: {e}"
  let sink : Mqtt.Sink Client := fun topic payload c => c.publish topic payload none
  let (_, log, client) := Mqtt.offerCycle sink d.topicPrefix r d.client
  { d with client }.onScene (·.reportAll log)

def rest (d : State) : State :=
  let (timer, scene) :=
    d.client.scene.giveAfter d.collector.settings.updateInterval (.release .collector 0)
  { d.onScene fun _ => scene with duty := { work := .resting, timer } }

/-- The collector ends, which the daemon may be waiting for. -/
def endWork (d : State) : State :=
  { d.onScene (·.give (.release .caller 0)) with duty := { d.duty with work := .over } }

def collectorTurn (d : State) : State :=
  let duty := d.duty
  let d := { d with duty := { duty with called := false, cancelled := false } }
  match duty.work with
  | .beginning =>
    if duty.cancelled then d.endWork
    else
      let name := d.collector.settings.name
      let interval := d.collector.settings.updateInterval.text .plain
      (d.report .info s!"Starting collector: {name} (interval: {interval}s)").cycle.rest
  | .resting =>
    if duty.cancelled then (d.onScene (·.callOff duty.timer)).endWork else d.cycle.rest
  | .absent | .over => d

def releaseCollector (d : State) : State :=
  if d.duty.work = .resting ∧ !d.duty.called then
    { d.onScene (·.give (.goOn .collector)) with duty := { d.duty with called := true } }
  else d

def cancelCollector (d : State) : State :=
  let d' := { d with duty := { d.duty with called := true, cancelled := true } }
  if d.duty.called then d' else d'.onScene (·.give (.goOn .collector))

/-- Begins to serve: from here on signals are handled, and the collector works. -/
def serve (d : State) : State :=
  let d := { d with handlesSignals := true, stage := .serving }
  { d.onScene (·.give (.goOn .collector)) with duty := { work := .beginning, called := true } }
    |>.report .info "Power Supply Metrics started successfully"

/-- Looks whether the client is connected. -/
def look (d : State) (deadline : Instant) : State :=
  if d.client.connected then d.serve
  else if deadline.lt d.now then
    (d.report .error "Failed to connect to MQTT broker").stopClient
  else
    let d := d.onScene fun s => (s.giveAfter Mqtt.lookInterval (.release .caller 0)).2
    { d with stage := .connecting deadline }

def callerTurn (d : State) : State :=
  match d.stage with
  | .beginning =>
    let d := d.report .info "Starting Power Supply Metrics"
    { d with client := d.client.start }.look (d.now.add (.ofInt connectionPatience))
  | .connecting deadline => d.look deadline
  | .serving =>
    { (d.report .info "Stopping Power Supply Metrics").cancelCollector with stage := .gathering }
  | .gathering => d.stopClient
  | .stopping => d.finish
  | .over _ => d

/-- The run is to end from outside. Only a stop under way is still completed. -/
def abandon (d : State) (e : Ending) : State :=
  match d.stage with
  | .stopping =>
    match d.client.current with
    | some n => { d with client := d.client.cancelLoop n }
    | none => d
  | _ => { d with stage := .over e }

def cut (d : State) : State := (d.onScene (·.note .limitReached)).abandon .cancelled

def noteSignal (d : State) (s : Signal) (handled : Bool) : State :=
  d.onScene (·.note (.signalled s handled))

/-- A signal arrives. The first one that is handled makes the daemon end. -/
def signal (d : State) (s : Signal) : State :=
  if d.handlesSignals then
    let d := (d.noteSignal s true).report .info "Received shutdown signal"
    if d.asked then d else { d.onScene (·.give (.goOn .caller)) with asked := true }
  else if d.interruptible && s = .interrupt then (d.noteSignal s true).abandon .interrupted
  else d.noteSignal s false

/-- A change of the files. The journal notices when a file that it writes goes away. -/
def changeFiles (d : State) (path : Files.Path) (c : Files.Change) : State :=
  let files := d.paper.files.change path c
  { d with paper := { d.paper with files }, journal := d.journal.afterChange files }

def meet (d : State) : Step → State
  | .files changes => changes.foldl (fun d (path, c) => d.changeFiles path c) d.writeJournal
  | .signal s => d.signal s

end State

end SupplyGauge.Daemon
