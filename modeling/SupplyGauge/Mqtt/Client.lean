import SupplyGauge.History.Scene
import SupplyGauge.Mqtt.Topics
/-! # The client

A client holds a bounded queue of messages and at most one session with the broker.
Accepting a message only puts it in the queue. Delivery loops take messages from the
queue; each of them lets a fetch of its own wait for the next message, so that the
loop can give up waiting. Every function here is one transition that happens at once.
-/

namespace SupplyGauge.Mqtt

/-- Where a delivery loop stands: it has not begun, waits for its fetch, waits until its fetch has
let go because a second is over or because the loop is to end, pauses after a failure, or is
over. -/
inductive Stand where
  | beginning
  | awaiting
  | withdrawing (expired : Bool)
  | pausing
  | over
  deriving DecidableEq, Repr

/-- How far the fetch of a loop has come: it has not looked into the queue yet, listens for a
message, has been called because one has come, has stopped listening, holds a message, or is gone.
One that is revoked before its turn comes does not look. -/
inductive Fetch where
  | starting (revoked : Bool)
  | listening
  | summoned (revoked : Bool)
  | leaving
  | holding (m : Message)
  | gone
  deriving DecidableEq

/-- Seconds to wait after the first refused attempt to connect. -/
def firstBackoff : Nat := 5

/-- Longest wait between attempts to connect, in seconds. -/
def longestBackoff : Nat := 60

/-- A delivery loop. `called` says that its turn has been given out, `cancelled` that it is asked to
end at its next turn. Its waits are numbered, and the latest one has a timer; `watched` says that
the caller waits for its end. -/
structure Delivery where
  stand : Stand := .beginning
  fetch : Fetch := .gone
  backoff : Nat := firstBackoff
  called : Bool := true
  cancelled : Bool := false
  wait : Nat := 0
  timer : Nat := 0
  watched : Bool := false

/-- A client, its delivery loops and the scene it acts in. `current` is the loop that stopping the
client ends, and `listeners` are the loops whose fetches listen, the first to be called first. -/
structure Client where
  settings : Config.MqttSettings
  availabilityTopic : String
  identifier : Config.Scalar
  queue : List Message := []
  accepted : Nat := 0
  attached : Bool := false
  connected : Bool := false
  running : Bool := false
  loops : Array Delivery := #[]
  current : Option Nat := none
  listeners : List Nat := []
  scene : Scene := {}

/-- Why an operation of a client fails: the broker refuses a call, there is no session to make it
in, or a number in the settings is too long to be written. -/
inductive ClientError where
  | refused (r : Refusal)
  | noSession
  | unwritable (fault : Numeral.Fault)
  deriving DecidableEq

def ClientError.message : ClientError → String
  | .refused r => r.message
  | .noSession => "'NoneType' object has no attribute 'publish'"
  | .unwritable fault => fault.message

/-- The component under which the client reports. -/
def component : String := "mqtt.client"

/-- Largest number of messages in the queue. -/
def queueLimit : Nat := 1000

/-- Number of characters of a payload that are shown in the log. -/
def shownLength : Nat := 100

/-- Identifier of clients whose settings name none; it ends in eight digits that are chosen once
per client. -/
def anonymous (digits : String) : Config.Scalar := .text s!"power_supply_metrics_{digits}"

def availabilityTopic (topicPrefix : Config.Scalar) : Except Numeral.Fault String := do
  return s!"{← topicPrefix.display}/status"

namespace Client

def make (settings : Config.MqttSettings) (topic : Option String) (digits : String)
    (scene : Scene) : Except Numeral.Fault Client := do
  return {
    settings
    availabilityTopic := ← match topic.filter (· ≠ "") with
      | some topic => pure topic
      | none => Mqtt.availabilityTopic settings.topicPrefix
    identifier := (settings.clientId.filter (·.isSet)).getD (anonymous digits)
    scene }

def pending (c : Client) : Nat := c.queue.length

def report (c : Client) (severity : Log.Severity) (message : String) : Client :=
  { c with scene := c.scene.report severity component message }

def note (c : Client) (e : Event) : Client := { c with scene := c.scene.note e }

def give (c : Client) (turn : Turn) : Client := { c with scene := c.scene.give turn }

def perform (c : Client) (call : Call) : Option Refusal × Client :=
  let (refusal, scene) := c.scene.perform call
  (refusal, { c with scene })

/-- The publication that announces whether the client is there. -/
def availability (c : Client) (payload : String) : Publication :=
  ⟨c.availabilityTopic, payload, 1, c.settings.retain.status⟩

def connection (c : Client) : Connection :=
  { host := c.settings.host
    port := c.settings.port
    username := c.settings.username
    password := c.settings.password
    identifier := c.identifier
    keepalive := c.settings.keepalive
    will := c.availability "offline" }

/-- Host and port as the log shows them. -/
def address (c : Client) : Except Numeral.Fault String := do
  let host ← c.settings.host.display
  return s!"{host}:{← Numeral.textOf c.settings.port}"

/-- Opens a session and announces the client. The session counts as connected as soon as it is
open, also when the announcement is refused. Nothing is done if the log cannot show the
broker. -/
def connect (c : Client) : Except ClientError Unit × Client :=
  match c.address, c.identifier.display with
  | .error f, _ => (.error (.unwritable f), c)
  | _, .error f => (.error (.unwritable f), c)
  | .ok address, .ok identifier =>
    let c := c.report .debug s!"Connecting to MQTT broker {address} as {identifier}"
    let c := { c with attached := true }
    match c.perform (.enter c.connection) with
    | (some r, c) => (.error (.refused r), c)
    | (none, c) =>
      let c := { c with connected := true }
      match c.perform (.announce (c.availability "online")) with
      | (some r, c) => (.error (.refused r), c)
      | (none, c) => (.ok (), c.report .info s!"Connected to MQTT broker at {address}")

/-- Announces that the client goes and leaves the session. -/
def farewell (c : Client) : Option Refusal × Client :=
  match c.perform (.announce (c.availability "offline")) with
  | (some r, c) => (some r, c)
  | (none, c) => c.perform .leave

def detach (c : Client) : Client := { c with connected := false, attached := false }

/-- Ends the session if there is one. A refusal by the protocol is only reported; the session is
forgotten in any case. -/
def disconnect (c : Client) : Except ClientError Unit × Client :=
  if c.attached && c.connected then
    match c.farewell with
    | (none, c) => (.ok (), c.detach.report .info "Disconnected from MQTT broker")
    | (some ⟨.protocol, message⟩, c) =>
      let c := c.report .warning s!"Error while disconnecting: {message}"
      (.ok (), c.detach.report .info "Disconnected from MQTT broker")
    | (some r, c) => (.error (.refused r), c.detach)
  else (.ok (), c)

/-- The state of a loop. One that does not exist is over. -/
def loop (c : Client) (n : Nat) : Delivery := c.loops[n]?.getD { stand := .over }

def setLoop (c : Client) (n : Nat) (d : Delivery) : Client :=
  { c with loops := c.loops.setIfInBounds n d }

/-- Calls the first listener, if there is one. -/
def callListener (c : Client) : Client :=
  match c.listeners with
  | [] => c
  | n :: rest =>
    ({ c with listeners := rest }.setLoop n { c.loop n with fetch := .summoned false }).give
      (.goOn (.fetch n))

/-- Puts a message at the end of the queue, if there is room. -/
def enqueue (c : Client) (m : Message) : Option Client :=
  if c.queue.length < queueLimit then some { c with queue := c.queue ++ [m] }.callListener
  else none

/-- Reports that the queue is full and a message is lost. -/
def reportFull (c : Client) (topic : String) : Client :=
  c.report .warning s!"Message queue full, dropping message for {topic}"

/-- Takes a message for delivery if there is room in the queue. Unless it is said how to retain
the message, the settings say it. -/
def publish (c : Client) (topic : String) (payload : Payload) (retain : Option Bool) :
    Bool × Client :=
  let m : Message := {
    topic
    payload := payload.render
    qos := c.settings.qos
    retain := retain.getD c.settings.retain.data
    serial := c.accepted }
  match c.enqueue m with
  | some c => (true, { c with accepted := c.accepted + 1 }.note (.accepted m))
  | none => (false, c.reportFull topic)

def drain (c : Client) : List Message × Client := (c.queue, { c with queue := [] })

/-- Puts a message that was not delivered back, behind all others. -/
def requeue (c : Client) (m : Message) : Client :=
  match c.enqueue m with
  | some c => c.note (.returned m)
  | none => (c.note (.dropped m)).reportFull m.topic

end Client

end SupplyGauge.Mqtt
