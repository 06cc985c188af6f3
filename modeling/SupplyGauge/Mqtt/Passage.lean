import SupplyGauge.Mqtt.Delivery
/-! # A client while time passes

A caller of the client lets time pass, waits for a session, or stops the client. In
the meantime the delivery loops go on whenever their turns come.
-/

namespace SupplyGauge.Mqtt

/-- The time between two looks at whether the client is connected: a tenth of a second. -/
def lookInterval : Instant := .ofDecimal false 1 (-1)

namespace Client

/-- Takes turns until the caller's own turn comes, at most as many as the fuel allows. -/
def untilCaller : Nat → Client → Client
  | 0, c => c
  | fuel + 1, c =>
    match c.scene.next? with
    | none => c
    | some (.goOn .caller, scene) => { c with scene }
    | some (turn, scene) => ({ c with scene }.takeTurn turn).untilCaller fuel

/-- A number of turns that loops do not exceed within some seconds. Every pass of a loop takes a
message for good, an answer from the script, or a second, and a few turns. -/
def enoughTurns (c : Client) (seconds : Nat) : Nat :=
  let script := c.scene.script
  32 * (c.loops.size + 1) *
    (seconds + c.queue.length + script.entering.length + script.publishing.length + 4)

def yieldTurn (c : Client) : Client :=
  let c := c.give (.goOn .caller)
  c.untilCaller (c.enoughTurns 0)

/-- The caller lets a number of seconds pass. -/
def elapse (c : Client) (seconds : Instant) : Client :=
  if seconds.le .zero then c.yieldTurn
  else
    let (_, scene) := c.scene.giveAfter seconds (.release .caller 0)
    { c with scene }.untilCaller (c.enoughTurns ((seconds.truncate?.getD 0).toNat + 1))

/-- Looks for a connection until there is one or a moment has passed. -/
def lookUntil (deadline : Instant) : Nat → Client → Bool × Client
  | 0, c => (c.connected, c)
  | fuel + 1, c =>
    if c.connected then (true, c)
    else if deadline.lt c.scene.now then (false, c)
    else lookUntil deadline fuel (c.elapse lookInterval)

/-- Waits for a connection, at most for a number of seconds. -/
def waitConnected (c : Client) (seconds : Instant) : Bool × Client :=
  c.lookUntil (c.scene.now.add seconds) (10 * (seconds.truncate?.getD 0).toNat + 20)

/-- Stops the client: the current loop first, for whose end the caller waits, and then the
session. -/
def stop (c : Client) : Except ClientError Unit × Client :=
  match c.beginStop with
  | (true, c) => (c.untilCaller (c.enoughTurns 2)).finishStop
  | (false, c) => c.finishStop

/-- Accepts numbered messages and counts them. -/
def fill (c : Client) (topic : String) : Nat → Nat × Client
  | 0 => (0, c)
  | count + 1 =>
    let (n, c) := c.fill topic count
    let (accepted, c) := c.publish topic (.text (toString count)) none
    (if accepted then n + 1 else n, c)

end Client

end SupplyGauge.Mqtt
