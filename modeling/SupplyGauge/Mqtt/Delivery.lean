import SupplyGauge.Mqtt.Client
/-! # Delivery loops

A loop opens a session when there is none, waits longer after each attempt that the
protocol refuses, and pauses for a second after any other failure. While connected it
waits for a message, at most a second at a time, and delivers it. A loop that is asked
to end while it waits for a message lets its fetch go first, and a message that the
fetch already holds is still delivered.
-/

namespace SupplyGauge.Mqtt

namespace Client

/-- A loop is over. A caller that waits for it goes on. -/
def finishLoop (c : Client) (n : Nat) : Client :=
  let d := c.loop n
  let c := c.setLoop n { d with stand := .over, watched := false }
  if d.watched then c.give (.goOn .caller) else c

/-- A loop begins a wait of some seconds. -/
def beginWait (c : Client) (n : Nat) (stand : Stand) (seconds : Nat) : Client :=
  let d := c.loop n
  let (timer, scene) :=
    c.scene.giveAfter (.ofInt seconds) (.release (.delivery n) (d.wait + 1))
  { c with scene }.setLoop n { d with stand, wait := d.wait + 1, timer }

def pause (c : Client) (n seconds : Nat) : Client := c.beginWait n .pausing seconds

/-- A loop waits for a message, at most a second. -/
def awaitMessage (c : Client) (n : Nat) : Client :=
  let c := c.beginWait n .awaiting 1
  (c.setLoop n { c.loop n with fetch := .starting false }).give (.goOn (.fetch n))

/-- A loop stops waiting for a message and waits until its fetch has let go. -/
def withdraw (c : Client) (n : Nat) (expired : Bool) : Client :=
  let d := c.loop n
  let d := { d with stand := .withdrawing expired, wait := d.wait + 1 }
  match d.fetch with
  | .starting _ => c.setLoop n { d with fetch := .starting true }
  | .summoned _ => c.setLoop n { d with fetch := .summoned true }
  | .listening =>
    ({ c with listeners := c.listeners.filter (· != n) }.setLoop n
      { d with fetch := .leaving }).give (.goOn (.fetch n))
  | _ => c.setLoop n d

/-- After an unexpected failure the session counts as lost, and the loop pauses for a second. -/
def penalize (c : Client) (n : Nat) (e : ClientError) : Client :=
  let c := c.report .error s!"Publisher loop error: {e.message}"
  { c with connected := false }.pause n 1

/-- After an attempt to connect that the protocol refuses, the loop pauses, and longer the next
time. -/
def backOff (c : Client) (n : Nat) (message : String) : Client :=
  let c := c.report .error s!"Failed to connect to MQTT: {message}"
  let d := c.loop n
  (c.setLoop n { d with backoff := min (d.backoff * 2) longestBackoff }).pause n d.backoff

/-- A pass of a loop: it ends if the client is to stop; otherwise it connects if need be and waits
for a message. -/
def pass (c : Client) (n : Nat) : Client :=
  if c.running then
    if c.connected then c.awaitMessage n
    else match c.connect with
      | (.ok (), c) => (c.setLoop n { c.loop n with backoff := firstBackoff }).awaitMessage n
      | (.error (.refused ⟨.protocol, message⟩), c) => c.backOff n message
      | (.error e, c) => c.penalize n e
  else c.finishLoop n

/-- A loop delivers a message. A refusal by the protocol costs the session and the message goes
back; any other failure costs the message. -/
def deliver (c : Client) (n : Nat) (m : Message) : Client :=
  let shown := String.ofList (m.payload.toList.take shownLength)
  let c := c.report .debug s!"Publishing to {m.topic}: {shown}"
  if c.attached then
    match c.perform (.deliver m) with
    | (none, c) => c.pass n
    | (some ⟨.protocol, message⟩, c) =>
      (((c.report .error s!"MQTT error: {message}").detach).requeue m).pass n
    | (some r, c) => (c.note (.dropped m)).penalize n (.refused r)
  else (c.note (.dropped m)).penalize n .noSession

/-- The timer of a loop's wait is not needed any more. -/
def stopTimer (c : Client) (n : Nat) : Client :=
  { c with scene := c.scene.callOff (c.loop n).timer }

def deliveryTurn (c : Client) (n : Nat) : Client :=
  let d := c.loop n
  let c := c.setLoop n { d with called := false, cancelled := false }
  match d.stand with
  | .beginning => if d.cancelled then c.finishLoop n else c.pass n
  | .awaiting =>
    match d.fetch with
    | .holding m => ((c.stopTimer n).setLoop n { (c.loop n) with fetch := .gone }).deliver n m
    | _ => c.withdraw n !d.cancelled
  | .withdrawing expired =>
    if d.cancelled || !expired then (c.stopTimer n).finishLoop n else (c.stopTimer n).pass n
  | .pausing => if d.cancelled then (c.stopTimer n).finishLoop n else c.pass n
  | .over => c

/-- The fetch of a loop is done, and the loop learns of it. -/
def finishFetch (c : Client) (n : Nat) (fetch : Fetch) : Client :=
  (c.setLoop n { c.loop n with fetch }).give (.release (.delivery n) (c.loop n).wait)

/-- A fetch looks into the queue: it takes the first message, or listens for one. -/
def lookForMessage (c : Client) (n : Nat) : Client :=
  match c.queue with
  | m :: rest => ({ c with queue := rest }.note (.taken m)).finishFetch n (.holding m)
  | [] =>
    { c with listeners := c.listeners ++ [n] }.setLoop n { c.loop n with fetch := .listening }

/-- The turn of a fetch. One that was called and revoked calls another listener in its place. -/
def fetchTurn (c : Client) (n : Nat) : Client :=
  match (c.loop n).fetch with
  | .starting false | .summoned false => c.lookForMessage n
  | .summoned true =>
    (if c.queue.isEmpty then c else c.callListener).finishFetch n .gone
  | .starting true | .leaving => c.finishFetch n .gone
  | _ => c

def releaseLoop (c : Client) (n wait : Nat) : Client :=
  let d := c.loop n
  match d.stand with
  | .awaiting | .withdrawing _ | .pausing =>
    if d.wait = wait && !d.called then
      (c.setLoop n { d with called := true }).give (.goOn (.delivery n))
    else c
  | _ => c

def cancelLoop (c : Client) (n : Nat) : Client :=
  let d := c.loop n
  if d.stand = .over then c
  else if d.called then c.setLoop n { d with cancelled := true }
  else (c.setLoop n { d with called := true, cancelled := true }).give (.goOn (.delivery n))

/-- A turn that is not a caller's own. The end of a caller's wait gives out its turn. -/
def takeTurn (c : Client) : Turn → Client
  | .goOn (.delivery n) => c.deliveryTurn n
  | .goOn (.fetch n) => c.fetchTurn n
  | .release (.delivery n) wait => c.releaseLoop n wait
  | .release .caller _ => c.give (.goOn .caller)
  | _ => c

def start (c : Client) : Client :=
  let n := c.loops.size
  { c with running := true, loops := c.loops.push {}, current := some n }
    |>.give (.goOn (.delivery n))
    |>.report .info "MQTT client started"

/-- Tells the current loop to end. Says whether it is still there, so that the caller has to wait
for its end. -/
def beginStop (c : Client) : Bool × Client :=
  let c := { c with running := false }
  match c.current with
  | none => (false, c)
  | some n =>
    let c := c.cancelLoop n
    let d := c.loop n
    if d.stand = .over then (false, c) else (true, c.setLoop n { d with watched := true })

/-- Ends the session after the current loop is over. -/
def finishStop (c : Client) : Except ClientError Unit × Client :=
  match { c with current := none }.disconnect with
  | (.ok (), c) => (.ok (), c.report .info "MQTT client stopped")
  | (.error e, c) => (.error e, c)

end Client

end SupplyGauge.Mqtt
