import SupplyGauge.Daemon.State
/-! # Runs of the daemon

A run is the daemon together with what happens around it: changes of files and
signals at given moments, and a moment at which the run is cut short. Turns are taken
in the order of the schedule until the run is over. Nobody else stops the daemon here;
`Attended` adds calls from outside that do.
-/

namespace SupplyGauge.Daemon

namespace State

def takeTurn (d : State) : Turn → State
  | .goOn .caller => d.callerTurn
  | .goOn .collector => d.collectorTurn
  | .release .collector _ => d.releaseCollector
  | .outside n =>
    match d.steps[n]? with
    | some step => d.meet step
    | none => d
  | .cut => d.cut
  | turn => { d with client := d.client.takeTurn turn }

/-- Takes turns until the run is over, at most as many as the fuel allows. -/
def takeTurns : Nat → State → State
  | 0, d => d
  | fuel + 1, d =>
    match d.stage with
    | .over _ => d
    | _ =>
      match d.client.scene.next? with
      | none => d
      | some (turn, scene) => ((d.onScene fun _ => scene).takeTurn turn).takeTurns fuel

/-- The daemon's schedule at the beginning: a timer for every step, one for the moment at which the
run is cut short, and the daemon's own first turn. -/
def prepare (d : State) (steps : List (Instant × Step)) (limit : Instant) : State :=
  let timer (at_ : Instant) (turn : Turn) (s : Scene) : Scene := (s.giveAfter at_ turn).2
  let withSteps := steps.zipIdx.foldl
    (fun d ((at_, _), n) => d.onScene (timer at_ (.outside n))) d
  { withSteps.onScene (timer limit .cut) with steps := (steps.map Prod.snd).toArray }
    |>.onScene (·.give (.goOn .caller))

/-- A number of cycles that do not fit before a limit. -/
def enoughCycles (d : State) (limit : Instant) : Nat :=
  match limit.quanta?, d.collector.settings.updateInterval.quanta? with
  | some l, some i => (l / i).toNat + 2
  | _, _ => 100 * ((limit.truncate?.getD 0).toNat + 2)

/-- A number of turns that a run up to a limit does not exceed. Looks are a tenth of a second apart,
waits of the client's loop a second, and every cycle fills the queue at most once. -/
def enoughTurns (d : State) (steps : List (Instant × Step)) (limit : Instant) : Nat :=
  let seconds := (limit.truncate?.getD 0).toNat + 2
  let script := d.client.scene.script
  let answers := script.entering.length + script.publishing.length
  64 * (steps.length + 12 * seconds + answers +
    (Mqtt.queueLimit + 1) * d.enoughCycles limit)

def run (d : State) (steps : List (Instant × Step)) (limit : Instant) : State :=
  ((d.prepare steps limit).takeTurns (d.enoughTurns steps limit)).writeJournal

/-- How the run ended. A run that is not over counts as cut short. -/
def ending (d : State) : Ending :=
  match d.stage with
  | .over e => e
  | _ => .cancelled

end State

end SupplyGauge.Daemon
