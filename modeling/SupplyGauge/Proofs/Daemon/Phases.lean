import SupplyGauge.Daemon.Run
import SupplyGauge.Proofs.Mqtt.Shutdown

/-! # The phases of the daemon

The daemon is the caller of its client. In each phase it waits for at most one turn of
its own: the next look at the connection, the call of a signal, the end of the
collector, or the end of the client's loop. The turns that are to come for it are never
more than that, so it never takes a step too early.
-/

namespace SupplyGauge

open Mqtt Mqtt.Client

namespace Mqtt.Client

variable {c c' : Client}

/-- What keeps the loops of a client in order, and lets nothing but stopping decide whether it is to
run. -/
structure Steady (c c' : Client) : Prop extends Keeps c c' where
  running : c'.running = c.running
  attached : (c.connected = true → c.attached = true) → c'.connected = true → c'.attached = true

theorem Steady.trans {c'' : Client} (h : Steady c c') (h' : Steady c' c'') : Steady c c'' where
  toKeeps := h.toKeeps.trans h'.toKeeps
  running := h'.running.trans h.running
  attached hattached := h'.attached (h.attached hattached)

theorem Steady.of_scene (h : c.Orderly) {scene : Scene}
    (hturns : callerTurns { c with scene } ≤ c.callerTurns) : Steady c { c with scene } where
  toKeeps := .of_eq h { c with scene } rfl rfl rfl hturns
  running := rfl
  attached hattached := hattached

theorem Steady.refl (h : c.Orderly) : Steady c c := .of_scene h (Nat.le_refl _)

theorem Advances.steady (h : Advances True c c') (hrunning : c'.running = c.running) :
    Steady c c' where
  toKeeps := h.toKeeps
  running := hrunning
  attached := Ledger.Moves.attached (h.moves (.inl trivial) [])

theorem takeTurn_steady (h : c.Orderly) {turn : Turn} (hturn : turn.isCallers = false) :
    Steady c (c.takeTurn turn) :=
  (takeTurn_advances h hturn).steady (c.takeTurn_endures turn).running

theorem publish_steady (h : c.Orderly) (topic : String) (payload : Payload)
    (retain : Option Bool) : Steady c (c.publish topic payload retain).2 where
  toKeeps := (publish_keeps h topic payload retain).1
  running := (c.publish_endures topic payload retain).running
  attached hattached := by
    obtain ⟨-, hconnected, hsame⟩ := c.publish_quiet topic payload retain
    rwa [hconnected, hsame]

/-- The caller waits for the end of the current loop, and gets a turn for it. -/
def Watched (c : Client) : Prop :=
  ∃ n, c.current = some n ∧ ((c.loop n).stand ≠ .over → (c.loop n).watched = true)

theorem Keeps.watched_current (h : Keeps c c') (hwatched : c.Watched) : c'.Watched := by
  obtain ⟨n, hcurrent, hwatched⟩ := hwatched
  refine ⟨n, h.current.trans hcurrent, fun hstand => ?_⟩
  obtain ⟨hthen, hsame⟩ := h.watched n hstand
  exact hsame.trans (hwatched hthen)

theorem offerSamples_steady (topicPrefix : String) (samples : List Metric.Sample)
    (h : c.Orderly) :
    Steady c (offerSamples (fun topic payload c => c.publish topic payload none) topicPrefix
      samples c).2 := by
  induction samples generalizing c with
  | nil => exact .refl h
  | cons sample samples ih =>
      have hpublish := publish_steady h (sampleTopic topicPrefix sample) (.json sample.payload) none
      exact hpublish.trans (ih hpublish.orderly)

/-- The messages of a cycle are offered like any others. -/
theorem offerCycle_steady (topicPrefix : String) (r : Supply.Result) (h : c.Orderly) :
    Steady c (offerCycle (fun topic payload c => c.publish topic payload none) topicPrefix
      r c).2.2 := by
  unfold offerCycle
  split
  · have hsamples := offerSamples_steady topicPrefix r.samples h
    exact hsamples.trans (publish_steady hsamples.orderly _ _ _)
  · exact publish_steady h _ _ _

end Mqtt.Client

theorem Scene.reportAll_schedule (s : Scene) (entries : List Log.Entry) :
    (s.reportAll entries).schedule = s.schedule := by
  induction entries generalizing s with
  | nil => rfl
  | cons entry entries ih => exact ih (s.log entry)

namespace Daemon

/-- Whether a collector does nothing: it has not begun, or it has ended. -/
def Duty.Idle (d : Duty) : Prop := d.work = .absent ∨ d.work = .over

namespace State

/-- How many turns of its own the daemon waits for. -/
def awaited (d : State) : Nat :=
  match d.stage with
  | .beginning | .connecting _ | .stopping => 1
  | .serving => d.asked.toNat
  | .gathering => if d.duty.work = .over then 1 else 0
  | .over _ => 0

theorem awaited_le_one (d : State) : d.awaited ≤ 1 := by
  unfold awaited
  split
  · exact Nat.le_refl 1
  · exact Nat.le_refl 1
  · exact Nat.le_refl 1
  · exact Bool.toNat_le _
  · split <;> decide
  · exact Nat.zero_le 1

/-- What each phase relies on. Signals call the daemon only while it serves, the collector is asked
to end only once it does not serve any more, and the client is stopped only after the collector has
ended. -/
def InPhase (d : State) : Prop :=
  match d.stage with
  | .beginning => d.client.current = none ∧ d.handlesSignals = false ∧ d.duty.work = .absent
  | .connecting _ => d.handlesSignals = false ∧ d.duty.work = .absent
  | .serving => d.duty.cancelled = false
  | .gathering => d.asked = true
  | .stopping => (d.handlesSignals = true → d.asked = true) ∧ d.duty.Idle ∧
      d.client.running = false ∧ d.client.Watched
  | .over _ => False

/-- A daemon that is not over, with no more turns of its own to come than it waits for. -/
structure Sound (d : State) : Prop where
  orderly : d.client.Orderly
  attached : d.client.connected = true → d.client.attached = true
  expected : d.client.expected ≤ d.awaited
  phase : d.InPhase

/-- The daemon goes on in its phase: its client's loops may take turns, and a collector at work
stays at work. -/
structure Stays (d d' : State) : Prop where
  steady : Steady d.client d'.client
  stage : d'.stage = d.stage
  asked : d'.asked = d.asked
  handlesSignals : d'.handlesSignals = d.handlesSignals
  idle : d.duty.Idle → d'.duty.work = d.duty.work
  busy : ¬ d.duty.Idle → ¬ d'.duty.Idle
  cancelled : d.duty.cancelled = false → d'.duty.cancelled = false

variable {d d' : State}

theorem Stays.trans {d'' : State} (h : Stays d d') (h' : Stays d' d'') : Stays d d'' where
  steady := h.steady.trans h'.steady
  stage := h'.stage.trans h.stage
  asked := h'.asked.trans h.asked
  handlesSignals := h'.handlesSignals.trans h.handlesSignals
  idle hidle := by
    have hwork := h.idle hidle
    have hthen : d'.duty.Idle := by rwa [Duty.Idle, hwork]
    exact (h'.idle hthen).trans hwork
  busy hbusy := h'.busy (h.busy hbusy)
  cancelled hcancelled := h'.cancelled (h.cancelled hcancelled)

/-- What only concerns the client, the journal and the files. -/
theorem Stays.of_client (hsteady : Steady d.client d'.client) (hstage : d'.stage = d.stage)
    (hasked : d'.asked = d.asked) (hsignals : d'.handlesSignals = d.handlesSignals)
    (hduty : d'.duty = d.duty) : Stays d d' where
  steady := hsteady
  stage := hstage
  asked := hasked
  handlesSignals := hsignals
  idle _ := by rw [hduty]
  busy := by rw [hduty]; exact id
  cancelled := by rw [hduty]; exact id

theorem Stays.awaited (h : Stays d d') : d'.awaited = d.awaited := by
  have hover : d'.duty.work = .over ↔ d.duty.work = .over := by
    by_cases hidle : d.duty.Idle
    · rw [h.idle hidle]
    · exact iff_of_false (fun hwork => h.busy hidle (.inr hwork)) fun hwork => hidle (.inr hwork)
  unfold State.awaited
  rw [h.stage, h.asked]
  simp only [hover]

theorem Sound.stays (h : d.Sound) (hstays : Stays d d') : d'.Sound where
  orderly := hstays.steady.orderly
  attached := hstays.steady.attached h.attached
  expected := by
    rw [hstays.awaited]
    exact Nat.le_trans hstays.steady.expected h.expected
  phase := by
    have hphase := h.phase
    unfold InPhase at hphase ⊢
    rw [hstays.stage]
    split at hphase
    · obtain ⟨hcurrent, hsignals, hwork⟩ := hphase
      exact ⟨hstays.steady.current.trans hcurrent, hstays.handlesSignals.trans hsignals,
        (hstays.idle (.inl hwork)).trans hwork⟩
    · obtain ⟨hsignals, hwork⟩ := hphase
      exact ⟨hstays.handlesSignals.trans hsignals, (hstays.idle (.inl hwork)).trans hwork⟩
    · exact hstays.cancelled hphase
    · exact hstays.asked.trans hphase
    · obtain ⟨hsignals, hidle, hrunning, hwatched⟩ := hphase
      refine ⟨?_, ?_, hstays.steady.running.trans hrunning,
        hstays.steady.watched_current hwatched⟩
      · rwa [hstays.handlesSignals, hstays.asked]
      · rwa [Duty.Idle, hstays.idle hidle]
    · exact hphase

theorem onScene_stays (h : d.client.Orderly) (f : Scene → Scene)
    (hf : (f d.client.scene).schedule = d.client.scene.schedule) : Stays d (d.onScene f) := by
  refine .of_client (.of_scene h (Nat.le_of_eq ?_)) rfl rfl rfl rfl
  exact congrArg (fun s : Schedule Turn => s.turns.countP Turn.isCallers) hf

theorem report_stays (h : d.client.Orderly) (severity : Log.Severity) (message : String) :
    Stays d (d.report severity message) :=
  onScene_stays h _ rfl

theorem writeJournal_stays (h : d.client.Orderly) : Stays d d.writeJournal := by
  have hwritten := onScene_stays h (fun s => { s with unwritten := [] }) rfl
  exact .of_client hwritten.steady rfl rfl rfl rfl

/-- Others than the daemon itself get a turn. -/
theorem give_stays (h : d.client.Orderly) (turn : Turn) (hturn : turn.isCallers = false) :
    Stays d (d.onScene (·.give turn)) := by
  refine .of_client (.of_scene h (Nat.le_of_eq ?_)) rfl rfl rfl rfl
  exact (d.client.give_callerTurns turn).trans (by rw [hturn]; rfl)

theorem callOff_stays (h : d.client.Orderly) (number : Nat) :
    Stays d (d.onScene (·.callOff number)) := by
  refine .of_client (.of_scene h (Nat.le_of_eq ?_)) rfl rfl rfl rfl
  exact congrArg (List.countP Turn.isCallers) (d.client.scene.schedule.callOff_turns number)

theorem reportAll_stays (h : d.client.Orderly) (entries : List Log.Entry) :
    Stays d (d.onScene (·.reportAll entries)) :=
  onScene_stays h _ (Scene.reportAll_schedule _ entries)

/-- The messages of a cycle go to the client. -/
theorem offer_stays (h : d.client.Orderly) (r : Supply.Result) :
    Stays d (State.onScene
      { d with
        client := (offerCycle (fun topic payload c => c.publish topic payload none)
          d.topicPrefix r d.client).2.2 }
      (·.reportAll (offerCycle (fun topic payload c => c.publish topic payload none)
        d.topicPrefix r d.client).2.1)) := by
  have hoffered := offerCycle_steady d.topicPrefix r h
  generalize offerCycle (fun topic payload c => Client.publish c topic payload none) d.topicPrefix r
    d.client = offered at *
  have hclient : Stays d { d with client := offered.2.2 } := .of_client hoffered rfl rfl rfl rfl
  exact hclient.trans (reportAll_stays hclient.steady.orderly offered.2.1)

/-- A cycle of the collector is done at once, and only its messages concern the client. -/
theorem cycle_stays (h : d.client.Orderly) : Stays d d.cycle := by
  have hwritten := writeJournal_stays h
  unfold cycle
  dsimp only
  generalize d.writeJournal = written at *
  rcases written.collector.safeCollect written.paper.files with ⟨log, r⟩
  have hlast : Stays written { written with last := some r } :=
    .of_client (.refl hwritten.steady.orderly) rfl rfl rfl rfl
  have hlogged := (hwritten.trans hlast).trans (reportAll_stays hlast.steady.orderly log)
  cases r.error with
  | none => exact hlogged.trans (offer_stays hlogged.steady.orderly r)
  | some e =>
      have htold := hlogged.trans (report_stays hlogged.steady.orderly .warning
        s!"Collector {written.collector.settings.name} failed: {e}")
      exact htold.trans (offer_stays htold.steady.orderly r)

theorem rest_stays (h : d.client.Orderly) (hbusy : ¬ d.duty.Idle) : Stays d d.rest where
  steady := .of_scene h (Nat.le_of_eq (giveAfter_callerTurns d.client _ (.release .collector 0)))
  stage := rfl
  asked := rfl
  handlesSignals := rfl
  idle hidle := absurd hidle hbusy
  busy _ hidle := by
    rcases hidle with hwork | hwork <;> contradiction
  cancelled _ := rfl

/-- A collector at work does a cycle and rests. -/
theorem cycle_rest_stays (h : d.client.Orderly) (hbusy : ¬ d.duty.Idle) :
    Stays d d.cycle.rest := by
  have hcycle := cycle_stays h
  exact hcycle.trans (rest_stays hcycle.steady.orderly (hcycle.busy hbusy))

/-- A collector that is asked to end gets a turn for it if it has none. -/
theorem cancelCollector_steady (h : d.client.Orderly) :
    Steady d.client d.cancelCollector.client := by
  unfold cancelCollector
  dsimp only
  split
  · exact .refl h
  · exact .of_scene h (Nat.le_of_eq (d.client.give_callerTurns (.goOn .collector)))

theorem cancelCollector_asked (d : State) : d.cancelCollector.asked = d.asked := by
  unfold cancelCollector
  dsimp only
  split <;> rfl

theorem releaseCollector_stays (h : d.client.Orderly) : Stays d d.releaseCollector := by
  unfold releaseCollector
  split
  · have hgiven := give_stays h (.goOn .collector) rfl
    exact ⟨hgiven.steady, rfl, rfl, rfl, fun _ => rfl, id, id⟩
  · exact .of_client (.refl h) rfl rfl rfl rfl

end State

end Daemon

end SupplyGauge
