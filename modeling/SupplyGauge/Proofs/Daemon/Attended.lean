import SupplyGauge.Proofs.Daemon.Shutdown
import SupplyGauge.Proofs.Mqtt.Shared

/-! # Stops of a daemon from outside

A daemon ends by itself after a signal, or because no connection comes up in time. It
can also be stopped from outside, at any time and by several calls at once. Each call
asks the collector to end and waits for that, and then stops the client and waits for
its loop. The calls and the daemon itself go on at some moment after what they wait for
has come about, and every such order is a run. A run is careful if the daemon begins to
serve only while no call from outside is under way.
-/

namespace SupplyGauge.Daemon

open Mqtt Mqtt.Client

/-- What a call from outside waits for: the end of the collector, or that of a loop of the
client. -/
inductive Wait where
  | collector
  | loop (n : Nat)
  deriving DecidableEq, Repr

/-- A daemon, and what the calls from outside that are under way wait for. -/
structure Attended where
  daemon : State
  waits : List Wait := []

/-- What can happen to a daemon: the turn that comes next is taken, the daemon itself goes on, a
call from outside stops it, or such a call goes on. -/
inductive Occurrence where
  | turn
  | proceed
  | stop
  | resume (i : Nat)

/-- Whether what the daemon itself waits for has come about. -/
def State.ready (d : State) : Bool :=
  match d.stage with
  | .beginning | .connecting _ => true
  | .serving => d.asked
  | .gathering => d.duty.work = .absent || d.duty.work = .over
  | .stopping => d.client.current.all fun n => (d.client.loop n).stand = .over
  | .over _ => false

namespace Attended

/-- A call ends the client's session, and with it itself. -/
def finish (a : Attended) : Attended :=
  match a.daemon.client.finishStop with
  | (.ok (), client) =>
    { a with
      daemon := { a.daemon with client }.report .info "Power Supply Metrics stopped" }
  | (.error _, client) => { a with daemon := { a.daemon with client } }

/-- A call stops the client, and waits for its loop unless it is over. -/
def stopClient (a : Attended) : Attended :=
  match a.daemon.client.beginStop with
  | (true, client) =>
    { daemon := { a.daemon with client }, waits := a.waits ++ client.current.toList.map .loop }
  | (false, client) => { a with daemon := { a.daemon with client } }.finish

/-- A call begins. If there is a collector it is asked to end; a call that finds it ended goes on at
its next moment. -/
def stop (a : Attended) : Attended :=
  let daemon := a.daemon.report .info "Stopping Power Supply Metrics"
  match a.daemon.duty.work with
  | .absent => { a with daemon }.stopClient
  | .over => { daemon, waits := a.waits ++ [.collector] }
  | _ => { daemon := daemon.cancelCollector, waits := a.waits ++ [.collector] }

/-- A call goes on if what it waits for has come about. -/
def resume (a : Attended) (i : Nat) : Attended :=
  match a.waits[i]? with
  | some .collector =>
    if a.daemon.duty.work = .over then { a with waits := a.waits.eraseIdx i }.stopClient else a
  | some (.loop n) =>
    if (a.daemon.client.loop n).stand = .over then { a with waits := a.waits.eraseIdx i }.finish
    else a
  | none => a

/-- The turn that comes next is taken. Those of the daemon itself say nothing here, since it goes on
at any moment at which it can. -/
def turn (a : Attended) : Attended :=
  match a.daemon.client.scene.next? with
  | none => a
  | some (.goOn .caller, scene) => { a with daemon := a.daemon.onScene fun _ => scene }
  | some (turn, scene) => { a with daemon := (a.daemon.onScene fun _ => scene).takeTurn turn }

def act (a : Attended) : Occurrence → Attended
  | .turn => a.turn
  | .proceed => if a.daemon.ready then { a with daemon := a.daemon.callerTurn } else a
  | .stop => a.stop
  | .resume i => a.resume i

/-- A run: occurrences in order. -/
def run (a : Attended) (occurrences : List Occurrence) : Attended := occurrences.foldl act a

theorem run_append (a : Attended) (earlier later : List Occurrence) :
    a.run (earlier ++ later) = (a.run earlier).run later := by
  rw [run, List.foldl_append]
  rfl

/-- Whether no call from outside is under way where the daemon begins to serve. -/
def Allows (a : Attended) : Occurrence → Prop
  | .proceed => a.daemon.callerTurn.stage = .serving → a.waits = []
  | _ => True

/-- A run in which the daemon begins to serve only while no call from outside is under way. -/
def Careful (a : Attended) : List Occurrence → Prop
  | [] => True
  | occurrence :: occurrences => a.Allows occurrence ∧ (a.act occurrence).Careful occurrences

instance decidableAllows (a : Attended) :
    (occurrence : Occurrence) → Decidable (a.Allows occurrence)
  | .proceed => inferInstanceAs (Decidable (a.daemon.callerTurn.stage = .serving → a.waits = []))
  | .turn | .stop | .resume _ => inferInstanceAs (Decidable True)

instance decidableCareful :
    (a : Attended) → (occurrences : List Occurrence) → Decidable (a.Careful occurrences)
  | _, [] => inferInstanceAs (Decidable True)
  | a, occurrence :: occurrences =>
    have := decidableCareful (a.act occurrence) occurrences
    inferInstanceAs (Decidable (a.Allows occurrence ∧ (a.act occurrence).Careful occurrences))

/-- A stop ends: a call from outside does not have to wait at all or waits no longer, or the daemon
has ended by itself. -/
def EndsStop (a : Attended) (occurrence : Occurrence) : Prop :=
  (occurrence = .stop ∧ (a.act occurrence).waits = a.waits ∨
    (∃ i, occurrence = .resume i) ∧ (a.act occurrence).waits.length < a.waits.length) ∨
  occurrence = .proceed ∧ ¬ a.daemon.Concluded ∧ (a.act occurrence).daemon.Concluded

end Attended

namespace State

variable {d d' : State}

/-- What nobody does but the daemon itself and calls from outside is left alone: the client is
neither started nor stopped, a collector that does nothing does nothing, and the daemon's stage
changes only by its end. -/
structure Abides (d d' : State) : Prop where
  orderly : d'.client.Orderly
  current : d'.client.current = d.client.current
  running : d'.client.running = d.client.running
  attached : (d.client.connected = true → d.client.attached = true) →
    d'.client.connected = true → d'.client.attached = true
  idle : d.duty.Idle → d'.duty.work = d.duty.work
  stage : d'.stage = d.stage ∨ ∃ e, d'.stage = .over e

theorem Stays.abides (h : Stays d d') : Abides d d' where
  orderly := h.steady.orderly
  current := h.steady.current
  running := h.steady.running
  attached := h.steady.attached
  idle := h.idle
  stage := .inl h.stage

theorem Abides.trans {d'' : State} (h : Abides d d') (h' : Abides d' d'') : Abides d d'' where
  orderly := h'.orderly
  current := h'.current.trans h.current
  running := h'.running.trans h.running
  attached hattached := h'.attached (h.attached hattached)
  idle hidle := by
    have hwork := h.idle hidle
    have hthen : d'.duty.Idle := by rwa [Duty.Idle, hwork]
    exact (h'.idle hthen).trans hwork
  stage := by
    rcases h'.stage with hsame | hover
    · rw [hsame]
      exact h.stage
    · exact .inr hover

theorem Abides.remains (h : Abides d d') (hidle : d.duty.Idle) : d'.duty.Idle := by
  rwa [Duty.Idle, h.idle hidle]

/-- A stage that is not the end has been the stage before. -/
theorem Abides.stage_of (h : Abides d d') {stage : Stage} (hstage : d'.stage = stage)
    (hend : ∀ e, stage ≠ .over e) : d.stage = stage := by
  rcases h.stage with hsame | ⟨e, hover⟩
  · exact hsame.symm.trans hstage
  · exact absurd (hstage.symm.trans hover) (hend e)

/-- Only turns are given out or taken back. -/
theorem abides_of_scene (h : d.client.Orderly) (f : Scene → Scene) : Abides d (d.onScene f) where
  orderly := h.congr rfl rfl rfl
  current := rfl
  running := rfl
  attached := id
  idle _ := rfl
  stage := .inl rfl

theorem endWork_abides (h : d.client.Orderly) (hbusy : ¬ d.duty.Idle) : Abides d d.endWork where
  orderly := h.congr rfl rfl rfl
  current := rfl
  running := rfl
  attached := id
  idle hidle := absurd hidle hbusy
  stage := .inl rfl

theorem collectorTurn_abides (h : d.client.Orderly) : Abides d d.collectorTurn := by
  have hflags : Stays d { d with duty := { d.duty with called := false, cancelled := false } } :=
    ⟨.refl h, rfl, rfl, rfl, fun _ => rfl, id, fun _ => rfl⟩
  unfold collectorTurn
  dsimp only
  split
  next hwork =>
    have hbusy : ¬ d.duty.Idle := by simp [Duty.Idle, hwork]
    split
    next => exact hflags.abides.trans (endWork_abides h (hflags.busy hbusy))
    next =>
      have htold := hflags.trans (report_stays hflags.steady.orderly .info
        (let interval := d.collector.settings.updateInterval.text .plain
        s!"Starting collector: {d.collector.settings.name} (interval: {interval}s)"))
      exact (htold.trans (cycle_rest_stays htold.steady.orderly (htold.busy hbusy))).abides
  next hwork =>
    have hbusy : ¬ d.duty.Idle := by simp [Duty.Idle, hwork]
    split
    next =>
      have hcalledOff := hflags.trans (callOff_stays hflags.steady.orderly d.duty.timer)
      exact hcalledOff.abides.trans
        (endWork_abides hcalledOff.steady.orderly (hcalledOff.busy hbusy))
    next =>
      exact (hflags.trans (cycle_rest_stays hflags.steady.orderly (hflags.busy hbusy))).abides
  next => exact hflags.abides
  next => exact hflags.abides

theorem abandon_abides (h : d.client.Orderly) (e : Ending) : Abides d (d.abandon e) := by
  unfold abandon
  split
  next =>
    split
    next n _ =>
      have hadvances : Advances True d.client (d.client.cancelLoop n) := cancelLoop_advances h n
      have hstays : Stays d { d with client := d.client.cancelLoop n } :=
        .of_client (hadvances.steady (d.client.cancelLoop_quiet n).1) rfl rfl rfl rfl
      exact hstays.abides
    next => exact (Stays.of_client (.refl h) rfl rfl rfl rfl).abides
  next => exact ⟨h, rfl, rfl, id, fun _ => rfl, .inr ⟨e, rfl⟩⟩

theorem signal_abides (h : d.client.Orderly) (s : Signal) : Abides d (d.signal s) := by
  have hnoted (handled : Bool) := noteSignal_stays h s handled
  unfold signal
  split
  next =>
    have htold := (hnoted true).trans
      (report_stays (hnoted true).steady.orderly .info "Received shutdown signal")
    dsimp only
    split
    next => exact htold.abides
    next =>
      refine htold.abides.trans ?_
      have hgiven := abides_of_scene htold.steady.orderly (·.give (.goOn .caller))
      exact ⟨hgiven.orderly, rfl, rfl, id, fun _ => rfl, .inl rfl⟩
  next =>
    split
    next => exact (hnoted true).abides.trans (abandon_abides (hnoted true).steady.orderly _)
    next => exact (hnoted false).abides

theorem meet_abides (h : d.client.Orderly) (step : Step) : Abides d (d.meet step) := by
  cases step with
  | files changes =>
      have hwritten := writeJournal_stays h
      exact (hwritten.trans (changeFiles_stays hwritten.steady.orderly changes)).abides
  | signal s => exact signal_abides h s

theorem cancelCollector_abides (h : d.client.Orderly) : Abides d d.cancelCollector := by
  unfold cancelCollector
  dsimp only
  split
  · exact ⟨h, rfl, rfl, id, fun _ => rfl, .inl rfl⟩
  · exact ⟨h.congr rfl rfl rfl, rfl, rfl, id, fun _ => rfl, .inl rfl⟩

/-- No turn but the daemon's own starts or stops the client or begins to serve. -/
theorem takeTurn_abides (h : d.client.Orderly) {turn : Turn} (hturn : turn ≠ .goOn .caller) :
    Abides d (d.takeTurn turn) := by
  unfold State.takeTurn
  split
  next => contradiction
  next => exact collectorTurn_abides h
  next => exact (releaseCollector_stays h).abides
  next =>
    split
    next step _ => exact meet_abides h step
    next => exact (Stays.of_client (.refl h) rfl rfl rfl rfl).abides
  next =>
    have hnoted := abides_of_scene h (·.note .limitReached)
    exact hnoted.trans (abandon_abides hnoted.orderly .cancelled)
  next hcaller _ _ _ _ =>
    by_cases hcallers : turn.isCallers = true
    · obtain ⟨wait, rfl⟩ : ∃ wait, turn = .release .caller wait := by
        unfold Turn.isCallers at hcallers
        split at hcallers
        · contradiction
        · exact ⟨_, rfl⟩
        · contradiction
      exact abides_of_scene h (·.give (.goOn .caller))
    · have hstays : Stays d { d with client := d.client.takeTurn turn } :=
        .of_client (takeTurn_steady h (Bool.not_eq_true _ ▸ hcallers)) rfl rfl rfl rfl
      exact hstays.abides

/-- What every stop leaves behind: the client is stopped, and the collector does nothing. -/
structure Halted (d : State) : Prop where
  orderly : d.client.Orderly
  stopped : d.client.Stopped
  idle : d.duty.Idle

theorem Halted.attached (h : d.Halted) :
    d.client.connected = true → d.client.attached = true := by
  rw [h.stopped.connected]
  exact fun hconnected => by contradiction

/-- Once every loop is over, the end of the client's session halts the daemon. -/
theorem halted_of_finishStop (h : d.client.Orderly) (hrunning : d.client.running = false)
    (hover : ∀ i, (d.client.loop i).stand = .over)
    (hattached : d.client.connected = true → d.client.attached = true) (hidle : d.duty.Idle)
    {scene : Scene} (hclient : d'.client = { d.client.finishStop.2 with scene })
    (hduty : d'.duty = d.duty) : d'.Halted where
  orderly := by
    rw [hclient]
    exact (finishStop_orderly h hover).congr rfl rfl rfl
  stopped := by
    rw [hclient]
    exact (finishStop_stopped hrunning hover hattached).congr rfl rfl rfl rfl
  idle := by rwa [hduty]

theorem finish_client (d : State) :
    ∃ scene, d.finish.client = { d.client.finishStop.2 with scene } ∧
      d.finish.duty = d.duty ∧ ∃ e, d.finish.stage = .over e := by
  unfold State.finish
  split
  next client hended =>
    rw [hended]
    dsimp only
    split
    · exact ⟨_, rfl, rfl, _, rfl⟩
    · exact ⟨client.scene, rfl, rfl, _, rfl⟩
  next e client hended =>
    rw [hended]
    exact ⟨client.scene, rfl, rfl, _, rfl⟩

end State

namespace Attended

open State

variable {a : Attended}

/-- Loops are in order. While a call waits for the end of a loop, the client is not to run and has
no other loop, and the collector does nothing. -/
structure Settled (a : Attended) : Prop where
  orderly : a.daemon.client.Orderly
  attached : a.daemon.client.connected = true → a.daemon.client.attached = true
  waits : ∀ n, .loop n ∈ a.waits → a.daemon.client.running = false ∧ a.daemon.duty.Idle ∧
    (a.daemon.client.current = some n ∨ a.daemon.client.current = none)

/-- What the stages rely on: the client has no loop before it is started, and there is no collector
before the daemon serves or while it stops the client. -/
structure Sound (a : Attended) : Prop extends Settled a where
  beginning : a.daemon.stage = .beginning →
    a.daemon.client.current = none ∧ a.daemon.duty.work = .absent ∧ a.waits = []
  connecting : ∀ deadline, a.daemon.stage = .connecting deadline → a.daemon.duty.work = .absent
  stopping : a.daemon.stage = .stopping →
    a.daemon.client.running = false ∧ a.daemon.duty.Idle

theorem Settled.abide (h : a.Settled) {d : State} (habides : Abides a.daemon d) :
    Settled { a with daemon := d } where
  orderly := habides.orderly
  attached := habides.attached h.attached
  waits n hn := by
    obtain ⟨hrunning, hidle, hcurrent⟩ := h.waits n hn
    exact ⟨habides.running.trans hrunning, habides.remains hidle, by rwa [habides.current]⟩

theorem Sound.abide (h : a.Sound) {d : State} (habides : Abides a.daemon d) :
    Sound { a with daemon := d } where
  toSettled := h.toSettled.abide habides
  beginning hstage := by
    obtain ⟨hcurrent, hwork, hwaits⟩ := h.beginning (habides.stage_of hstage (by simp))
    exact ⟨habides.current.trans hcurrent, (habides.idle (.inl hwork)).trans hwork, hwaits⟩
  connecting deadline hstage := by
    have hwork := h.connecting deadline (habides.stage_of hstage (by simp))
    exact (habides.idle (.inl hwork)).trans hwork
  stopping hstage := by
    obtain ⟨hrunning, hidle⟩ := h.stopping (habides.stage_of hstage (by simp))
    exact ⟨habides.running.trans hrunning, habides.remains hidle⟩

/-- A call that goes on waits no longer for what it has waited for. -/
theorem Sound.erase (h : a.Sound) (i : Nat) : Sound { a with waits := a.waits.eraseIdx i } where
  orderly := h.orderly
  attached := h.attached
  waits n hn := h.waits n (List.mem_of_mem_eraseIdx hn)
  beginning hstage := by
    obtain ⟨hcurrent, hwork, hwaits⟩ := h.beginning hstage
    exact ⟨hcurrent, hwork, by rw [hwaits]; rfl⟩
  connecting := h.connecting
  stopping := h.stopping

/-- One more call waits for something. -/
theorem Sound.await (h : a.Sound) (wait : Wait) (hstage : a.daemon.stage ≠ .beginning)
    (hwait : ∀ n, wait = .loop n → a.daemon.client.running = false ∧ a.daemon.duty.Idle ∧
      a.daemon.client.current = some n) :
    Sound { a with waits := a.waits ++ [wait] } where
  orderly := h.orderly
  attached := h.attached
  waits n hn := by
    rcases List.mem_append.mp hn with hn | hn
    · exact h.waits n hn
    · obtain ⟨hrunning, hidle, hcurrent⟩ := hwait n (List.mem_singleton.mp hn).symm
      exact ⟨hrunning, hidle, .inl hcurrent⟩
  beginning hbeginning := absurd hbeginning hstage
  connecting := h.connecting
  stopping := h.stopping

/-- While the collector does nothing, the client can be told to end, and lose its loop once that is
over. -/
theorem Settled.quit (h : a.Settled) {d : State} (horderly : d.client.Orderly)
    (hrunning : d.client.running = false)
    (hattached : d.client.connected = true → d.client.attached = true)
    (hcurrent : d.client.current = a.daemon.client.current ∨ d.client.current = none)
    (hidle : d.duty.Idle) : Settled { a with daemon := d } where
  orderly := horderly
  attached := hattached
  waits n hn := by
    refine ⟨hrunning, hidle, ?_⟩
    rcases hcurrent with hsame | hnone
    · exact hsame.symm ▸ (h.waits n hn).2.2
    · exact .inr hnone

theorem Sound.quit (h : a.Sound) (hidle : a.daemon.duty.Idle) {c : Client} (horderly : c.Orderly)
    (hrunning : c.running = false) (hattached : c.connected = true → c.attached = true)
    (hcurrent : c.current = a.daemon.client.current ∨ c.current = none) :
    Sound { a with daemon := { a.daemon with client := c } } where
  toSettled := h.toSettled.quit horderly hrunning hattached hcurrent hidle
  beginning hstage := by
    obtain ⟨hnone, hwork, hwaits⟩ := h.beginning hstage
    exact ⟨hcurrent.elim (·.trans hnone) id, hwork, hwaits⟩
  connecting := h.connecting
  stopping _ := ⟨hrunning, hidle⟩

/-- A call that ends the client's session has halted the daemon. -/
theorem finish_halted (h : a.Sound) (hrunning : a.daemon.client.running = false)
    (hover : ∀ i, (a.daemon.client.loop i).stand = .over) (hidle : a.daemon.duty.Idle) :
    a.finish.Sound ∧ a.finish.daemon.Halted := by
  obtain ⟨scene, hfinish⟩ : ∃ scene, a.finish = { a with
      daemon := { a.daemon with client := { a.daemon.client.finishStop.2 with scene } } } := by
    unfold Attended.finish
    split
    all_goals
      next client hended =>
        rw [hended]
        exact ⟨_, rfl⟩
  have hhalted : a.finish.daemon.Halted :=
    halted_of_finishStop h.orderly hrunning hover h.attached hidle
      (by rw [hfinish]) (by rw [hfinish])
  rw [hfinish] at hhalted ⊢
  exact ⟨h.quit hidle hhalted.orderly hhalted.stopped.running hhalted.attached
    (.inr hhalted.stopped.current), hhalted⟩

/-- A call that stops the client waits for its loop, or halts the daemon at once. -/
theorem stopClient_halted (h : a.Sound) (hidle : a.daemon.duty.Idle) :
    a.stopClient.Sound ∧
      (a.stopClient.waits.length ≤ a.waits.length → a.stopClient.daemon.Halted) := by
  obtain ⟨c, hadvances, hrunning, hsession, ⟨hbegin, hover⟩ | ⟨n, hcurrent, hstand, hbegin⟩⟩ :=
    h.orderly.beginStop_quits h.attached
  all_goals
    unfold Attended.stopClient
    rw [hbegin]
    dsimp only
  · have hquit := h.quit hidle hadvances.orderly hrunning hsession (.inl hadvances.current)
    obtain ⟨hsound, hhalted⟩ := finish_halted hquit hrunning hover hidle
    exact ⟨hsound, fun _ => hhalted⟩
  · have hquit := h.quit hidle (hadvances.orderly.watching hstand) hrunning hsession
      (.inl hadvances.current)
    have hwaits : (c.setLoop n { c.loop n with watched := true }).current.toList.map Wait.loop =
        [.loop n] := congrArg (fun m : Option Nat => m.toList.map Wait.loop) hcurrent
    rw [hwaits]
    refine ⟨hquit.await (.loop n) (fun hstage => ?_) ?_, fun hlength => ?_⟩
    · have hnone := hadvances.current.trans (h.beginning hstage).1
      rw [hcurrent] at hnone
      contradiction
    · rintro m ⟨rfl⟩
      exact ⟨hrunning, hidle, hcurrent⟩
    · rw [List.length_append] at hlength
      exact absurd hlength (Nat.not_succ_le_self _)

theorem stop_halted (h : a.Sound) :
    a.stop.Sound ∧ (a.stop.waits = a.waits → a.stop.daemon.Halted) := by
  have htold := report_stays h.orderly .info "Stopping Power Supply Metrics"
  have hready := h.abide htold.abides
  unfold Attended.stop
  dsimp only
  split
  next hwork =>
    obtain ⟨hsound, hhalted⟩ := stopClient_halted hready (.inl hwork)
    exact ⟨hsound, fun hwaits => hhalted (Nat.le_of_eq (congrArg List.length hwaits))⟩
  next hwork =>
    refine ⟨hready.await .collector (fun hstage => ?_) (fun n hn => by contradiction),
      fun hwaits => by simp at hwaits⟩
    rw [(h.beginning hstage).2.1] at hwork
    contradiction
  next habsent hover =>
    have hcancelled := cancelCollector_abides htold.steady.orderly
    have hasked := hready.abide hcancelled
    refine ⟨hasked.await .collector (fun hstage => ?_) (fun n hn => by contradiction),
      fun hwaits => by simp at hwaits⟩
    exact habsent (h.beginning ((htold.abides.trans hcancelled).stage_of hstage (by simp))).2.1

theorem resume_halted (h : a.Sound) (i : Nat) :
    (a.resume i).Sound ∧
      ((a.resume i).waits.length < a.waits.length → (a.resume i).daemon.Halted) := by
  have hstays : a.Sound ∧ (a.waits.length < a.waits.length → a.daemon.Halted) :=
    ⟨h, fun hlength => absurd hlength (Nat.lt_irrefl _)⟩
  unfold Attended.resume
  split
  next hi =>
    split
    next hwork =>
      obtain ⟨hsound, hhalted⟩ := stopClient_halted (h.erase i) (.inr hwork)
      -- the call has left the list, and stands in it again only if it waits for the loop
      refine ⟨hsound, fun hlength => hhalted (Nat.le_of_lt_succ ?_)⟩
      have herased := List.length_eraseIdx_add_one (List.getElem?_eq_some_iff.mp hi).1
      exact Nat.lt_of_lt_of_eq hlength herased.symm
    next => exact hstays
  next n hi =>
    split
    next hstand =>
      obtain ⟨hrunning, hidle, hcurrent⟩ := h.waits n (List.mem_of_getElem? hi)
      have hover := h.orderly.over_of_current hcurrent hstand
      obtain ⟨hsound, hhalted⟩ := finish_halted (h.erase i) hrunning hover hidle
      exact ⟨hsound, fun _ => hhalted⟩
    next => exact hstays
  next => exact hstays

theorem turn_sound (h : a.Sound) : a.turn.Sound := by
  unfold Attended.turn
  split
  next => exact h
  next => exact h.abide (abides_of_scene h.orderly _)
  next turn scene hcaller _ =>
    have hnow := abides_of_scene h.orderly fun _ => scene
    refine h.abide (hnow.trans (takeTurn_abides hnow.orderly fun hturn => ?_))
    exact hcaller hturn

/-- A daemon that has begun and has not ended relies on what its stage needs. -/
theorem Settled.goesOn (h : a.Settled) (hbegun : a.daemon.stage ≠ .beginning)
    (hgoing : ∀ e, a.daemon.stage ≠ .over e)
    (hconnecting : ∀ deadline, a.daemon.stage = .connecting deadline →
      a.daemon.duty.work = .absent)
    (hstopping : a.daemon.stage = .stopping →
      a.daemon.client.running = false ∧ a.daemon.duty.Idle) :
    a.Sound ∧ (a.daemon.Concluded → a.daemon.Halted) := by
  refine ⟨⟨h, fun hbeginning => absurd hbeginning hbegun, hconnecting, hstopping⟩, ?_⟩
  rintro (hover | ⟨e, hover⟩)
  · exact absurd hover (hgoing _)
  · exact absurd hover (hgoing _)

/-- The daemon that ends its client's session halts. -/
theorem daemonFinish_halted (h : a.Settled) (hrunning : a.daemon.client.running = false)
    (hover : ∀ i, (a.daemon.client.loop i).stand = .over) (hidle : a.daemon.duty.Idle) :
    Sound { a with daemon := a.daemon.finish } ∧ a.daemon.finish.Halted := by
  obtain ⟨scene, hclient, hduty, e, hstage⟩ := a.daemon.finish_client
  have hhalted : a.daemon.finish.Halted :=
    halted_of_finishStop h.orderly hrunning hover h.attached hidle hclient hduty
  refine ⟨⟨h.quit hhalted.orderly hhalted.stopped.running hhalted.attached
    (.inr hhalted.stopped.current) hhalted.idle, ?_, ?_, ?_⟩, hhalted⟩
  all_goals simp [hstage]

/-- The daemon that stops its client waits for its loop, or halts. -/
theorem daemonStopClient_halted (h : a.Settled) (hidle : a.daemon.duty.Idle) :
    Sound { a with daemon := a.daemon.stopClient } ∧
      (a.daemon.stopClient.Concluded → a.daemon.stopClient.Halted) := by
  obtain ⟨c, hadvances, hrunning, hsession, ⟨hbegin, hover⟩ | ⟨n, hcurrent, hstand, hbegin⟩⟩ :=
    h.orderly.beginStop_quits h.attached
  all_goals
    unfold State.stopClient
    rw [hbegin]
    dsimp only
  · have hquit : Settled { a with daemon := { a.daemon with client := c } } :=
      h.quit hadvances.orderly hrunning hsession (.inl hadvances.current) hidle
    obtain ⟨hsound, hhalted⟩ := daemonFinish_halted hquit hrunning hover hidle
    exact ⟨hsound, fun _ => hhalted⟩
  · have hquit : Settled { a with daemon := { a.daemon with
        client := c.setLoop n { c.loop n with watched := true }, stage := .stopping } } :=
      h.quit (hadvances.orderly.watching hstand) hrunning hsession (.inl hadvances.current) hidle
    exact hquit.goesOn (by simp) (by simp) (by simp) fun _ => ⟨hrunning, hidle⟩

/-- The daemon that looks at the connection serves only where no call from outside is under way. -/
theorem look_halted (h : a.Settled) (hwork : a.daemon.duty.work = .absent) (deadline : Instant)
    (hserve : (a.daemon.look deadline).stage = .serving → a.waits = []) :
    Sound { a with daemon := a.daemon.look deadline } ∧
      ((a.daemon.look deadline).Concluded → (a.daemon.look deadline).Halted) := by
  unfold look at hserve ⊢
  split at hserve
  next hconnected =>
    rw [if_pos hconnected]
    have hwaits := hserve rfl
    -- the one point at which the collector begins, so nobody may rely on its end
    have hserves : Settled { a with daemon := a.daemon.serve } :=
      ⟨h.orderly.congr rfl rfl rfl, h.attached, fun n hn => by
        rw [show a.waits = [] from hwaits] at hn
        contradiction⟩
    have hstage : a.daemon.serve.stage = .serving := rfl
    exact hserves.goesOn (by simp [hstage]) (by simp [hstage]) (by simp [hstage])
      (by simp [hstage])
  next hconnected =>
    rw [if_neg hconnected]
    split
    next =>
      have htold := report_stays h.orderly .error "Failed to connect to MQTT broker"
      exact daemonStopClient_halted (h.abide htold.abides) (htold.abides.remains (.inl hwork))
    next =>
      have hlooks : Settled { a with
          daemon := { a.daemon.onScene fun s =>
            (s.giveAfter lookInterval (.release .caller 0)).2 with
              stage := .connecting deadline } } :=
        ⟨h.orderly.congr rfl rfl rfl, h.attached, h.waits⟩
      exact hlooks.goesOn (by simp) (by simp) (fun _ _ => hwork) (by simp)

/-- However the daemon goes on, it halts where it ends by itself. -/
theorem callerTurn_halted (h : a.Sound) (hready : a.daemon.ready = true)
    (hserve : a.daemon.callerTurn.stage = .serving → a.waits = []) :
    Sound { a with daemon := a.daemon.callerTurn } ∧
      (a.daemon.callerTurn.Concluded → a.daemon.callerTurn.Halted) := by
  match hstage : a.daemon.stage with
  | .beginning =>
      simp only [callerTurn, hstage] at hserve ⊢
      obtain ⟨hcurrent, hwork, hwaits⟩ := h.beginning hstage
      have htold := report_stays h.orderly .info "Starting Power Supply Metrics"
      have hready := h.toSettled.abide htold.abides
      have hstarted : Settled { a with
          daemon := { a.daemon.report .info "Starting Power Supply Metrics" with
            client := (a.daemon.report .info "Starting Power Supply Metrics").client.start } } :=
        ⟨start_orderly hready.orderly hcurrent, hready.attached, fun n hn => by
          rw [show a.waits = [] from hwaits] at hn
          contradiction⟩
      exact look_halted hstarted hwork _ fun _ => hwaits
  | .connecting deadline =>
      simp only [callerTurn, hstage] at hserve ⊢
      exact look_halted h.toSettled (h.connecting deadline hstage) deadline hserve
  | .serving =>
      simp only [callerTurn, hstage]
      have htold := report_stays h.orderly .info "Stopping Power Supply Metrics"
      have hasked := h.toSettled.abide
        (htold.abides.trans (cancelCollector_abides htold.steady.orderly))
      have hgathers : Settled { a with
          daemon := { (a.daemon.report .info "Stopping Power Supply Metrics").cancelCollector with
            stage := .gathering } } := ⟨hasked.orderly, hasked.attached, hasked.waits⟩
      exact hgathers.goesOn (by simp) (by simp) (by simp) (by simp)
  | .gathering =>
      simp only [callerTurn, hstage]
      refine daemonStopClient_halted h.toSettled ?_
      simpa [State.ready, hstage, Duty.Idle] using hready
  | .stopping =>
      simp only [callerTurn, hstage]
      obtain ⟨hrunning, hidle⟩ := h.stopping hstage
      have hover (i : Nat) : (a.daemon.client.loop i).stand = .over := by
        rcases hcurrent : a.daemon.client.current with _ | n
        · exact h.orderly.others i (by simp [hcurrent])
        · refine h.orderly.over_of_current (.inl hcurrent) ?_ i
          simpa [State.ready, hstage, hcurrent] using hready
      obtain ⟨hsound, hhalted⟩ := daemonFinish_halted h.toSettled hrunning hover hidle
      exact ⟨hsound, fun _ => hhalted⟩
  | .over e =>
      simp only [State.ready, hstage] at hready
      contradiction

theorem act_sound (h : a.Sound) {occurrence : Occurrence} (hallows : a.Allows occurrence) :
    (a.act occurrence).Sound := by
  cases occurrence with
  | turn => exact turn_sound h
  | proceed =>
      dsimp only [act]
      split
      next hready => exact (callerTurn_halted h hready hallows).1
      next => exact h
  | stop => exact (stop_halted h).1
  | resume i => exact (resume_halted h i).1

theorem run_sound (h : a.Sound) {occurrences : List Occurrence} (hcareful : a.Careful occurrences) :
    (a.run occurrences).Sound := by
  induction occurrences generalizing a with
  | nil => exact h
  | cons occurrence occurrences ih => exact ih (act_sound h hcareful.1) hcareful.2

/-- However a stop ends, the daemon is halted. -/
theorem EndsStop.halted (h : a.Sound) {occurrence : Occurrence} (hends : a.EndsStop occurrence) :
    (a.act occurrence).daemon.Halted := by
  obtain (⟨rfl, hwaits⟩ | ⟨⟨i, rfl⟩, hlength⟩) | ⟨rfl, hgoing, hover⟩ := hends
  · exact (stop_halted h).2 hwaits
  · exact (resume_halted h i).2 hlength
  · dsimp only [act] at hover ⊢
    split at hover
    next hready =>
      rw [if_pos hready]
      -- a daemon that ends does not begin to serve, so nothing is asked of those who wait
      have hserve (hstage : a.daemon.callerTurn.stage = .serving) : a.waits = [] := by
        rcases hover with hover | ⟨e, hover⟩
        all_goals
          rw [hstage] at hover
          contradiction
      exact (callerTurn_halted h hready hserve).2 hover
    next => exact absurd hover hgoing

end Attended

namespace State

/-- A daemon that is to run, and that calls from outside may stop. -/
def attend (d : State) (steps : List (Instant × Step)) (limit : Instant) : Attended :=
  { daemon := d.prepare steps limit }

theorem Sound.attended {d : State} (h : d.Sound) : Attended.Sound { daemon := d } where
  orderly := h.orderly
  attached := h.attached
  waits n hn := by contradiction
  beginning hstage := by
    have hphase := h.phase
    unfold InPhase at hphase
    rw [hstage] at hphase
    exact ⟨hphase.1, hphase.2.2, rfl⟩
  connecting deadline hstage := by
    have hphase := h.phase
    unfold InPhase at hphase
    rw [hstage] at hphase
    exact hphase.2
  stopping hstage := by
    have hphase := h.phase
    unfold InPhase at hphase
    rw [hstage] at hphase
    exact ⟨hphase.2.2.1, hphase.2.1⟩

end State

/-- One message is delivered, two more are offered, two callers stop the client, and one of the two
stops has ended. -/
def overlappingUses : List Use :=
  [.start, .publish "p/a" (.text "1") none] ++ List.replicate 8 .goOn ++
    [.publish "p/b" (.text "2") none, .publish "p/c" (.text "3") none, .stop, .stop, .goOn, .goOn,
      .resume 1]

/-- A daemon that finds no files. -/
def lonelyDaemon : Except SettingError State :=
  State.make {} "00000000" {} ⟨"", ""⟩ { files := .empty [] } true {}

/-- Two calls from outside stop a daemon that serves. Both have waited for the collector, and wait
for the loop of the client. -/
def overlappingCalls : List Occurrence :=
  [.proceed, .turn, .turn, .proceed, .turn, .turn, .stop, .stop] ++ List.replicate 4 .turn ++
    [.resume 0, .resume 0] ++ List.replicate 4 .turn

/-- A call from outside waits for the loop of the client while the daemon begins to serve. -/
def hastyCalls : List Occurrence :=
  [.proceed, .turn, .turn, .stop, .proceed] ++ List.replicate 6 .turn

/-- The daemon is told to end after half a second. -/
def toldSteps : List (Instant × Step) := [(.ofDecimal false 5 (-1), .signal .terminate)]

/-- The daemon is interrupted before it looks at the connection again. -/
def interruptedSteps : List (Instant × Step) := [(.ofDecimal false 5 (-2), .signal .interrupt)]

/-- What can be computed of the daemon holds of it. -/
theorem lonelyDaemon_computed {α : Type} {f : State → α} {x : α}
    (hcomputed : lonelyDaemon.toOption.map f = some x) : ∃ d, lonelyDaemon = .ok d ∧ f d = x := by
  rcases hmake : lonelyDaemon with e | d
  · rw [hmake] at hcomputed
    contradiction
  · rw [hmake] at hcomputed
    exact ⟨d, rfl, Option.some.inj hcomputed⟩

example :
    ((Shared.fresh {} "power_supply_metrics/status" (.text "cid") .zero {}).run
      overlappingUses).client.queue.map (·.payload) = ["2", "3"] := by decide +kernel

end SupplyGauge.Daemon
