import SupplyGauge.Proofs.Daemon.Phases
import SupplyGauge.Proofs.Mqtt.Passage
import SupplyGauge.Proofs.Mqtt.Progress

/-! # How a run of the daemon ends

A run that is not abandoned from outside ends with the end of the client's session:
after a signal, or because no connection came up in time. By then the client is
stopped and the collector does nothing any more. Every turn of a run is shown to keep
the daemon in its phases or to end the run in this way.
-/

namespace SupplyGauge.Daemon

open Mqtt Mqtt.Client

namespace State

/-- A run that has ended by itself, with success or with a failure of the client. -/
def Concluded (d : State) : Prop := d.stage = .over .returned ∨ ∃ e, d.stage = .over (.failed e)

/-- What a turn of the daemon comes to. -/
inductive Outcome (d : State) : Prop
  | goesOn (h : d.Sound)
  | abandoned (h : d.stage = .over .cancelled ∨ d.stage = .over .interrupted)
  | concluded (h : d.Concluded) (hstopped : d.client.Stopped) (hidle : d.duty.Idle)

variable {d : State}

/-- The end of the client's session ends the run. -/
theorem finish_outcome (hrunning : d.client.running = false)
    (hover : ∀ i, (d.client.loop i).stand = .over)
    (hattached : d.client.connected = true → d.client.attached = true) (hidle : d.duty.Idle) :
    d.finish.Outcome := by
  have hstopped := finishStop_stopped hrunning hover hattached
  unfold finish
  split
  next client hended =>
    rw [hended] at hstopped
    dsimp only
    split
    · exact .concluded (.inl rfl) (hstopped.congr rfl rfl rfl rfl) hidle
    · exact .concluded (.inl rfl) hstopped hidle
  next e client hended =>
    rw [hended] at hstopped
    exact .concluded (.inr ⟨e, rfl⟩) hstopped hidle

/-- A daemon at its own turn: it has no other turn to come. -/
structure AtTurn (d : State) : Prop where
  orderly : d.client.Orderly
  attached : d.client.connected = true → d.client.attached = true
  expected : d.client.expected = 0

theorem AtTurn.steady (h : d.AtTurn) {d' : State} (hsteady : Steady d.client d'.client) :
    d'.AtTurn where
  orderly := hsteady.orderly
  attached := hsteady.attached h.attached
  expected := Nat.le_zero.mp (h.expected ▸ hsteady.expected)

/-- A daemon that does not wait for a turn of its own yet, or not any more, goes on. -/
theorem AtTurn.sound (h : d.AtTurn) (hphase : d.InPhase) : d.Sound :=
  ⟨h.orderly, h.attached, h.expected ▸ Nat.zero_le _, hphase⟩

/-- A daemon that gets one turn of its own, and waits for one, goes on. -/
theorem AtTurn.lend_sound (h : d.AtTurn) {d' : State} (after : Option Instant) {turn : Turn}
    (hturn : turn.isCallers = true)
    (hclient : d'.client = { d.client with scene := d.client.scene.lend after turn })
    (hawaited : d'.awaited = 1) (hphase : d'.InPhase) : d'.Sound where
  orderly := by
    rw [hclient]
    exact h.orderly.congr rfl rfl rfl
  attached := by
    rw [hclient]
    exact h.attached
  expected := Nat.le_of_eq (by rw [hclient, hawaited, lend_expected, h.expected, if_pos hturn])
  phase := hphase

/-- The client is stopped only when nobody but its loops has a turn to come for the daemon. -/
theorem stopClient_outcome (h : d.AtTurn) (hsignals : d.handlesSignals = true → d.asked = true)
    (hidle : d.duty.Idle) : d.stopClient.Outcome := by
  obtain ⟨c, hadvances, hrunning, hsession, ⟨hbegin, hover⟩ | ⟨n, hcurrent, hstand, hbegin⟩⟩ :=
    h.orderly.beginStop_quits h.attached
  all_goals
    unfold stopClient
    rw [hbegin]
  · exact finish_outcome hrunning hover hsession hidle
  · have hturns := Nat.le_zero.mp (h.expected ▸ hadvances.expected)
    refine .goesOn ⟨hadvances.orderly.watching hstand, hsession,
      watching_expected (Nat.add_eq_zero_iff.mp hturns).1, hsignals, hidle, hrunning, n, hcurrent,
      fun _ => ?_⟩
    rw [loop_setLoop_self _ (hadvances.orderly.bounded n hcurrent)]

/-- A look at the connection begins to serve, gives up, or is followed by another one. -/
theorem look_outcome (h : d.AtTurn) (hsignals : d.handlesSignals = false)
    (hwork : d.duty.work = .absent) (deadline : Instant) : (d.look deadline).Outcome := by
  unfold look
  split
  next =>
    have hsteady : Steady d.client d.serve.client := .of_scene h.orderly
      (Nat.le_of_eq (d.client.give_callerTurns (.goOn .collector)))
    exact .goesOn ((h.steady hsteady).sound rfl)
  next =>
    split
    · refine stopClient_outcome ⟨h.orderly.congr rfl rfl rfl, h.attached, h.expected⟩ ?_
        (.inl hwork)
      intro hhandles
      rw [show d.handlesSignals = true from hhandles] at hsignals
      contradiction
    · exact .goesOn (h.lend_sound (some lookInterval) rfl rfl rfl ⟨hsignals, hwork⟩)

/-- The client has no loop when the daemon begins, so it is started in good order. -/
theorem begin_outcome (h : d.AtTurn) (hcurrent : d.client.current = none)
    (hsignals : d.handlesSignals = false) (hwork : d.duty.work = .absent) (deadline : Instant) :
    (look { d with client := d.client.start } deadline).Outcome := by
  have hstarted : AtTurn { d with client := d.client.start } :=
    ⟨start_orderly h.orderly hcurrent, h.attached, (start_expected hcurrent).trans h.expected⟩
  exact look_outcome hstarted hsignals hwork deadline

/-- Once it has been called, the daemon asks its collector to end, and waits for that. -/
theorem gather_sound (h : d.AtTurn) (hasked : d.asked = true) :
    Sound { d.cancelCollector with stage := .gathering } := by
  have hthen : { d.cancelCollector with stage := .gathering }.AtTurn :=
    h.steady (cancelCollector_steady h.orderly)
  exact hthen.sound ((cancelCollector_asked d).trans hasked)

/-- At its own turn the daemon has no other turn to come, whatever it has been waiting for. -/
theorem callerTurn_outcome (horderly : d.client.Orderly)
    (hattached : d.client.connected = true → d.client.attached = true)
    (hexpected : d.client.expected + 1 ≤ d.awaited) (hphase : d.InPhase) :
    d.callerTurn.Outcome := by
  have hturn : d.AtTurn := by
    have hawaited : d.awaited ≤ 1 := d.awaited_le_one
    exact ⟨horderly, hattached,
      Nat.le_zero.mp (Nat.le_of_succ_le_succ (Nat.le_trans hexpected hawaited))⟩
  unfold awaited at hexpected
  unfold InPhase at hphase
  unfold callerTurn
  split
  next hstage =>
    rw [hstage] at hphase
    obtain ⟨hcurrent, hsignals, hwork⟩ := hphase
    have hreported := report_stays horderly .info "Starting Power Supply Metrics"
    exact begin_outcome (hturn.steady hreported.steady) (hreported.steady.current.trans hcurrent)
      (hreported.handlesSignals.trans hsignals) ((hreported.idle (.inl hwork)).trans hwork) _
  next deadline hstage =>
    rw [hstage] at hphase
    obtain ⟨hsignals, hwork⟩ := hphase
    exact look_outcome hturn hsignals hwork deadline
  next hstage =>
    rw [hstage] at hexpected
    -- the turn that has come is the one that a signal has given out
    have hasked : d.asked = true := by
      cases hasked : d.asked with
      | true => rfl
      | false => simp [hasked] at hexpected
    have hreported := report_stays horderly .info "Stopping Power Supply Metrics"
    exact .goesOn (gather_sound (hturn.steady hreported.steady) (hreported.asked.trans hasked))
  next hstage =>
    rw [hstage] at hexpected hphase
    -- the turn that has come is the one that the end of the collector has given out
    have hwork : d.duty.work = .over := by
      by_contra hwork
      simp [hwork] at hexpected
    exact stopClient_outcome hturn (fun _ => hphase) (.inr hwork)
  next hstage =>
    rw [hstage] at hphase
    obtain ⟨hsignals, hidle, hrunning, hwatched⟩ := hphase
    have hover := horderly.over_of_unexpected hwatched hturn.expected
    exact finish_outcome hrunning hover hattached hidle
  next hstage =>
    rw [hstage] at hphase
    exact hphase.elim

/-- The end of a collector that has been asked to end calls the daemon back. -/
theorem endWork_sound (h : d.Sound) (hbusy : ¬ d.duty.Idle) (hstage : d.stage = .gathering) :
    d.endWork.Sound := by
  have hexpected : d.client.expected = 0 := by
    have hawaited := h.expected
    unfold awaited at hawaited
    rw [hstage] at hawaited
    simpa [show d.duty.work ≠ .over from fun hwork => hbusy (.inr hwork)] using hawaited
  have hturn : d.AtTurn := ⟨h.orderly, h.attached, hexpected⟩
  have hphase := h.phase
  have hthen : d.endWork.stage = .gathering := hstage
  refine hturn.lend_sound none rfl rfl ?_ ?_
  · unfold awaited
    rw [hthen]
    rfl
  · unfold InPhase at hphase ⊢
    rw [hstage] at hphase
    rw [hthen]
    exact hphase

/-- Only where the daemon waits for its end is a collector at work asked to end. -/
theorem Sound.gathering (h : d.Sound) (hbusy : ¬ d.duty.Idle)
    (hcancelled : d.duty.cancelled = true) : d.stage = .gathering := by
  have hphase := h.phase
  unfold InPhase at hphase
  split at hphase
  · exact absurd (.inl hphase.2.2) hbusy
  · exact absurd (.inl hphase.2) hbusy
  · rw [hcancelled] at hphase
    contradiction
  · assumption
  · exact absurd hphase.2.1 hbusy
  · exact hphase.elim

theorem collectorTurn_sound (h : d.Sound) : d.collectorTurn.Sound := by
  have hflags : Stays d { d with duty := { d.duty with called := false, cancelled := false } } :=
    ⟨.refl h.orderly, rfl, rfl, rfl, fun _ => rfl, id, fun _ => rfl⟩
  have hready := h.stays hflags
  unfold collectorTurn
  dsimp only
  split
  next hwork =>
    have hbusy : ¬ d.duty.Idle := by simp [Duty.Idle, hwork]
    split
    next hcancelled =>
      exact endWork_sound hready (hflags.busy hbusy) (h.gathering hbusy hcancelled)
    next =>
      have htold := hflags.trans (report_stays hready.orderly .info
        (let interval := d.collector.settings.updateInterval.text .plain
        s!"Starting collector: {d.collector.settings.name} (interval: {interval}s)"))
      exact h.stays (htold.trans (cycle_rest_stays htold.steady.orderly (htold.busy hbusy)))
  next hwork =>
    have hbusy : ¬ d.duty.Idle := by simp [Duty.Idle, hwork]
    split
    next hcancelled =>
      have hcalledOff := hflags.trans (callOff_stays hready.orderly d.duty.timer)
      exact endWork_sound (h.stays hcalledOff) (hcalledOff.busy hbusy)
        (h.gathering hbusy hcancelled)
    next =>
      exact h.stays (hflags.trans (cycle_rest_stays hready.orderly (hflags.busy hbusy)))
  next => exact hready
  next => exact hready

/-- An end from outside is an end of the run, unless the client is being stopped already. -/
theorem abandon_outcome (h : d.Sound) {e : Ending} (he : e = .cancelled ∨ e = .interrupted) :
    (d.abandon e).Outcome := by
  unfold abandon
  split
  next =>
    split
    next n _ =>
      have hadvances : Advances True d.client (d.client.cancelLoop n) :=
        cancelLoop_advances h.orderly n
      have hsteady := hadvances.steady (d.client.cancelLoop_quiet n).1
      exact .goesOn (h.stays (.of_client hsteady rfl rfl rfl rfl))
    next => exact .goesOn h
  next =>
    refine .abandoned ?_
    rcases he with rfl | rfl
    · exact .inl rfl
    · exact .inr rfl

theorem noteSignal_stays (h : d.client.Orderly) (s : Signal) (handled : Bool) :
    Stays d (d.noteSignal s handled) :=
  onScene_stays h _ rfl

/-- Only while the daemon serves, a signal that it handles calls it. -/
theorem Sound.serving (h : d.Sound) (hsignals : d.handlesSignals = true)
    (hasked : d.asked = false) : d.stage = .serving := by
  have hphase := h.phase
  unfold InPhase at hphase
  split at hphase
  · simp [hphase.2.1] at hsignals
  · simp [hphase.1] at hsignals
  · assumption
  · simp [hphase] at hasked
  · simp [hphase.1 hsignals] at hasked
  · exact hphase.elim

/-- The first signal calls the daemon. -/
theorem called_sound (h : d.Sound) (hstage : d.stage = .serving) (hasked : d.asked = false) :
    Sound { d.onScene (·.give (.goOn .caller)) with asked := true } := by
  obtain ⟨horderly, hattached, hexpected, hphase⟩ := h
  unfold awaited at hexpected
  unfold InPhase at hphase
  rw [hstage] at hexpected hphase
  rw [hasked] at hexpected
  have hturn : d.AtTurn := ⟨horderly, hattached, Nat.le_zero.mp hexpected⟩
  have hthen : (d.onScene (·.give (.goOn .caller))).stage = .serving := hstage
  refine hturn.lend_sound none rfl rfl ?_ ?_
  · unfold awaited
    rw [hthen]
    rfl
  · unfold InPhase
    rw [hthen]
    exact hphase

theorem signal_outcome (h : d.Sound) (s : Signal) : (d.signal s).Outcome := by
  unfold signal
  split
  next hsignals =>
    have hnoted := noteSignal_stays h.orderly s true
    have htold := hnoted.trans (report_stays hnoted.steady.orderly .info "Received shutdown signal")
    have hready := h.stays htold
    replace hsignals := htold.handlesSignals.trans hsignals
    dsimp only
    generalize (d.noteSignal s true).report .info "Received shutdown signal" = told at *
    split
    next => exact .goesOn hready
    next hasked =>
      exact .goesOn (called_sound hready (hready.serving hsignals (Bool.not_eq_true _ ▸ hasked))
        (Bool.not_eq_true _ ▸ hasked))
  next =>
    split
    next => exact abandon_outcome (h.stays (noteSignal_stays h.orderly s true)) (.inr rfl)
    next => exact .goesOn (h.stays (noteSignal_stays h.orderly s false))

theorem changeFiles_stays (h : d.client.Orderly) (changes : List (Files.Path × Files.Change)) :
    Stays d (changes.foldl (fun d (path, c) => d.changeFiles path c) d) := by
  induction changes generalizing d with
  | nil => exact .of_client (.refl h) rfl rfl rfl rfl
  | cons change changes ih =>
      have hchange : Stays d (d.changeFiles change.1 change.2) :=
        .of_client (.refl h) rfl rfl rfl rfl
      exact hchange.trans (ih h)

theorem meet_outcome (h : d.Sound) (step : Step) : (d.meet step).Outcome := by
  cases step with
  | files changes =>
      have hwritten := writeJournal_stays h.orderly
      exact .goesOn (h.stays (hwritten.trans (changeFiles_stays hwritten.steady.orderly changes)))
  | signal s => exact signal_outcome h s

/-- A turn that comes next is taken, and nothing else happens. -/
theorem takeTurn_outcome (h : d.Sound) {turn : Turn} {scene : Scene}
    (hnext : d.client.scene.next? = some (turn, scene)) :
    ((d.onScene fun _ => scene).takeTurn turn).Outcome := by
  have hturns := next?_callerTurns hnext
  have hnow : Stays d (d.onScene fun _ => scene) :=
    .of_client (.of_scene h.orderly (Nat.le_trans (Nat.le_add_right _ _) hturns)) rfl rfl rfl rfl
  have hready := h.stays hnow
  unfold State.takeTurn
  split
  next =>
    refine callerTurn_outcome hready.orderly hready.attached ?_ hready.phase
    rw [hnow.awaited]
    exact Nat.le_trans (next?_expected hnext) h.expected
  next => exact .goesOn (collectorTurn_sound hready)
  next => exact .goesOn (hready.stays (releaseCollector_stays hready.orderly))
  next =>
    split
    next step _ => exact meet_outcome hready step
    next => exact .goesOn hready
  next =>
    have hnoted := onScene_stays hready.orderly (·.note .limitReached) rfl
    exact abandon_outcome (hready.stays hnoted) (.inl rfl)
  next hcaller _ _ _ _ =>
    by_cases hturn : turn.isCallers = true
    · -- the end of a wait of the daemon gives out its turn, so as many are to come as before
      obtain ⟨wait, rfl⟩ : ∃ wait, turn = .release .caller wait := by
        unfold Turn.isCallers at hturn
        split at hturn
        · exact absurd rfl hcaller
        · exact ⟨_, rfl⟩
        · contradiction
      refine .goesOn (h.stays (.of_client (.of_scene h.orderly ?_) rfl rfl rfl rfl))
      exact Nat.le_trans (Nat.le_of_eq (give_callerTurns { d.client with scene } (.goOn .caller)))
        hturns
    · have hsteady := takeTurn_steady hready.orderly (Bool.not_eq_true _ ▸ hturn)
      exact .goesOn (hready.stays (.of_client hsteady rfl rfl rfl rfl))

/-- A run keeps the daemon in its phases until it ends. -/
theorem takeTurns_outcome (h : d.Outcome) (turns : Nat) : (d.takeTurns turns).Outcome := by
  induction turns generalizing d with
  | zero => exact h
  | succ turns ih =>
      unfold takeTurns
      split
      next => exact h
      next hgoing =>
        split
        next => exact h
        next turn scene hnext =>
          cases h with
          | goesOn h => exact ih (takeTurn_outcome h hnext)
          | abandoned hover =>
              rcases hover with hover | hover
              · exact absurd hover (hgoing _)
              · exact absurd hover (hgoing _)
          | concluded hover =>
              rcases hover with hover | ⟨e, hover⟩
              · exact absurd hover (hgoing _)
              · exact absurd hover (hgoing _)

/-- A daemon that has just been made. -/
theorem make_client {settings : Config.Settings} {digits : String} {journal : Log.Journal}
    {stamp : Log.Stamp} {paper : Log.Paper} {interruptible : Bool} {now : Instant} {script : Script}
    (hmake : make settings digits journal stamp paper interruptible { now, script } = .ok d) :
    (∃ topic identifier, d.client = .fresh settings.mqtt topic identifier now script) ∧
      d.stage = .beginning ∧ d.handlesSignals = false ∧ d.duty.work = .absent := by
  unfold make at hmake
  rcases htopic : Mqtt.availabilityTopic settings.mqtt.topicPrefix with fault | topic
  · rw [htopic] at hmake
    contradiction
  rw [htopic] at hmake
  rcases hclient : Client.make settings.mqtt (some topic) digits { now, script } with fault | client
  · simp only [Except.mapError, bind, Except.bind, hclient] at hmake
    contradiction
  simp only [Except.mapError, bind, Except.bind, hclient] at hmake
  split at hmake
  next =>
    rcases hcollector : Supply.Collector.ofSettings settings.supply with e | collector
    · rw [hcollector] at hmake
      contradiction
    · rw [hcollector] at hmake
      obtain rfl := Except.ok.inj hmake
      exact ⟨⟨_, _, make_eq_fresh hclient⟩, rfl, rfl, rfl⟩
  next => contradiction

theorem setTimer_stays (h : d.client.Orderly) (at_ : Instant) (turn : Turn)
    (hturn : turn.isCallers = false) :
    Stays d (d.onScene fun s => (s.giveAfter at_ turn).2) := by
  refine .of_client (.of_scene h (Nat.le_of_eq ?_)) rfl rfl rfl rfl
  exact (giveAfter_callerTurns d.client at_ turn).trans (by rw [hturn]; rfl)

theorem setTimers_stays (h : d.client.Orderly) (steps : List ((Instant × Step) × Nat)) :
    Stays d (steps.foldl
      (fun d ((at_, _), n) => d.onScene fun s => (s.giveAfter at_ (.outside n)).2) d) := by
  induction steps generalizing d with
  | nil => exact .of_client (.refl h) rfl rfl rfl rfl
  | cons step steps ih =>
      have hstep := setTimer_stays h step.1.1 (.outside step.2) rfl
      exact hstep.trans (ih hstep.steady.orderly)

/-- At the beginning of a run the daemon's own first turn is the only one to come for it. -/
theorem prepare_sound (h : d.AtTurn) (hstage : d.stage = .beginning) (hphase : d.InPhase)
    (steps : List (Instant × Step)) (limit : Instant) : (d.prepare steps limit).Sound := by
  have hsteps := setTimers_stays h.orderly steps.zipIdx
  have hset := hsteps.trans (setTimer_stays hsteps.steady.orderly limit .cut rfl)
  have hturn := h.steady hset.steady
  have hready := ((h.sound hphase).stays hset).phase
  have hthen := hset.stage.trans hstage
  unfold prepare
  dsimp only
  generalize (steps.zipIdx.foldl (fun d ((at_, _), n) => d.onScene fun s =>
      (s.giveAfter at_ (.outside n)).2) d).onScene
    (fun s => (s.giveAfter limit .cut).2) = ready at *
  refine hturn.lend_sound none rfl rfl ?_ hready
  change ready.awaited = 1
  unfold awaited
  rw [hthen]

/-- A daemon that has just been made and is to run is in its first phase. -/
theorem make_sound {settings : Config.Settings} {digits : String} {journal : Log.Journal}
    {stamp : Log.Stamp} {paper : Log.Paper} {interruptible : Bool} {now : Instant} {script : Script}
    (hmake : make settings digits journal stamp paper interruptible { now, script } = .ok d)
    (steps : List (Instant × Step)) (limit : Instant) : (d.prepare steps limit).Sound := by
  obtain ⟨⟨topic, identifier, hclient⟩, hstage, hsignals, hwork⟩ := make_client hmake
  have hfresh := Course.fresh_sound settings.mqtt topic identifier now script
  have hturn : d.AtTurn := by
    constructor <;> rw [hclient]
    · exact hfresh.orderly
    · exact fun hconnected => by contradiction
    · exact Nat.le_zero.mp hfresh.expected
  have hphase : d.InPhase := by
    unfold InPhase
    rw [hstage, hclient]
    exact ⟨rfl, hsignals, hwork⟩
  exact prepare_sound hturn hstage hphase steps limit

theorem run_outcome {settings : Config.Settings} {digits : String} {journal : Log.Journal}
    {stamp : Log.Stamp} {paper : Log.Paper} {interruptible : Bool} {now : Instant} {script : Script}
    (hmake : make settings digits journal stamp paper interruptible { now, script } = .ok d)
    (steps : List (Instant × Step)) (limit : Instant) (turns : Nat) :
    ((d.prepare steps limit).takeTurns turns).Outcome :=
  takeTurns_outcome (.goesOn (make_sound hmake steps limit)) turns

/-- A run that has ended by itself has halted its client and its collector. -/
theorem Outcome.of_concluded (h : d.Outcome) (hover : d.Concluded) :
    d.client.Stopped ∧ d.duty.Idle := by
  cases h with
  | goesOn h =>
      -- a daemon that is still in one of its phases has not ended
      have hphase := h.phase
      unfold InPhase at hphase
      rcases hover with hover | ⟨e, hover⟩ <;> simp [hover] at hphase
  | abandoned h =>
      rcases hover with hover | ⟨e, hover⟩ <;> simp [hover] at h
  | concluded _ hstopped hidle => exact ⟨hstopped, hidle⟩

end State

end SupplyGauge.Daemon
