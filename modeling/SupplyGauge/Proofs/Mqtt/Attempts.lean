import SupplyGauge.Proofs.Mqtt.Pacing
import SupplyGauge.Proofs.Mqtt.Progress

/-! # Attempts in a run

Those who use a client keep its loops paced as well: they accept messages, end the client, and have
turns and timers of their own. So in every run in which sessions are left to the loops and no loop
is started, as many attempts to connect as there are seconds are made at most, one more, and one for
each delivery that is refused.
-/

namespace SupplyGauge.Mqtt

open Schedule

namespace Client

variable {base recent : List (Instant × Event)} {hand : List Turn} {c c' : Client} {n : Nat}

/-! ## Deeds -/

theorem Paced.report (h : Paced base recent hand c) (severity : Log.Severity) (message : String) :
    Paced base ((c.scene.now, .reported (Log.note severity component message)) :: recent) hand
      (c.report severity message) :=
  h.congr (h.recorded.add rfl rfl fun hnot => by contradiction) rfl rfl rfl rfl rfl rfl

theorem Paced.publish (h : Paced base recent hand c) (horderly : c.Orderly) (topic : String)
    (payload : Payload) (retain : Option Bool) :
    ∃ recent', Paced base recent' hand (c.publish topic payload retain).2 := by
  unfold Client.publish Client.enqueue
  by_cases hroom : c.queue.length < queueLimit
  · simp only [if_pos hroom]
    generalize c.queue ++ [_] = queue
    have hqueued : Paced base recent hand { c with queue } :=
      h.congr h.recorded rfl rfl rfl rfl rfl rfl
    have hcalled := hqueued.callListener (horderly.congr rfl rfl rfl)
    generalize { c with queue }.callListener = called at *
    have haccepted : Paced base recent hand { called with accepted := called.accepted + 1 } :=
      hcalled.congr hcalled.recorded rfl rfl rfl rfl rfl rfl
    exact ⟨_, haccepted.note rfl rfl⟩
  · simp only [if_neg hroom]
    exact ⟨_, h.report _ _⟩

/-- Turns and timers of others. -/
theorem Paced.lend (h : Paced base recent hand c) (after : Option Instant) {turn : Turn}
    (hturn : turn.isDeliverys = false) :
    Paced base recent hand { c with scene := c.scene.lend after turn } := by
  cases after with
  | none => exact h.give hturn
  | some seconds =>
      have hheap := TimerHeap.insert_perm c.scene.schedule.timers.heap
        ⟨c.scene.now.add seconds, c.scene.schedule.timers.made, turn, false⟩
      refine h.keep (h.recorded.congr rfl rfl) rfl
        (h.wired.add rfl rfl hturn (c.scene.schedule.setTimer_turns_perm _ turn)) rfl rfl rfl
        fun _ _ _ hi => ⟨hi, fun hrest => hrest.congr rfl (fun _ hmem => hmem) fun x hx hwait => ?_⟩
      rcases List.mem_cons.mp (hheap.subset hx) with rfl | hold
      · rw [show turn.isDeliverys = true from hwait] at hturn
        contradiction
      · exact ⟨x, hold, rfl, rfl⟩

theorem Paced.callOff (h : Paced base recent hand c) (number : Nat) :
    Paced base recent hand { c with scene := c.scene.callOff number } := by
  have hturns : (c.scene.callOff number).schedule.turns = c.scene.schedule.turns :=
    c.scene.schedule.callOff_turns number
  refine h.keep (h.recorded.congr rfl rfl) rfl
    (h.wired.of_subperm rfl id (by rw [hturns])) rfl rfl rfl
    fun _ _ _ hi => ⟨hi, fun hrest => hrest.congr rfl (fun _ hmem => hmem) fun x hx _ => ?_⟩
  exact c.scene.schedule.timers.callOff_due number x hx

/-- Others make no attempts, and end no waits of loops. -/
theorem Paced.errand (h : Paced base recent hand c) (e : Errand) :
    ∃ recent', Paced base recent' hand { c with scene := e.perform c.scene } := by
  unfold Errand.perform
  split
  next entry =>
    exact ⟨(_, .reported entry) :: recent,
      h.congr (h.recorded.add rfl rfl fun hnot => by contradiction) rfl rfl rfl rfl rfl rfl⟩
  next event _ =>
    split
    next hremark =>
      have hneither : event.isAttempt = false ∧ event.refusesDelivery = false := by
        unfold Event.isRemark at hremark
        split at hremark
        · exact ⟨rfl, rfl⟩
        · exact ⟨rfl, rfl⟩
        · exact ⟨rfl, rfl⟩
        · contradiction
      exact ⟨_, h.note hneither.1 hneither.2⟩
    next => exact ⟨_, h⟩
  next => exact ⟨recent, h.congr (h.recorded.congr rfl rfl) rfl rfl rfl rfl rfl rfl⟩
  next after turn =>
    split
    next hforeign =>
      refine ⟨_, h.lend after ?_⟩
      unfold Turn.isForeign Turn.isLoops at hforeign
      unfold Turn.isDeliverys
      split <;> simp_all
    next => exact ⟨_, h⟩
  next number =>
    split
    · exact ⟨_, h.callOff number⟩
    · exact ⟨_, h⟩

/-- A client that is to stop makes no more attempts. -/
theorem Paced.of_quit (hrecorded : Recorded base recent c.scene) (hwired : Wired hand c)
    (hrunning : c.running = false) : Paced base recent hand c :=
  ⟨hrecorded, hwired, fun _ _ => .inl (.inl hrunning)⟩

theorem Paced.beginStop (h : Paced base recent [] c) :
    Paced base recent [] c.beginStop.2 ∧ c.beginStop.2.running = false := by
  have hquit : Wired [] { c with running := false } :=
    h.wired.of_subperm rfl (fun hrun => by contradiction) (List.Subperm.refl _)
  have hscene (n : Nat) : ({ c with running := false }.cancelLoop n).scene.now = c.scene.now ∧
      ({ c with running := false }.cancelLoop n).scene.past = c.scene.past ∧
      ({ c with running := false }.cancelLoop n).running = false := by
    unfold Client.cancelLoop
    dsimp only
    split
    · exact ⟨rfl, rfl, rfl⟩
    · split <;> exact ⟨rfl, rfl, rfl⟩
  unfold Client.beginStop
  dsimp only
  split
  next => exact ⟨.of_quit (h.recorded.congr rfl rfl) hquit rfl, rfl⟩
  next n _ =>
    obtain ⟨hnow, hpast, hrunning⟩ := hscene n
    have hcancelled := hquit.cancelLoop rfl n
    generalize { c with running := false }.cancelLoop n = c' at *
    have hrecorded : Recorded base recent c'.scene := h.recorded.congr hnow hpast
    split
    next => exact ⟨.of_quit hrecorded hcancelled hrunning, hrunning⟩
    next =>
      have hwatched : Wired [] (c'.setLoop n { c'.loop n with watched := true }) :=
        hcancelled.setLoop (hcancelled.count_le n) (Nat.le_refl _) (hcancelled.backoff n)
          fun hrun => by rw [hrunning] at hrun; contradiction
      exact ⟨.of_quit (hrecorded.congr rfl rfl) hwatched hrunning, hrunning⟩

/-- A call that is no attempt. -/
theorem perform_recorded {call : Call} {answer : Option Refusal}
    (h : Recorded base recent c.scene) (hcall : c.perform call = (answer, c'))
    (hattempt : (Event.called call answer).isAttempt = false) :
    Recorded base ((c.scene.now, .called call answer) :: recent) c'.scene ∧
      c'.scene.schedule = c.scene.schedule ∧ c'.scene.now = c.scene.now := by
  obtain ⟨rfl, rfl⟩ := Prod.mk.inj hcall
  refine ⟨h.add rfl rfl fun htrue => ?_, rfl, rfl⟩
  rw [hattempt] at htrue
  contradiction

theorem report_recorded (h : Recorded base recent c.scene) (severity : Log.Severity)
    (message : String) :
    Recorded base ((c.scene.now, .reported (Log.note severity component message)) :: recent)
      (c.report severity message).scene :=
  h.add rfl rfl fun hnot => by contradiction

theorem farewell_recorded (h : Recorded base recent c.scene) :
    (∃ recent', Recorded base recent' c.farewell.2.scene) ∧
      c.farewell.2.scene.schedule = c.scene.schedule ∧
      c.farewell.2.scene.now = c.scene.now := by
  unfold Client.farewell
  split
  next hannounce =>
    obtain ⟨hrecorded, hsame⟩ := perform_recorded h hannounce rfl
    exact ⟨⟨_, hrecorded⟩, hsame⟩
  next c' hannounce =>
    obtain ⟨hrecorded, hschedule, hnow⟩ := perform_recorded h hannounce rfl
    rcases hleave : c'.perform .leave with ⟨answer, left⟩
    obtain ⟨hleft, hschedule', hnow'⟩ := perform_recorded hrecorded hleave rfl
    exact ⟨⟨_, hleft⟩, hschedule'.trans hschedule, hnow'.trans hnow⟩

/-- Sessions are ended without attempts. -/
theorem disconnect_recorded (h : Recorded base recent c.scene) :
    (∃ recent', Recorded base recent' c.disconnect.2.scene) ∧
      c.disconnect.2.scene.schedule = c.scene.schedule ∧
      c.disconnect.2.scene.now = c.scene.now := by
  unfold Client.disconnect
  split
  next =>
    obtain ⟨⟨recent', hrecorded⟩, hsame⟩ := farewell_recorded h
    split
    next c' hleft =>
      rw [hleft] at hrecorded hsame
      exact ⟨⟨_, report_recorded (c := c'.detach) hrecorded _ _⟩, hsame⟩
    next message c' hleft =>
      rw [hleft] at hrecorded hsame
      have hreport := report_recorded hrecorded .warning s!"Error while disconnecting: {message}"
      exact ⟨⟨_, report_recorded
        (c := (c'.report .warning s!"Error while disconnecting: {message}").detach)
        hreport _ _⟩, hsame⟩
    next r c' _ hleft =>
      rw [hleft] at hrecorded hsame
      exact ⟨⟨_, hrecorded⟩, hsame⟩
  next => exact ⟨⟨_, h⟩, rfl, rfl⟩

/-- Once its loops are over or it is to stop, a client makes no attempts. -/
theorem Paced.finishStop (h : Paced base recent hand c)
    (hidle : c.running = false ∨ ∀ i, (c.loop i).stand = .over) :
    ∃ recent', Paced base recent' hand c.finishStop.2 := by
  have hspares := c.finishStop_spares 0
  have hloop (i : Nat) : c.finishStop.2.loop i = c.loop i := loop_congr hspares.loops_eq i
  obtain ⟨⟨recent', hrecorded⟩, hschedule⟩ : (∃ recent', Recorded base recent'
      c.finishStop.2.scene) ∧ c.finishStop.2.scene.schedule = c.scene.schedule := by
    obtain ⟨⟨recent', hended⟩, hschedule, -⟩ :=
      disconnect_recorded (c := { c with current := none }) h.recorded
    unfold Client.finishStop
    split
    next c' hdisconnect =>
      rw [hdisconnect] at hended hschedule
      exact ⟨⟨_, report_recorded hended _ _⟩, hschedule⟩
    next e c' hdisconnect =>
      rw [hdisconnect] at hended hschedule
      exact ⟨⟨_, hended⟩, hschedule⟩
  refine ⟨recent', hrecorded, h.wired.congr hspares.loops_eq hspares.running hschedule,
    fun t _ => ?_⟩
  rcases hidle with hrunning | hover
  · exact .inl (.inl (hspares.running.trans hrunning))
  · exact .inr fun i hi => absurd (hloop i ▸ hover i) hi

/-- What has to be so for the attempts from now on to be paced. -/
structure Timely (c : Client) : Prop where
  wired : Wired [] c
  proper : c.scene.now.Proper

theorem Timely.paced (h : c.Timely) : Paced c.scene.past [] [] c :=
  ⟨⟨rfl, h.proper, fun x hx => absurd hx List.not_mem_nil, trivial⟩, h.wired,
    fun t hnone => by contradiction⟩

theorem Paced.timely (h : Paced base recent [] c) : c.Timely := ⟨h.wired, h.recorded.proper⟩

theorem connect_scene (c : Client) : c.connect.2.scene.schedule = c.scene.schedule ∧
    c.connect.2.scene.now = c.scene.now := by
  unfold Client.connect
  split
  · exact ⟨rfl, rfl⟩
  · exact ⟨rfl, rfl⟩
  · dsimp only
    split
    next henter =>
      obtain ⟨-, rfl⟩ := Prod.mk.inj henter
      exact ⟨rfl, rfl⟩
    next henter =>
      obtain ⟨-, rfl⟩ := Prod.mk.inj henter
      split
      all_goals
        next hannounce =>
          obtain ⟨-, rfl⟩ := Prod.mk.inj hannounce
          exact ⟨rfl, rfl⟩

theorem Timely.of_spares (h : c.Timely) (hspares : Spares c n c')
    (hscene : c'.scene.schedule = c.scene.schedule ∧ c'.scene.now = c.scene.now) : c'.Timely :=
  ⟨h.wired.congr hspares.loops_eq hspares.running hscene.1, hscene.2 ▸ h.proper⟩

end Client

namespace Course

open Client

variable {base recent : List (Instant × Event)} {p : Course}

theorem stop_paced (h : Paced base recent [] p.client) :
    ∃ recent', Paced base recent' [] p.stop.client := by
  obtain ⟨hpaced, hrunning⟩ := h.beginStop
  unfold Course.stop
  split
  next c hbegin =>
    rw [hbegin] at hpaced
    exact ⟨_, hpaced⟩
  next c hbegin =>
    rw [hbegin] at hpaced hrunning
    exact hpaced.finishStop (.inl hrunning)

/-- When the caller has its turn, the loop for whose end it waits is over. -/
theorem resume_paced {hand : List Turn} (h : Paced base recent hand p.client) (hsound : p.Sound)
    (hexpected : p.client.expected = 0) :
    ∃ recent', Paced base recent' [] p.resume.client := by
  unfold Course.resume
  split
  next hconduct =>
    exact h.drop.finishStop
      (.inr (hsound.orderly.over_of_unexpected (hsound.stopping hconduct) hexpected))
  next => exact ⟨_, h.drop⟩

theorem goOn_paced (h : Paced base recent [] p.client) (hsound : p.Sound) :
    ∃ recent', Paced base recent' [] p.goOn.client := by
  unfold Course.goOn
  split
  next => exact ⟨_, h⟩
  next scene hnext =>
    have hturns := next?_callerTurns hnext
    have hnow : Progress True p { p with client := { p.client with scene } } :=
      hsound.setScene (Nat.le_trans (Nat.le_add_right _ _) hturns)
        (Scene.next?_turns_subperm hnext).2
    have hless := Nat.le_trans (next?_expected hnext) hsound.expected
    refine resume_paced (h.next hnext) hnow.sound ?_
    rcases hconduct : p.conduct <;> simp_all [Conduct.turns]
  next turn scene _ hnext =>
    exact (h.next hnext).takeTurn (hsound.orderly.congr rfl rfl rfl)

/-- Every deed that starts no loop and leaves sessions to the loops keeps attempts paced. -/
theorem act_paced (h : Paced base recent [] p.client) (hsound : p.Sound) {deed : Deed}
    (hstart : deed ≠ .start) (hleft : deed.leavesSessions = true) :
    ∃ recent', Paced base recent' [] (p.act deed).client := by
  cases deed with
  | publish topic payload retain =>
      have hpublished := h.publish hsound.orderly topic payload retain
      dsimp only [Course.act]
      unfold Course.publish
      rcases hpublish : p.client.publish topic payload retain with ⟨accepted, c⟩
      rw [hpublish] at hpublished
      cases accepted <;> exact hpublished
  | start => contradiction
  | stop =>
      dsimp only [Course.act]
      split
      · exact stop_paced h
      · exact ⟨_, h⟩
  | connect => contradiction
  | disconnect => contradiction
  | leave =>
      dsimp only [Course.act]
      split <;> exact ⟨_, h⟩
  | call after turn =>
      dsimp only [Course.act]
      split
      next haway =>
        refine ⟨_, h.lend after ?_⟩
        have hturn := haway.2
        unfold Turn.isCallers at hturn
        split at hturn
        · rfl
        · rfl
        · contradiction
      next => exact ⟨_, h⟩
  | aside e => exact h.errand e
  | goOn => exact goOn_paced h hsound

/-- Attempts can be paced from every deed on. -/
theorem act_timely (h : p.client.Timely) (hsound : p.Sound) (deed : Deed) :
    (p.act deed).client.Timely := by
  by_cases hstart : deed = .start
  · subst hstart
    dsimp only [Course.act]
    split
    next hcurrent => exact ⟨h.wired.start hsound.orderly hcurrent, h.proper⟩
    next => exact h
  · by_cases hleft : deed.leavesSessions = true
    · obtain ⟨_, hpaced⟩ := act_paced h.paced hsound hstart hleft
      exact hpaced.timely
    · cases deed with
      | connect => exact h.of_spares (p.client.connect_spares 0) p.client.connect_scene
      | disconnect =>
          exact h.of_spares (p.client.disconnect_spares 0) (disconnect_recorded h.paced.recorded).2
      | publish | start | stop | leave | call | aside | goOn => exact absurd rfl hleft

theorem run_timely (h : p.client.Timely) (hsound : p.Sound) (deeds : List Deed) :
    (p.run deeds).client.Timely := by
  induction deeds generalizing p with
  | nil => exact h
  | cons deed deeds ih =>
      have hact : Progress True p (p.act deed) := act_progress hsound deed (.inl trivial)
      exact ih (act_timely h hsound deed) hact.sound

theorem run_paced (h : Paced base recent [] p.client) (hsound : p.Sound) {deeds : List Deed}
    (hdeeds : ∀ deed ∈ deeds, deed ≠ .start ∧ deed.leavesSessions = true) :
    ∃ recent', Paced base recent' [] (p.run deeds).client := by
  induction deeds generalizing p recent with
  | nil => exact ⟨_, h⟩
  | cons deed deeds ih =>
      obtain ⟨hstart, hleft⟩ := hdeeds deed List.mem_cons_self
      have hact : Progress True p (p.act deed) := act_progress hsound deed (.inl trivial)
      obtain ⟨recent', hpaced⟩ := act_paced h hsound hstart hleft
      exact ih hpaced hact.sound fun d hd => hdeeds d (List.mem_cons_of_mem _ hd)

variable (settings : Config.MqttSettings) (availabilityTopic : String)
  (identifier : Config.Scalar) (now : Instant) (script : Script)

theorem fresh_timely (hnow : now.Proper) :
    (fresh settings availabilityTopic identifier now script).client.Timely := by
  have hloop (i : Nat) :
      (fresh settings availabilityTopic identifier now script).client.loop i = { stand := .over } :=
    loop_of_size_le (Nat.zero_le i)
  refine ⟨⟨fun i => Nat.zero_le _, fun i w hw => absurd hw List.not_mem_nil, fun i => ?_,
    fun _ i => ?_⟩, hnow⟩
  · rw [hloop]
    decide
  · exact .of_over (by rw [hloop]) _

/-- Whatever the broker answers and however many messages there are, the attempts to connect that
are made within some seconds, from any moment of a run on in which sessions are left to the loops
and no further loop is started, are at most as many as the seconds, one more, and one for each
delivery that the protocol refuses in that time. -/
theorem reconnections_paced (hnow : now.Proper) (before deeds : List Deed)
    (hdeeds : ∀ deed ∈ deeds, deed ≠ .start ∧ deed.leavesSessions = true) :
    ∃ later, ((fresh settings availabilityTopic identifier now script).run
        (before ++ deeds)).client.scene.events =
      ((fresh settings availabilityTopic identifier now script).run before).client.scene.events ++
        later ∧
      ∀ start seconds,
        attempts start seconds later ≤ seconds + 1 + refusedDeliveries start seconds later := by
  have hsound := run_fresh_sound settings availabilityTopic identifier now script before
  have htimely := run_timely (fresh_timely settings availabilityTopic identifier now script hnow)
    (fresh_sound settings availabilityTopic identifier now script) before
  rw [run_append]
  generalize (fresh settings availabilityTopic identifier now script).run before = p at *
  obtain ⟨recent, hpaced⟩ := run_paced htimely.paced hsound hdeeds
  refine ⟨recent.reverse, ?_, fun start seconds => ?_⟩
  · rw [Scene.events, hpaced.recorded.past, List.reverse_append]
    rfl
  · rw [attempts, refusedDeliveries, List.countP_reverse, List.countP_reverse]
    exact hpaced.recorded.spaced.attempts_bounded start seconds

/-- A client whose broker refuses two deliveries. -/
def lossyRun (deeds : List Deed) : Course :=
  (fresh {} "power_supply_metrics/status" (.text "cid") .zero
    { publishing := [none, some ⟨.protocol, "lost"⟩, none, some ⟨.protocol, "lost"⟩] }).run deeds

/-- The turns in which a message is delivered at the third try. -/
def lossyDeeds : List Deed := .publish "p/a" (.text "1") none :: List.replicate 10 .goOn

/-- Where two deliveries are refused, a session is opened three times at one moment. -/
theorem reconnections_paced_lossyRun : Instant.Proper .zero ∧
    (∀ deed ∈ lossyDeeds, deed ≠ .start ∧ deed.leavesSessions = true) ∧
    ∃ later, (lossyRun ([.start] ++ lossyDeeds)).client.scene.events =
        (lossyRun [.start]).client.scene.events ++ later ∧
      attempts 0 0 later = 3 ∧ refusedDeliveries 0 0 later = 2 ∧
      attempts 0 0 later ≤ 0 + 1 + refusedDeliveries 0 0 later := by
  have hzero : Instant.Proper .zero := ⟨0, rfl⟩
  have hdeeds : ∀ deed ∈ lossyDeeds, deed ≠ .start ∧ deed.leavesSessions = true := by
    simp [lossyDeeds, Deed.leavesSessions]
  obtain ⟨later, hevents, hbound⟩ := reconnections_paced {} "power_supply_metrics/status"
    (.text "cid") .zero
    { publishing := [none, some ⟨.protocol, "lost"⟩, none, some ⟨.protocol, "lost"⟩] } hzero
    [.start] lossyDeeds hdeeds
  have hfirst : (lossyRun [.start]).client.scene.events.length = 1 := by decide +kernel
  have hlater : later = (lossyRun ([.start] ++ lossyDeeds)).client.scene.events.drop 1 := by
    rw [show (lossyRun ([.start] ++ lossyDeeds)).client.scene.events = _ from hevents]
    exact (List.drop_left' hfirst).symm
  have hattempts : attempts 0 0
      ((lossyRun ([.start] ++ lossyDeeds)).client.scene.events.drop 1) = 3 := by decide +kernel
  have hrefused : refusedDeliveries 0 0
      ((lossyRun ([.start] ++ lossyDeeds)).client.scene.events.drop 1) = 2 := by decide +kernel
  exact ⟨hzero, hdeeds, later, hevents, hlater ▸ hattempts, hlater ▸ hrefused, hbound 0 0⟩

end Course

end SupplyGauge.Mqtt
