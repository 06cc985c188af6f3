import Mathlib.Algebra.Group.Nat.Defs
import SupplyGauge.Proofs.Mqtt.Shutdown
import SupplyGauge.Proofs.Mqtt.Slumber

/-! # How long a loop pauses

After an attempt to connect that the protocol refuses a loop pauses for five seconds, for twice as
long after every further one, and at most for a minute. An attempt that succeeds starts this over.
Any other failure costs a second and leaves the count as it is. In a turn of a loop nothing is
called after what it pauses for, and then the loop sleeps for just that long.
-/

namespace SupplyGauge

open Schedule

namespace Mqtt

/-- Whether a call is part of opening a session. -/
def Call.opensSession : Call → Bool
  | .enter _ | .announce _ => true
  | .deliver _ | .leave => false

/-- How many seconds a loop pauses where the protocol has refused a number of attempts before. -/
def pauseAfter (refusals : Nat) : Nat := min (5 * 2 ^ refusals) 60

theorem pauseAfter_zero : pauseAfter 0 = firstBackoff := rfl

theorem pauseAfter_succ (refusals : Nat) :
    pauseAfter (refusals + 1) = min (pauseAfter refusals * 2) longestBackoff := by
  unfold pauseAfter longestBackoff
  rw [Nat.pow_succ]
  omega

end Mqtt

namespace Event

open Mqtt

/-- The number of attempts to connect that the protocol has refused since the last one that has
succeeded, after an event of a loop. -/
def tally (refusals : Nat) : Event → Nat
  | .called (.announce _) none => 0
  | .called call (some r) =>
    if call.opensSession ∧ r.kind = .protocol then refusals + 1 else refusals
  | _ => refusals

/-- What a loop pauses for, and for how many seconds: an attempt to connect that the protocol
refuses, or any other failure. -/
inductive Delays (refusals : Nat) : Event → Nat → Prop
  | refused (call : Call) (message : String) (hcall : call.opensSession = true) :
      Delays refusals (.called call (some ⟨.protocol, message⟩)) (min (5 * 2 ^ refusals) 60)
  | failed (e : ClientError) : Delays refusals (.reported (failureEntry e)) 1

theorem Delays.of_refusal {refusals seconds : Nat} {call : Call} {message : String}
    (h : Delays refusals (.called call (some ⟨.protocol, message⟩)) seconds) :
    seconds = pauseAfter refusals := by
  cases h
  rfl

theorem Delays.of_report {refusals seconds : Nat} {entry : Log.Entry}
    (h : Delays refusals (.reported entry) seconds) : seconds = 1 := by
  cases h
  rfl

/-- Whether an event is nothing that a loop pauses for. -/
def Quiet (e : Event) : Prop := ∀ refusals seconds, ¬ e.Delays refusals seconds

theorem quiet_report {severity : Log.Severity} (hseverity : severity ≠ .error)
    (message : String) : Quiet (.reported (Log.note severity component message)) := by
  intro refusals seconds hdelays
  cases hdelays
  exact hseverity rfl

/-- An entry about a failure of another kind, which begins otherwise. -/
theorem quiet_error {start : String} {c : Char} (hstart : start.toList.head? = some c)
    (hc : c ≠ 'P') (rest : String) :
    Quiet (.reported (Log.note .error component (start ++ rest))) := by
  intro refusals seconds hdelays
  generalize hentry : Log.note .error component (start ++ rest) = entry at hdelays
  cases hdelays with
  | failed e =>
      have hsame : start ++ rest = "Publisher loop error: " ++ toString e.message :=
        congrArg Log.Entry.message hentry
      have hhead := congrArg (·.toList.head?) hsame
      simp only [String.toList_append, List.head?_append, hstart] at hhead
      exact hc (Option.some.inj hhead)

theorem quiet_called {call : Call} {answer : Option Refusal}
    (h : call.opensSession = true → ∀ message, answer ≠ some ⟨.protocol, message⟩) :
    Quiet (.called call answer) := by
  intro refusals seconds hdelays
  cases hdelays with
  | refused _ message hcall => exact h hcall message rfl

end Event

namespace Mqtt.Client

variable {c c' c'' : Client} {n : Nat} {events before : List Event}

/-- From one client to the next, only events have been added. -/
structure Tells (c : Client) (events : List Event) (c' : Client) : Prop where
  loops : c'.loops = c.loops
  running : c'.running = c.running
  now : c'.scene.now = c.scene.now
  schedule : c'.scene.schedule = c.scene.schedule
  past : c'.scene.past = (events.map fun e => (c.scene.now, e)).reverse ++ c.scene.past

theorem Tells.loop (h : Tells c events c') (i : Nat) : c'.loop i = c.loop i :=
  loop_congr h.loops i

theorem Tells.trans (h : Tells c before c') (h' : Tells c' events c'') :
    Tells c (before ++ events) c'' := by
  refine ⟨h'.loops.trans h.loops, h'.running.trans h.running, h'.now.trans h.now,
    h'.schedule.trans h.schedule, ?_⟩
  rw [h'.past, h.past, h.now, List.map_append, List.reverse_append, List.append_assoc]

theorem report_tells (c : Client) (severity : Log.Severity) (message : String) :
    Tells c [.reported (Log.note severity component message)] (c.report severity message) :=
  ⟨rfl, rfl, rfl, rfl, rfl⟩

theorem perform_tells {call : Call} {answer : Option Refusal}
    (hcall : c.perform call = (answer, c')) : Tells c [.called call answer] c' := by
  obtain ⟨rfl, rfl⟩ := Prod.mk.inj hcall
  exact ⟨rfl, rfl, rfl, rfl, rfl⟩

/-- What an attempt to connect can come to, and what is heard of it. -/
inductive Trial : Except ClientError Unit → List Event → Prop
  | untried (f : Numeral.Fault) : Trial (.error (.unwritable f)) []
  | refused (message : String) (at_ : Connection) (r : Refusal) :
      Trial (.error (.refused r))
        [.reported (Log.note .debug component message), .called (.enter at_) (some r)]
  | unannounced (message : String) (at_ : Connection) (p : Publication) (r : Refusal) :
      Trial (.error (.refused r))
        [.reported (Log.note .debug component message), .called (.enter at_) none,
          .called (.announce p) (some r)]
  | done (message message' : String) (at_ : Connection) (p : Publication) :
      Trial (.ok ())
        [.reported (Log.note .debug component message), .called (.enter at_) none,
          .called (.announce p) none, .reported (Log.note .info component message')]

theorem connect_trial (c : Client) :
    ∃ events, Trial c.connect.1 events ∧ Tells c events c.connect.2 := by
  have hself : Tells c [] c := ⟨rfl, rfl, rfl, rfl, rfl⟩
  unfold Client.connect
  split
  · exact ⟨_, .untried _, hself⟩
  · exact ⟨_, .untried _, hself⟩
  next address identifier _ _ =>
    dsimp only
    have hattached : Tells c
        [.reported (Log.note .debug component
          s!"Connecting to MQTT broker {address} as {identifier}")]
        { c.report .debug s!"Connecting to MQTT broker {address} as {identifier}" with
          attached := true } := ⟨rfl, rfl, rfl, rfl, rfl⟩
    split
    next henter => exact ⟨_, .refused _ _ _, hattached.trans (perform_tells henter)⟩
    next entered henter =>
      have hopen : Tells entered [] { entered with connected := true } :=
        ⟨rfl, rfl, rfl, rfl, rfl⟩
      have hconnected := (hattached.trans (perform_tells henter)).trans hopen
      split
      next hannounce =>
        exact ⟨_, .unannounced _ _ _ _, hconnected.trans (perform_tells hannounce)⟩
      next hannounce =>
        exact ⟨_, .done _ _ _ _,
          (hconnected.trans (perform_tells hannounce)).trans (report_tells _ _ _)⟩

/-! ## A turn of a loop -/

/-- A loop has its turn: no other turn of it is given out, and the timers are in order. -/
structure OnTurn (n : Nat) (c : Client) : Prop where
  wired : Wired [] c
  bounded : n < c.loops.size
  uncalled : (c.loop n).called = false
  proper : c.scene.now.Proper
  heaped : c.scene.schedule.timers.heap.Heaped

/-- What a turn of a loop has come to: what has happened in it, for how long the loop is to pause
after the next refusal, and that it sleeps for as long as it is to pause now. -/
structure Shifted (refusals n : Nat) (c : Client) (events : List Event) (c' : Client) : Prop where
  now : c'.scene.now = c.scene.now
  past : c'.scene.past = (events.map fun e => (c.scene.now, e)).reverse ++ c.scene.past
  heaped : c'.scene.schedule.timers.heap.Heaped
  backoff : (c'.loop n).backoff = pauseAfter (events.foldl Event.tally refusals)
  rests : ∀ before e after (seconds : Nat), events = before ++ e :: after →
    e.Delays (before.foldl Event.tally refusals) seconds →
      (∀ e' ∈ after, e'.call? = none) ∧ Asleep (c.scene.now.add (.ofInt seconds)) [] c' n

variable {refusals : Nat}

theorem OnTurn.tells (h : OnTurn n c) (htells : Tells c events c') : OnTurn n c' where
  wired := h.wired.congr htells.loops htells.running htells.schedule
  bounded := htells.loops ▸ h.bounded
  uncalled := htells.loop n ▸ h.uncalled
  proper := htells.now ▸ h.proper
  heaped := htells.schedule ▸ h.heaped

/-- Before its turn the loop may have been in another state. -/
theorem Shifted.of_past (h : Shifted refusals n c events c'') (hnow : c.scene.now = c'.scene.now)
    (hpast : c.scene.past = c'.scene.past) : Shifted refusals n c' events c'' :=
  ⟨hnow ▸ h.now, hnow ▸ hpast ▸ h.past, h.heaped, h.backoff, hnow ▸ h.rests⟩

/-- Events for which the loop does not pause come before. -/
theorem Shifted.after (h : Shifted (before.foldl Event.tally refusals) n c' events c'')
    (htells : Tells c before c') (hquiet : ∀ e ∈ before, e.Quiet) :
    Shifted refusals n c (before ++ events) c'' := by
  refine ⟨h.now.trans htells.now, ?_, h.heaped, ?_, fun earlier e after seconds heq hdelays => ?_⟩
  · rw [h.past, htells.past, htells.now, List.map_append, List.reverse_append, List.append_assoc]
  · rw [List.foldl_append]
    exact h.backoff
  · rcases List.append_eq_append_iff.mp heq with ⟨middle, rfl, hevents⟩ | ⟨middle, rfl, hevents⟩
    · rw [List.foldl_append] at hdelays
      exact htells.now ▸ h.rests middle e after seconds hevents hdelays
    · cases middle with
      | nil =>
          rw [List.append_nil] at h htells
          exact htells.now ▸ h.rests [] e after seconds hevents.symm hdelays
      | cons first rest =>
          obtain ⟨rfl, -⟩ := List.cons.inj hevents
          exact absurd hdelays (hquiet e (by simp) _ _)

/-- A turn in which nothing happens for which the loop pauses. -/
theorem shifted_of_quiet (hnow : c'.scene.now = c.scene.now) (hpast : c'.scene.past = c.scene.past)
    (hheaped : c'.scene.schedule.timers.heap.Heaped)
    (hbackoff : (c'.loop n).backoff = pauseAfter refusals) : Shifted refusals n c [] c' :=
  ⟨hnow, hpast, hheaped, hbackoff, fun before e after _ heq => absurd heq (by simp)⟩

/-- A turn in which the loop begins to pause for one event, and only for that one. -/
theorem shifted_of_delay {e : Event} {after : List Event}
    (hbefore : ∀ e' ∈ before, e'.Quiet) (hafter : ∀ e' ∈ after, e'.Quiet ∧ e'.call? = none)
    (hnow : c'.scene.now = c.scene.now)
    (hpast : c'.scene.past =
      ((before ++ e :: after).map fun e => (c.scene.now, e)).reverse ++ c.scene.past)
    (hheaped : c'.scene.schedule.timers.heap.Heaped)
    (hbackoff : (c'.loop n).backoff =
      pauseAfter ((before ++ e :: after).foldl Event.tally refusals))
    (hasleep : ∀ seconds, e.Delays (before.foldl Event.tally refusals) seconds →
      Asleep (c.scene.now.add (.ofInt seconds)) [] c' n) :
    Shifted refusals n c (before ++ e :: after) c' := by
  refine ⟨hnow, hpast, hheaped, hbackoff, fun before' e' after' seconds heq hdelays => ?_⟩
  rcases List.append_eq_append_iff.mp heq with ⟨middle, rfl, hevents⟩ | ⟨middle, rfl, hevents⟩
  all_goals
    cases middle with
    | nil =>
        obtain ⟨rfl, rfl⟩ := List.cons.inj hevents
        rw [List.append_nil] at *
        exact ⟨fun e' he' => (hafter e' he').2, hasleep seconds hdelays⟩
    | cons first rest =>
        obtain ⟨rfl, hrest⟩ := List.cons.inj hevents
        first
        | exact absurd hdelays ((hafter e' (by simp [hrest])).1 _ _)
        | exact absurd hdelays (hbefore e' (by simp) _ _)

theorem OnTurn.beginWait_heaped (h : OnTurn n c) (stand : Stand) (seconds : Nat) :
    (c.beginWait n stand seconds).scene.schedule.timers.heap.Heaped :=
  h.heaped.insert (add_ne_nan h.proper (Binary64.ofInt_ne_nan _))

/-- A loop that begins to pause sleeps until the pause is over. -/
theorem OnTurn.pause (h : OnTurn n c) (hgone : (c.loop n).fetch = .gone) (seconds : Nat) :
    Asleep (c.scene.now.add (.ofInt seconds)) [] (c.pause n seconds) n := by
  have hself := (c.beginWait_leaves n .pausing seconds).loop_self h.bounded
  -- the wait is a new one, so whatever is on the way or has a timer does not end it
  have hnew : .release (.delivery n) ((c.loop n).wait + 1) ∉ c.scene.schedule.turns :=
    fun hmem => h.wired.not_released (Nat.lt_succ_self _) (List.mem_append_right [] hmem)
  have hheap := TimerHeap.insert_perm c.scene.schedule.timers.heap
    ⟨c.scene.now.add (.ofInt seconds), c.scene.schedule.timers.made,
      .release (.delivery n) ((c.loop n).wait + 1), false⟩
  refine ⟨?_, ?_, le_add_seconds h.proper seconds, fun hcalled => ?_, fun _ => .inr ?_,
    fun hmem => absurd ?_ hnew, fun x hx hpurpose => ?_⟩
  · rw [Client.pause, hself]
  · rw [Client.pause, hself]
    exact hgone
  · rw [Client.pause, hself] at hcalled
    exact absurd (h.uncalled.symm.trans hcalled) Bool.false_ne_true
  · rw [Client.pause, hself]
    exact ⟨_, hheap.symm.subset List.mem_cons_self, rfl, rfl⟩
  · rw [Client.pause, hself] at hmem
    exact List.mem_append_left _ hmem
  · rw [Client.pause, hself] at hpurpose
    rcases List.mem_cons.mp (hheap.subset hx) with rfl | hold
    · rfl
    · refine absurd ?_ hnew
      rw [← hpurpose]
      exact List.mem_append_right _ (List.mem_map_of_mem hold)

theorem OnTurn.finishLoop (h : OnTurn n c) (hbackoff : (c.loop n).backoff = pauseAfter refusals) :
    Shifted refusals n c [] (c.finishLoop n) := by
  have hself := (c.finishLoop_leaves n).loop_self h.bounded
  have hscene : (c.finishLoop n).scene.now = c.scene.now ∧
      (c.finishLoop n).scene.past = c.scene.past ∧
      (c.finishLoop n).scene.schedule.timers = c.scene.schedule.timers := by
    dsimp only [Client.finishLoop]
    split <;> exact ⟨rfl, rfl, rfl⟩
  refine shifted_of_quiet hscene.1 hscene.2.1 (hscene.2.2 ▸ h.heaped) ?_
  rw [hself]
  exact hbackoff

theorem OnTurn.awaitMessage (h : OnTurn n c)
    (hbackoff : (c.loop n).backoff = pauseAfter refusals) :
    Shifted refusals n c [] (c.awaitMessage n) := by
  refine shifted_of_quiet rfl rfl (h.beginWait_heaped .awaiting 1) ?_
  rw [(c.awaitMessage_leaves n h.bounded).loop_self h.bounded]
  exact hbackoff

theorem OnTurn.penalize (h : OnTurn n c) (hgone : (c.loop n).fetch = .gone)
    (hbackoff : (c.loop n).backoff = pauseAfter refusals) (e : ClientError) :
    Shifted refusals n c [.reported (failureEntry e)] (c.penalize n e) := by
  have hlost : Tells c [.reported (failureEntry e)]
      { c.report .error s!"Publisher loop error: {e.message}" with connected := false } :=
    ⟨rfl, rfl, rfl, rfl, rfl⟩
  have hready := h.tells hlost
  have hself := (beginWait_leaves _ n .pausing 1).loop_self hready.bounded
  change Shifted refusals n c ([] ++ .reported (failureEntry e) :: []) _
  refine shifted_of_delay (by simp) (by simp) rfl rfl
    (hready.beginWait_heaped .pausing 1) ?_ fun seconds hdelays => ?_
  · rw [Client.penalize, Client.pause, hself]
    exact hbackoff
  · obtain rfl := hdelays.of_report
    exact hready.pause hgone 1

/-- A failure after events that leave the count as it is. -/
theorem OnTurn.penalizeAfter (h : OnTurn n c) (hgone : (c.loop n).fetch = .gone)
    (hbackoff : (c.loop n).backoff = pauseAfter refusals) (htells : Tells c before c')
    (hquiet : ∀ e ∈ before, e.Quiet) (hcount : before.foldl Event.tally refusals = refusals)
    (e : ClientError) :
    Shifted refusals n c (before ++ [.reported (failureEntry e)]) (c'.penalize n e) := by
  have hsame : (c'.loop n).backoff = pauseAfter (before.foldl Event.tally refusals) := by
    rw [htells.loop, hbackoff, hcount]
  exact ((h.tells htells).penalize (htells.loop n ▸ hgone) hsame e).after htells hquiet

/-- The loop is to pause for another time after the next refusal. -/
theorem OnTurn.setBackoff (h : OnTurn n c) (hgone : (c.loop n).fetch = .gone) {backoff : Nat}
    (hbackoff : 1 ≤ backoff) : OnTurn n (c.setLoop n { c.loop n with backoff }) := by
  have hself := loop_setLoop_self { c.loop n with backoff } h.bounded
  refine ⟨h.wired.setLoop (h.wired.count_le n) (Nat.le_refl _) hbackoff
    fun _ => .of_gone (by exact hgone) _, ?_, ?_, h.proper, h.heaped⟩
  · rw [show (c.setLoop n { c.loop n with backoff }).loops.size = _ from Array.size_setIfInBounds]
    exact h.bounded
  · rw [hself]
    exact h.uncalled

/-- After a refusal by the protocol the loop sleeps for as long as it was to pause, and is to pause
longer the next time. -/
theorem OnTurn.backOff (h : OnTurn n c) (hgone : (c.loop n).fetch = .gone) {call : Call}
    {message : String} (htells : Tells c (before ++ [.called call (some ⟨.protocol, message⟩)]) c')
    (hcall : call.opensSession = true) (hquiet : ∀ e ∈ before, e.Quiet)
    (hbackoff : (c.loop n).backoff = pauseAfter (before.foldl Event.tally refusals)) :
    Shifted refusals n c (before ++ .called call (some ⟨.protocol, message⟩) ::
      [.reported (Log.note .error component s!"Failed to connect to MQTT: {message}")])
      (c'.backOff n message) := by
  have hreported := htells.trans
    (c'.report_tells .error s!"Failed to connect to MQTT: {message}")
  unfold Client.backOff
  dsimp only
  generalize c'.report .error s!"Failed to connect to MQTT: {message}" = reported at *
  have hloop := hreported.loop n
  have hlonger : 1 ≤ min ((reported.loop n).backoff * 2) longestBackoff := by
    have hpositive := (h.tells hreported).wired.backoff n
    unfold longestBackoff
    omega
  have hready := (h.tells hreported).setBackoff (hloop ▸ hgone) hlonger
  have hset := loop_setLoop_self
    { reported.loop n with backoff := min ((reported.loop n).backoff * 2) longestBackoff }
    (h.tells hreported).bounded
  have hself := (beginWait_leaves _ n .pausing (reported.loop n).backoff).loop_self hready.bounded
  refine shifted_of_delay hquiet (fun e he => ?_) hreported.now ?_
    (hready.beginWait_heaped .pausing _) ?_ fun seconds hdelays => ?_
  · obtain rfl := List.mem_singleton.mp he
    exact ⟨Event.quiet_error (c := 'F') rfl (by decide) _, rfl⟩
  · refine hreported.past.trans ?_
    rw [List.append_assoc]
    rfl
  · rw [Client.pause, hself, hset, hloop, hbackoff, ← pauseAfter_succ]
    rw [List.foldl_append, List.foldl_cons, List.foldl_cons, List.foldl_nil]
    simp [Event.tally, hcall]
  · obtain rfl := hdelays.of_refusal
    rw [← hbackoff, ← hloop, ← hreported.now]
    refine hready.pause ?_ _
    rw [hset]
    exact hloop ▸ hgone

/-- In an attempt to connect a loop pauses for nothing but a refusal by the protocol, with which the
attempt ends, and an attempt that succeeds starts the count over. -/
theorem Trial.comesTo {result : Except ClientError Unit} (h : Trial result events)
    (refusals : Nat) :
    (result = .ok () ∧ (∀ e ∈ events, e.Quiet) ∧ events.foldl Event.tally refusals = 0) ∨
    (∃ before call message, result = .error (.refused ⟨.protocol, message⟩) ∧
      events = before ++ [.called call (some ⟨.protocol, message⟩)] ∧ call.opensSession = true ∧
      (∀ e ∈ before, e.Quiet) ∧ before.foldl Event.tally refusals = refusals) ∨
    ∃ e, result = .error e ∧ (∀ message, e ≠ .refused ⟨.protocol, message⟩) ∧
      (∀ e ∈ events, e.Quiet) ∧ events.foldl Event.tally refusals = refusals := by
  have hreport (message : String) :
      Event.Quiet (.reported (Log.note .debug component message)) :=
    Event.quiet_report (by decide) message
  have hdone (call : Call) : Event.Quiet (.called call none) :=
    Event.quiet_called fun _ _ => by simp
  have hother {r : Refusal} (hkind : r.kind ≠ .protocol) (call : Call) :
      Event.Quiet (.called call (some r)) :=
    Event.quiet_called fun _ message heq => hkind (by rw [Option.some.inj heq])
  cases h with
  | untried f => exact .inr (.inr ⟨_, rfl, by simp, by simp, rfl⟩)
  | refused text at_ r =>
      by_cases hkind : r.kind = .protocol
      · obtain ⟨kind, message⟩ := r
        obtain rfl : kind = .protocol := hkind
        exact .inr (.inl ⟨[_], _, message, rfl, rfl, rfl, by simp [hreport], rfl⟩)
      · refine .inr (.inr ⟨_, rfl, ?_, by simp [hreport, hother hkind], ?_⟩)
        · rintro message ⟨rfl⟩
          exact hkind rfl
        · simp [Event.tally, hkind]
  | unannounced text at_ p r =>
      by_cases hkind : r.kind = .protocol
      · obtain ⟨kind, message⟩ := r
        obtain rfl : kind = .protocol := hkind
        exact .inr (.inl ⟨[_, _], _, message, rfl, rfl, rfl, by simp [hreport, hdone], rfl⟩)
      · refine .inr (.inr ⟨_, rfl, ?_, by simp [hreport, hdone, hother hkind], ?_⟩)
        · rintro message ⟨rfl⟩
          exact hkind rfl
        · simp [Event.tally, hkind]
  | done text text' at_ p =>
      refine .inl ⟨rfl, ?_, rfl⟩
      simp [hreport, hdone, Event.quiet_report (show Log.Severity.info ≠ .error by decide)]

theorem OnTurn.pass (h : OnTurn n c) (hgone : c.running = true → (c.loop n).fetch = .gone)
    (hbackoff : (c.loop n).backoff = pauseAfter refusals) :
    ∃ events, Shifted refusals n c events (c.pass n) := by
  unfold Client.pass
  split
  next hrunning =>
    split
    next => exact ⟨_, h.awaitMessage hbackoff⟩
    next =>
      obtain ⟨events, htrial, htells⟩ := c.connect_trial
      rcases hconnect : c.connect with ⟨result, c'⟩
      rw [hconnect] at htrial htells
      dsimp only at htrial htells
      have hready := h.tells htells
      have hloop := htells.loop n
      rcases htrial.comesTo refusals with ⟨rfl, hquiet, hcount⟩ |
        ⟨before, call, message, rfl, rfl, hcall, hquiet, hcount⟩ | ⟨e, rfl, hother, hquiet, hcount⟩
      · have hset := loop_setLoop_self { c'.loop n with backoff := firstBackoff } hready.bounded
        have hreset := hready.setBackoff (hloop ▸ hgone hrunning)
          (show 1 ≤ firstBackoff by decide)
        have hfirst : ((c'.setLoop n { c'.loop n with backoff := firstBackoff }).loop n).backoff =
            pauseAfter (events.foldl Event.tally refusals) := by
          rw [hset, hcount, pauseAfter_zero]
        have hwaiting := hreset.awaitMessage hfirst
        have hdone : Shifted _ n c' [] _ := hwaiting.of_past rfl rfl
        exact ⟨_, hdone.after htells hquiet⟩
      · exact ⟨_, h.backOff (hgone hrunning) htells hcall hquiet (by rw [hcount, hbackoff])⟩
      · have hpenalized := h.penalizeAfter (hgone hrunning) hbackoff htells hquiet hcount e
        split
        next heq => cases (Prod.mk.inj heq).1
        next message _ heq => exact absurd (Except.error.inj (Prod.mk.inj heq).1) (hother message)
        next heq =>
          obtain ⟨herror, rfl⟩ := Prod.mk.inj heq
          obtain rfl := Except.error.inj herror
          exact ⟨_, hpenalized⟩
  next => exact ⟨_, h.finishLoop hbackoff⟩

/-- A pass after events that leave the count as it is. -/
theorem OnTurn.passAfter (h : OnTurn n c) (hgone : (c.loop n).fetch = .gone)
    (hbackoff : (c.loop n).backoff = pauseAfter refusals) (htells : Tells c before c')
    (hquiet : ∀ e ∈ before, e.Quiet) (hcount : before.foldl Event.tally refusals = refusals) :
    ∃ events, Shifted refusals n c events (c'.pass n) := by
  have hsame : (c'.loop n).backoff = pauseAfter (before.foldl Event.tally refusals) := by
    rw [htells.loop, hbackoff, hcount]
  obtain ⟨events, hpassed⟩ := (h.tells htells).pass (fun _ => htells.loop n ▸ hgone) hsame
  exact ⟨_, hpassed.after htells hquiet⟩

/-- With nobody listening, a message that goes back is only noted. -/
theorem requeue_tells (hlisteners : c.listeners = []) (m : Message) :
    ∃ events, Tells c events (c.requeue m) ∧ (∀ e ∈ events, e.Quiet) ∧
      ∀ refusals, events.foldl Event.tally refusals = refusals := by
  have hnoted {e : Event} (he : ∀ call answer, e ≠ .called call answer)
      (hreport : ∀ entry, e ≠ .reported entry) : e.Quiet := by
    rintro refusals seconds hdelays
    cases hdelays
    · exact he _ _ rfl
    · exact hreport _ rfl
  unfold Client.requeue enqueue
  by_cases hroom : c.queue.length < queueLimit
  · simp only [if_pos hroom, Client.callListener, hlisteners]
    exact ⟨[.returned m], ⟨rfl, rfl, rfl, rfl, rfl⟩, by simp [hnoted], fun _ => rfl⟩
  · simp only [if_neg hroom]
    have hdropped : Tells c [.dropped m] (c.note (.dropped m)) := ⟨rfl, rfl, rfl, rfl, rfl⟩
    refine ⟨_, hdropped.trans (report_tells _ .warning _), ?_, fun _ => rfl⟩
    simp [hnoted, Event.quiet_report (show Log.Severity.warning ≠ .error by decide)]

/-- A delivery never counts as an attempt to connect. -/
theorem OnTurn.deliver (h : OnTurn n c) (hgone : (c.loop n).fetch = .gone)
    (hlisteners : c.listeners = []) (hbackoff : (c.loop n).backoff = pauseAfter refusals)
    (m : Message) : ∃ events, Shifted refusals n c events (c.deliver n m) := by
  have hquiet (answer : Option Refusal) : Event.Quiet (.called (.deliver m) answer) :=
    Event.quiet_called fun hopens => by contradiction
  have htally (answer : Option Refusal) : Event.tally refusals (.called (.deliver m) answer) =
      refusals := by
    cases answer <;> simp [Event.tally, Call.opensSession]
  unfold Client.deliver
  dsimp only
  generalize String.ofList _ = shown
  have hreported := c.report_tells .debug s!"Publishing to {m.topic}: {shown}"
  have hlisteners' : (c.report .debug s!"Publishing to {m.topic}: {shown}").listeners = [] :=
    hlisteners
  have hreport : Event.Quiet (.reported (Log.note .debug component
      s!"Publishing to {m.topic}: {shown}")) := Event.quiet_report (by decide) _
  generalize c.report .debug s!"Publishing to {m.topic}: {shown}" = reported at *
  have hdropped (c : Client) : Tells c [.dropped m] (c.note (.dropped m)) :=
    ⟨rfl, rfl, rfl, rfl, rfl⟩
  have hdrop : Event.Quiet (.dropped m) := fun _ _ hdelays => nomatch hdelays
  split
  · split
    next c' hcall =>
      exact h.passAfter hgone hbackoff (hreported.trans (perform_tells hcall))
        (by simp [hreport, hquiet]) (htally none)
    next message c' hcall =>
      have hlisteners'' : (c'.report .error s!"MQTT error: {message}").detach.listeners = [] := by
        obtain ⟨-, rfl⟩ := Prod.mk.inj hcall
        exact hlisteners'
      have hdetached : Tells c' [.reported (Log.note .error component s!"MQTT error: {message}")]
          (c'.report .error s!"MQTT error: {message}").detach := ⟨rfl, rfl, rfl, rfl, rfl⟩
      have herror : Event.Quiet (.reported (Log.note .error component
          s!"MQTT error: {message}")) := Event.quiet_error (c := 'M') rfl (by decide) _
      obtain ⟨events, hrequeued, hnoted, hcount⟩ := requeue_tells hlisteners'' m
      have htells := ((hreported.trans (perform_tells hcall)).trans hdetached).trans hrequeued
      refine h.passAfter hgone hbackoff htells (fun e he => ?_) ?_
      · simp only [List.mem_append, List.mem_singleton] at he
        rcases he with ((rfl | rfl) | rfl) | hlast
        · exact hreport
        · exact hquiet _
        · exact herror
        · exact hnoted e hlast
      · rw [List.foldl_append, hcount]
        exact htally (some ⟨.protocol, message⟩)
    next r c' _ hcall =>
      exact ⟨_, h.penalizeAfter hgone hbackoff
        ((hreported.trans (perform_tells hcall)).trans (hdropped c'))
        (by simp [hreport, hquiet, hdrop]) (htally (some r)) _⟩
  · exact ⟨_, h.penalizeAfter hgone hbackoff (hreported.trans (hdropped reported))
      (by simp [hreport, hdrop]) rfl _⟩

theorem OnTurn.stopTimer (h : OnTurn n c) : OnTurn n (c.stopTimer n) :=
  ⟨h.wired.stopTimer n, h.bounded, h.uncalled, h.proper, Timers.callOff_heaped h.heaped _⟩

/-- A loop that has got its message has no fetch any more. -/
theorem OnTurn.letGo (h : OnTurn n c) :
    OnTurn n (c.setLoop n { c.loop n with fetch := .gone }) := by
  refine ⟨h.wired.setFetch .gone fun _ => .of_gone rfl _, ?_, ?_, h.proper, h.heaped⟩
  · rw [show (c.setLoop n { c.loop n with fetch := .gone }).loops.size = _ from
      Array.size_setIfInBounds]
    exact h.bounded
  · rw [loop_setLoop_self _ h.bounded]
    exact h.uncalled

theorem OnTurn.withdraw (h : OnTurn n c) (hbackoff : (c.loop n).backoff = pauseAfter refusals)
    (expired : Bool) : Shifted refusals n c [] (c.withdraw n expired) := by
  have hset (listeners : List Nat) (fetch : Fetch) :
      Shifted refusals n c [] ({ c with listeners }.setLoop n
        (withdrawn (c.loop n) expired fetch)) := by
    refine shifted_of_quiet rfl rfl h.heaped ?_
    rw [loop_setLoop_self (c := { c with listeners }) _ h.bounded]
    exact hbackoff
  unfold Client.withdraw
  dsimp only
  split
  · exact hset c.listeners (.starting true)
  · exact hset c.listeners (.summoned true)
  · have hleft := hset (c.listeners.filter (· != n)) .leaving
    exact shifted_of_quiet rfl rfl h.heaped hleft.backoff
  · exact hset c.listeners (c.loop n).fetch

/-- A loop that has got its message delivers it. -/
theorem OnTurn.takeMessage (h : OnTurn n c) (hlisteners : c.listeners = [])
    (hbackoff : (c.loop n).backoff = pauseAfter refusals) (m : Message) :
    ∃ events, Shifted refusals n c events
      (((c.stopTimer n).setLoop n { c.loop n with fetch := .gone }).deliver n m) := by
  have hset := loop_setLoop_self (c := c.stopTimer n) { c.loop n with fetch := .gone }
    h.stopTimer.bounded
  obtain ⟨events, hdelivered⟩ := h.stopTimer.letGo.deliver (congrArg Delivery.fetch hset)
    hlisteners ((congrArg Delivery.backoff hset).trans hbackoff) m
  exact ⟨events, hdelivered.of_past rfl rfl⟩

/-- A loop whose turn comes has it. -/
theorem onTurn_of_wired (hwired : Wired [.goOn (.delivery n)] c) (hproper : c.scene.now.Proper)
    (hheaped : c.scene.schedule.timers.heap.Heaped) :
    OnTurn n (c.setLoop n { c.loop n with called := false, cancelled := false }) := by
  obtain ⟨hn, -, hthen⟩ := hwired.take
  have hleaves := c.setLoop_leaves n { c.loop n with called := false, cancelled := false } rfl
  exact ⟨hthen, hleaves.size ▸ hn, congrArg Delivery.called (hleaves.loop_self hn), hproper,
    hheaped⟩

/-- A turn of a loop. -/
theorem deliveryTurn_shifted (hwired : Wired [.goOn (.delivery n)] c) (horderly : c.Orderly)
    (hproper : c.scene.now.Proper) (hheaped : c.scene.schedule.timers.heap.Heaped)
    (hbackoff : (c.loop n).backoff = pauseAfter refusals) :
    ∃ events, Shifted refusals n c events (c.deliveryTurn n) := by
  have hready := onTurn_of_wired hwired hproper hheaped
  obtain ⟨hn, hcalled, -⟩ := hwired.take
  have hself := loop_setLoop_self { c.loop n with called := false, cancelled := false } hn
  have hgone (hrun : c.running = true) (hawaiting : (c.loop n).stand ≠ .awaiting)
      (hover : (c.loop n).stand ≠ .over) :
      ((c.setLoop n { c.loop n with called := false, cancelled := false }).loop n).fetch =
        .gone := by
    rw [hself]
    exact (hwired.settled hrun n).gone hcalled hawaiting hover
  have hbackoff' :
      ((c.setLoop n { c.loop n with called := false, cancelled := false }).loop n).backoff =
        pauseAfter refusals := by
    rw [hself]
    exact hbackoff
  suffices hshifted : ∃ events, Shifted refusals n
      (c.setLoop n { c.loop n with called := false, cancelled := false }) events
      (c.deliveryTurn n) by
    obtain ⟨events, hshifted⟩ := hshifted
    exact ⟨events, hshifted.of_past rfl rfl⟩
  unfold Client.deliveryTurn
  dsimp only
  have hrunning :
      (c.setLoop n { c.loop n with called := false, cancelled := false }).running = c.running := rfl
  have hlisteners :
      (c.setLoop n { c.loop n with called := false, cancelled := false }).listeners =
        c.listeners := rfl
  generalize c.setLoop n { c.loop n with called := false, cancelled := false } = ready at *
  have hpass (hawaiting : (c.loop n).stand ≠ .awaiting) (hover : (c.loop n).stand ≠ .over) :
      ∃ events, Shifted refusals n ready events (ready.pass n) :=
    hready.pass (fun hrun => hgone (hrunning ▸ hrun) hawaiting hover) hbackoff'
  have hfinish : ∃ events, Shifted refusals n ready events ((ready.stopTimer n).finishLoop n) :=
    ⟨_, (hready.stopTimer.finishLoop hbackoff').of_past rfl rfl⟩
  split
  next hstand =>
    split
    · exact ⟨_, hready.finishLoop hbackoff'⟩
    · exact hpass (by simp [hstand]) (by simp [hstand])
  next hstand =>
    split
    next m hm =>
      have hcurrent := horderly.current_of_stand (n := n) (by simp [hstand])
      exact hready.takeMessage
        (hlisteners.trans (horderly.listeners_eq_nil hcurrent (by simp [hm]))) hbackoff' m
    next => exact ⟨_, hready.withdraw hbackoff' _⟩
  next hstand =>
    split
    · exact hfinish
    · obtain ⟨events, hpassed⟩ := hready.stopTimer.pass
        (fun hrun => hgone (hrunning ▸ hrun) (by simp [hstand]) (by simp [hstand])) hbackoff'
      exact ⟨events, hpassed.of_past rfl rfl⟩
  next hstand =>
    split
    · exact hfinish
    · exact hpass (by simp [hstand]) (by simp [hstand])
  next => exact ⟨_, shifted_of_quiet rfl rfl hready.heaped hbackoff'⟩

end Mqtt.Client

end SupplyGauge
