import SupplyGauge.Proofs.Mqtt.Backoff

/-! # Loops back off

A run of a client gives each of its loops a turn now and then. After a turn at whose end a loop
pauses, its next turn comes when the pause is over, as far as the clock tells, unless the loop is
asked to end, and until then time does not pass the end of the pause. How long the pause is depends
only on how many attempts to connect the protocol has refused to this loop since the last one that
has succeeded.
-/

namespace SupplyGauge.Mqtt

open Schedule

/-- After how many seconds somebody else is to have a turn. -/
def Deed.delay? : Deed → Option Instant
  | .call after _ | .aside (.lend after _) => after
  | _ => none

/-- A turn of a loop: its moment, whether the loop had been asked to end, whether the client was
running without a session, and what has happened in it, in order. -/
structure Shift where
  moment : Instant
  cancelled : Bool
  disconnected : Bool
  events : List Event
  deriving DecidableEq

namespace Client

/-- Loops pause as long as before, and timers stay in order. -/
structure Calm (c c' : Client) : Prop where
  backoff : ∀ i, (c'.loop i).backoff = (c.loop i).backoff
  heaped : c.scene.schedule.timers.heap.Heaped → c'.scene.schedule.timers.heap.Heaped

variable {c c' c'' : Client} {n : Nat} {due : Instant}

theorem Calm.trans (h : Calm c c') (h' : Calm c' c'') : Calm c c'' :=
  ⟨fun i => (h'.backoff i).trans (h.backoff i), fun hheaped => h'.heaped (h.heaped hheaped)⟩

theorem Idle.calm (h : Idle c c') : Calm c c' := ⟨h.backoff, fun hheaped => h.timers ▸ hheaped⟩

theorem calm_of_loops (hloops : c'.loops = c.loops)
    (hheaped : c.scene.schedule.timers.heap.Heaped → c'.scene.schedule.timers.heap.Heaped) :
    Calm c c' :=
  ⟨fun i => by rw [loop_congr hloops], hheaped⟩

theorem Calm.refl (c : Client) : Calm c c := calm_of_loops rfl id

theorem Calm.setLoop (h : Calm c c') {d : Delivery}
    (hbackoff : d.backoff = (c'.loop n).backoff) : Calm c (c'.setLoop n d) := by
  refine ⟨fun i => ?_, h.heaped⟩
  rw [← h.backoff i, loop_setLoop]
  split
  next hi => rw [hi.1, hbackoff]
  next => rfl

theorem Calm.give (h : Calm c c') (turn : Turn) : Calm c (c'.give turn) :=
  ⟨h.backoff, h.heaped⟩

theorem releaseLoop_calm (c : Client) (n wait : Nat) : Calm c (c.releaseLoop n wait) := by
  rcases c.releaseLoop_cases n wait with hsame | ⟨-, -, -, hcall⟩
  · rw [hsame]
    exact .refl c
  · rw [hcall]
    refine Calm.give ?_ _
    exact (Calm.refl c).setLoop rfl

theorem cancelLoop_calm (c : Client) (n : Nat) : Calm c (c.cancelLoop n) := by
  unfold Client.cancelLoop
  dsimp only
  split
  · exact .refl c
  · split
    · exact (Calm.refl c).setLoop rfl
    · refine Calm.give ?_ _
      exact (Calm.refl c).setLoop rfl

theorem beginStop_calm (c : Client) : Calm c c.beginStop.2 := by
  have hquit : Calm c { c with running := false } := calm_of_loops rfl id
  unfold Client.beginStop
  dsimp only
  split
  next => exact hquit
  next n _ =>
    have hcancelled := hquit.trans (cancelLoop_calm { c with running := false } n)
    split
    · exact hcancelled
    · exact hcancelled.setLoop rfl

/-- A loop that is started pauses no longer than one that has always been there. -/
theorem start_calm (c : Client) : Calm c c.start := by
  refine ⟨fun i => ?_, id⟩
  rw [start_loop]
  split
  next hi => rw [hi, loop_of_size_le (Nat.le_refl _)]
  next => rfl

theorem lend_calm (hproper : c.scene.now.Proper) {after : Option Instant}
    (hafter : after ≠ some .nan) (turn : Turn) :
    Calm c { c with scene := c.scene.lend after turn } := by
  refine calm_of_loops rfl fun hheaped => ?_
  cases after with
  | none => exact hheaped
  | some seconds => exact hheaped.insert (Schedule.add_ne_nan hproper fun heq => hafter (heq ▸ rfl))

theorem errand_calm (hproper : c.scene.now.Proper) {e : Errand}
    (he : (Deed.aside e).delay? ≠ some .nan) :
    Calm c { c with scene := e.perform c.scene } := by
  unfold Errand.perform
  split
  next => exact calm_of_loops rfl id
  next => split <;> exact calm_of_loops rfl id
  next => exact calm_of_loops rfl id
  next after turn =>
    split
    · exact lend_calm hproper he turn
    · exact .refl c
  next number =>
    split
    · exact calm_of_loops rfl fun hheaped => Timers.callOff_heaped hheaped number
    · exact .refl c

theorem Leaves.concerns {d : Delivery} (h : Leaves c n c' d) : Concerns c n c' :=
  ⟨h.running, fun _ hi => h.loop_of_ne hi⟩

/-- A turn of a loop does not touch the others. -/
theorem deliveryTurn_concerns (horderly : c.Orderly) (n : Nat) :
    Concerns c n (c.deliveryTurn n) := by
  by_cases hover : (c.loop n).stand = .over
  · have hsame : c.deliveryTurn n =
        c.setLoop n { c.loop n with called := false, cancelled := false } := by
      simp [Client.deliveryTurn, hover]
    rw [hsame]
    exact c.setLoop_concerns n _
  · have hflags := c.setLoop_concerns n { c.loop n with called := false, cancelled := false }
    have hcurrent := horderly.current_of_stand hover
    have hbounded : n < (c.setLoop n { c.loop n with
        called := false, cancelled := false }).loops.size := by
      rw [show (c.setLoop n _).loops.size = _ from Array.size_setIfInBounds]
      exact horderly.bounded n hcurrent
    have hlisteners :
        (c.setLoop n { c.loop n with called := false, cancelled := false }).listeners =
          c.listeners := rfl
    unfold Client.deliveryTurn
    dsimp only
    generalize c.setLoop n { c.loop n with called := false, cancelled := false } = ready at *
    refine hflags.trans ?_
    have hpass : Concerns ready n (ready.pass n) := by
      obtain ⟨d, hleaves, -⟩ := ready.pass_rests n hbounded
      exact hleaves.concerns
    have hstopped : Concerns ready n (ready.stopTimer n) := (ready.stopTimer_spares n).concerns
    split
    next =>
      split
      · exact ready.finishLoop_concerns n
      · exact hpass
    next =>
      split
      next m hm =>
        have hlet := hstopped.trans
          ((ready.stopTimer n).setLoop_concerns n { ready.loop n with fetch := .gone })
        have hsize : n < ((ready.stopTimer n).setLoop n
            { ready.loop n with fetch := .gone }).loops.size := by
          rw [show ((ready.stopTimer n).setLoop n _).loops.size = _ from Array.size_setIfInBounds]
          exact hbounded
        obtain ⟨d, hleaves, -⟩ := deliver_rests _ n m hsize
          (hlisteners.trans (horderly.listeners_eq_nil hcurrent (by simp [hm])))
        exact hlet.trans hleaves.concerns
      next => exact ready.withdraw_concerns n _
    next =>
      split
      · exact hstopped.trans (finishLoop_concerns _ n)
      · obtain ⟨d, hleaves, -⟩ := (ready.stopTimer n).pass_rests n hbounded
        exact hstopped.trans hleaves.concerns
    next =>
      split
      · exact hstopped.trans (finishLoop_concerns _ n)
      · exact hpass
    next => exact ⟨rfl, fun _ _ => rfl⟩

theorem takeTurn_calm (horderly : c.Orderly) {turn : Turn}
    (hturn : ∀ i, turn ≠ .goOn (.delivery i)) : Calm c (c.takeTurn turn) := by
  unfold Client.takeTurn
  split
  next i => exact absurd rfl (hturn i)
  next i => exact (fetchTurn_idle horderly i).calm
  next => exact c.releaseLoop_calm _ _
  next => exact (Calm.refl c).give _
  next => exact .refl c

/-- Whether an attempt to connect has been made, or the settings cannot be written. -/
def Tried (events : List Event) : Prop :=
  (∃ e ∈ events, e.isAttempt = true) ∨
    ∃ f, .reported (failureEntry (.unwritable f)) ∈ events

theorem Trial.attempts {result : Except ClientError Unit} {events : List Event}
    (h : Trial result events) :
    (∃ e ∈ events, e.isAttempt = true) ∨ ∃ f, result = .error (.unwritable f) := by
  cases h with
  | untried f => exact .inr ⟨f, rfl⟩
  | refused | unannounced | done => exact .inl (by simp [Event.isAttempt])

/-- A pass without a session is an attempt to connect. -/
theorem pass_tries (hrunning : c.running = true) (hconnected : c.connected = false) (n : Nat) :
    ∃ events, (c.pass n).scene.past =
      (events.map fun e => (c.scene.now, e)).reverse ++ c.scene.past ∧ Tried events := by
  obtain ⟨events, htrial, htells⟩ := c.connect_trial
  rcases hconnect : c.connect with ⟨result, c'⟩
  rw [hconnect] at htrial htells
  have hattempts := htrial.attempts
  unfold Client.pass
  rw [if_pos hrunning, if_neg (by simp [hconnected]), hconnect]
  dsimp only at hattempts htells ⊢
  split
  next heq =>
    obtain ⟨rfl, rfl⟩ := Prod.mk.inj heq
    exact ⟨events, htells.past, .inl (hattempts.resolve_right (by simp))⟩
  next message _ heq =>
    obtain ⟨rfl, rfl⟩ := Prod.mk.inj heq
    obtain ⟨e, he, hattempt⟩ := hattempts.resolve_right (by simp)
    exact ⟨_, (htells.trans (c'.report_tells .error s!"Failed to connect to MQTT: {message}")).past,
      .inl ⟨e, List.mem_append_left _ he, hattempt⟩⟩
  next e _ _ heq =>
    obtain ⟨rfl, rfl⟩ := Prod.mk.inj heq
    refine ⟨_, (htells.trans (c'.report_tells .error s!"Publisher loop error: {e.message}")).past,
      ?_⟩
    rcases hattempts with ⟨e, he, hattempt⟩ | ⟨f, hf⟩
    · exact .inl ⟨e, List.mem_append_left _ he, hattempt⟩
    · obtain rfl := Except.error.inj hf
      exact .inr ⟨f, List.mem_append_right _ List.mem_cons_self⟩

/-- When a loop that sleeps has its turn, its moment has come and has not passed, and it goes on; or
the loop has been asked to end, and then nothing happens. -/
theorem Asleep.wakes (h : Asleep due [.goOn (.delivery n)] c n)
    (hwired : Wired [.goOn (.delivery n)] c) :
    c.scene.now.le due = true ∧
      if (c.loop n).cancelled then (c.deliveryTurn n).scene.past = c.scene.past
      else Reached due c.scene.now ∧ ((c.running && !c.connected) = true →
        ∃ events, (c.deliveryTurn n).scene.past =
          (events.map fun e => (c.scene.now, e)).reverse ++ c.scene.past ∧ Tried events) := by
  obtain ⟨-, hcalled, -⟩ := hwired.take
  refine ⟨h.early, ?_⟩
  let ready := c.setLoop n { c.loop n with called := false, cancelled := false }
  have hturn : c.deliveryTurn n =
      if (c.loop n).cancelled then (ready.stopTimer n).finishLoop n else ready.pass n := by
    simp [Client.deliveryTurn, h.stand, ready]
  rw [hturn]
  split
  next hcancelled =>
    dsimp only [Client.finishLoop]
    split <;> rfl
  next hcancelled =>
    refine ⟨(h.called hcalled).2.resolve_left hcancelled, fun hlost => ?_⟩
    obtain ⟨hrunning, hconnected⟩ : c.running = true ∧ c.connected = false := by simpa using hlost
    exact pass_tries (c := ready) hrunning hconnected n

end Client

namespace Course

open Client

/-- The turn of a loop that a deed comes to, if it comes to one. -/
def shift? (p : Course) (n : Nat) (deed : Deed) : Option Shift :=
  match deed, p.client.scene.next? with
  | .goOn, some (.goOn (.delivery i), scene) =>
    if i = n then
      some {
        moment := scene.now
        cancelled := (p.client.loop n).cancelled
        disconnected := p.client.running && !p.client.connected
        events := (p.act deed).client.events.drop p.client.events.length }
    else none
  | _, _ => none

/-- The turns of a loop in a run. -/
def shifts (p : Course) (n : Nat) : List Deed → List Shift
  | [] => []
  | deed :: deeds => (p.shift? n deed).toList ++ (p.act deed).shifts n deeds

/-- Whether a loop sleeps for some seconds from a moment on, where `later` are its turns after that
and `p` is what the run has come to. Its next turn comes when the seconds are over, as far as the
clock tells, and no later, and then the loop tries to connect if there is no session. If it has been
asked to end, the turn may come before, but then nothing is called in it. As long as the turn has
not come, the seconds are not over. -/
def Sleeps (p : Course) (start : Instant) (seconds : Nat) (later : List Shift) : Prop :=
  match later with
  | [] => p.client.scene.now.le (start.add (.ofInt seconds)) = true
  | next :: _ => next.moment.le (start.add (.ofInt seconds)) = true ∧
      if next.cancelled then ∀ e ∈ next.events, e.call? = none
      else Reached (start.add (.ofInt seconds)) next.moment ∧
        (next.disconnected = true → Tried next.events)

/-- What holds in every run of a client in which nobody sets a timer for no moment at all. -/
structure Punctual (p : Course) : Prop where
  sound : p.Sound
  timely : p.client.Timely
  heaped : p.client.scene.schedule.timers.heap.Heaped
  doubling : ∀ i, ∃ refusals, (p.client.loop i).backoff = pauseAfter refusals

variable {p : Course} {n refusals : Nat} {due : Instant}

theorem act_calm (h : p.Punctual) {deed : Deed} (hgoOn : deed ≠ .goOn)
    (hdeed : deed.delay? ≠ some .nan) : Calm p.client (p.act deed).client := by
  have hproper := h.timely.proper
  cases deed with
  | publish topic payload retain =>
      have hpublished := (publish_idle h.sound.orderly topic payload retain).calm
      dsimp only [Course.act, Course.publish]
      split
      all_goals
        next hanswer =>
          rw [hanswer] at hpublished
          exact hpublished
  | start =>
      dsimp only [Course.act]
      split
      · exact p.client.start_calm
      · exact .refl _
  | stop =>
      have hbegun := p.client.beginStop_calm
      dsimp only [Course.act, Course.stop]
      split
      · split
        all_goals
          next hbegin =>
            rw [hbegin] at hbegun
            first
            | exact hbegun
            | exact hbegun.trans (finishStop_idle _).calm
      · exact .refl _
  | connect => exact p.client.connect_idle.calm
  | disconnect => exact p.client.disconnect_idle.calm
  | leave =>
      dsimp only [Course.act]
      split <;> exact .refl _
  | call after turn =>
      dsimp only [Course.act]
      split
      · exact lend_calm hproper hdeed turn
      · exact .refl _
  | aside e => exact errand_calm hproper hdeed
  | goOn => exact absurd rfl hgoOn

/-- What a loop sleeps through. -/
theorem act_asleep (h : p.Punctual) (hasleep : Asleep due [] p.client n) {deed : Deed}
    (hgoOn : deed ≠ .goOn) : Asleep due [] (p.act deed).client n := by
  have horderly := h.sound.orderly
  cases deed with
  | publish topic payload retain =>
      have hpublished := hasleep.idle (publish_idle horderly topic payload retain)
      dsimp only [Course.act, Course.publish]
      split
      all_goals
        next hanswer =>
          rw [hanswer] at hpublished
          exact hpublished
  | start =>
      have hcurrent := horderly.current_of_stand (n := n) (by rw [hasleep.stand]; decide)
      dsimp only [Course.act]
      rw [if_neg (by simp [hcurrent])]
      exact hasleep
  | stop =>
      obtain ⟨hbegun, htrue⟩ := hasleep.beginStop horderly
      dsimp only [Course.act, Course.stop]
      split
      · split
        next hbegin =>
          rw [hbegin] at hbegun
          exact hbegun
        next hbegin =>
          rw [hbegin] at htrue
          contradiction
      · exact hasleep
  | connect => exact hasleep.idle p.client.connect_idle
  | disconnect => exact hasleep.idle p.client.disconnect_idle
  | leave =>
      dsimp only [Course.act]
      split <;> exact hasleep
  | call after turn =>
      dsimp only [Course.act]
      split
      next haway => exact hasleep.lend after (concerns_of_isCallers haway.2 n)
      next => exact hasleep
  | aside e => exact hasleep.errand e
  | goOn => exact absurd rfl hgoOn

/-! ## Turns that come -/

theorem shift?_of_next? {scene : Scene}
    (hnext : p.client.scene.next? = some (.goOn (.delivery n), scene)) :
    p.shift? n .goOn = some {
      moment := scene.now
      cancelled := (p.client.loop n).cancelled
      disconnected := p.client.running && !p.client.connected
      events := p.goOn.client.events.drop p.client.events.length } := by
  unfold shift?
  rw [hnext]
  exact if_pos rfl

theorem next?_of_shift? {deed : Deed} {shift : Shift} (hshift : p.shift? n deed = some shift) :
    deed = .goOn ∧ ∃ scene, p.client.scene.next? = some (.goOn (.delivery n), scene) := by
  unfold shift? at hshift
  split at hshift
  next i scene hnext =>
    split at hshift
    next hi => exact ⟨rfl, scene, hi ▸ hnext⟩
    next => contradiction
  next => contradiction

theorem goOn_of_next? {turn : Turn} {scene : Scene}
    (hnext : p.client.scene.next? = some (turn, scene)) (hturn : turn ≠ .goOn .caller) :
    p.goOn.client = { p.client with scene }.takeTurn turn := by
  unfold Course.goOn
  rw [hnext]
  split
  next heq => contradiction
  next heq => exact absurd (Prod.mk.inj (Option.some.inj heq)).1 hturn
  next heq =>
    obtain ⟨rfl, rfl⟩ := Prod.mk.inj (Option.some.inj heq)
    rfl

theorem resume_idle (p : Course) : Idle p.client p.resume.client := by
  unfold Course.resume
  split
  next => exact p.client.finishStop_idle
  next => exact idle_of_eq _ _ rfl rfl rfl

/-- What it comes to that the next turn is taken: there is none, it is the caller's, or another. -/
theorem goOn_cases (p : Course) : p.goOn = p ∨
    ∃ turn scene, p.client.scene.next? = some (turn, scene) ∧
      (turn = .goOn .caller ∧ Idle { p.client with scene } p.goOn.client ∨
        p.goOn.client = { p.client with scene }.takeTurn turn) := by
  cases hnext : p.client.scene.next? with
  | none =>
      refine .inl ?_
      unfold Course.goOn
      rw [hnext]
  | some next =>
      obtain ⟨turn, scene⟩ := next
      refine .inr ⟨turn, scene, rfl, ?_⟩
      by_cases hcaller : turn = .goOn .caller
      · subst hcaller
        refine .inl ⟨rfl, ?_⟩
        unfold Course.goOn
        rw [hnext]
        exact resume_idle { p with client := { p.client with scene } }
      · exact .inr (goOn_of_next? hnext hcaller)

/-- What has happened in a turn of a loop. -/
theorem goOn_events {scene : Scene}
    (hnext : p.client.scene.next? = some (.goOn (.delivery n), scene)) {events : List Event}
    (hpast : ({ p.client with scene }.deliveryTurn n).scene.past =
      (events.map fun e => (scene.now, e)).reverse ++ scene.past) :
    p.goOn.client.events.drop p.client.events.length = events := by
  have hclient : p.goOn.client = { p.client with scene }.deliveryTurn n :=
    goOn_of_next? hnext (by simp)
  have hevents : p.goOn.client.events = p.client.events ++ events := by
    unfold Client.events Scene.events
    rw [hclient, hpast, (Scene.next?_turns_subperm hnext).2]
    simp [Function.comp_def]
  rw [hevents, List.drop_left]

/-- A turn of a loop, where a client is used. -/
theorem goOn_shifted (h : p.Punctual) {scene : Scene}
    (hnext : p.client.scene.next? = some (.goOn (.delivery n), scene))
    (hbackoff : (p.client.loop n).backoff = pauseAfter refusals) :
    Shifted refusals n { p.client with scene }
      (p.goOn.client.events.drop p.client.events.length) p.goOn.client := by
  obtain ⟨⟨hproper, -⟩, -, -⟩ := Scene.next?_soon h.timely.proper hnext
  obtain ⟨-, -, hheaped⟩ := Scene.next?_keeps hnext
  obtain ⟨events, hshifted⟩ := deliveryTurn_shifted (h.timely.paced.next hnext).wired
    (h.sound.orderly.congr rfl rfl rfl) hproper (hheaped h.heaped).1 hbackoff
  rw [goOn_events hnext hshifted.past, goOn_of_next? hnext (by simp)]
  exact hshifted

/-- What is no turn of a loop leaves how long it pauses alone, and lets it sleep. -/
theorem goOn_sleeps (h : p.Punctual) (hnone : p.shift? n .goOn = none) :
    (p.goOn.client.loop n).backoff = (p.client.loop n).backoff ∧
      ∀ due, Asleep due [] p.client n → Asleep due [] p.goOn.client n := by
  rcases p.goOn_cases with hsame | ⟨turn, scene, hnext, hturns⟩
  · rw [hsame]
    exact ⟨rfl, fun _ => id⟩
  have horderly : Orderly { p.client with scene } := h.sound.orderly.congr rfl rfl rfl
  have hcomes {due : Instant} (hasleep : Asleep due [] p.client n) :
      Asleep due [turn] { p.client with scene } n :=
    hasleep.next h.timely.proper h.heaped hnext
  rcases hturns with ⟨rfl, hidle⟩ | htaken
  · exact ⟨hidle.backoff n, fun _ hasleep => ((hcomes hasleep).drop rfl).idle hidle⟩
  · have hturn : turn ≠ .goOn (.delivery n) := by
      rintro rfl
      rw [shift?_of_next? hnext] at hnone
      contradiction
    rw [htaken]
    refine ⟨?_, fun _ hasleep => (hcomes hasleep).takeTurn horderly hturn⟩
    by_cases hdelivery : ∃ i, turn = .goOn (.delivery i)
    · obtain ⟨i, rfl⟩ := hdelivery
      have hi : n ≠ i := by
        rintro rfl
        exact hturn rfl
      exact congrArg Delivery.backoff ((deliveryTurn_concerns horderly i).others n hi)
    · exact (takeTurn_calm horderly (not_exists.mp hdelivery)).backoff n

theorem act_sleeps (h : p.Punctual) {deed : Deed} (hdeed : deed.delay? ≠ some .nan)
    (hnone : p.shift? n deed = none) :
    ((p.act deed).client.loop n).backoff = (p.client.loop n).backoff ∧
      ∀ due, Asleep due [] p.client n → Asleep due [] (p.act deed).client n := by
  by_cases hgoOn : deed = .goOn
  · subst hgoOn
    exact goOn_sleeps h hnone
  · exact ⟨(act_calm h hgoOn hdeed).backoff n, fun _ hasleep => act_asleep h hasleep hgoOn⟩

theorem goOn_heaped (h : p.Punctual) :
    p.goOn.client.scene.schedule.timers.heap.Heaped := by
  rcases p.goOn_cases with hsame | ⟨turn, scene, hnext, hturns⟩
  · rw [hsame]
    exact h.heaped
  have hheaped := ((Scene.next?_keeps hnext).2.2 h.heaped).1
  rcases hturns with ⟨-, hidle⟩ | htaken
  · exact hidle.calm.heaped hheaped
  · by_cases hdelivery : ∃ i, turn = .goOn (.delivery i)
    · obtain ⟨i, rfl⟩ := hdelivery
      obtain ⟨_, hbackoff⟩ := h.doubling i
      exact (goOn_shifted h hnext hbackoff).heaped
    · have hcalm := takeTurn_calm (c := { p.client with scene })
        (h.sound.orderly.congr rfl rfl rfl) (not_exists.mp hdelivery)
      rw [htaken]
      exact hcalm.heaped hheaped

theorem act_punctual (h : p.Punctual) {deed : Deed} (hdeed : deed.delay? ≠ some .nan) :
    (p.act deed).Punctual := by
  have hact : Progress True p (p.act deed) := act_progress h.sound deed (.inl trivial)
  refine ⟨hact.sound, act_timely h.timely h.sound deed, ?_, fun i => ?_⟩
  · by_cases hgoOn : deed = .goOn
    · subst hgoOn
      exact goOn_heaped h
    · exact (act_calm h hgoOn hdeed).heaped h.heaped
  · obtain ⟨refusals, hbackoff⟩ := h.doubling i
    cases hshift : p.shift? i deed with
    | none => exact ⟨refusals, (act_sleeps h hdeed hshift).1.trans hbackoff⟩
    | some shift =>
        obtain ⟨rfl, scene, hnext⟩ := next?_of_shift? hshift
        exact ⟨_, (goOn_shifted h hnext hbackoff).backoff⟩

/-! ## Runs -/

variable {deeds : List Deed}

/-- A loop that sleeps does so until its next turn. -/
theorem sleeps_of_asleep (h : p.Punctual) {start : Instant} {seconds : Nat}
    (hasleep : Asleep (start.add (.ofInt seconds)) [] p.client n)
    (hdeeds : ∀ deed ∈ deeds, deed.delay? ≠ some .nan) :
    Sleeps (p.run deeds) start seconds (p.shifts n deeds) := by
  -- deed by deed, the loop is either still asleep or has its next turn
  induction deeds generalizing p with
  | nil => exact hasleep.early
  | cons deed deeds ih =>
      have hdeed := hdeeds deed List.mem_cons_self
      cases hshift : p.shift? n deed with
      | none =>
          rw [shifts, hshift]
          exact ih (act_punctual h hdeed) ((act_sleeps h hdeed hshift).2 _ hasleep)
            fun d hd => hdeeds d (List.mem_cons_of_mem _ hd)
      | some shift =>
          obtain ⟨rfl, scene, hnext⟩ := next?_of_shift? hshift
          obtain ⟨_, hbackoff⟩ := h.doubling n
          obtain rfl := Option.some.inj ((shift?_of_next? hnext).symm.trans hshift)
          obtain ⟨hle, hwakes⟩ := (hasleep.next h.timely.proper h.heaped hnext).wakes
            (h.timely.paced.next hnext).wired
          rw [shifts, hshift]
          refine ⟨hle, ?_⟩
          change if (p.client.loop n).cancelled then _ else _ at hwakes
          change if (p.client.loop n).cancelled then _ else _
          split at hwakes
          next hcancelled =>
            have hnothing : p.goOn.client.events.drop p.client.events.length = [] :=
              goOn_events hnext hwakes
            simp [hcancelled, hnothing]
          next hcancelled =>
            obtain ⟨hreached, htries⟩ := hwakes
            rw [if_neg hcancelled]
            refine ⟨hreached, fun hlost => ?_⟩
            obtain ⟨events, hpast, htried⟩ := htries hlost
            have hevents : p.goOn.client.events.drop p.client.events.length = events :=
              goOn_events hnext hpast
            exact hevents ▸ htried

/-- Every pause in a run is as long as the refusals before it tell; `refusals` are those before the
run. -/
theorem run_sleeps (h : p.Punctual) (hbackoff : (p.client.loop n).backoff = pauseAfter refusals)
    (hdeeds : ∀ deed ∈ deeds, deed.delay? ≠ some .nan) {earlier later : List Shift} {shift : Shift}
    (hshifts : p.shifts n deeds = earlier ++ shift :: later) {before after : List Event} {e : Event}
    (hevents : shift.events = before ++ e :: after) {seconds : Nat}
    (hdelays : e.Delays ((earlier.flatMap (·.events) ++ before).foldl Event.tally refusals)
      seconds) :
    (∀ e' ∈ after, e'.call? = none) ∧ Sleeps (p.run deeds) shift.moment seconds later := by
  induction deeds generalizing p refusals earlier with
  | nil => exact absurd hshifts (by simp [shifts])
  | cons deed deeds ih =>
      have hdeed := hdeeds deed List.mem_cons_self
      have hothers : ∀ d ∈ deeds, d.delay? ≠ some .nan :=
        fun d hd => hdeeds d (List.mem_cons_of_mem _ hd)
      have hact := act_punctual h hdeed
      rw [shifts] at hshifts
      cases hshift : p.shift? n deed with
      | none =>
          rw [hshift] at hshifts
          exact ih hact ((act_sleeps h hdeed hshift).1.trans hbackoff) hothers
            hshifts hdelays
      | some first =>
          obtain ⟨rfl, scene, hnext⟩ := next?_of_shift? hshift
          have hshifted := goOn_shifted h hnext hbackoff
          obtain rfl := Option.some.inj ((shift?_of_next? hnext).symm.trans hshift)
          rw [hshift] at hshifts
          cases earlier with
          | nil =>
              obtain ⟨rfl, rfl⟩ := List.cons.inj hshifts
              obtain ⟨hquiet, hasleep⟩ := hshifted.rests before e after seconds hevents hdelays
              exact ⟨hquiet, sleeps_of_asleep hact hasleep hothers⟩
          | cons first' earlier =>
              obtain ⟨rfl, hrest⟩ := List.cons.inj hshifts
              refine ih hact hshifted.backoff hothers hrest ?_
              rwa [List.flatMap_cons, List.append_assoc, List.foldl_append] at hdelays

variable (settings : Config.MqttSettings) (availabilityTopic : String)
  (identifier : Config.Scalar) (now : Instant) (script : Script)

theorem fresh_punctual (hnow : now.Proper) :
    (fresh settings availabilityTopic identifier now script).Punctual where
  sound := fresh_sound settings availabilityTopic identifier now script
  timely := fresh_timely settings availabilityTopic identifier now script hnow
  heaped := TimerHeap.heaped_empty
  doubling _ := ⟨0, congrArg Delivery.backoff (loop_of_size_le (Nat.zero_le _))⟩

/-- Whatever the broker answers: when the protocol refuses an attempt of a loop to connect, the loop
calls nobody any more in that turn and then sleeps, for five seconds, twice as long for each attempt
refused before since the last one that has succeeded, and at most for a minute. After any other
failure it sleeps for a second. -/
theorem backoff_doubles (hnow : now.Proper) {deeds : List Deed}
    (hdeeds : ∀ deed ∈ deeds, deed.delay? ≠ some .nan) (n : Nat) {earlier later : List Shift}
    {shift : Shift}
    (hshifts : (fresh settings availabilityTopic identifier now script).shifts n deeds =
      earlier ++ shift :: later)
    {before after : List Event} {e : Event} (hevents : shift.events = before ++ e :: after)
    {seconds : Nat}
    (hdelays : e.Delays ((earlier.flatMap (·.events) ++ before).foldl Event.tally 0) seconds) :
    (∀ e' ∈ after, e'.call? = none) ∧
      Sleeps ((fresh settings availabilityTopic identifier now script).run deeds) shift.moment
        seconds later :=
  have hfresh := fresh_punctual settings availabilityTopic identifier now script hnow
  run_sleeps hfresh (congrArg Delivery.backoff (loop_of_size_le (Nat.zero_le n))) hdeeds hshifts
    hevents hdelays

/-- A client whose broker refuses three attempts, the second one for another reason. -/
def retriedRun : Course :=
  fresh {} "power_supply_metrics/status" (.text "cid") .zero
    { entering := [some ⟨.protocol, "refused"⟩, some ⟨.system, "unreachable"⟩,
        some ⟨.protocol, "refused again"⟩] }

/-- The turns until a session is open. -/
def retriedDeeds : List Deed := .start :: List.replicate 9 .goOn

def connecting : Event :=
  .reported (Log.note .debug component "Connecting to MQTT broker localhost:1883 as cid")

/-- A turn in which an attempt of this client is refused. -/
def refusedShift (seconds : Int) (kind : RefusalKind) (start message : String) : Shift where
  moment := .ofInt seconds
  cancelled := false
  disconnected := true
  events := [connecting, .called (.enter retriedRun.client.connection) (some ⟨kind, message⟩),
    .reported (Log.note .error component (start ++ message))]

/-- Its first two turns. The second one is not counted. -/
def refusedShifts : List Shift :=
  [refusedShift 0 .protocol "Failed to connect to MQTT: " "refused",
    refusedShift 5 .system "Publisher loop error: " "unreachable"]

/-- The turn in which the protocol refuses an attempt again. -/
def lastRefusedShift : Shift :=
  refusedShift 6 .protocol "Failed to connect to MQTT: " "refused again"

/-- After the third refusal, which is the second one by the protocol, the loop sleeps for ten
seconds. -/
theorem backoff_doubles_retriedRun : Instant.Proper .zero ∧
    (∀ deed ∈ retriedDeeds, deed.delay? ≠ some .nan) ∧
    ∃ later, retriedRun.shifts 0 retriedDeeds = refusedShifts ++ lastRefusedShift :: later ∧
      later.map (·.moment) = [.ofInt 16] ∧
      Sleeps (retriedRun.run retriedDeeds) lastRefusedShift.moment 10 later := by
  have hzero : Instant.Proper .zero := ⟨0, rfl⟩
  have hdeeds : ∀ deed ∈ retriedDeeds, deed.delay? ≠ some .nan := by
    simp [retriedDeeds, Deed.delay?]
  have hshifts : retriedRun.shifts 0 retriedDeeds = refusedShifts ++ lastRefusedShift ::
      (retriedRun.shifts 0 retriedDeeds).drop 3 := by decide +kernel
  have hmoments : ((retriedRun.shifts 0 retriedDeeds).drop 3).map (·.moment) = [.ofInt 16] := by
    decide +kernel
  have hevents : lastRefusedShift.events = [connecting] ++
      .called (.enter retriedRun.client.connection) (some ⟨.protocol, "refused again"⟩) ::
        [.reported (Log.note .error component "Failed to connect to MQTT: refused again")] := rfl
  have hcount : (refusedShifts.flatMap Shift.events ++ [connecting]).foldl Event.tally 0 = 1 := by
    decide +kernel
  have hdelays : Event.Delays
      ((refusedShifts.flatMap Shift.events ++ [connecting]).foldl Event.tally 0)
      (.called (.enter retriedRun.client.connection) (some ⟨.protocol, "refused again"⟩)) 10 := by
    rw [hcount]
    exact .refused _ _ rfl
  generalize (retriedRun.shifts 0 retriedDeeds).drop 3 = later at hshifts hmoments
  obtain ⟨-, hsleeps⟩ := backoff_doubles {} "power_supply_metrics/status" (.text "cid") .zero
    { entering := [some ⟨.protocol, "refused"⟩, some ⟨.system, "unreachable"⟩,
        some ⟨.protocol, "refused again"⟩] }
    hzero hdeeds 0 hshifts hevents hdelays
  exact ⟨hzero, hdeeds, later, hshifts, hmoments, hsleeps⟩

end Course

end SupplyGauge.Mqtt
