import SupplyGauge.Proofs.Mqtt.Commands

/-! # A loop goes on until it is asked to end

Whatever the broker answers, and however long a loop waits for messages, the loop is
over only after the client has been stopped. A turn brings a loop to its end only
where it was asked to end before, or where the client is not to run any more. This
needs no order among the loops, so it holds also of a client that is started again
while it still has a loop.
-/

namespace SupplyGauge.Mqtt

/-- Whether a loop is over, is on its way to its end, or ends at its next turn. -/
def Delivery.Asked (d : Delivery) : Prop :=
  d.cancelled = true ∨ d.stand = .withdrawing false ∨ d.stand = .over

namespace Client

/-- A client comes to another one in which, if it is to run, no other loops are asked to end. -/
structure Endures (c c' : Client) : Prop where
  running : c'.running = c.running
  asked : c.running = true → ∀ i, (c'.loop i).Asked → (c.loop i).Asked

/-- A client comes to another one by what only concerns loop `n`. -/
structure Concerns (c : Client) (n : Nat) (c' : Client) : Prop where
  running : c'.running = c.running
  others : ∀ i, i ≠ n → c'.loop i = c.loop i

variable {c c' c'' : Client} {n : Nat}

theorem Endures.trans (h : Endures c c') (h' : Endures c' c'') : Endures c c'' where
  running := h'.running.trans h.running
  asked hrunning i hasked := h.asked hrunning i (h'.asked (h.running.trans hrunning) i hasked)

theorem Endures.of_loops (hloops : c'.loops = c.loops) (hrunning : c'.running = c.running) :
    Endures c c' where
  running := hrunning
  asked _ i := by
    rw [loop, loop, hloops]
    exact id

theorem Endures.refl (c : Client) : Endures c c := .of_loops rfl rfl

/-- What comes to pass beside the loops. -/
theorem Endures.beside (h : Endures c c') (hloops : c''.loops = c'.loops)
    (hrunning : c''.running = c'.running) : Endures c c'' :=
  h.trans (.of_loops hloops hrunning)

theorem Spares.endures (h : Spares c n c') : Endures c c' := .of_loops h.loops_eq h.running

theorem Concerns.trans (h : Concerns c n c') (h' : Concerns c' n c'') : Concerns c n c'' where
  running := h'.running.trans h.running
  others i hi := (h'.others i hi).trans (h.others i hi)

theorem Concerns.endures (h : Concerns c n c')
    (hasked : c.running = true → (c'.loop n).Asked → (c.loop n).Asked) : Endures c c' where
  running := h.running
  asked hrunning i hi := by
    by_cases hin : i = n
    · subst hin
      exact hasked hrunning hi
    · rwa [h.others i hin] at hi

theorem setLoop_concerns (c : Client) (n : Nat) (d : Delivery) : Concerns c n (c.setLoop n d) where
  running := rfl
  others i hi := by
    rw [loop_setLoop]
    exact if_neg fun h => hi h.1

/-- A loop that is not over exists, so what becomes of any loop can be read off its new state. -/
theorem setLoop_endures {d : Delivery} (hd : c.running = true → d.Asked → (c.loop n).Asked) :
    Endures c (c.setLoop n d) := by
  refine (c.setLoop_concerns n d).endures fun hrunning hasked => ?_
  rw [loop_setLoop] at hasked
  split at hasked
  · exact hd hrunning hasked
  · exact hasked

/-- A change of anything about a loop but whether it is asked to end. -/
theorem Endures.setLoop {d : Delivery} (h : Endures c c')
    (hcancelled : d.cancelled = (c'.loop n).cancelled) (hstand : d.stand = (c'.loop n).stand) :
    Endures c (c'.setLoop n d) :=
  h.trans (setLoop_endures fun _ hasked => by rwa [Delivery.Asked, hcancelled, hstand] at hasked)

theorem Endures.give (h : Endures c c') (turn : Turn) : Endures c (c'.give turn) :=
  h.beside rfl rfl

theorem beginWait_endures (c : Client) (n : Nat) (stand : Stand) (seconds : Nat)
    (hstand : stand ≠ .withdrawing false ∧ stand ≠ .over) :
    Endures c (c.beginWait n stand seconds) := by
  have hscene (scene : Scene) : Endures c { c with scene } := .of_loops rfl rfl
  refine (hscene _).trans (setLoop_endures fun _ hasked => ?_)
  rcases hasked with hcancelled | hwithdrawing | hover
  · exact .inl hcancelled
  · exact absurd hwithdrawing hstand.1
  · exact absurd hover hstand.2

theorem awaitMessage_endures (c : Client) (n : Nat) : Endures c (c.awaitMessage n) := by
  have hwait := c.beginWait_endures n .awaiting 1 (by decide)
  refine Endures.give ?_ (.goOn (.fetch n))
  exact .setLoop hwait rfl rfl

theorem penalize_endures (c : Client) (n : Nat) (e : ClientError) : Endures c (c.penalize n e) := by
  have hlost : Endures c { c.report .error s!"Publisher loop error: {e.message}" with
      connected := false } := .of_loops rfl rfl
  exact hlost.trans (beginWait_endures _ n .pausing 1 (by decide))

theorem backOff_endures (c : Client) (n : Nat) (message : String) :
    Endures c (c.backOff n message) := by
  have hreport : Endures c (c.report .error s!"Failed to connect to MQTT: {message}") :=
    .of_loops rfl rfl
  refine Endures.trans ?_ (beginWait_endures _ n .pausing (c.loop n).backoff (by decide))
  exact .setLoop hreport rfl rfl

theorem finishLoop_concerns (c : Client) (n : Nat) : Concerns c n (c.finishLoop n) := by
  have hset := c.setLoop_concerns n { c.loop n with stand := .over, watched := false }
  dsimp only [finishLoop]
  split
  · exact ⟨rfl, hset.others⟩
  · exact hset

/-- A pass of a loop ends it only if the client is not to run. -/
theorem pass_endures (c : Client) (n : Nat) : Endures c (c.pass n) := by
  unfold pass
  split
  next =>
    have hconnect := (c.connect_spares n).endures
    split
    · exact c.awaitMessage_endures n
    · split
      next hok =>
        rw [hok] at hconnect
        refine Endures.trans ?_ (awaitMessage_endures _ n)
        exact .setLoop hconnect rfl rfl
      next hrefused =>
        rw [hrefused] at hconnect
        exact hconnect.trans (backOff_endures _ n _)
      next herror =>
        rw [herror] at hconnect
        exact hconnect.trans (penalize_endures _ n _)
  next hstopped =>
    exact (c.finishLoop_concerns n).endures fun hrunning => absurd hrunning hstopped

theorem callListener_endures (c : Client) : Endures c c.callListener := by
  unfold callListener
  split
  next => exact .refl c
  next n rest _ =>
    have hlisteners : Endures c { c with listeners := rest } := .of_loops rfl rfl
    refine Endures.give ?_ (.goOn (.fetch n))
    exact .setLoop hlisteners rfl rfl

theorem enqueue_endures {m : Message} (hqueued : c.enqueue m = some c') : Endures c c' := by
  unfold enqueue at hqueued
  split at hqueued
  next =>
    obtain rfl := Option.some.inj hqueued
    have hadded : Endures c { c with queue := c.queue ++ [m] } := .of_loops rfl rfl
    exact hadded.trans (callListener_endures _)
  next => contradiction

theorem requeue_endures (c : Client) (m : Message) : Endures c (c.requeue m) := by
  unfold requeue
  split
  next c' hqueued => exact (enqueue_endures hqueued).beside rfl rfl
  next => exact .of_loops rfl rfl

/-- However the delivery of a message ends, the loop goes on. -/
theorem deliver_endures (c : Client) (n : Nat) (m : Message) : Endures c (c.deliver n m) := by
  unfold deliver
  dsimp only
  generalize hreport : c.report .debug _ = reported
  have hreported : Endures c reported := hreport ▸ .of_loops rfl rfl
  refine hreported.trans ?_
  split
  · split
    next hcall => exact (perform_spares hcall n).endures.trans (pass_endures _ n)
    next message c' hcall =>
      have hdetached : Endures reported (c'.report .error s!"MQTT error: {message}").detach :=
        (perform_spares hcall n).endures.beside rfl rfl
      exact (hdetached.trans (requeue_endures _ m)).trans (pass_endures _ n)
    next r c' _ hcall =>
      have hdropped : Endures reported (c'.note (.dropped m)) :=
        (perform_spares hcall n).endures.beside rfl rfl
      exact hdropped.trans (penalize_endures _ n _)
  · have hdropped : Endures reported (reported.note (.dropped m)) := .of_loops rfl rfl
    exact hdropped.trans (penalize_endures _ n _)

theorem withdraw_concerns (c : Client) (n : Nat) (expired : Bool) :
    Concerns c n (c.withdraw n expired) := by
  unfold withdraw
  dsimp only
  split
  next => exact c.setLoop_concerns n _
  next => exact c.setLoop_concerns n _
  next => exact ⟨rfl, (c.setLoop_concerns n _).others⟩
  next => exact c.setLoop_concerns n _

/-- A loop whose wait is over goes on later. -/
theorem withdraw_endures (c : Client) (n : Nat) : Endures c (c.withdraw n true) := by
  have hset (fetch : Fetch) : Endures c (c.setLoop n (withdrawn (c.loop n) true fetch)) := by
    refine setLoop_endures fun _ hasked => ?_
    rcases hasked with hcancelled | hwithdrawing | hover
    · exact .inl hcancelled
    · simp [withdrawn] at hwithdrawing
    · simp [withdrawn] at hover
  unfold withdraw
  dsimp only
  split
  next => exact hset (.starting true)
  next => exact hset (.summoned true)
  next => exact ⟨rfl, (hset .leaving).asked⟩
  next => exact hset (c.loop n).fetch

/-- A turn of a loop ends it only where it was asked to end, or the client is not to run. -/
theorem deliveryTurn_endures (c : Client) (n : Nat) : Endures c (c.deliveryTurn n) := by
  -- the turn takes back its request to end, so where it matters it is read off the client before
  have hflags := c.setLoop_concerns n { c.loop n with called := false, cancelled := false }
  have hready : Endures c (c.setLoop n { c.loop n with called := false, cancelled := false }) :=
    setLoop_endures fun _ hasked => hasked.imp_left fun hcancelled => by contradiction
  unfold deliveryTurn
  dsimp only
  generalize c.setLoop n { c.loop n with called := false, cancelled := false } = ready at *
  have hstopped : Concerns ready n (ready.stopTimer n) := ⟨rfl, fun _ _ => rfl⟩
  have hstops (hasked : (c.loop n).Asked) : Endures c ((ready.stopTimer n).finishLoop n) :=
    ((hflags.trans hstopped).trans (finishLoop_concerns _ n)).endures fun _ _ => hasked
  split
  next =>
    split
    next hcancelled =>
      exact (hflags.trans (ready.finishLoop_concerns n)).endures fun _ _ => .inl hcancelled
    next => exact hready.trans (ready.pass_endures n)
  next =>
    split
    next m _ =>
      have hquiet : Endures c (ready.stopTimer n) := hready.beside rfl rfl
      refine Endures.trans ?_ (deliver_endures _ n m)
      exact .setLoop hquiet rfl rfl
    next =>
      -- a wait that ends because its second is over is no request to end
      by_cases hcancelled : (c.loop n).cancelled = true
      · exact (hflags.trans (ready.withdraw_concerns n _)).endures fun _ _ => .inl hcancelled
      · rw [Bool.not_eq_true] at hcancelled
        rw [hcancelled]
        exact hready.trans (ready.withdraw_endures n)
  next expired hstand =>
    split
    next hends =>
      rw [Bool.or_eq_true, Bool.not_eq_true'] at hends
      exact hstops (hends.imp_right fun (hexpired : expired = false) => .inl (hexpired ▸ hstand))
    next =>
      have hquiet : Endures c (ready.stopTimer n) := hready.beside rfl rfl
      exact hquiet.trans (pass_endures _ n)
  next =>
    split
    next hcancelled => exact hstops (.inl hcancelled)
    next => exact hready.trans (ready.pass_endures n)
  next => exact hready

theorem finishFetch_endures (c : Client) (n : Nat) (fetch : Fetch) :
    Endures c (c.finishFetch n fetch) := by
  refine Endures.give ?_ (.release (.delivery n) (c.loop n).wait)
  exact .setLoop (.refl c) rfl rfl

theorem lookForMessage_endures (c : Client) (n : Nat) : Endures c (c.lookForMessage n) := by
  unfold lookForMessage
  split
  next m rest _ =>
    have htaken : Endures c ({ c with queue := rest }.note (.taken m)) := .of_loops rfl rfl
    exact htaken.trans (finishFetch_endures _ n _)
  next =>
    have hlistening : Endures c { c with listeners := c.listeners ++ [n] } := .of_loops rfl rfl
    exact .setLoop hlistening rfl rfl

theorem fetchTurn_endures (c : Client) (n : Nat) : Endures c (c.fetchTurn n) := by
  unfold fetchTurn
  split
  next => exact c.lookForMessage_endures n
  next => exact c.lookForMessage_endures n
  next =>
    split
    next => exact c.finishFetch_endures n .gone
    next => exact c.callListener_endures.trans (finishFetch_endures _ n .gone)
  next => exact c.finishFetch_endures n .gone
  next => exact c.finishFetch_endures n .gone
  next => exact .refl c

theorem releaseLoop_endures (c : Client) (n wait : Nat) : Endures c (c.releaseLoop n wait) := by
  have hcalled : Endures c (c.setLoop n { c.loop n with called := true }) :=
    .setLoop (.refl c) rfl rfl
  unfold releaseLoop
  dsimp only
  split
  case h_4 => exact .refl c
  all_goals
    split
    · exact hcalled.give _
    · exact .refl c

/-- No turn ends a loop that was not asked to end, while the client is to run. -/
theorem takeTurn_endures (c : Client) (turn : Turn) : Endures c (c.takeTurn turn) := by
  unfold takeTurn
  split
  next n => exact c.deliveryTurn_endures n
  next n => exact c.fetchTurn_endures n
  next n wait => exact c.releaseLoop_endures n wait
  next => exact .of_loops rfl rfl
  next => exact .refl c

theorem publish_endures (c : Client) (topic : String) (payload : Payload)
    (retain : Option Bool) : Endures c (c.publish topic payload retain).2 := by
  unfold Client.publish
  dsimp only
  split
  next c' hqueued => exact (enqueue_endures hqueued).beside rfl rfl
  next => exact .of_loops rfl rfl

theorem start_endures (hrunning : c.running = true) : Endures c c.start where
  running := hrunning.symm
  asked _ i hasked := by
    rw [start_loop] at hasked
    split at hasked
    · simp [Delivery.Asked] at hasked
    · exact hasked

end Client

namespace Course

open Client

variable {p : Course} {n : Nat}

/-- A deed, where a client can be started at any time, also while it still has a loop or is being
stopped. -/
def actFreely (p : Course) : Deed → Course
  | .start => { p with client := p.client.start }
  | deed => p.act deed

/-- A run of a client that can be started at any time. -/
def runFreely (p : Course) (deeds : List Deed) : Course := deeds.foldl actFreely p

theorem finishStop_endures (c : Client) : Endures c c.finishStop.2 :=
  .of_loops (c.finishStop_spares 0).loops_eq (c.finishStop_spares 0).running

theorem goOn_endures (p : Course) : Endures p.client p.goOn.client := by
  have hscene (scene : Scene) : Endures p.client { p.client with scene } := .of_loops rfl rfl
  unfold goOn
  split
  next => exact .refl _
  next scene _ =>
    unfold resume
    split
    next => exact (hscene scene).trans (finishStop_endures _)
    next => exact hscene scene
  next turn scene _ _ => exact (hscene scene).trans (takeTurn_endures _ turn)

/-- No deed but stopping asks a loop to end while the client is to run. -/
theorem act_endures (p : Course) {deed : Deed} (hdeed : deed ≠ .stop) (hstart : deed ≠ .start) :
    Endures p.client (p.act deed).client := by
  cases deed with
  | publish topic payload retain =>
      have hpublish := p.client.publish_endures topic payload retain
      dsimp only [act, Course.publish]
      split
      all_goals
        next hanswer =>
          rw [hanswer] at hpublish
          exact hpublish
  | start => contradiction
  | stop => contradiction
  | connect => exact (p.client.connect_spares 0).endures
  | disconnect => exact (p.client.disconnect_spares 0).endures
  | leave =>
      dsimp only [act]
      split <;> exact .refl _
  | call after turn =>
      dsimp only [act]
      split
      · exact .of_loops rfl rfl
      · exact .refl _
  | aside e => exact .of_loops rfl rfl
  | goOn => exact p.goOn_endures

/-- The client is to run, and a loop of it has not been asked to end. -/
def Lasts (p : Course) (n : Nat) : Prop := p.client.running = true ∧ ¬ (p.client.loop n).Asked

theorem Lasts.actFreely (h : p.Lasts n) {deed : Deed} (hdeed : deed ≠ .stop) :
    (p.actFreely deed).Lasts n := by
  have hendures : Endures p.client (p.actFreely deed).client := by
    unfold Course.actFreely
    split
    next => exact start_endures h.1
    next hstart => exact p.act_endures hdeed fun heq => hstart heq
  exact ⟨hendures.running.trans h.1, fun hasked => h.2 (hendures.asked h.1 n hasked)⟩

theorem Lasts.runFreely (h : p.Lasts n) {deeds : List Deed}
    (hdeeds : ∀ deed ∈ deeds, deed ≠ .stop) : (p.runFreely deeds).Lasts n := by
  induction deeds generalizing p with
  | nil => exact h
  | cons deed deeds ih =>
      exact ih (h.actFreely (hdeeds deed List.mem_cons_self))
        fun d hd => hdeeds d (List.mem_cons_of_mem _ hd)

theorem start_lasts (p : Course) : (p.actFreely .start).Lasts p.client.loops.size := by
  refine ⟨rfl, ?_⟩
  have hloop : (p.actFreely .start).client.loop p.client.loops.size = {} := by
    change p.client.start.loop _ = _
    rw [start_loop, if_pos rfl]
  rw [hloop]
  simp [Delivery.Asked]

theorem runFreely_append (p : Course) (before after : List Deed) :
    p.runFreely (before ++ after) = (p.runFreely before).runFreely after := by
  rw [runFreely, List.foldl_append]
  rfl

variable (settings : Config.MqttSettings) (availabilityTopic : String)
  (identifier : Config.Scalar) (now : Instant) (script : Script)

/-- The loop with which a client is started is not over before the client is stopped, whatever the
broker answers and whatever else is done with the client. -/
theorem started_loop_not_over (before after : List Deed) (hstop : ∀ deed ∈ after, deed ≠ .stop) :
    (((fresh settings availabilityTopic identifier now script).runFreely
        (before ++ .start :: after)).client.loop
      ((fresh settings availabilityTopic identifier now script).runFreely
        before).client.loops.size).stand ≠ .over := by
  rw [runFreely_append]
  generalize (fresh settings availabilityTopic identifier now script).runFreely before = p
  have hlasts := p.start_lasts.runFreely hstop
  exact fun hover => hlasts.2 (.inr (.inr hover))

/-- A broker that refuses sessions, announcements and deliveries, each for every kind of reason. -/
def troubles : Script where
  entering := [some ⟨.protocol, "down"⟩, some ⟨.value, "host"⟩, some ⟨.system, "net"⟩]
  publishing := [some ⟨.protocol, "a"⟩, some ⟨.protocol, "b"⟩, some ⟨.value, "c"⟩,
    some ⟨.system, "d"⟩, none, some ⟨.value, "e"⟩, none, some ⟨.system, "f"⟩]

/-- Messages are offered and a client is used while the broker makes trouble. -/
def troubledDeeds : List Deed :=
  [.publish "p/a" (.text "1") none, .publish "p/b" (.text "2") none,
    .publish "p/c" (.text "3") none] ++ List.replicate 40 .goOn

theorem started_loop_not_over_troubled : (∀ deed ∈ troubledDeeds, deed ≠ .stop) ∧
    (((fresh {} "power_supply_metrics/status" (.text "cid") .zero troubles).runFreely
        ([] ++ .start :: troubledDeeds)).client.loop 0).stand ≠ .over := by
  have hstop : ∀ deed ∈ troubledDeeds, deed ≠ .stop := by simp [troubledDeeds]
  exact ⟨hstop, started_loop_not_over {} "power_supply_metrics/status" (.text "cid") .zero troubles
    [] troubledDeeds hstop⟩

example :
    let script := ((fresh {} "power_supply_metrics/status" (.text "cid") .zero troubles).runFreely
      (.start :: troubledDeeds)).client.scene.script
    script.entering = [] ∧ script.publishing = [] := by decide +kernel

end Course

end SupplyGauge.Mqtt
