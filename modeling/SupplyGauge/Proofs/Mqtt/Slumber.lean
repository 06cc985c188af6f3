import SupplyGauge.Proofs.History.Punctuality
import SupplyGauge.Proofs.Mqtt.Attempts

/-! # Loops that pause

A loop that pauses sleeps until a moment. Before that moment, as far as the clock tells, nothing
calls it but a request to end, and time does not pass over that moment while the loop sleeps: until
the end of its pause has been given out, its timer stands. Whatever else happens to the client
leaves the loop and what it waits for alone.
-/

namespace SupplyGauge

open Schedule

/-- Whether a turn makes a loop go on or ends a wait of it. -/
def Turn.concerns (n : Nat) : Turn → Bool
  | .goOn (.delivery i) | .release (.delivery i) _ => i = n
  | _ => false

namespace Mqtt.Client

/-- A loop pauses until a moment. What has been called has been asked to end or the moment has come;
else the end of the pause is on the way and the moment has come, or a timer stands for it. -/
structure Asleep (due : Instant) (hand : List Turn) (c : Client) (n : Nat) : Prop where
  stand : (c.loop n).stand = .pausing
  gone : (c.loop n).fetch = .gone
  early : c.scene.now.le due = true
  called : (c.loop n).called = true →
    .goOn (.delivery n) ∈ hand ++ c.scene.schedule.soon ∧
      ((c.loop n).cancelled = true ∨ Reached due c.scene.now)
  waiting : (c.loop n).called = false →
    .release (.delivery n) (c.loop n).wait ∈ hand ++ c.scene.schedule.soon ∨
      ∃ x ∈ c.scene.schedule.timers.heap.toList, x.void = false ∧
        x.purpose = .release (.delivery n) (c.loop n).wait
  released : .release (.delivery n) (c.loop n).wait ∈ hand ++ c.scene.schedule.soon →
    Reached due c.scene.now
  timers : ∀ x ∈ c.scene.schedule.timers.heap.toList,
    x.purpose = .release (.delivery n) (c.loop n).wait → x.due = due

/-- From one client to the next, a loop has not changed, and what it waits for is where it was. -/
structure Undisturbed (n : Nat) (hand hand' : List Turn) (c c' : Client) : Prop where
  loop : c'.loop n = c.loop n
  now : c'.scene.now = c.scene.now
  soon : ∀ turn, turn.concerns n = true →
    (turn ∈ hand' ++ c'.scene.schedule.soon ↔ turn ∈ hand ++ c.scene.schedule.soon)
  timers : ∀ x : Timer Turn, x.purpose.concerns n = true →
    (x ∈ c'.scene.schedule.timers.heap.toList ↔ x ∈ c.scene.schedule.timers.heap.toList)

variable {due : Instant} {hand hand' : List Turn} {c c' c'' : Client} {n : Nat}

theorem concerns_goOn (n : Nat) : (Turn.goOn (.delivery n)).concerns n = true :=
  decide_eq_true rfl

theorem concerns_release (n wait : Nat) : (Turn.release (.delivery n) wait).concerns n = true :=
  decide_eq_true rfl

theorem Asleep.undisturbed (h : Asleep due hand c n) (hsame : Undisturbed n hand hand' c c') :
    Asleep due hand' c' n := by
  have hgoOn := hsame.soon _ (concerns_goOn n)
  have hrelease := hsame.soon _ (concerns_release n (c.loop n).wait)
  have htimers (x : Timer Turn) (hx : x.purpose = .release (.delivery n) (c.loop n).wait) :=
    hsame.timers x (hx ▸ concerns_release n _)
  refine ⟨hsame.loop ▸ h.stand, hsame.loop ▸ h.gone, hsame.now ▸ h.early, ?_, ?_, ?_, ?_⟩
  all_goals rw [hsame.loop]
  · rw [hgoOn, hsame.now]
    exact h.called
  · rw [hrelease]
    exact fun huncalled => (h.waiting huncalled).imp_right
      fun ⟨x, hx, hvalid, hpurpose⟩ => ⟨x, (htimers x hpurpose).mpr hx, hvalid, hpurpose⟩
  · rw [hrelease, hsame.now]
    exact h.released
  · exact fun x hx hpurpose => h.timers x ((htimers x hpurpose).mp hx) hpurpose

/-- What does not concern the loop and leaves the schedule alone. -/
theorem undisturbed_of_eq (hloop : c'.loop n = c.loop n) (hnow : c'.scene.now = c.scene.now)
    (hschedule : c'.scene.schedule = c.scene.schedule) : Undisturbed n hand hand c c' :=
  ⟨hloop, hnow, fun _ _ => by rw [hschedule], fun _ _ => by rw [hschedule]⟩

/-- A turn in hand that does not concern the loop is gone. -/
theorem Asleep.drop {turn : Turn} (h : Asleep due [turn] c n) (hturn : turn.concerns n = false) :
    Asleep due [] c n := by
  refine h.undisturbed ⟨rfl, rfl, fun other hother => ?_, fun _ _ => Iff.rfl⟩
  have hne : other ≠ turn := by
    rintro rfl
    exact Bool.false_ne_true (hturn.symm.trans hother)
  simp [hne]

theorem Asleep.give (h : Asleep due hand c n) {turn : Turn} (hturn : turn.concerns n = false) :
    Asleep due hand (c.give turn) n := by
  refine h.undisturbed ⟨rfl, rfl, fun other hother => ?_, fun _ _ => Iff.rfl⟩
  have hne : other ≠ turn := by
    rintro rfl
    exact Bool.false_ne_true (hturn.symm.trans hother)
  have hsoon : (c.give turn).scene.schedule.soon.Perm (turn :: c.scene.schedule.soon) :=
    List.perm_middle
  simp [hsoon.mem_iff, hne]

theorem Asleep.setLoop (h : Asleep due hand c n) {i : Nat} (hi : n ≠ i) (d : Delivery) :
    Asleep due hand (c.setLoop i d) n :=
  h.undisturbed (undisturbed_of_eq (by rw [loop_setLoop, if_neg fun hin => hi hin.1]) rfl rfl)

/-! ## Time -/

/-- When a turn comes, the loop still sleeps, and its moment has not passed. -/
theorem Asleep.next {turn : Turn} {scene : Scene} (h : Asleep due [] c n)
    (hproper : c.scene.now.Proper) (hheaped : c.scene.schedule.timers.heap.Heaped)
    (hnext : c.scene.next? = some (turn, scene)) : Asleep due [turn] { c with scene } n := by
  obtain ⟨⟨hlater, hle⟩, hsoon, hheap⟩ := Scene.next?_soon hproper hnext
  obtain ⟨hstays, htimers, hpassed⟩ := Scene.next?_keeps hnext
  have hreached (hbefore : Reached due c.scene.now) : Reached due scene.now :=
    hbefore.mono_now hproper hlater hle
  refine ⟨h.stand, h.gone, ?_, fun hcalled => ?_, fun huncalled => ?_, fun hrelease => ?_,
    fun x hx => h.timers x (hheap x hx)⟩
  · rcases (hpassed hheaped).2 with hsame | ⟨hnone, hbefore⟩
    · exact (congrArg (Binary64.le · due) hsame).trans h.early
    · have hempty {u : Turn} : u ∉ [] ++ c.scene.schedule.soon := by simp [hnone]
      cases hcalled : (c.loop n).called with
      | true => exact absurd (h.called hcalled).1 hempty
      | false =>
          obtain ⟨x, hx, hvalid, hpurpose⟩ := (h.waiting hcalled).resolve_left hempty
          exact h.timers x hx hpurpose ▸ hbefore x hx hvalid
  · obtain ⟨hgiven, hcause⟩ := h.called hcalled
    exact ⟨hstays _ hgiven, hcause.imp_right hreached⟩
  · rcases h.waiting huncalled with hgiven | ⟨x, hx, hvalid, hpurpose⟩
    · exact .inl (hstays _ hgiven)
    · rcases htimers x hx hvalid with hstands | htaken
      · exact .inr ⟨x, hstands, hvalid, hpurpose⟩
      · exact .inl (hpurpose ▸ htaken)
  · rcases hsoon _ hrelease with hgiven | ⟨x, hx, hpurpose, hdue⟩
    · exact hreached (h.released hgiven)
    · exact h.timers x hx hpurpose ▸ hdue

/-! ## Turns of others -/

/-- What happens beside the waits of loops: time stands still, no timer is set or called off, loops
pause as long as before, and one without a fetch is left alone. -/
structure Idle (c c' : Client) : Prop where
  now : c'.scene.now = c.scene.now
  timers : c'.scene.schedule.timers = c.scene.schedule.timers
  backoff : ∀ i, (c'.loop i).backoff = (c.loop i).backoff
  spared : ∀ i, (c.loop i).fetch = .gone → c'.loop i = c.loop i ∧
    ∀ turn, turn.concerns i = true →
      (turn ∈ c'.scene.schedule.soon ↔ turn ∈ c.scene.schedule.soon)

theorem Asleep.idle (h : Asleep due hand c n) (hidle : Idle c c') : Asleep due hand c' n := by
  obtain ⟨hloop, hsoon⟩ := hidle.spared n h.gone
  refine h.undisturbed ⟨hloop, hidle.now, fun turn hturn => ?_, fun x _ => by rw [hidle.timers]⟩
  rw [List.mem_append, List.mem_append, hsoon turn hturn]

theorem Idle.trans (h : Idle c c') (h' : Idle c' c'') : Idle c c'' := by
  refine ⟨h'.now.trans h.now, h'.timers.trans h.timers,
    fun i => (h'.backoff i).trans (h.backoff i), fun i hgone => ?_⟩
  obtain ⟨hloop, hsoon⟩ := h.spared i hgone
  obtain ⟨hloop', hsoon'⟩ := h'.spared i (hloop ▸ hgone)
  exact ⟨hloop'.trans hloop, fun turn hturn => (hsoon' turn hturn).trans (hsoon turn hturn)⟩

theorem idle_of_eq (c c' : Client) (hloops : c'.loops = c.loops)
    (hnow : c'.scene.now = c.scene.now) (hschedule : c'.scene.schedule = c.scene.schedule) :
    Idle c c' := by
  have hloop := loop_congr hloops
  exact ⟨hnow, by rw [hschedule], fun i => by rw [hloop],
    fun i _ => ⟨hloop i, fun _ _ => by rw [hschedule]⟩⟩

theorem Spares.idle (h : Spares c n c') (hscene : c'.scene.schedule = c.scene.schedule ∧
    c'.scene.now = c.scene.now) : Idle c c' :=
  idle_of_eq c c' h.loops_eq hscene.2 hscene.1

/-- A turn that does not concern loops without a fetch. -/
theorem Idle.give (h : Idle c c') {turn : Turn}
    (hturn : ∀ i, (c.loop i).fetch = .gone → turn.concerns i = false) :
    Idle c (c'.give turn) := by
  refine ⟨h.now, h.timers, h.backoff, fun i hgone => ?_⟩
  obtain ⟨hloop, hsoon⟩ := h.spared i hgone
  refine ⟨hloop, fun other hother => ?_⟩
  have hne : other ≠ turn := by
    rintro rfl
    exact Bool.false_ne_true ((hturn i hgone).symm.trans hother)
  have hgiven : (c'.give turn).scene.schedule.soon.Perm (turn :: c'.scene.schedule.soon) :=
    List.perm_middle
  rw [hgiven.mem_iff, List.mem_cons, or_iff_right hne]
  exact hsoon other hother

/-- The fetch of a loop comes into another state. -/
theorem Idle.setFetch (h : Idle c c') {i : Nat} (hfetch : (c.loop i).fetch ≠ .gone)
    (fetch : Fetch) : Idle c (c'.setLoop i { c'.loop i with fetch }) := by
  refine ⟨h.now, h.timers, fun j => ?_, fun j hgone => ?_⟩
  · rw [loop_setLoop]
    split
    next hj => exact hj.1 ▸ h.backoff i
    next => exact h.backoff j
  · rw [loop_setLoop, if_neg fun hj : j = i ∧ _ => hfetch (hj.1 ▸ hgone)]
    exact h.spared j hgone

theorem callListener_idle (horderly : c.Orderly) : Idle c c.callListener := by
  unfold Client.callListener
  split
  next => exact idle_of_eq c c rfl rfl rfl
  next i rest hcons =>
    have hlistening := (horderly.listening i).mp (by rw [hcons]; exact List.mem_cons_self)
    have hrest := idle_of_eq c { c with listeners := rest } rfl rfl rfl
    refine Idle.give ?_ fun _ _ => rfl
    exact hrest.setFetch (by rw [hlistening]; simp) (.summoned false)

theorem publish_idle (horderly : c.Orderly) (topic : String) (payload : Payload)
    (retain : Option Bool) : Idle c (c.publish topic payload retain).2 := by
  unfold Client.publish Client.enqueue
  by_cases hroom : c.queue.length < queueLimit
  · simp only [if_pos hroom]
    generalize c.queue ++ [_] = queue
    have hqueued := idle_of_eq c { c with queue } rfl rfl rfl
    have hcalled := hqueued.trans (callListener_idle (horderly.congr rfl rfl rfl))
    exact hcalled.trans (idle_of_eq _ _ rfl rfl rfl)
  · simp only [if_neg hroom]
    exact idle_of_eq c _ rfl rfl rfl

theorem Idle.finishFetch (h : Idle c c') {i : Nat} (hfetch : (c.loop i).fetch ≠ .gone)
    (fetch : Fetch) : Idle c (c'.finishFetch i fetch) := by
  refine (h.setFetch hfetch fetch).give fun j hgone => decide_eq_false ?_
  rintro rfl
  exact hfetch hgone

theorem lookForMessage_idle {i : Nat} (hfetch : (c.loop i).fetch ≠ .gone) :
    Idle c (c.lookForMessage i) := by
  unfold Client.lookForMessage
  split
  next m rest _ =>
    have htaken := idle_of_eq c ({ c with queue := rest }.note (.taken m)) rfl rfl rfl
    exact htaken.finishFetch hfetch _
  next =>
    have hlistens := idle_of_eq c { c with listeners := c.listeners ++ [i] } rfl rfl rfl
    exact hlistens.setFetch hfetch .listening

theorem fetchTurn_idle (horderly : c.Orderly) (i : Nat) : Idle c (c.fetchTurn i) := by
  have hself := idle_of_eq c c rfl rfl rfl
  unfold Client.fetchTurn
  split
  next hfetch => exact lookForMessage_idle (by simp [hfetch])
  next hfetch => exact lookForMessage_idle (by simp [hfetch])
  next hfetch =>
    split
    · exact hself.finishFetch (by simp [hfetch]) .gone
    · exact (callListener_idle horderly).finishFetch (by simp [hfetch]) .gone
  next hfetch => exact hself.finishFetch (by simp [hfetch]) .gone
  next hfetch => exact hself.finishFetch (by simp [hfetch]) .gone
  next => exact hself

theorem farewell_scene (c : Client) : c.farewell.2.scene.schedule = c.scene.schedule ∧
    c.farewell.2.scene.now = c.scene.now := by
  unfold Client.farewell
  split
  next hannounce =>
    obtain ⟨-, rfl⟩ := Prod.mk.inj hannounce
    exact ⟨rfl, rfl⟩
  next hannounce =>
    obtain ⟨-, rfl⟩ := Prod.mk.inj hannounce
    exact ⟨rfl, rfl⟩

theorem disconnect_scene (c : Client) : c.disconnect.2.scene.schedule = c.scene.schedule ∧
    c.disconnect.2.scene.now = c.scene.now := by
  have hfarewell := c.farewell_scene
  unfold Client.disconnect
  split
  · split
    all_goals
      next hleft =>
        rw [hleft] at hfarewell
        exact hfarewell
  · exact ⟨rfl, rfl⟩

theorem finishStop_scene (c : Client) : c.finishStop.2.scene.schedule = c.scene.schedule ∧
    c.finishStop.2.scene.now = c.scene.now := by
  have hdisconnect := disconnect_scene { c with current := none }
  unfold Client.finishStop
  split
  all_goals
    next hended =>
      rw [hended] at hdisconnect
      exact hdisconnect

theorem connect_idle (c : Client) : Idle c c.connect.2 :=
  (c.connect_spares 0).idle c.connect_scene

theorem disconnect_idle (c : Client) : Idle c c.disconnect.2 :=
  (c.disconnect_spares 0).idle c.disconnect_scene

theorem finishStop_idle (c : Client) : Idle c c.finishStop.2 :=
  idle_of_eq c _ (c.finishStop_spares 0).loops_eq c.finishStop_scene.2 c.finishStop_scene.1

/-! ## Turns and deeds beside a loop that sleeps -/

/-- Besides a loop that sleeps, no other is not over. -/
theorem Asleep.over_of_ne {i : Nat} (h : Asleep due hand c n) (horderly : c.Orderly)
    (hi : n ≠ i) : (c.loop i).stand = .over := by
  have hcurrent : c.current = some n := horderly.current_of_stand (by rw [h.stand]; decide)
  exact horderly.others i (by rw [hcurrent]; simpa using hi)

/-- A loop that has been called, be it because its moment has come or because it is to end. -/
theorem Asleep.call (h : Asleep due hand c n) (cancelled : Bool)
    (hcause : cancelled = true ∨ Reached due c.scene.now) :
    Asleep due [] ((c.setLoop n { c.loop n with called := true, cancelled }).give
      (.goOn (.delivery n))) n := by
  have hloop : ((c.setLoop n { c.loop n with called := true, cancelled }).give
      (.goOn (.delivery n))).loop n = { c.loop n with called := true, cancelled } :=
    loop_setLoop_self _ (lt_size_of_stand (by rw [h.stand]; decide))
  have hsoon : ((c.setLoop n { c.loop n with called := true, cancelled }).give
      (.goOn (.delivery n))).scene.schedule.soon.Perm
        (.goOn (.delivery n) :: c.scene.schedule.soon) := List.perm_middle
  have hrelease (wait : Nat) : .release (.delivery n) wait ∈
      ((c.setLoop n { c.loop n with called := true, cancelled }).give
        (.goOn (.delivery n))).scene.schedule.soon →
      .release (.delivery n) wait ∈ hand ++ c.scene.schedule.soon := by
    rw [hsoon.mem_iff]
    exact fun hmem => List.mem_append_right _ (List.mem_of_ne_of_mem (by simp) hmem)
  refine ⟨?_, ?_, h.early, fun _ => ⟨?_, ?_⟩, fun huncalled => ?_, fun hmem => ?_,
    fun x hx hpurpose => ?_⟩
  · rw [hloop]
    exact h.stand
  · rw [hloop]
    exact h.gone
  · exact hsoon.mem_iff.mpr List.mem_cons_self
  · rw [hloop]
    exact hcause
  · rw [hloop] at huncalled
    contradiction
  · rw [hloop] at hmem
    exact h.released (hrelease _ hmem)
  · rw [hloop] at hpurpose
    exact h.timers x hx hpurpose

/-- A change of the loop by which it is not called. -/
theorem Asleep.change (h : Asleep due hand c n) {d : Delivery} (hstand : d.stand = .pausing)
    (hfetch : d.fetch = .gone) (hwait : d.wait = (c.loop n).wait)
    (hcalled : d.called = (c.loop n).called)
    (hcancelled : (c.loop n).cancelled = true → d.cancelled = true) :
    Asleep due hand (c.setLoop n d) n := by
  have hloop : (c.setLoop n d).loop n = d :=
    loop_setLoop_self d (lt_size_of_stand (by rw [h.stand]; decide))
  refine ⟨?_, ?_, h.early, ?_, ?_, ?_, ?_⟩
  all_goals rw [hloop]
  · exact hstand
  · exact hfetch
  · rw [hcalled]
    exact fun hd => (h.called hd).imp_right (·.imp_left hcancelled)
  · rw [hcalled, hwait]
    exact h.waiting
  · rw [hwait]
    exact h.released
  · rw [hwait]
    exact h.timers

/-- The end of a wait calls the loop only if its moment has come. -/
theorem Asleep.release {wait : Nat} (h : Asleep due [.release (.delivery n) wait] c n) :
    Asleep due [] (c.releaseLoop n wait) n := by
  unfold Client.releaseLoop
  simp only [h.stand]
  split
  next hwaits =>
    obtain ⟨hwait, -⟩ := Bool.and_eq_true_iff.mp hwaits
    have hreached := h.released (by rw [of_decide_eq_true hwait]; exact List.mem_cons_self)
    simpa only [h.stand] using h.call (c.loop n).cancelled (.inr hreached)
  next hnot =>
    refine ⟨h.stand, h.gone, h.early, fun hcalled => ?_, fun huncalled => ?_,
      fun hmem => h.released (List.mem_append_right _ hmem), h.timers⟩
    · exact (h.called hcalled).imp_left fun hmem => List.mem_of_ne_of_mem (by simp) hmem
    · refine (h.waiting huncalled).imp_left fun hmem => List.mem_of_ne_of_mem ?_ hmem
      rintro heq
      simp [(Turn.release.inj heq).2, huncalled] at hnot

theorem Asleep.releaseLoop {i wait : Nat} (h : Asleep due [.release (.delivery i) wait] c n)
    (horderly : c.Orderly) : Asleep due [] (c.releaseLoop i wait) n := by
  by_cases hi : n = i
  · subst hi
    exact h.release
  · have hsame : c.releaseLoop i wait = c := by
      unfold Client.releaseLoop
      simp only [h.over_of_ne horderly hi]
    rw [hsame]
    exact h.drop (decide_eq_false (Ne.symm hi))

theorem Asleep.deliveryTurn {i : Nat} (h : Asleep due [.goOn (.delivery i)] c n) (hi : n ≠ i)
    (horderly : c.Orderly) : Asleep due [] (c.deliveryTurn i) n := by
  have hsame : c.deliveryTurn i =
      c.setLoop i { c.loop i with called := false, cancelled := false } := by
    simp [Client.deliveryTurn, h.over_of_ne horderly hi]
  rw [hsame]
  exact (h.drop (decide_eq_false (Ne.symm hi))).setLoop hi _

/-- A turn that is not the loop's own leaves it asleep. -/
theorem Asleep.takeTurn {turn : Turn} (h : Asleep due [turn] c n) (horderly : c.Orderly)
    (hturn : turn ≠ .goOn (.delivery n)) : Asleep due [] (c.takeTurn turn) n := by
  unfold Client.takeTurn
  split
  next i => exact h.deliveryTurn (by simpa [eq_comm] using hturn) horderly
  next i => exact (h.drop rfl).idle (fetchTurn_idle horderly i)
  next => exact h.releaseLoop horderly
  next => exact (h.drop rfl).give rfl
  next hdelivery _ hrelease _ =>
    refine h.drop ?_
    unfold Turn.concerns
    split
    next => exact absurd rfl (hdelivery _)
    next => exact absurd rfl (hrelease _ _)
    next => rfl

/-- Turns and timers of others. -/
theorem Asleep.lend (h : Asleep due hand c n) (after : Option Instant) {turn : Turn}
    (hturn : turn.concerns n = false) :
    Asleep due hand { c with scene := c.scene.lend after turn } n := by
  cases after with
  | none => exact h.give hturn
  | some seconds =>
      refine h.undisturbed ⟨rfl, rfl, fun _ _ => Iff.rfl, fun x hx => ?_⟩
      have hheap := TimerHeap.insert_perm c.scene.schedule.timers.heap
        ⟨c.scene.now.add seconds, c.scene.schedule.timers.made, turn, false⟩
      refine hheap.mem_iff.trans (List.mem_cons.trans (or_iff_right ?_))
      rintro rfl
      exact Bool.false_ne_true (hturn.symm.trans hx)

theorem concerns_of_isForeign {turn : Turn} (h : turn.isForeign = true) (n : Nat) :
    turn.concerns n = false := by
  unfold Turn.isForeign Turn.isLoops at h
  unfold Turn.concerns
  split <;> simp_all

theorem concerns_of_isCallers {turn : Turn} (h : turn.isCallers = true) (n : Nat) :
    turn.concerns n = false := by
  unfold Turn.isCallers at h
  unfold Turn.concerns
  split <;> simp_all

/-- Others call off no timer of the loop. -/
theorem Asleep.errand (h : Asleep due hand c n) (e : Errand) :
    Asleep due hand { c with scene := e.perform c.scene } n := by
  have hself (scene : Scene) (hnow : scene.now = c.scene.now)
      (hschedule : scene.schedule = c.scene.schedule) : Asleep due hand { c with scene } n :=
    h.idle (idle_of_eq c _ rfl hnow hschedule)
  unfold Errand.perform
  split
  next => exact hself _ rfl rfl
  next => split <;> exact hself _ rfl rfl
  next => exact hself _ rfl rfl
  next after turn =>
    split
    next hforeign => exact h.lend after (concerns_of_isForeign hforeign n)
    next => exact h
  next number =>
    split
    next hall =>
      refine h.undisturbed ⟨rfl, rfl, fun _ _ => Iff.rfl, fun x hx => ?_⟩
      refine Timers.mem_callOff_iff (fun turn => turn.concerns n = true)
        (fun y hy hnumber => ?_) hx
      have hforeign : y.purpose.isForeign = true := by
        have hy := Array.all_eq_true'.mp hall y (Array.mem_toList_iff.mp hy)
        simpa [hnumber] using hy
      rw [concerns_of_isForeign hforeign]
      decide
    next => exact h

/-- A client that is stopped asks the loop to end. -/
theorem Asleep.beginStop (h : Asleep due [] c n) (horderly : c.Orderly) :
    Asleep due [] c.beginStop.2 n ∧ c.beginStop.1 = true := by
  have hcurrent : c.current = some n := horderly.current_of_stand (by rw [h.stand]; decide)
  have hquit : Asleep due [] { c with running := false } n :=
    h.idle (idle_of_eq c { c with running := false } rfl rfl rfl)
  have hcancelled : Asleep due [] ({ c with running := false }.cancelLoop n) n := by
    have hover : (Client.loop { c with running := false } n).stand ≠ .over := by
      rw [hquit.stand]
      decide
    unfold Client.cancelLoop
    dsimp only
    rw [if_neg hover]
    split
    · exact hquit.change hquit.stand hquit.gone rfl rfl fun _ => rfl
    · exact hquit.call true (.inl rfl)
  unfold Client.beginStop
  dsimp only
  split
  next hnone =>
    rw [hcurrent] at hnone
    contradiction
  next m hm =>
    obtain rfl := Option.some.inj (hcurrent.symm.trans hm)
    generalize { c with running := false }.cancelLoop n = called at *
    rw [if_neg (by rw [hcancelled.stand]; decide)]
    exact ⟨hcancelled.change hcancelled.stand hcancelled.gone rfl rfl id, rfl⟩

end Mqtt.Client

end SupplyGauge
