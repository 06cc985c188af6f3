import SupplyGauge.Proofs.Mqtt.Commands

/-! # The turns that loops wait for

A loop gets its turns only from its own waits and from being told to end: at most one turn of it is
given out at a time, and no timer or fetch ends a wait that has not begun. While the client is
running, a loop that begins or pauses has no fetch, and one that waits until its fetch has let go
is not called before the fetch is gone.
-/

namespace SupplyGauge

/-- Whether a turn makes a loop go on or ends a wait of it. -/
def Turn.isDeliverys : Turn → Bool
  | .goOn (.delivery _) | .release (.delivery _) _ => true
  | _ => false

namespace Mqtt

/-- Whether a loop has nothing of its fetch to fear in the state it is in. `released` says that the
end of its wait is on the way. -/
def Settled (d : Delivery) (released : Prop) : Prop :=
  match d.stand with
  | .beginning | .pausing => d.fetch = .gone
  | .withdrawing _ => d.fetch = .gone ∨ d.called = false ∧ ¬ released
  | .awaiting | .over => True

theorem Settled.of_gone {d : Delivery} (h : d.fetch = .gone) (released : Prop) :
    Settled d released := by
  unfold Settled
  split
  · exact h
  · exact h
  · exact .inl h
  · trivial
  · trivial

theorem Settled.of_awaiting {d : Delivery} (h : d.stand = .awaiting) (released : Prop) :
    Settled d released := by
  unfold Settled
  rw [h]
  trivial

theorem Settled.imp {d : Delivery} {released released' : Prop} (h : Settled d released)
    (himp : released' → released) : Settled d released' := by
  unfold Settled at h ⊢
  split at h
  · exact h
  · exact h
  · exact h.imp_right fun ⟨hcalled, hnot⟩ => ⟨hcalled, fun hreleased => hnot (himp hreleased)⟩
  · trivial
  · trivial

theorem Settled.of_over {d : Delivery} (h : d.stand = .over) (released : Prop) :
    Settled d released := by
  unfold Settled
  rw [h]
  trivial

/-- A loop that begins or goes on from a wait other than for a message has no fetch. -/
theorem Settled.gone {d : Delivery} {released : Prop} (h : Settled d released)
    (hcalled : d.called = true) (hawaiting : d.stand ≠ .awaiting) (hover : d.stand ≠ .over) :
    d.fetch = .gone := by
  unfold Settled at h
  split at h
  · exact h
  · exact h
  · exact h.resolve_right fun hnot => absurd (hcalled.symm.trans hnot.1) Bool.true_eq_false.mp
  · contradiction
  · contradiction

/-- A call does not matter to a loop whose wait may be over. -/
theorem Settled.call {d : Delivery} (h : Settled d True) (called cancelled : Bool)
    (released : Prop) : Settled { d with called, cancelled } released := by
  unfold Settled at h ⊢
  dsimp only
  split at h
  · exact h
  · exact h
  · exact .inl (h.resolve_right fun ⟨_, hnot⟩ => hnot trivial)
  · trivial
  · trivial

namespace Client

/-- What the turns to come have to do with the loops, where some turns are in hand. -/
structure Wired (hand : List Turn) (c : Client) : Prop where
  calls : ∀ i, (hand ++ c.scene.schedule.turns).count (.goOn (.delivery i)) ≤
    if i < c.loops.size then (c.loop i).called.toNat else 0
  waits : ∀ i w, .release (.delivery i) w ∈ hand ++ c.scene.schedule.turns → w ≤ (c.loop i).wait
  backoff : ∀ i, 1 ≤ (c.loop i).backoff
  settled : c.running = true → ∀ i, Settled (c.loop i)
    (.release (.delivery i) (c.loop i).wait ∈ hand ++ c.scene.schedule.turns)

variable {hand hand' : List Turn} {c c' : Client} {n : Nat}

theorem loop_congr (hloops : c'.loops = c.loops) (i : Nat) : c'.loop i = c.loop i := by
  rw [loop, loop, hloops]

theorem Wired.count_le (h : Wired hand c) (i : Nat) :
    (hand ++ c.scene.schedule.turns).count (.goOn (.delivery i)) ≤ (c.loop i).called.toNat := by
  refine Nat.le_trans (h.calls i) ?_
  split
  · exact Nat.le_refl _
  · exact Nat.zero_le _

/-- Fewer turns to come, while no loop changes. -/
theorem Wired.of_subperm (h : Wired hand c) (hloops : c'.loops = c.loops)
    (hrunning : c'.running = true → c.running = true)
    (hturns : (hand' ++ c'.scene.schedule.turns).Subperm (hand ++ c.scene.schedule.turns)) :
    Wired hand' c' := by
  have hloop := loop_congr hloops
  refine ⟨fun i => ?_, fun i w hw => ?_, fun i => ?_, fun hrun i => ?_⟩
  · rw [hloops, hloop]
    exact Nat.le_trans (hturns.count_le _) (h.calls i)
  · rw [hloop]
    exact h.waits i w (hturns.subset hw)
  · rw [hloop]
    exact h.backoff i
  · rw [hloop]
    exact (h.settled (hrunning hrun) i).imp fun hw => hturns.subset hw

theorem Wired.congr (h : Wired hand c) (hloops : c'.loops = c.loops)
    (hrunning : c'.running = c.running) (hschedule : c'.scene.schedule = c.scene.schedule) :
    Wired hand c' :=
  h.of_subperm hloops (fun hrun => hrunning ▸ hrun) (hschedule ▸ List.Subperm.refl _)

/-- A turn more that no loop waits for. -/
theorem Wired.add (h : Wired hand c) (hloops : c'.loops = c.loops)
    (hrunning : c'.running = c.running) {turn : Turn} (hturn : turn.isDeliverys = false)
    (hturns : c'.scene.schedule.turns.Perm (turn :: c.scene.schedule.turns)) :
    Wired hand c' := by
  have hloop := loop_congr hloops
  have hperm : (hand ++ c'.scene.schedule.turns).Perm (turn :: (hand ++ c.scene.schedule.turns)) :=
    (hturns.append_left hand).trans List.perm_middle
  have hrelease {i w : Nat} (hw : .release (.delivery i) w ∈ hand ++ c'.scene.schedule.turns) :
      .release (.delivery i) w ∈ hand ++ c.scene.schedule.turns :=
    List.mem_of_ne_of_mem (by rintro rfl; contradiction) (hperm.subset hw)
  refine ⟨fun i => ?_, fun i w hw => ?_, fun i => ?_, fun hrun i => ?_⟩
  · rw [hloops, hloop, hperm.count_eq, List.count_cons_of_ne (by rintro rfl; contradiction)]
    exact h.calls i
  · rw [hloop]
    exact h.waits i w (hrelease hw)
  · rw [hloop]
    exact h.backoff i
  · rw [hloop]
    exact (h.settled (hrunning ▸ hrun) i).imp hrelease

theorem Wired.give (h : Wired hand c) {turn : Turn} (hturn : turn.isDeliverys = false) :
    Wired hand (c.give turn) :=
  h.add rfl rfl hturn (c.scene.schedule.give_turns_perm turn)

/-- A loop comes into another state, and no turn is given out or taken. -/
theorem Wired.setLoop (h : Wired hand c) {d : Delivery}
    (hcalls : (hand ++ c.scene.schedule.turns).count (.goOn (.delivery n)) ≤ d.called.toNat)
    (hwait : (c.loop n).wait ≤ d.wait) (hbackoff : 1 ≤ d.backoff)
    (hsettled : c.running = true →
      Settled d (.release (.delivery n) d.wait ∈ hand ++ c.scene.schedule.turns)) :
    Wired hand (c.setLoop n d) := by
  have hsize : (c.setLoop n d).loops.size = c.loops.size := Array.size_setIfInBounds
  refine ⟨fun i => ?_, fun i w hw => ?_, fun i => ?_, fun hrun i => ?_⟩
  all_goals rw [loop_setLoop]
  · rw [hsize]
    by_cases hi : i = n ∧ n < c.loops.size
    · rw [if_pos hi, if_pos (hi.1 ▸ hi.2), hi.1]
      exact hcalls
    · rw [if_neg hi]
      exact h.calls i
  · split
    next hi =>
      obtain ⟨rfl, -⟩ := hi
      exact Nat.le_trans (h.waits i w hw) hwait
    next => exact h.waits i w hw
  · split
    · exact hbackoff
    · exact h.backoff i
  · split
    next hi =>
      obtain ⟨rfl, -⟩ := hi
      exact hsettled hrun
    next => exact h.settled hrun i

/-- The fetch of a loop comes into another state. -/
theorem Wired.setFetch (h : Wired hand c) (fetch : Fetch)
    (hsettled : c.running = true → Settled { c.loop n with fetch }
      (.release (.delivery n) (c.loop n).wait ∈ hand ++ c.scene.schedule.turns)) :
    Wired hand (c.setLoop n { c.loop n with fetch }) :=
  h.setLoop (h.count_le n) (Nat.le_refl _) (h.backoff n) hsettled

/-- The end of the present wait of a loop is given out. -/
theorem Wired.giveRelease (h : Wired hand c)
    (hsettled : c.running = true → Settled (c.loop n) True) :
    Wired hand (c.give (.release (.delivery n) (c.loop n).wait)) := by
  have hperm := ((c.scene.schedule.give_turns_perm
    (.release (.delivery n) (c.loop n).wait)).append_left hand).trans List.perm_middle
  refine ⟨fun i => ?_, fun i w hw => ?_, h.backoff, fun hrun i => ?_⟩
  · change (hand ++ (c.scene.schedule.give _).turns).count _ ≤ _
    rw [hperm.count_eq, List.count_cons_of_ne (by simp)]
    exact h.calls i
  · rcases List.mem_cons.mp (hperm.subset hw) with heq | hmem
    · obtain ⟨hi, rfl⟩ := Turn.release.inj heq
      rw [Party.delivery.inj hi]
      exact Nat.le_refl _
    · exact h.waits i w hmem
  · by_cases hi : i = n
    · exact hi ▸ (hsettled hrun).imp fun _ => trivial
    · refine (h.settled hrun i).imp fun hw => ?_
      exact List.mem_of_ne_of_mem (by simp [hi]) (hperm.subset hw)

/-- A loop that has not been called is called. -/
theorem Wired.call (h : Wired hand c) (hn : n < c.loops.size) (hcalled : (c.loop n).called = false)
    (cancelled : Bool)
    (hsettled : c.running = true →
      Settled { c.loop n with called := true, cancelled }
        (.release (.delivery n) (c.loop n).wait ∈ hand ++ c.scene.schedule.turns)) :
    Wired hand ((c.setLoop n { c.loop n with called := true, cancelled }).give
      (.goOn (.delivery n))) := by
  have hnone := h.count_le n
  rw [hcalled] at hnone
  have hset : Wired hand (c.setLoop n { c.loop n with called := true, cancelled }) :=
    h.setLoop (Nat.le_succ_of_le hnone) (Nat.le_refl _) (h.backoff n) hsettled
  have hself := loop_setLoop_self { c.loop n with called := true, cancelled } hn
  have hsize : (c.setLoop n { c.loop n with called := true, cancelled }).loops.size =
      c.loops.size := Array.size_setIfInBounds
  have hturns : (c.setLoop n { c.loop n with called := true, cancelled }).scene.schedule =
      c.scene.schedule := rfl
  generalize c.setLoop n { c.loop n with called := true, cancelled } = called at *
  have hperm := ((called.scene.schedule.give_turns_perm
    (.goOn (.delivery n))).append_left hand).trans List.perm_middle
  have hrelease {i w : Nat} (hw : .release (.delivery i) w ∈
      hand ++ (called.give (.goOn (.delivery n))).scene.schedule.turns) :
      .release (.delivery i) w ∈ hand ++ called.scene.schedule.turns :=
    List.mem_of_ne_of_mem (by simp) (hperm.subset hw)
  refine ⟨fun i => ?_, fun i w hw => hset.waits i w (hrelease hw), hset.backoff,
    fun hrun i => (hset.settled hrun i).imp hrelease⟩
  change (hand ++ (called.scene.schedule.give _).turns).count _ ≤
    if i < called.loops.size then (called.loop i).called.toNat else 0
  rw [hperm.count_eq]
  by_cases hi : i = n
  · rw [hi, if_pos (hsize ▸ hn), hself, hturns, List.count_cons_self]
    exact Nat.succ_le_succ hnone
  · rw [List.count_cons_of_ne (by simpa using Ne.symm hi)]
    exact hset.calls i

/-- The turn of a loop in hand is the only one that has been given out, and is taken. -/
theorem Wired.take (h : Wired [.goOn (.delivery n)] c) :
    n < c.loops.size ∧ (c.loop n).called = true ∧
      Wired [] (c.setLoop n { c.loop n with called := false, cancelled := false }) := by
  have hcount := h.calls n
  rw [List.singleton_append, List.count_cons_self] at hcount
  by_cases hn : n < c.loops.size
  · rw [if_pos hn] at hcount
    have hcalled : (c.loop n).called = true := by
      by_contra hnot
      rw [Bool.eq_false_iff.mpr hnot] at hcount
      exact Nat.not_succ_le_zero _ hcount
    rw [hcalled] at hcount
    have hless : Wired [] c := h.of_subperm rfl id List.Subperm.cons_self
    refine ⟨hn, hcalled, hless.setLoop (Nat.le_of_succ_le_succ hcount) (Nat.le_refl _)
      (h.backoff n) fun hrun => ?_⟩
    by_cases hawaiting : (c.loop n).stand = .awaiting
    · exact .of_awaiting (by exact hawaiting) _
    · by_cases hover : (c.loop n).stand = .over
      · exact .of_over (by exact hover) _
      · exact .of_gone (by exact (h.settled hrun n).gone hcalled hawaiting hover) _
  · rw [if_neg hn] at hcount
    contradiction

/-- A wait that begins is the latest one, and only its timer ends it. -/
theorem Wired.beginWait (h : Wired hand c) (hn : n < c.loops.size) {stand : Stand} (seconds : Nat)
    (hsettled : c.running = true →
      ∀ wait timer, Settled { c.loop n with stand, wait, timer } True) :
    Wired hand (c.beginWait n stand seconds) := by
  have hleaves := c.beginWait_leaves n stand seconds
  have hself := hleaves.loop_self hn
  have hother (i : Nat) (hi : i ≠ n) := hleaves.loop_of_ne hi
  have hsize := hleaves.size
  have hperm : (hand ++ (c.beginWait n stand seconds).scene.schedule.turns).Perm
      (.release (.delivery n) ((c.loop n).wait + 1) :: (hand ++ c.scene.schedule.turns)) :=
    ((c.scene.schedule.setTimer_turns_perm _ _).append_left hand).trans List.perm_middle
  have hrunning : (c.beginWait n stand seconds).running = c.running := hleaves.running
  generalize c.beginWait n stand seconds = waiting at *
  have hold {i w : Nat} (hi : i ≠ n)
      (hw : .release (.delivery i) w ∈ hand ++ waiting.scene.schedule.turns) :
      .release (.delivery i) w ∈ hand ++ c.scene.schedule.turns :=
    List.mem_of_ne_of_mem (by simp [hi]) (hperm.subset hw)
  refine ⟨fun i => ?_, fun i w hw => ?_, fun i => ?_, fun hrun i => ?_⟩
  · rw [hperm.count_eq, List.count_cons_of_ne (by simp), hsize]
    by_cases hi : i = n
    · have hcalls := h.calls i
      rw [hi] at hcalls ⊢
      rwa [hself]
    · rw [hother i hi]
      exact h.calls i
  · by_cases hi : i = n
    · subst hi
      rw [hself]
      rcases List.mem_cons.mp (hperm.subset hw) with heq | hmem
      · exact Nat.le_of_eq (Turn.release.inj heq).2
      · exact Nat.le_succ_of_le (h.waits i w hmem)
    · rw [hother i hi]
      exact h.waits i w (hold hi hw)
  · by_cases hi : i = n
    · rw [hi, hself]
      exact h.backoff n
    · rw [hother i hi]
      exact h.backoff i
  · by_cases hi : i = n
    · rw [hi, hself]
      exact (hsettled (hrunning ▸ hrun) _ _).imp fun _ => trivial
    · rw [hother i hi]
      exact (h.settled (hrunning ▸ hrun) i).imp (hold hi)

/-- A wait that has not begun is not over. -/
theorem Wired.not_released (h : Wired hand c) {w : Nat} (hw : (c.loop n).wait < w) :
    .release (.delivery n) w ∉ hand ++ c.scene.schedule.turns :=
  fun hmem => Nat.not_lt.mpr (h.waits n w hmem) hw

/-! ## Turns that open no session -/

theorem Wired.finishLoop (h : Wired hand c) (n : Nat) : Wired hand (c.finishLoop n) := by
  have hover : Wired hand (c.setLoop n { c.loop n with stand := .over, watched := false }) :=
    h.setLoop (h.count_le n) (Nat.le_refl _) (h.backoff n) fun _ => .of_over rfl _
  dsimp only [Client.finishLoop]
  split
  · exact hover.give rfl
  · exact hover

theorem Wired.awaitMessage (h : Wired hand c) (hn : n < c.loops.size) :
    Wired hand (c.awaitMessage n) := by
  have hwait : Wired hand (c.beginWait n .awaiting 1) :=
    h.beginWait hn 1 fun _ _ _ => .of_awaiting rfl _
  have hstand : ((c.beginWait n .awaiting 1).loop n).stand = .awaiting := by
    rw [(c.beginWait_leaves n .awaiting 1).loop_self hn]
  refine Wired.give ?_ rfl
  exact hwait.setFetch _ fun _ => .of_awaiting (by exact hstand) _

theorem Wired.pause (h : Wired hand c) (hn : n < c.loops.size)
    (hgone : c.running = true → (c.loop n).fetch = .gone) (seconds : Nat) :
    Wired hand (c.pause n seconds) :=
  h.beginWait hn seconds fun hrun _ _ => .of_gone (by exact hgone hrun) _

/-- A loop that has not been called stops waiting for a message. -/
theorem Wired.withdraw (h : Wired hand c) (hcalled : (c.loop n).called = false) (expired : Bool) :
    Wired hand (c.withdraw n expired) := by
  have hset (fetch : Fetch) : Wired hand (c.setLoop n (withdrawn (c.loop n) expired fetch)) := by
    refine h.setLoop (h.count_le n) (Nat.le_succ _) (h.backoff n) fun _ => ?_
    exact .inr ⟨hcalled, h.not_released (Nat.lt_succ_self _)⟩
  unfold Client.withdraw
  dsimp only
  split
  · exact hset (.starting true)
  · exact hset (.summoned true)
  · refine Wired.give ?_ rfl
    exact (hset .leaving).congr rfl rfl rfl
  · exact hset (c.loop n).fetch

theorem Wired.finishFetch (h : Wired hand c) {fetch : Fetch}
    (hfetch : fetch = .gone ∨ (c.loop n).stand = .awaiting) :
    Wired hand (c.finishFetch n fetch) := by
  have hsettled (released : Prop) : Settled { c.loop n with fetch } released := by
    rcases hfetch with hgone | hawaiting
    · exact .of_gone hgone released
    · exact .of_awaiting (by exact hawaiting) released
  have hset := h.setFetch fetch fun _ => hsettled _
  have hthen : Settled ((c.setLoop n { c.loop n with fetch }).loop n) True ∧
      ((c.setLoop n { c.loop n with fetch }).loop n).wait = (c.loop n).wait := by
    by_cases hn : n < c.loops.size
    · rw [loop_setLoop_self _ hn]
      exact ⟨hsettled True, rfl⟩
    · rw [loop_setLoop, if_neg fun hin => hn hin.2, loop_of_size_le (Nat.le_of_not_lt hn)]
      exact ⟨.of_over rfl True, rfl⟩
  have hgiven := hset.giveRelease fun _ => hthen.1
  rw [hthen.2] at hgiven
  exact hgiven

theorem Wired.callListener (h : Wired hand c) (horderly : c.Orderly) :
    Wired hand c.callListener := by
  unfold Client.callListener
  split
  next => exact h
  next n rest hcons =>
    have hlistening := (horderly.listening n).mp (by rw [hcons]; exact List.mem_cons_self)
    have hstand := horderly.fetching n (by rw [hlistening]; rfl)
    have hset : Wired hand (c.setLoop n { c.loop n with fetch := .summoned false }) :=
      h.setFetch (.summoned false) fun _ => .of_awaiting (by exact hstand) _
    refine Wired.give ?_ rfl
    exact hset.congr rfl rfl rfl

theorem Wired.lookForMessage (h : Wired hand c) (hstand : (c.loop n).stand = .awaiting) :
    Wired hand (c.lookForMessage n) := by
  unfold Client.lookForMessage
  split
  next m rest _ =>
    have htaken : Wired hand ({ c with queue := rest }.note (.taken m)) := h.congr rfl rfl rfl
    exact htaken.finishFetch (.inr hstand)
  next =>
    have hset : Wired hand (c.setLoop n { c.loop n with fetch := .listening }) :=
      h.setFetch .listening fun _ => .of_awaiting (by exact hstand) _
    exact hset.congr rfl rfl rfl

theorem Wired.fetchTurn (h : Wired hand c) (horderly : c.Orderly) (n : Nat) :
    Wired hand (c.fetchTurn n) := by
  have hlook (hactive : (c.loop n).fetch.isActive = true) : Wired hand (c.lookForMessage n) :=
    h.lookForMessage (horderly.fetching n hactive)
  unfold Client.fetchTurn
  split
  next hfetch => exact hlook (by rw [hfetch]; rfl)
  next hfetch => exact hlook (by rw [hfetch]; rfl)
  next =>
    split
    · exact h.finishFetch (.inl rfl)
    · exact (h.callListener horderly).finishFetch (.inl rfl)
  next => exact h.finishFetch (.inl rfl)
  next => exact h.finishFetch (.inl rfl)
  next => exact h

/-- Of a loop that does not exist, nothing can be done. -/
theorem lt_size_of_stand (hstand : (c.loop n).stand ≠ .over) : n < c.loops.size := by
  by_contra hn
  exact hstand (by rw [loop_of_size_le (Nat.le_of_not_lt hn)])

/-- The end of a wait calls the loop that waits, if it has not been called yet. -/
theorem releaseLoop_cases (c : Client) (n wait : Nat) : c.releaseLoop n wait = c ∨
    (c.loop n).stand ≠ .over ∧ (c.loop n).wait = wait ∧ (c.loop n).called = false ∧
      c.releaseLoop n wait =
        (c.setLoop n { c.loop n with called := true }).give (.goOn (.delivery n)) := by
  unfold Client.releaseLoop
  dsimp only
  split
  case h_4 => exact .inl rfl
  all_goals
    next hstand =>
      split
      next hwaits =>
        obtain ⟨hwait, hcalled⟩ := Bool.and_eq_true_iff.mp hwaits
        exact .inr ⟨by simp [hstand], of_decide_eq_true hwait, by simpa using hcalled, rfl⟩
      next => exact .inl rfl

theorem Wired.releaseLoop {wait : Nat} (h : Wired [.release (.delivery n) wait] c) :
    Wired [] (c.releaseLoop n wait) := by
  have hless : Wired [] c := h.of_subperm rfl id List.Subperm.cons_self
  rcases c.releaseLoop_cases n wait with hsame | ⟨hstand, hwait, hcalled, hcall⟩
  · rw [hsame]
    exact hless
  · rw [hcall]
    refine hless.call (lt_size_of_stand hstand) hcalled _ fun hrun => ?_
    exact ((h.settled hrun n).imp fun _ => by simp [hwait]).call true _ _

/-! ## Deeds that open no session -/

theorem Wired.cancelLoop (h : Wired hand c) (hrunning : c.running = false) (n : Nat) :
    Wired hand (c.cancelLoop n) := by
  have hidle {p : Prop} (hrun : c.running = true) : p := by
    rw [hrunning] at hrun
    contradiction
  unfold Client.cancelLoop
  dsimp only
  split
  next => exact h
  next hstand =>
    split
    next => exact h.setLoop (h.count_le n) (Nat.le_refl _) (h.backoff n) fun hrun => hidle hrun
    next hcalled =>
      exact h.call (lt_size_of_stand hstand) (Bool.eq_false_iff.mpr hcalled) true hidle

/-- A loop that is started has only its first turn to come. -/
theorem Wired.start (h : Wired [] c) (horderly : c.Orderly) (hcurrent : c.current = none) :
    Wired [] c.start := by
  have hover (i : Nat) : (c.loop i).stand = .over := horderly.others i (by simp [hcurrent])
  have hsize : c.start.loops.size = c.loops.size + 1 := Array.size_push _
  have hperm : c.start.scene.schedule.turns.Perm
      (.goOn (.delivery c.loops.size) :: c.scene.schedule.turns) :=
    c.scene.schedule.give_turns_perm _
  have hrelease {i w : Nat} (hw : .release (.delivery i) w ∈ c.start.scene.schedule.turns) :
      .release (.delivery i) w ∈ c.scene.schedule.turns :=
    List.mem_of_ne_of_mem (by simp) (hperm.subset hw)
  refine ⟨fun i => ?_, fun i w hw => ?_, fun i => ?_, fun _ i => ?_⟩
  all_goals rw [start_loop]
  · have hcalls := h.calls i
    rw [List.nil_append] at hcalls ⊢
    rw [hperm.count_eq, hsize]
    by_cases hi : i = c.loops.size
    · rw [if_neg (by omega)] at hcalls
      rw [if_pos hi, if_pos (by omega), hi, List.count_cons_self]
      exact Nat.succ_le_succ (hi ▸ hcalls)
    · rw [if_neg hi, List.count_cons_of_ne (by simpa using Ne.symm hi)]
      by_cases hlt : i < c.loops.size
      · rw [if_pos hlt] at hcalls
        rwa [if_pos (by omega)]
      · rw [if_neg hlt] at hcalls
        rwa [if_neg (by omega)]
  · have hwait := h.waits i w (hrelease hw)
    split
    next hi =>
      rw [hi, loop_of_size_le (Nat.le_refl _)] at hwait
      exact hwait
    next => exact hwait
  · split
    · decide
    · exact h.backoff i
  · split
    · exact .of_gone rfl _
    · exact .of_over (hover i) _

end Client

end Mqtt

end SupplyGauge
