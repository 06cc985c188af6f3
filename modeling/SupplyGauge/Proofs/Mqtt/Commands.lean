import SupplyGauge.Proofs.Mqtt.Turns

/-! # What the caller and others do to a client

Beside the turns of its loops, a client is touched only by those who use it. Accepting a
message calls at most a fetch that listens. Starting adds a loop; stopping tells the
current loop to end and, once it is over, ends the session. Others act in the scene
without touching loops or turns of the caller.
-/

namespace SupplyGauge

theorem Scene.lend_past (s : Scene) (after : Option Instant) (turn : Turn) :
    (s.lend after turn).past = s.past := by
  cases after <;> rfl

namespace Mqtt.Client

open Ledger

variable {byHand : Prop} {c c' : Client} {n : Nat}

theorem inHand_of_loops (hloops : c'.loops = c.loops) : c'.inHand = c.inHand := by
  rw [Client.inHand, Client.inHand, hloops]

theorem Spares.keeps (hspares : Spares c n c') (h : c.Orderly) : Keeps c c' :=
  .of_eq h c' hspares.loops_eq hspares.listeners hspares.current
    (Nat.le_of_eq hspares.callerTurns_eq)

/-- Accepting a message touches at most a fetch that listens. -/
theorem publish_keeps (h : c.Orderly) (topic : String) (payload : Payload)
    (retain : Option Bool) :
    Keeps c (c.publish topic payload retain).2 ∧
      (c.publish topic payload retain).2.inHand = c.inHand ∧
      (c.Tended → (c.publish topic payload retain).2.Tended) ∧
      (c.publish topic payload retain).2.accepted =
        c.accepted + (c.publish topic payload retain).1.toNat := by
  unfold Client.publish Client.enqueue
  by_cases hroom : c.queue.length < queueLimit
  · simp only [if_pos hroom]
    generalize c.queue ++ [_] = queue
    have hqueued : Keeps c { c with queue } := .of_eq h _ rfl rfl rfl (Nat.le_refl _)
    have hcalled : Advances False { c with queue } { c with queue }.callListener :=
      callListener_advances hqueued.orderly
    have hhand := hqueued.orderly.callListener_inHand
    have haccepted := hcalled.accepted
    generalize { c with queue }.callListener = called at *
    refine ⟨(hqueued.trans hcalled.toKeeps).trans
        (.of_eq hcalled.orderly _ rfl rfl rfl (Nat.le_refl _)),
      hhand, fun htended => ?_, congrArg (· + 1) haccepted⟩
    have hthen := hcalled.tended ⟨htended.waiting, htended.idle, htended.attached⟩
    exact ⟨hthen.waiting, hthen.idle, hthen.attached⟩
  · simp only [if_neg hroom]
    exact ⟨.of_eq h _ rfl rfl rfl (Nat.le_refl _), rfl,
      fun htended => ⟨htended.waiting, htended.idle, htended.attached⟩, rfl⟩

theorem lend_callerTurns (c : Client) (after : Option Instant) (turn : Turn) :
    callerTurns { c with scene := c.scene.lend after turn } =
      c.callerTurns + if turn.isCallers then 1 else 0 := by
  cases after with
  | none => exact c.give_callerTurns turn
  | some seconds => exact c.giveAfter_callerTurns seconds turn

theorem lend_expected (c : Client) (after : Option Instant) (turn : Turn) :
    expected { c with scene := c.scene.lend after turn } =
      c.expected + if turn.isCallers then 1 else 0 := by
  rw [expected, lend_callerTurns, Nat.add_right_comm]
  rfl

/-- Others give the caller no turns. -/
theorem errand_callerTurns (c : Client) (e : Errand) :
    callerTurns { c with scene := e.perform c.scene } = c.callerTurns := by
  unfold Errand.perform
  split
  · rfl
  · split <;> rfl
  · rfl
  next after turn =>
    split
    next hforeign =>
      have hturn : turn.isCallers = false := by
        simpa using (Bool.and_eq_true_iff.mp hforeign).1
      rw [lend_callerTurns, hturn]
      rfl
    next => rfl
  · split
    · exact congrArg (List.countP Turn.isCallers) (c.scene.schedule.callOff_turns _)
    · rfl

/-- Others only add remarks to the past. -/
theorem errand_moves (c : Client) (e : Errand) (offered inHand : List Message) :
    Moves byHand (c.ledger offered inHand)
      (({ c with scene := e.perform c.scene } : Client).ledger offered inHand) := by
  unfold Errand.perform
  split
  next entry => exact Moves.remark (.reported entry) rfl
  next event _ =>
    split
    next hremark => exact Moves.remark event hremark
    next => exact .refl
  next => exact .refl
  next after turn =>
    split
    next =>
      unfold Client.ledger
      rw [Scene.lend_past]
      exact .refl
    next => exact .refl
  next => split <;> exact .refl

/-- A turn that comes has been given out. -/
theorem next?_callerTurns {turn : Turn} {scene : Scene}
    (hnext : c.scene.next? = some (turn, scene)) :
    callerTurns { c with scene } + (if turn.isCallers then 1 else 0) ≤ c.callerTurns := by
  have hturns := (Scene.next?_turns_subperm hnext).1.countP_le Turn.isCallers
  rwa [List.countP_cons] at hturns

/-- A turn of the caller has been expected. -/
theorem next?_expected {scene : Scene} (hnext : c.scene.next? = some (.goOn .caller, scene)) :
    expected { c with scene } + 1 ≤ c.expected := by
  rw [expected, Nat.add_right_comm]
  exact Nat.add_le_add_right (next?_callerTurns hnext) _

theorem start_loop (c : Client) (i : Nat) :
    c.start.loop i = if i = c.loops.size then {} else c.loop i := by
  have hloops : c.start.loops = c.loops.push {} := rfl
  rw [loop, hloops, Array.getElem?_push]
  split <;> rfl

theorem start_orderly (h : c.Orderly) (hcurrent : c.current = none) : c.start.Orderly := by
  have hover (i : Nat) : (c.loop i).stand = .over := h.others i (by simp [hcurrent])
  constructor
  · intro i
    rw [start_loop]
    split
    · exact fun hactive => by contradiction
    · simp [h.inactive (n := i) (by rw [hover i]; decide)]
  · intro i
    rw [start_loop]
    split
    next hi =>
      -- a listener is the fetch of a loop that exists
      refine iff_of_false (fun hlistens => ?_) (by simp)
      have hlistening := (h.listening i).mp hlistens
      rw [hi, loop_of_size_le (Nat.le_refl _)] at hlistening
      contradiction
    next => exact h.listening i
  · exact h.nodup
  · intro i hi
    rw [start_loop, if_neg fun hsize : i = c.loops.size => hi (hsize ▸ rfl)]
    exact hover i
  · intro n hn
    obtain rfl := Option.some.inj hn
    change _ < (c.loops.push {}).size
    simp
  · intro i
    rw [start_loop]
    split
    · exact fun _ => rfl
    · exact h.unwatched i

/-- Nobody waits for a loop that has just been started. -/
theorem start_expected (hcurrent : c.current = none) : c.start.expected = c.expected := by
  have hturns : c.start.callerTurns = c.callerTurns :=
    give_callerTurns c (.goOn (.delivery c.loops.size))
  rw [expected, expected, hturns, watch, watch, hcurrent]
  change _ + (c.start.loop c.loops.size).watched.toNat = _
  rw [start_loop, if_pos rfl]
  rfl

theorem start_inHand (c : Client) : c.start.inHand = c.inHand := by
  rw [Client.inHand, Client.inHand]
  change (c.loops.push {}).toList.filterMap _ = _
  simp [Fetch.message?]

theorem start_tended (h : c.Orderly) (hcurrent : c.current = none)
    (hattached : c.connected = true → c.attached = true) : c.start.Tended := by
  refine ⟨fun i hi => ?_, fun hnone => by contradiction, hattached⟩
  rw [start_loop] at hi
  split at hi
  · contradiction
  · rw [h.others i (by simp [hcurrent])] at hi
    contradiction

/-- The caller begins to wait for the end of a loop. -/
theorem Orderly.watching (h : c.Orderly) (hstand : (c.loop n).stand ≠ .over) :
    (c.setLoop n { c.loop n with watched := true }).Orderly := by
  have hloop (i : Nat) : ((c.setLoop n { c.loop n with watched := true }).loop i).stand =
      (c.loop i).stand ∧ ((c.setLoop n { c.loop n with watched := true }).loop i).fetch =
        (c.loop i).fetch := by
    rw [loop_setLoop]
    split
    next hi => exact hi.1 ▸ ⟨rfl, rfl⟩
    next => exact ⟨rfl, rfl⟩
  constructor
  · intro i
    rw [(hloop i).1, (hloop i).2]
    exact h.fetching i
  · intro i
    rw [(hloop i).2]
    exact h.listening i
  · exact h.nodup
  · intro i hi
    rw [(hloop i).1]
    exact h.others i hi
  · intro i hi
    change i < (c.loops.setIfInBounds n _).size
    rw [Array.size_setIfInBounds]
    exact h.bounded i hi
  · intro i hover
    rw [(hloop i).1] at hover
    rw [loop_setLoop, if_neg fun hi : i = n ∧ _ => hstand (hi.1 ▸ hover)]
    exact h.unwatched i hover

theorem watching_expected (hturns : c.callerTurns = 0) :
    (c.setLoop n { c.loop n with watched := true }).expected ≤ 1 := by
  have hsame : (c.setLoop n { c.loop n with watched := true }).callerTurns = 0 := hturns
  rw [expected, hsame, Nat.zero_add]
  exact Bool.toNat_le _

theorem watching_tended (htended : c.Tended) :
    (c.setLoop n { c.loop n with watched := true }).Tended := by
  refine ⟨fun i hi => htended.waiting i ?_, htended.idle, htended.attached⟩
  rw [loop_setLoop] at hi
  split at hi
  next hin => exact hin.1 ▸ hi
  next => exact hi

theorem Orderly.watching_inHand (h : c.Orderly) (hcurrent : c.current = some n)
    (hstand : (c.loop n).stand ≠ .over) :
    (c.setLoop n { c.loop n with watched := true }).inHand = c.inHand := by
  have hn := h.bounded n hcurrent
  rw [(h.watching hstand).inHand_eq hcurrent, loop_setLoop_self _ hn, h.inHand_eq hcurrent]

/-- Beginning to stop ends the current loop at once or tells it to end. -/
theorem Orderly.beginStop_cases (h : c.Orderly) :
    ∃ c', Advances byHand c c' ∧
      (c.beginStop = (false, c') ∧ (∀ i, (c'.loop i).stand = .over) ∨
        ∃ n, c'.current = some n ∧ (c'.loop n).stand ≠ .over ∧
          c.beginStop = (true, c'.setLoop n { c'.loop n with watched := true })) := by
  have hquit : Advances byHand c { c with running := false } :=
    { Advances.refl h with
      orderly := h.congr rfl rfl rfl
      tended := fun h => ⟨h.waiting, h.idle, h.attached⟩ }
  unfold beginStop
  dsimp only
  split
  next hcurrent => exact ⟨_, hquit, .inl ⟨rfl, fun i => h.others i (by rw [hcurrent]; simp)⟩⟩
  next n hcurrent =>
    have hcancel : Advances byHand c ({ c with running := false }.cancelLoop n) :=
      hquit.trans (cancelLoop_advances hquit.orderly n)
    have hcurrent' := hcancel.current.trans hcurrent
    generalize { c with running := false }.cancelLoop n = c' at *
    refine ⟨c', hcancel, ?_⟩
    by_cases hover : (c'.loop n).stand = .over
    · refine .inl ⟨if_pos hover, fun i => ?_⟩
      by_cases hi : i = n
      · exact hi ▸ hover
      · exact hcancel.orderly.others i (by rw [hcurrent']; simpa using Ne.symm hi)
    · exact .inr ⟨n, hcurrent', hover, if_neg hover⟩

/-- Once the current loop is over, stopping leaves no loop the current one. -/
theorem finishStop_orderly (h : c.Orderly) (hover : ∀ i, (c.loop i).stand = .over) :
    c.finishStop.2.Orderly := by
  have hspares := c.finishStop_spares 0
  have hended : Orderly { c with current := none } :=
    ⟨h.fetching, h.listening, h.nodup, fun i _ => hover i, by simp, h.unwatched⟩
  exact hended.congr hspares.loops_eq hspares.listeners hspares.current

theorem finishStop_expected (hturns : c.callerTurns = 0) : c.finishStop.2.expected = 0 := by
  have hspares := c.finishStop_spares 0
  have hquiet : c.finishStop.2.callerTurns = 0 := hspares.callerTurns_eq.trans hturns
  rw [expected, hquiet, watch, hspares.current]
  rfl

theorem finishStop_tended (hover : ∀ i, (c.loop i).stand = .over) (htended : c.Tended) :
    c.finishStop.2.Tended := by
  have hconnected := c.finishStop_connected htended.attached
  refine ⟨fun i hi => ?_, fun _ => hconnected, fun hstill => ?_⟩
  · rw [loop, (c.finishStop_spares 0).loops_eq] at hi
    rw [show (c.loops[i]?.getD { stand := .over }).stand = .over from hover i] at hi
    contradiction
  · rw [hconnected] at hstill
    contradiction

end Mqtt.Client

end SupplyGauge
