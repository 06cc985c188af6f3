import SupplyGauge.Proofs.Mqtt.Commands

/-! # Every deed is moves of the ledger

The caller of a client gets no more turns than it waits for, so when it goes on after
having begun to stop the client, the current loop is over. With this, each deed keeps
a course sound and moves its ledger; so does every run.
-/

namespace SupplyGauge.Mqtt

open Client Ledger

/-- How many turns the caller can expect at most. -/
def Conduct.turns : Conduct → Nat
  | .acting | .away => 0
  | .called | .stopping => 1

namespace Course

/-- The ledger of a client in use. -/
def ledger (p : Course) : Ledger := p.client.ledger p.offered p.client.inHand

/-- The loops are in order, and the caller gets a turn only where it waits for one. While it waits
for the end of the current loop, this loop is watched until it is over. -/
structure Sound (p : Course) : Prop where
  orderly : p.client.Orderly
  serial : p.client.accepted = p.offered.length
  expected : p.client.expected ≤ p.conduct.turns
  stopping : p.conduct = .stopping → ∃ n, p.client.current = some n ∧
    ((p.client.loop n).stand ≠ .over → (p.client.loop n).watched = true)

/-- What a deed comes to. -/
structure Progress (byHand : Prop) (p p' : Course) : Prop where
  sound : p'.Sound
  tended : byHand ∨ p.client.Tended → byHand ∨ p'.client.Tended
  moves : byHand ∨ p.client.Tended → Moves byHand p.ledger p'.ledger

variable {byHand : Prop} {p : Course}

theorem Progress.refl (h : p.Sound) : Progress byHand p p := ⟨h, id, fun _ => .refl⟩

theorem Progress.trans {p' p'' : Course} (h : Progress byHand p p') (h' : Progress byHand p' p'') :
    Progress byHand p p'' where
  sound := h'.sound
  tended htended := h'.tended (h.tended htended)
  moves htended := (h.moves htended).trans (h'.moves (h.tended htended))

theorem Sound.keep (h : p.Sound) {c' : Client} {offered : List Message} (hkeeps : Keeps p.client c')
    (haccepted : c'.accepted = offered.length) :
    Sound { p with client := c', offered } where
  orderly := hkeeps.orderly
  serial := haccepted
  expected := Nat.le_trans hkeeps.expected h.expected
  stopping hstopping := by
    obtain ⟨n, hcurrent, hwatched⟩ := h.stopping hstopping
    refine ⟨n, hkeeps.current.trans hcurrent, fun hstand => ?_⟩
    obtain ⟨hthen, hsame⟩ := hkeeps.watched n hstand
    exact hsame.trans (hwatched hthen)

/-- A turn of the loops. -/
theorem Sound.advance (h : p.Sound) {c' : Client} (hadvances : Advances byHand p.client c') :
    Progress byHand p { p with client := c' } where
  sound := h.keep hadvances.toKeeps (hadvances.accepted.trans h.serial)
  tended htended := htended.imp_right hadvances.tended
  moves htended := hadvances.moves htended p.offered

theorem publish_progress (h : p.Sound) (topic : String) (payload : Payload) (retain : Option Bool) :
    Progress byHand p (p.publish topic payload retain) := by
  have hmoves : Moves byHand p.ledger _ :=
    p.publish_moves p.client.inHand topic payload retain h.serial
  obtain ⟨hkeeps, hhand, htended, haccepted⟩ := publish_keeps h.orderly topic payload retain
  unfold Course.publish at hmoves ⊢
  rcases hpublish : p.client.publish topic payload retain with ⟨accepted, c⟩
  rw [hpublish] at hmoves hkeeps hhand htended haccepted
  cases accepted with
  | true =>
      refine ⟨h.keep hkeeps ?_, (·.imp_right htended), fun _ => ?_⟩
      · rw [haccepted, h.serial, List.length_append]
        rfl
      · unfold Course.ledger
        rw [show c.inHand = p.client.inHand from hhand]
        exact hmoves
  | false =>
      refine ⟨h.keep hkeeps (haccepted.trans h.serial), (·.imp_right htended), fun _ => ?_⟩
      unfold Course.ledger
      rw [show c.inHand = p.client.inHand from hhand]
      exact hmoves

theorem aside_progress (h : p.Sound) (e : Errand) :
    Progress byHand p
      { p with client := { p.client with scene := e.perform p.client.scene } } where
  sound := h.keep (.of_eq h.orderly { p.client with scene := e.perform p.client.scene } rfl rfl rfl
    (Nat.le_of_eq (errand_callerTurns p.client e))) h.serial
  tended htended := htended.imp_right fun h => ⟨h.waiting, h.idle, h.attached⟩
  moves _ := errand_moves p.client e p.offered p.client.inHand

/-- A caller that is away can be called back once. -/
theorem call_progress (h : p.Sound) (hconduct : p.conduct = .away) (after : Option Instant)
    {turn : Turn} (hturn : turn.isCallers = true) :
    Progress byHand p
      { p with
        client := { p.client with scene := p.client.scene.lend after turn }
        conduct := .called } where
  sound := by
    have hturns := h.expected
    rw [hconduct] at hturns
    refine ⟨h.orderly.congr rfl rfl rfl, h.serial, ?_, fun hstopping => by contradiction⟩
    rw [lend_expected, if_pos hturn]
    exact Nat.succ_le_succ hturns
  tended htended := htended.imp_right fun h => ⟨h.waiting, h.idle, h.attached⟩
  moves _ := by
    unfold Course.ledger Client.ledger
    rw [Scene.lend_past]
    exact .refl

/-- A session is opened by hand. -/
theorem connect_progress (h : p.Sound) (hbyHand : byHand) :
    Progress byHand p { p with client := p.client.connect.2 } where
  sound := by
    have hspares := p.client.connect_spares 0
    exact h.keep (hspares.keeps h.orderly) (hspares.accepted.trans h.serial)
  tended _ := .inl hbyHand
  moves _ := by
    unfold Course.ledger
    rw [inHand_of_loops (p.client.connect_spares 0).loops_eq]
    exact p.client.connect_moves p.offered p.client.inHand hbyHand

/-- A session is ended by hand. -/
theorem disconnect_progress (h : p.Sound) (hbyHand : byHand) :
    Progress byHand p { p with client := p.client.disconnect.2 } where
  sound := by
    have hspares := p.client.disconnect_spares 0
    exact h.keep (hspares.keeps h.orderly) (hspares.accepted.trans h.serial)
  tended _ := .inl hbyHand
  moves _ := by
    unfold Course.ledger
    rw [inHand_of_loops (p.client.disconnect_spares 0).loops_eq]
    exact p.client.disconnect_moves p.offered p.client.inHand (.inl hbyHand)

/-- A client is started with a loop of its own. -/
theorem start_progress (h : p.Sound) (hcurrent : p.client.current = none) :
    Progress byHand p { p with client := p.client.start } := by
  refine ⟨⟨start_orderly h.orderly hcurrent, h.serial, start_expected hcurrent ▸ h.expected,
    fun hstopping => ?_⟩, (·.imp_right fun htended => start_tended h.orderly hcurrent
      htended.attached), fun _ => ?_⟩
  · obtain ⟨n, hn, -⟩ := h.stopping hstopping
    rw [hcurrent] at hn
    contradiction
  · unfold Course.ledger
    rw [start_inHand]
    exact Moves.remark (.reported (Log.note .info component "MQTT client started")) rfl

/-- Once its loop is over, a client stops with the end of its session. -/
theorem finishStop_progress (h : p.Sound) (hover : ∀ i, (p.client.loop i).stand = .over)
    (hturns : p.client.callerTurns = 0) :
    Progress byHand p { p with client := p.client.finishStop.2, conduct := .acting } := by
  have hspares := p.client.finishStop_spares 0
  have horderly := finishStop_orderly h.orderly hover
  have hhand : p.client.finishStop.2.inHand = p.client.inHand := inHand_of_loops hspares.loops_eq
  have hnothing := horderly.inHand_eq_nil hspares.current
  refine ⟨⟨horderly, hspares.accepted.trans h.serial, Nat.le_of_eq (finishStop_expected hturns),
    fun hstopping => by contradiction⟩, (·.imp_right (finishStop_tended hover)), fun _ => ?_⟩
  unfold Course.ledger
  rw [hnothing, hhand.symm.trans hnothing]
  exact p.client.finishStop_moves p.offered [] (.inr rfl)

/-- A caller that begins to stop the client waits for the current loop unless it is over. -/
theorem stop_progress (h : p.Sound) (hconduct : p.conduct = .acting) :
    Progress byHand p p.stop := by
  obtain ⟨c', hadvances, ⟨hbegin, hover⟩ | ⟨n, hcurrent, hstand, hbegin⟩⟩ :
      ∃ c', Advances byHand p.client c' ∧ _ := h.orderly.beginStop_cases
  all_goals
    have hprogress := h.advance hadvances
    have hexpected := hprogress.sound.expected
    simp only [hconduct, Conduct.turns, Nat.le_zero_eq, Client.expected, Nat.add_eq_zero_iff]
      at hexpected
    unfold Course.stop
    rw [hbegin]
    dsimp only
  · have hfinish : Progress byHand _ _ :=
      finishStop_progress hprogress.sound hover hexpected.1
    simpa only [hconduct] using hprogress.trans hfinish
  · have hn := hadvances.orderly.bounded n hcurrent
    refine hprogress.trans ⟨⟨hadvances.orderly.watching hstand, hprogress.sound.serial,
      watching_expected hexpected.1, fun _ => ⟨n, hcurrent, fun _ => ?_⟩⟩,
      (·.imp_right watching_tended), fun _ => ?_⟩
    · rw [loop_setLoop_self _ hn]
    · unfold Course.ledger
      rw [hadvances.orderly.watching_inHand hcurrent hstand]
      exact .refl

/-- The caller comes to its turn only once, and then the loop for whose end it waits is over. -/
theorem resume_progress (h : p.Sound) (hturn : p.client.expected + 1 ≤ p.conduct.turns) :
    Progress byHand p p.resume := by
  have hexpected : p.client.expected = 0 := by
    rcases hconduct : p.conduct <;> simp_all [Conduct.turns]
  unfold Course.resume
  split
  next hconduct =>
    refine finishStop_progress h (h.orderly.over_of_unexpected (h.stopping hconduct) hexpected) ?_
    exact (Nat.add_eq_zero_iff.mp hexpected).1
  next hconduct =>
    exact ⟨⟨h.orderly, h.serial, Nat.le_of_eq hexpected, fun hstopping => by contradiction⟩, id,
      fun _ => .refl⟩

/-- Time comes to a turn, and nothing else happens. -/
theorem Sound.setScene (h : p.Sound) {scene : Scene}
    (hturns : callerTurns { p.client with scene } ≤ p.client.callerTurns)
    (hpast : scene.past = p.client.scene.past) :
    Progress byHand p { p with client := { p.client with scene } } := by
  refine ⟨h.keep (.of_eq h.orderly _ rfl rfl rfl hturns) h.serial,
    (·.imp_right fun h => ⟨h.waiting, h.idle, h.attached⟩), fun _ => ?_⟩
  unfold Course.ledger Client.ledger
  rw [hpast]
  exact .refl

theorem goOn_progress (h : p.Sound) : Progress byHand p p.goOn := by
  unfold Course.goOn
  split
  next => exact .refl h
  next scene hnext =>
    have hturns := next?_callerTurns hnext
    have hnow : Progress byHand p _ := h.setScene (Nat.le_trans (Nat.le_add_right _ _) hturns)
      (Scene.next?_turns_subperm hnext).2
    exact hnow.trans
      (resume_progress hnow.sound (Nat.le_trans (next?_expected hnext) h.expected))
  next turn scene hcaller hnext =>
    -- a release of the caller only gives out its turn, all others are the client's or nobody's
    have hturns := next?_callerTurns hnext
    have hpast := (Scene.next?_turns_subperm hnext).2
    by_cases hturn : turn.isCallers
    · obtain ⟨wait, rfl⟩ : ∃ wait, turn = .release .caller wait := by
        unfold Turn.isCallers at hturn
        split at hturn
        · contradiction
        · exact ⟨_, rfl⟩
        · contradiction
      have hgiven := give_callerTurns { p.client with scene } (.goOn .caller)
      exact h.setScene (Nat.le_trans (Nat.le_of_eq hgiven) hturns) hpast
    · have hnow : Progress byHand p _ :=
        h.setScene (Nat.le_trans (Nat.le_add_right _ _) hturns) hpast
      exact hnow.trans (hnow.sound.advance
        (takeTurn_advances hnow.sound.orderly (Bool.not_eq_true _ ▸ hturn)))

/-- Every deed keeps a course sound and moves its ledger. Sessions are opened and ended by hand only
where it says so. -/
theorem act_progress (h : p.Sound) (deed : Deed) (hdeed : byHand ∨ deed.leavesSessions = true) :
    Progress byHand p (p.act deed) := by
  have hbyHand (hnot : deed.leavesSessions = false) : byHand :=
    hdeed.resolve_right (by rw [hnot]; decide)
  cases deed with
  | publish topic payload retain => exact publish_progress h topic payload retain
  | start =>
      dsimp only [Course.act]
      split
      next hcurrent => exact start_progress h hcurrent
      next => exact .refl h
  | stop =>
      dsimp only [Course.act]
      split
      next hconduct => exact stop_progress h hconduct
      next => exact .refl h
  | connect => exact connect_progress h (hbyHand rfl)
  | disconnect => exact disconnect_progress h (hbyHand rfl)
  | leave =>
      dsimp only [Course.act]
      split
      next hconduct =>
        have hexpected := h.expected
        rw [hconduct] at hexpected
        exact ⟨⟨h.orderly, h.serial, hexpected, fun hstopping => by contradiction⟩, id,
          fun _ => .refl⟩
      next => exact .refl h
  | call after turn =>
      dsimp only [Course.act]
      split
      next haway => exact call_progress h haway.1 after haway.2
      next => exact .refl h
  | aside e => exact aside_progress h e
  | goOn => exact goOn_progress h

theorem run_progress (h : p.Sound) (deeds : List Deed)
    (hdeeds : byHand ∨ ∀ deed ∈ deeds, deed.leavesSessions = true) :
    Progress byHand p (p.run deeds) := by
  induction deeds generalizing p with
  | nil => exact .refl h
  | cons deed deeds ih =>
      have hact : Progress byHand p (p.act deed) :=
        act_progress h deed (hdeeds.imp_right fun hall => hall _ List.mem_cons_self)
      exact hact.trans
        (ih hact.sound (hdeeds.imp_right fun hall d hd => hall d (List.mem_cons_of_mem _ hd)))

variable (settings : Config.MqttSettings) (availabilityTopic : String)
  (identifier : Config.Scalar) (now : Instant) (script : Script)

theorem fresh_sound : (fresh settings availabilityTopic identifier now script).Sound := by
  have hloop (i : Nat) :
      (fresh settings availabilityTopic identifier now script).client.loop i = { stand := .over } :=
    loop_of_size_le (Nat.zero_le i)
  refine ⟨⟨?_, ?_, List.nodup_nil, ?_, ?_, ?_⟩, rfl, Nat.le_refl 0, ?_⟩
  · intro i hactive
    rw [hloop] at hactive
    contradiction
  · intro i
    rw [hloop]
    exact iff_of_false List.not_mem_nil (by simp)
  · intro i _
    rw [hloop]
  · intro n hn
    contradiction
  · intro i _
    rw [hloop]
  · intro hstopping
    contradiction

theorem fresh_tended : (fresh settings availabilityTopic identifier now script).client.Tended := by
  refine ⟨fun i hi => ?_, fun _ => rfl, fun hconnected => absurd hconnected Bool.false_ne_true⟩
  rw [show (fresh settings availabilityTopic identifier now script).client.loop i =
    { stand := .over } from loop_of_size_le (Nat.zero_le i)] at hi
  contradiction

theorem run_fresh_sound (deeds : List Deed) :
    ((fresh settings availabilityTopic identifier now script).run deeds).Sound :=
  have hprogress : Progress True _ _ :=
    run_progress (fresh_sound settings availabilityTopic identifier now script) deeds (.inl trivial)
  hprogress.sound

theorem run_fresh_tended (deeds : List Deed)
    (hleft : ∀ deed ∈ deeds, deed.leavesSessions = true) :
    ((fresh settings availabilityTopic identifier now script).run deeds).client.Tended :=
  have hprogress : Progress False _ _ := run_progress
    (fresh_sound settings availabilityTopic identifier now script) deeds (.inr hleft)
  have htended := fresh_tended settings availabilityTopic identifier now script
  (hprogress.tended (.inr htended)).resolve_left id

/-- Every run of a client is moves of its ledger. -/
theorem run_fresh_moves (deeds : List Deed)
    (hdeeds : byHand ∨ ∀ deed ∈ deeds, deed.leavesSessions = true) :
    Moves byHand (fresh settings availabilityTopic identifier now script).ledger
      ((fresh settings availabilityTopic identifier now script).run deeds).ledger :=
  have hprogress : Progress byHand _ _ :=
    run_progress (fresh_sound settings availabilityTopic identifier now script) deeds hdeeds
  hprogress.moves (.inr (fresh_tended settings availabilityTopic identifier now script))

end Course

end SupplyGauge.Mqtt
