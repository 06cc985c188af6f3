import SupplyGauge.Proofs.Mqtt.Advance

/-! # Every turn advances a client

Each transition of a loop or a fetch is shown to advance the client, from the flags
and waits that leave no trace up to the passes in which sessions are opened and
messages delivered. A whole turn is one of these, and stopping the client begins
with one.
-/

namespace SupplyGauge.Mqtt

namespace Client

open Ledger

variable {byHand : Prop} {c c' : Client} {n : Nat}

theorem setLoop_leaves (c : Client) (n : Nat) (d : Delivery)
    (hwatched : d.watched = (c.loop n).watched) : Leaves c n (c.setLoop n d) d :=
  (spares_of_eq c n c rfl rfl rfl rfl rfl rfl).setLoop d hwatched

/-- A change of flags and waits. -/
theorem setLoop_advances (h : c.Orderly) {d : Delivery} (hstand : d.stand = (c.loop n).stand)
    (hfetch : d.fetch = (c.loop n).fetch) (hwatched : d.watched = (c.loop n).watched) :
    Advances byHand c (c.setLoop n d) := by
  refine (c.setLoop_leaves n d hwatched).advances h ⟨?_, ?_, ?_⟩ (by rw [hfetch]) (by rw [hfetch])
    (by rw [hstand]; exact id) fun _ _ => rfl
  · rw [hfetch, hstand]
    exact h.fetching n
  · rw [hstand, hwatched]
    exact h.unwatched n
  · rw [hstand]
    exact fun hover => ⟨hover, hwatched⟩

theorem give_advances (h : c.Orderly) (turn : Turn) (hturn : turn.isCallers = false) :
    Advances byHand c (c.give turn) := by
  have hfollows : Follows (c.loop 0) (c.loop 0) :=
    ⟨h.fetching 0, h.unwatched 0, fun hstand => ⟨hstand, rfl⟩⟩
  have hgiven := (spares_of_eq c 0 c rfl rfl rfl rfl rfl rfl).give turn hturn
  exact hgiven.advances h hfollows Iff.rfl rfl id fun _ _ => rfl

theorem stopTimer_spares (c : Client) (n : Nat) : Spares c n (c.stopTimer n) :=
  spares_of_eq c n _ rfl rfl rfl rfl rfl
    (congrArg (List.countP Turn.isCallers) (c.scene.schedule.callOff_turns _))

theorem stopTimer_advances (h : c.Orderly) (n : Nat) : Advances byHand c (c.stopTimer n) := by
  have hfollows : Follows (c.loop n) (c.loop n) :=
    ⟨h.fetching n, h.unwatched n, fun hstand => ⟨hstand, rfl⟩⟩
  exact (c.stopTimer_spares n).advances h hfollows Iff.rfl rfl id fun _ _ => rfl

theorem finishLoop_advances (h : c.Orderly) (hstand : (c.loop n).stand ≠ .awaiting) :
    Advances byHand c (c.finishLoop n) := by
  refine (c.finishLoop_leaves n).advances h ⟨?_, fun _ => rfl, ?_⟩ Iff.rfl rfl ?_
    (c.finishLoop_ledger · · n)
  · simp [h.inactive hstand]
  · exact fun hover => absurd rfl hover
  · exact fun hawaiting => by contradiction

/-- The first listener is called, if there is one. -/
theorem Orderly.callListener_cases (h : c.Orderly) :
    c.callListener = c ∨ ∃ n, (c.loop n).fetch = .listening ∧
      Changes c n c.callListener { c.loop n with fetch := .summoned false } ∧
      (∀ i, i ∈ c.callListener.listeners ↔ i ≠ n ∧ i ∈ c.listeners) ∧
      c.callListener.listeners.Nodup := by
  have hnodup := h.nodup
  unfold callListener
  split
  next => exact .inl rfl
  next n rest hcons =>
    rw [hcons, List.nodup_cons] at hnodup
    refine .inr ⟨n, (h.listening n).mp (by rw [hcons]; exact List.mem_cons_self),
      ⟨rfl, rfl, rfl, rfl, by rw [give_callerTurns]; rfl⟩, fun i => ?_, hnodup.2⟩
    change i ∈ rest ↔ _
    rw [hcons, List.mem_cons]
    by_cases hi : i = n
    · subst hi
      simpa using hnodup.1
    · simp [hi]

theorem callListener_advances (h : c.Orderly) : Advances byHand c c.callListener := by
  rcases h.callListener_cases with hsame | ⟨n, hlistening, hchanges, hlisteners, hnodup⟩
  · rw [hsame]
    exact .refl h
  · have hawaiting := h.fetching n (by rw [hlistening]; rfl)
    have hn := h.bounded n (h.current_of_stand (by rw [hawaiting]; decide))
    have hfollows : Follows (c.loop n) { c.loop n with fetch := .summoned false } :=
      ⟨fun _ => hawaiting, h.unwatched n, fun hstand => ⟨hstand, rfl⟩⟩
    refine hchanges.advances h (hchanges.orderly h hn hfollows ?_ hnodup) hfollows
      (by rw [hlistening]; rfl) id (c.callListener_ledger · ·)
    intro i
    rw [hlisteners]
    by_cases hi : i = n <;> simp [hi]

theorem Orderly.callListener_loop (h : c.Orderly) (hlisten : (c.loop n).fetch ≠ .listening) :
    c.callListener.loop n = c.loop n := by
  rcases h.callListener_cases with hsame | ⟨m, hlistening, hchanges, -⟩
  · rw [hsame]
  · exact hchanges.loop_of_ne fun hnm => hlisten (hnm ▸ hlistening)

theorem Orderly.callListener_inHand (h : c.Orderly) : c.callListener.inHand = c.inHand := by
  rcases h.callListener_cases with hsame | ⟨m, hlistening, hchanges, -⟩
  · rw [hsame]
  · exact hchanges.inHand_eq (by rw [hlistening]; rfl)

/-- The state of a loop that has stopped waiting for a message. -/
def withdrawn (d : Delivery) (expired : Bool) (fetch : Fetch) : Delivery :=
  { d with stand := .withdrawing expired, wait := d.wait + 1, fetch }

theorem withdrawn_follows (hstand : (c.loop n).stand ≠ .over) (expired : Bool) {fetch : Fetch}
    (hinactive : fetch.isActive = false) :
    Follows (c.loop n) (withdrawn (c.loop n) expired fetch) :=
  ⟨by simp [withdrawn, hinactive], by simp [withdrawn], fun _ => ⟨hstand, rfl⟩⟩

theorem withdrawn_advances (h : c.Orderly) (hstand : (c.loop n).stand ≠ .over) (expired : Bool)
    {fetch : Fetch} (hinactive : fetch.isActive = false)
    (hlisten : (c.loop n).fetch ≠ .listening) (hmessage : (c.loop n).fetch.message? = none) :
    Advances byHand c (c.setLoop n (withdrawn (c.loop n) expired fetch)) := by
  refine (c.setLoop_leaves n (withdrawn (c.loop n) expired fetch) rfl).advances h
    (withdrawn_follows hstand expired hinactive) (iff_of_false (fun hd => ?_) hlisten) ?_
    (by simp [withdrawn]) fun _ _ => rfl
  · change fetch = .listening at hd
    rw [hd] at hinactive
    contradiction
  · rw [hmessage]
    exact message?_of_inactive hinactive

/-- A loop that stops waiting for a message takes its fetch from the listeners. -/
theorem withdraw_advances (h : c.Orderly) (hstand : (c.loop n).stand = .awaiting)
    (hmessage : (c.loop n).fetch.message? = none) (expired : Bool) :
    Advances byHand c (c.withdraw n expired) := by
  have hover : (c.loop n).stand ≠ .over := by rw [hstand]; decide
  have hn := h.bounded n (h.current_of_stand hover)
  unfold withdraw
  dsimp only
  split
  next hfetch =>
    exact withdrawn_advances h hover expired rfl (by simp [hfetch]) hmessage
  next hfetch =>
    exact withdrawn_advances h hover expired rfl (by simp [hfetch]) hmessage
  next hfetch =>
    -- only a fetch that still listens has to be taken from the listeners
    have hchanges : Changes c n
        (({ c with listeners := c.listeners.filter (· != n) }.setLoop n
          (withdrawn (c.loop n) expired .leaving)).give (.goOn (.fetch n)))
        (withdrawn (c.loop n) expired .leaving) :=
      ⟨rfl, rfl, rfl, rfl, by rw [give_callerTurns]; rfl⟩
    have hfollows := withdrawn_follows hover expired (rfl : Fetch.leaving.isActive = false)
    refine hchanges.advances h (hchanges.orderly h hn hfollows ?_ (h.nodup.filter _)) hfollows
      (by rw [hfetch]; rfl) (by simp [withdrawn]) fun _ _ => rfl
    intro i
    change i ∈ c.listeners.filter (· != n) ↔ _
    by_cases hi : i = n <;> simp [hi, withdrawn]
  next hstarting hsummoned hlistening =>
    have hinactive : (c.loop n).fetch.isActive = false := by
      rcases hfetch : (c.loop n).fetch with r | _ | r | _ | m | _
      · exact absurd hfetch (hstarting r)
      · exact absurd hfetch hlistening
      · exact absurd hfetch (hsummoned r)
      · rfl
      · rw [hfetch] at hmessage
        contradiction
      · rfl
    exact withdrawn_advances h hover expired hinactive hlistening hmessage

theorem finishFetch_leaves (c : Client) (n : Nat) (fetch : Fetch) :
    Leaves c n (c.finishFetch n fetch) { c.loop n with fetch } :=
  (c.setLoop_leaves n { c.loop n with fetch } rfl).give _ rfl

/-- A fetch that has not listened is gone without a message. -/
theorem finishFetch_gone_advances (h : c.Orderly) (hlisten : (c.loop n).fetch ≠ .listening)
    (hmessage : (c.loop n).fetch.message? = none) : Advances byHand c (c.finishFetch n .gone) := by
  refine (c.finishFetch_leaves n .gone).advances h ⟨?_, h.unwatched n, fun hstand => ⟨hstand, rfl⟩⟩
    (iff_of_false (by simp) hlisten) (by rw [hmessage]; rfl) id fun _ _ => rfl
  exact fun hactive => by contradiction

/-- A fetch that looks into the queue takes a message into hand or begins to listen. -/
theorem lookForMessage_advances (h : c.Orderly) (hstand : (c.loop n).stand = .awaiting)
    (hlisten : (c.loop n).fetch ≠ .listening) (hmessage : (c.loop n).fetch.message? = none) :
    Advances byHand c (c.lookForMessage n) := by
  have hover : (c.loop n).stand ≠ .over := by rw [hstand]; decide
  have hcurrent := h.current_of_stand hover
  have hn := h.bounded n hcurrent
  have hfollows (fetch : Fetch) : Follows (c.loop n) { c.loop n with fetch } :=
    ⟨fun _ => hstand, h.unwatched n, fun hstand => ⟨hstand, rfl⟩⟩
  have hhand : c.inHand = [] := by rw [h.inHand_eq hcurrent, hmessage]; rfl
  have hmoves (htended : byHand ∨ c.Tended) (offered : List Message) :=
    c.lookForMessage_moves offered n (htended.imp_right (·.waiting n hstand))
  unfold lookForMessage at hmoves ⊢
  split at hmoves
  next m rest hqueue =>
    have htaken : Spares c n ({ c with queue := rest }.note (.taken m)) :=
      spares_of_eq c n _ rfl rfl rfl rfl rfl rfl
    have hleaves := Leaves.trans htaken (finishFetch_leaves _ n (.holding m)) hn
    have horderly := hleaves.orderly h (hfollows (.holding m)) (iff_of_false (by simp) hlisten)
    refine ⟨⟨horderly, hleaves.current,
      Nat.le_of_eq (hleaves.expected h (hfollows (.holding m))),
      hleaves.watched (hfollows (.holding m))⟩, hleaves.accepted, hleaves.tended rfl rfl id,
      ?_⟩
    intro htended offered
    rw [hhand, horderly.inHand_eq (hleaves.current.trans hcurrent), hleaves.loop_self hn]
    have hheld := hmoves htended offered
    rwa [hqueue] at hheld
  next hqueue =>
    have hchanges : Changes c n
        ({ c with listeners := c.listeners ++ [n] }.setLoop n { c.loop n with fetch := .listening })
        { c.loop n with fetch := .listening } := ⟨rfl, rfl, rfl, rfl, rfl⟩
    have hlisteners := h.listeners_eq_nil hcurrent hlisten
    refine hchanges.advances h (hchanges.orderly h hn (hfollows .listening) ?_ ?_)
      (hfollows .listening) (by rw [hmessage]; rfl) id fun _ _ => rfl
    · intro i
      change i ∈ c.listeners ++ [n] ↔ _
      simp [hlisteners]
    · change (c.listeners ++ [n]).Nodup
      simp [hlisteners]

theorem fetchTurn_advances (h : c.Orderly) (n : Nat) : Advances byHand c (c.fetchTurn n) := by
  unfold fetchTurn
  split
  next hfetch =>
    exact lookForMessage_advances h (h.fetching n (by rw [hfetch]; rfl)) (by simp [hfetch])
      (by rw [hfetch]; rfl)
  next hfetch =>
    exact lookForMessage_advances h (h.fetching n (by rw [hfetch]; rfl)) (by simp [hfetch])
      (by rw [hfetch]; rfl)
  next hfetch =>
    split
    next => exact finishFetch_gone_advances h (by simp [hfetch]) (by rw [hfetch]; rfl)
    next =>
      -- the call comes too late for this fetch and is passed on
      have hcalled : Advances byHand c c.callListener := callListener_advances h
      have hthen : c.callListener.loop n = c.loop n := h.callListener_loop (by simp [hfetch])
      exact hcalled.trans (finishFetch_gone_advances hcalled.orderly (by simp [hthen, hfetch])
        (by rw [hthen, hfetch]; rfl))
  next hfetch => exact finishFetch_gone_advances h (by simp [hfetch]) (by rw [hfetch]; rfl)
  next hfetch => exact finishFetch_gone_advances h (by simp [hfetch]) (by rw [hfetch]; rfl)
  next => exact .refl h

/-- A loop comes to rest, be it that its message has left its hand before. -/
theorem Rest.advances {d d' : Delivery} (hrest : Rest d c.running c'.connected d')
    (hleaves : Leaves c n c' d') (h : c.Orderly) (hcurrent : c.current = some n)
    (hstand : (c.loop n).stand ≠ .over) (hlisten : (c.loop n).fetch ≠ .listening)
    (hwatched : d.watched = (c.loop n).watched) (hinactive : d.fetch.isActive = false)
    (hmoves : ∀ offered, Moves byHand (c.ledger offered c.inHand) (c'.ledger offered [])) :
    Advances byHand c c' := by
  have hidle : d.fetch ≠ .listening := fun hd => by
    rw [hd] at hinactive
    contradiction
  have hn := h.bounded n hcurrent
  -- what the ways of resting have in common is all that the rest of the client depends on
  obtain ⟨hfollows, hlistening, hmessage, htended⟩ : Follows (c.loop n) d' ∧
      (d'.fetch = .listening ↔ (c.loop n).fetch = .listening) ∧ d'.fetch.message? = none ∧
      (d'.stand = .awaiting → c'.connected = true) := by
    cases hrest with
    | ended =>
        exact ⟨⟨by simp [hinactive], by simp, by simp⟩, iff_of_false hidle hlisten,
          message?_of_inactive hinactive, by simp⟩
    | awaiting _ _ _ hconnected =>
        exact ⟨⟨by simp, by simp, fun _ => ⟨hstand, hwatched⟩⟩, iff_of_false (by simp) hlisten, rfl,
          fun _ => hconnected⟩
    | pausing =>
        exact ⟨⟨by simp [hinactive], by simp, fun _ => ⟨hstand, hwatched⟩⟩,
          iff_of_false hidle hlisten, message?_of_inactive hinactive, by simp⟩
  have horderly := hleaves.orderly h hfollows hlistening
  have hcurrent' := hleaves.current.trans hcurrent
  refine ⟨⟨horderly, hleaves.current, Nat.le_of_eq (hleaves.expected h hfollows),
    hleaves.watched hfollows⟩, hleaves.accepted, ?_, ?_⟩
  · intro hbefore
    refine ⟨fun i hi => ?_, fun hnone => ?_, Moves.attached (hmoves []) hbefore.attached⟩
    · have hin := horderly.current_of_stand (by rw [hi]; decide)
      rw [hcurrent', Option.some.injEq] at hin
      subst hin
      rw [hleaves.loop_self hn] at hi
      exact htended hi
    · rw [hcurrent'] at hnone
      contradiction
  · intro _ offered
    rw [horderly.inHand_eq hcurrent', hleaves.loop_self hn, hmessage]
    exact hmoves offered

theorem pass_advances (h : c.Orderly) (hover : (c.loop n).stand ≠ .over)
    (hstand : (c.loop n).stand ≠ .awaiting) : Advances byHand c (c.pass n) := by
  have hcurrent := h.current_of_stand hover
  have hinactive := h.inactive hstand
  obtain ⟨d, hleaves, hrest⟩ := c.pass_rests n (h.bounded n hcurrent)
  refine hrest.advances hleaves h hcurrent hover (fun hd => ?_) rfl hinactive fun offered => ?_
  · rw [hd] at hinactive
    contradiction
  · rw [h.inHand_eq hcurrent, message?_of_inactive hinactive]
    exact c.pass_moves offered [] n

/-- A loop that has got its message stops waiting and delivers it. -/
theorem deliver_advances (h : c.Orderly) {m : Message} (hfetch : (c.loop n).fetch = .holding m) :
    Advances byHand c
      (((c.stopTimer n).setLoop n { (c.stopTimer n).loop n with fetch := .gone }).deliver n m) := by
  have hawaiting := h.fetching n (by rw [hfetch]; rfl)
  have hover : (c.loop n).stand ≠ .over := by rw [hawaiting]; decide
  have hcurrent := h.current_of_stand hover
  have hn := h.bounded n hcurrent
  have hlet := (c.stopTimer_spares n).setLoop { c.loop n with fetch := .gone } rfl
  have hlisteners : c.listeners = [] := h.listeners_eq_nil hcurrent (by simp [hfetch])
  obtain ⟨d, hleaves, hrest⟩ := deliver_rests
    ((c.stopTimer n).setLoop n { c.loop n with fetch := .gone }) n m (hlet.size ▸ hn) hlisteners
  rw [hlet.loop_self hn, hlet.running] at hrest
  refine hrest.advances (hlet.trans hleaves hn) h hcurrent hover (by simp [hfetch]) rfl rfl ?_
  intro offered
  rw [h.inHand_eq hcurrent, hfetch]
  exact deliver_moves ((c.stopTimer n).setLoop n { c.loop n with fetch := .gone }) offered n m

theorem deliveryTurn_advances (h : c.Orderly) (n : Nat) : Advances byHand c (c.deliveryTurn n) := by
  have hflags : Advances byHand c
      (c.setLoop n { c.loop n with called := false, cancelled := false }) :=
    setLoop_advances h rfl rfl rfl
  obtain ⟨hstand, hfetch⟩ :
      ((c.setLoop n { c.loop n with called := false, cancelled := false }).loop n).stand =
        (c.loop n).stand ∧
      ((c.setLoop n { c.loop n with called := false, cancelled := false }).loop n).fetch =
        (c.loop n).fetch := by
    rw [loop_setLoop]
    split <;> exact ⟨rfl, rfl⟩
  unfold deliveryTurn
  dsimp only
  generalize c.setLoop n { c.loop n with called := false, cancelled := false } = ready at *
  have hstopped : Advances byHand ready (ready.stopTimer n) := stopTimer_advances hflags.orderly n
  have hthen : (ready.stopTimer n).loop n = ready.loop n := rfl
  refine hflags.trans ?_
  split
  next hd =>
    rw [hd] at hstand
    split
    · exact finishLoop_advances hflags.orderly (by simp [hstand])
    · exact pass_advances hflags.orderly (by simp [hstand]) (by simp [hstand])
  next hd =>
    rw [hd] at hstand
    split
    next m hm => exact deliver_advances hflags.orderly (hfetch.trans hm)
    next hm =>
      refine withdraw_advances hflags.orderly hstand ?_ _
      rw [hfetch]
      cases hf : (c.loop n).fetch <;> simp_all [Fetch.message?]
  next hd =>
    rw [hd] at hstand
    split
    · exact hstopped.trans (finishLoop_advances hstopped.orderly (by simp [hthen, hstand]))
    · exact hstopped.trans
        (pass_advances hstopped.orderly (by simp [hthen, hstand]) (by simp [hthen, hstand]))
  next hd =>
    rw [hd] at hstand
    split
    · exact hstopped.trans (finishLoop_advances hstopped.orderly (by simp [hthen, hstand]))
    · exact pass_advances hflags.orderly (by simp [hstand]) (by simp [hstand])
  next => exact .refl hflags.orderly

theorem releaseLoop_advances (h : c.Orderly) (n wait : Nat) :
    Advances byHand c (c.releaseLoop n wait) := by
  have hflags : Advances byHand c (c.setLoop n { c.loop n with called := true }) :=
    setLoop_advances h rfl rfl rfl
  unfold releaseLoop
  dsimp only
  split
  case h_4 => exact .refl h
  all_goals
    split
    · exact hflags.trans (give_advances hflags.orderly _ rfl)
    · exact .refl h

theorem cancelLoop_advances (h : c.Orderly) (n : Nat) : Advances byHand c (c.cancelLoop n) := by
  have hflags : Advances byHand c
      (c.setLoop n { c.loop n with called := true, cancelled := true }) :=
    setLoop_advances h rfl rfl rfl
  unfold cancelLoop
  dsimp only
  split
  · exact .refl h
  · split
    · exact setLoop_advances h rfl rfl rfl
    · exact hflags.trans (give_advances hflags.orderly _ rfl)

/-- Every turn that is not the caller's advances the client. -/
theorem takeTurn_advances (h : c.Orderly) {turn : Turn} (hturn : turn.isCallers = false) :
    Advances byHand c (c.takeTurn turn) := by
  unfold takeTurn
  split
  next n => exact deliveryTurn_advances h n
  next n => exact fetchTurn_advances h n
  next n wait => exact releaseLoop_advances h n wait
  next => contradiction
  next => exact .refl h

end Client

end SupplyGauge.Mqtt
