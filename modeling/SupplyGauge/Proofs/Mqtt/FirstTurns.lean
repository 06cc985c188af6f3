import SupplyGauge.Proofs.Mqtt.QueueOrder

/-! # First come, first served

A message that was put back may be overtaken, but not before its first turn. Messages
are taken for the first time in the order in which they were accepted, and so are they
attempted for the first time. What has been taken once, and behind it what waits to be
taken for the first time, is what was accepted.
-/

namespace SupplyGauge

/-- The message of which an event is an attempt to deliver it, with whatever answer. -/
def Event.attempted? : Event → Option Mqtt.Message
  | .called (.deliver m) _ => some m
  | _ => none

namespace Mqtt

/-- Messages in the order of their first turns: those that have had turns, each at its first one,
and then those that wait and have had none. -/
def firstTurns (turns waiting : List Message) : List Message :=
  turns.eraseDups ++ waiting.filter (· ∉ turns)

section FirstTurns

variable {turns waiting : List Message} {m : Message}

/-- The first message that waits has its turn. -/
theorem firstTurns_turn (hm : m ∉ waiting) :
    firstTurns (turns ++ [m]) waiting = firstTurns turns (m :: waiting) := by
  have hothers : waiting.filter (· ∉ turns ++ [m]) = waiting.filter (· ∉ turns) := by
    refine List.filter_congr fun m' hm' => ?_
    have hne : m' ≠ m := fun heq => hm (heq ▸ hm')
    simp [hne]
  rw [firstTurns, firstTurns, List.eraseDups_append, hothers, List.append_assoc]
  by_cases hturn : m ∈ turns <;> simp [List.removeAll, List.eraseDups_cons, hturn]

/-- A message that has had no turn joins those that wait. -/
theorem firstTurns_join (hm : m ∉ turns) :
    firstTurns turns (waiting ++ [m]) = firstTurns turns waiting ++ [m] := by
  simp [firstTurns, List.filter_append, hm]

/-- A message that has had a turn joins those that wait. -/
theorem firstTurns_rejoin (hm : m ∈ turns) :
    firstTurns turns (waiting ++ [m]) = firstTurns turns waiting := by
  simp [firstTurns, List.filter_append, hm]

theorem firstTurns_sublist {waiting' : List Message} (h : waiting.Sublist waiting') :
    (firstTurns turns waiting).Sublist (firstTurns turns waiting') :=
  (h.filter _).append_left _

theorem mem_firstTurns_of_turn (hm : m ∈ turns) : m ∈ firstTurns turns waiting :=
  List.mem_append_left _ (List.mem_eraseDups.mpr hm)

end FirstTurns

namespace Client

/-- The messages taken out of the queue, once for each time. -/
def taken (c : Client) : List Message := c.events.filterMap Event.taken?

/-- The messages that were attempted to be delivered, once for each attempt. -/
def attempted (c : Client) : List Message := c.events.filterMap Event.attempted?

end Client

namespace Ledger

def taken (l : Ledger) : List Message := l.events.filterMap Event.taken?

def attempted (l : Ledger) : List Message := l.events.filterMap Event.attempted?

/-- The first turns of a ledger. A message that was taken need not be attempted, but it is not
attempted late. -/
structure InTurn (l : Ledger) : Prop where
  taken : firstTurns l.taken l.queue = l.offered
  attempted : (firstTurns l.attempted (l.inHand ++ l.queue)).Sublist l.offered
  held : l.inHand ⊆ l.taken

variable {byHand : Prop} {l l' : Ledger}

/-- No message waits twice, or waits while it is in hand. -/
theorem Accounted.waiting_nodup (h : l.Accounted) : (l.inHand ++ l.queue).Nodup := by
  have hle : ((l.inHand ++ l.queue : List Message) : Multiset Message) ≤ l.offered := by
    rw [h.balance, ← Multiset.coe_add]
    calc (l.inHand : Multiset Message) + l.queue
        ≤ l.inHand + l.queue + (l.delivered + l.dropped) := Multiset.le_add_right _ _
      _ = l.queue + l.delivered + l.inHand + l.dropped := by abel
  exact Multiset.coe_nodup.mp
    (Multiset.nodup_of_le hle (Multiset.coe_nodup.mpr h.offered_nodup))

/-- The next message to be accepted is a new one. -/
theorem Accounted.not_mem_offered (h : l.Accounted) {m : Message}
    (hserial : m.serial = l.offered.length) : m ∉ l.offered := by
  intro hm
  have hfound := h.getElem?_serial hm
  rw [hserial, List.getElem?_length] at hfound
  contradiction

theorem InTurn.taken_subset (h : l.InTurn) : l.taken ⊆ l.offered :=
  fun _ hm => h.taken ▸ mem_firstTurns_of_turn hm

theorem InTurn.attempted_subset (h : l.InTurn) : l.attempted ⊆ l.offered :=
  fun _ hm => h.attempted.subset (mem_firstTurns_of_turn hm)

/-- The first turns after events in which messages are taken and attempted. -/
theorem InTurn.of_events (events : List Event) (hevents : l'.events = l.events ++ events)
    (htaken : firstTurns (l.taken ++ events.filterMap Event.taken?) l'.queue = l'.offered)
    (hattempted : (firstTurns (l.attempted ++ events.filterMap Event.attempted?)
      (l'.inHand ++ l'.queue)).Sublist l'.offered)
    (hheld : l'.inHand ⊆ l.taken ++ events.filterMap Event.taken?) : l'.InTurn := by
  have htakenAll : l'.taken = l.taken ++ events.filterMap Event.taken? := by
    rw [Ledger.taken, hevents, List.filterMap_append, Ledger.taken]
  have hattemptedAll : l'.attempted = l.attempted ++ events.filterMap Event.attempted? := by
    rw [Ledger.attempted, hevents, List.filterMap_append, Ledger.attempted]
  exact ⟨htakenAll ▸ htaken, hattemptedAll ▸ hattempted, htakenAll ▸ hheld⟩

/-- The first turns after events that concern no message. -/
theorem InTurn.of_quiet (h : l.InTurn) (events : List Event)
    (hevents : l'.events = l.events ++ events) (hoffered : l'.offered = l.offered)
    (hqueue : l'.queue = l.queue) (hhand : l'.inHand = l.inHand)
    (htaken : events.filterMap Event.taken? = [])
    (hattempted : events.filterMap Event.attempted? = []) : l'.InTurn := by
  refine of_events events hevents ?_ ?_ ?_
  · rw [htaken, List.append_nil, hqueue, hoffered, h.taken]
  · rw [hattempted, List.append_nil, hhand, hqueue, hoffered]
    exact h.attempted
  · rw [htaken, List.append_nil, hhand]
    exact h.held

/-- The first turns after an attempt to deliver the message in hand, which leaves the hand and may
be put back. -/
theorem InTurn.of_attempt (h : l.InTurn) (haccounted : l.Accounted) {m : Message}
    (hhand : l.inHand = [m]) (events : List Event) (hevents : l'.events = l.events ++ events)
    (hoffered : l'.offered = l.offered) (hempty : l'.inHand = [])
    (hqueue : l'.queue = l.queue ∨ l'.queue = l.queue ++ [m])
    (htaken : events.filterMap Event.taken? = [])
    (hattempted : events.filterMap Event.attempted? = [m]) : l'.InTurn := by
  have hnodup := haccounted.waiting_nodup
  rw [hhand, List.singleton_append] at hnodup
  have hturn : firstTurns (l.attempted ++ [m]) l.queue =
      firstTurns l.attempted (l.inHand ++ l.queue) := by
    rw [hhand, List.singleton_append, firstTurns_turn (List.nodup_cons.mp hnodup).1]
  have hheld : m ∈ l.taken := h.held (hhand ▸ List.mem_singleton_self m)
  refine of_events events hevents ?_ ?_ ?_
  · rw [htaken, List.append_nil, hoffered]
    rcases hqueue with hqueue | hqueue <;> rw [hqueue]
    · exact h.taken
    · rw [firstTurns_rejoin hheld, h.taken]
  · rw [hattempted, hempty, hoffered, List.nil_append]
    rcases hqueue with hqueue | hqueue <;> rw [hqueue]
    · exact hturn ▸ h.attempted
    · rw [firstTurns_rejoin (List.mem_append_right _ (List.mem_singleton_self m)), hturn]
      exact h.attempted
  · rw [hempty]
    exact List.nil_subset _

theorem Move.inTurn (hmove : Move byHand l l') (haccounted : l.Accounted) (h : l.InTurn) :
    l'.InTurn := by
  cases hmove with
  | remark e hremark =>
      refine h.of_quiet [e] (l.events_note [e]) rfl rfl rfl ?_ ?_
      all_goals cases e <;> first | contradiction | rfl
  | accept m hroom hserial =>
      have hnew : m ∉ l.offered := haccounted.not_mem_offered hserial
      refine InTurn.of_events (l := l) [.accepted m] (l.events_note _) ?_ ?_ ?_
      · change firstTurns (l.taken ++ []) (l.queue ++ [m]) = l.offered ++ [m]
        rw [List.append_nil, firstTurns_join fun hm => hnew (h.taken_subset hm), h.taken]
      · change (firstTurns (l.attempted ++ []) (l.inHand ++ (l.queue ++ [m]))).Sublist
          (l.offered ++ [m])
        rw [List.append_nil, ← List.append_assoc,
          firstTurns_join fun hm => hnew (h.attempted_subset hm)]
        exact h.attempted.append_right [m]
      · exact fun _ hm => List.mem_append_left _ (h.held hm)
  | take m rest hqueue hhand hconnected =>
      have hnodup := haccounted.waiting_nodup
      rw [hhand, hqueue, List.nil_append] at hnodup
      refine InTurn.of_events (l := l) [.taken m] (l.events_note _) ?_ ?_ ?_
      · change firstTurns (l.taken ++ [m]) rest = l.offered
        rw [firstTurns_turn (List.nodup_cons.mp hnodup).1, ← hqueue, h.taken]
      · -- the message is only in another place: it is the next one to be attempted
        change (firstTurns (l.attempted ++ []) ([m] ++ rest)).Sublist l.offered
        have hattempted := h.attempted
        rwa [hhand, hqueue, List.nil_append, ← List.append_nil l.attempted] at hattempted
      · exact fun _ hm => List.mem_append_right _ hm
  | deliver m hhand hattached =>
      exact h.of_attempt haccounted hhand [.called (.deliver m) none] (events_note _ _) rfl rfl
        (.inl rfl) rfl rfl
  | putBack m r e hhand hattached hkind hroom =>
      exact h.of_attempt haccounted hhand
        [.called (.deliver m) (some r), .reported e, .returned m] (events_note _ _) rfl rfl
        (.inr rfl) rfl rfl
  | overflow m r e hhand hattached hkind =>
      exact h.of_attempt haccounted hhand [.called (.deliver m) (some r), .reported e, .dropped m,
        .reported (overflowEntry m.topic)] (events_note _ _) rfl rfl (.inl rfl) rfl rfl
  | lose m r hhand hattached hkind =>
      exact h.of_attempt haccounted hhand [.called (.deliver m) (some r), .dropped m,
        .reported (failureEntry (.refused r))] (events_note _ _) rfl rfl (.inl rfl) rfl rfl
  | orphan m hhand hattached =>
      -- the message is lost without an attempt, so its turn never comes
      refine InTurn.of_events (l := l) [.dropped m, .reported (failureEntry .noSession)]
        (events_note _ _) ?_ ?_ (List.nil_subset _)
      · change firstTurns (l.taken ++ []) l.queue = l.offered
        rw [List.append_nil, h.taken]
      · change (firstTurns (l.attempted ++ []) ([] ++ l.queue)).Sublist l.offered
        rw [List.append_nil]
        exact (firstTurns_sublist (List.sublist_append_right _ _)).trans h.attempted
  | refuse | enter | abandon | depart | leave =>
      exact h.of_quiet _ (events_note _ _) rfl rfl rfl rfl rfl

end Ledger

namespace Course

/-- First come, first served: messages are taken for the first time in the order in which they were
accepted, those that are still to be taken for the first time wait in this order, and no message is
attempted for the first time before an earlier one that is attempted at all. -/
structure FirstComeFirstServed (p : Course) : Prop where
  taken : p.client.taken.eraseDups <+: p.offered
  waiting : p.offered = p.client.taken.eraseDups ++ p.client.queue.filter (· ∉ p.client.taken)
  attempted : p.client.attempted.eraseDups.Sublist p.offered

variable (settings : Config.MqttSettings) (availabilityTopic : String)
  (identifier : Config.Scalar) (now : Instant) (script : Script)

theorem run_fresh_inTurn (deeds : List Deed) :
    ((fresh settings availabilityTopic identifier now script).run deeds).ledger.InTurn := by
  have hmoves : Ledger.Moves True _ _ :=
    run_fresh_moves settings availabilityTopic identifier now script deeds (.inl trivial)
  have hkeep (l l' : Ledger) (hmove : Ledger.Move True l l') (h : l.Accounted ∧ l.InTurn) :
      l'.Accounted ∧ l'.InTurn := ⟨hmove.accounted h.1, hmove.inTurn h.1 h.2⟩
  refine (hmoves.keep hkeep ?_).2
  exact ⟨⟨rfl, rfl, Nat.zero_le _, trivial⟩, ⟨rfl, List.Sublist.refl [], List.nil_subset _⟩⟩

/-- In every run, at any time, no message is overtaken before its first turn. -/
theorem run_firstComeFirstServed (deeds : List Deed) :
    ((fresh settings availabilityTopic identifier now script).run deeds).FirstComeFirstServed := by
  have hinTurn := run_fresh_inTurn settings availabilityTopic identifier now script deeds
  generalize (fresh settings availabilityTopic identifier now script).run deeds = p at *
  have hevents : p.ledger.events = p.client.events := p.client.ledger_events _ _
  have htaken : p.ledger.taken = p.client.taken := by
    rw [Ledger.taken, hevents, Client.taken]
  have hattempted : p.ledger.attempted = p.client.attempted := by
    rw [Ledger.attempted, hevents, Client.attempted]
  have hoffered : p.client.taken.eraseDups ++ p.client.queue.filter (· ∉ p.client.taken) =
      p.offered := htaken ▸ hinTurn.taken
  refine ⟨hoffered ▸ List.prefix_append _ _, hoffered.symm, ?_⟩
  exact (List.sublist_append_left _ _).trans (hattempted ▸ hinTurn.attempted)

end Course

end Mqtt

end SupplyGauge
