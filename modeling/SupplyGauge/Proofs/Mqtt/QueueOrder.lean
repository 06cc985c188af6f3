import Mathlib.Data.List.Sort
import SupplyGauge.Proofs.Mqtt.Accounting

/-! # The order of deliveries

The queue is first in, first out, but a message that could not be delivered enters it
again behind all others. So deliveries follow the order in which messages enter the
queue. They follow the order of acceptance too, except for a message that was put back
while a later one waited.
-/

namespace SupplyGauge

/-- The message that enters the queue in an event. -/
def Event.entered? : Event → Option Mqtt.Message
  | .accepted m | .returned m => some m
  | _ => none

/-- The message that is taken out of the queue in an event. -/
def Event.taken? : Event → Option Mqtt.Message
  | .taken m => some m
  | _ => none

namespace Mqtt

/-- What waits in the queue after one more event. -/
def waitingAfter (queue : List Message) : Event → List Message
  | .accepted m | .returned m => queue ++ [m]
  | .taken _ => queue.tail
  | _ => queue

/-- What waits in the queue after some events. -/
def waiting (events : List Event) : List Message := events.foldl waitingAfter []

/-- Whether one message was put back while another one waited. -/
def Overtaken (events : List Event) (late early : Message) : Prop :=
  ∃ before after, events = before ++ .returned late :: after ∧ early ∈ waiting before

theorem Overtaken.append {events : List Event} {late early : Message}
    (h : Overtaken events late early) (later : List Event) :
    Overtaken (events ++ later) late early := by
  obtain ⟨before, after, rfl, hwaiting⟩ := h
  exact ⟨before, after ++ later, by simp, hwaiting⟩

namespace Client

/-- The messages in the order in which they entered the queue, once for each time. -/
def entered (c : Client) : List Message := c.events.filterMap Event.entered?

end Client

namespace Ledger

/-- Messages in hand come after those delivered, and those that wait come last. -/
def line (l : Ledger) : List Message := l.delivered ++ l.inHand ++ l.queue

/-- Whether two messages come in order after some events: the first was accepted before the second,
or overtook it while it was put back. -/
def Follow (events : List Event) (m m' : Message) : Prop :=
  m.serial < m'.serial ∨ Overtaken events m' m

/-- The order of a ledger. -/
structure Ordered (l : Ledger) : Prop where
  waits : waiting l.events = l.queue
  entered : l.events.filterMap Event.entered? = l.events.filterMap Event.taken? ++ l.queue
  taken : (l.delivered ++ l.inHand).Sublist (l.events.filterMap Event.taken?)
  line : l.line.Pairwise (Follow l.events)

variable {byHand : Prop} {l l' : Ledger}

theorem Follow.append {events : List Event} {m m' : Message} (h : Follow events m m')
    (later : List Event) : Follow (events ++ later) m m' :=
  h.imp_right (·.append later)

theorem Ordered.waiting_append (h : l.Ordered) (events : List Event) :
    waiting (l.events ++ events) = events.foldl waitingAfter l.queue := by
  rw [waiting, List.foldl_append, ← waiting, h.waits]

theorem Accounted.serial_lt (h : l.Accounted) {m : Message} (hm : m ∈ l.line) :
    m.serial < l.offered.length := by
  have hoffered : m ∈ (l.offered : Multiset Message) := by
    rw [h.balance]
    simp only [Multiset.mem_add, Multiset.mem_coe]
    simp only [Ledger.line, List.mem_append] at hm
    tauto
  obtain ⟨hserial, -⟩ :=
    List.getElem?_eq_some_iff.mp (h.getElem?_serial (Multiset.mem_coe.mp hoffered))
  exact hserial

/-- Messages are numbered in the order of acceptance. -/
theorem Accounted.offered_ascending (h : l.Accounted) :
    l.offered.Pairwise fun m m' => m.serial < m'.serial := by
  refine List.pairwise_map.mp ?_
  rw [h.serials]
  exact List.pairwise_lt_range

/-- The order after events in which messages enter the queue, are taken and are delivered. -/
theorem Ordered.of_events (h : l.Ordered) (events : List Event)
    (hevents : l'.events = l.events ++ events)
    (hwaits : events.foldl waitingAfter l.queue = l'.queue)
    (hentered : l.queue ++ events.filterMap Event.entered? =
      events.filterMap Event.taken? ++ l'.queue)
    (htaken : (events.filterMap Event.delivered? ++ l'.inHand).Sublist
      (l.inHand ++ events.filterMap Event.taken?))
    (hline : (l.delivered ++ (events.filterMap Event.delivered? ++ l'.inHand) ++ l'.queue).Pairwise
      (Follow (l.events ++ events))) : l'.Ordered := by
  have hdelivered : l'.delivered = l.delivered ++ events.filterMap Event.delivered? := by
    rw [delivered, hevents, List.filterMap_append, delivered]
  constructor
  · rw [hevents, h.waiting_append, hwaits]
  · rw [hevents, List.filterMap_append, List.filterMap_append, h.entered, List.append_assoc,
      hentered, List.append_assoc]
  · rw [hdelivered, hevents, List.filterMap_append, List.append_assoc]
    refine (htaken.append_left l.delivered).trans ?_
    rw [← List.append_assoc]
    exact h.taken.append_right _
  · rw [Ledger.line, hdelivered, hevents, List.append_assoc l.delivered]
    exact hline

/-- The order after events that do not concern the queue. -/
theorem Ordered.of_quiet (h : l.Ordered) (events : List Event)
    (hevents : l'.events = l.events ++ events) (hqueue : l'.queue = l.queue)
    (hwaits : events.foldl waitingAfter l.queue = l.queue)
    (hentered : events.filterMap Event.entered? = []) (htaken : events.filterMap Event.taken? = [])
    (hhand : (events.filterMap Event.delivered? ++ l'.inHand).Sublist l.inHand) : l'.Ordered := by
  refine h.of_events events hevents (hqueue ▸ hwaits) ?_ ?_ ?_
  · rw [hentered, htaken, hqueue, List.append_nil, List.nil_append]
  · rwa [htaken, List.append_nil]
  · rw [hqueue]
    exact (h.line.imp (·.append events)).sublist
      ((hhand.append_left l.delivered).append_right l.queue)

theorem Move.ordered (hmove : Move byHand l l') (haccounted : l.Accounted) (h : l.Ordered) :
    l'.Ordered := by
  have hline (events : List Event) := h.line.imp (·.append events)
  cases hmove with
  | remark e hremark =>
      refine h.of_quiet [e] (l.events_note [e]) rfl ?_ ?_ ?_ ?_
      all_goals cases e <;> first | contradiction | rfl
  | accept m hroom hserial =>
      refine h.of_events [.accepted m] (l.events_note _) rfl rfl ?_ ?_
      · exact List.sublist_append_left l.inHand []
      · change (l.delivered ++ l.inHand ++ (l.queue ++ [m])).Pairwise _
        rw [← List.append_assoc]
        refine List.pairwise_append.mpr ⟨hline _, List.pairwise_singleton _ _, ?_⟩
        intro earlier hearlier later hlater
        rw [List.mem_singleton.mp hlater]
        exact .inl (hserial ▸ haccounted.serial_lt hearlier)
  | take m rest hqueue hhand hconnected =>
      refine h.of_events [.taken m] (l.events_note _) ?_ ?_ ?_ ?_
      · rw [hqueue]
        rfl
      · rw [hqueue]
        exact List.append_nil _
      · exact List.sublist_append_right l.inHand [m]
      · have htaken := hline [.taken m]
        rw [Ledger.line, hhand, hqueue, List.append_nil] at htaken
        change (l.delivered ++ [m] ++ rest).Pairwise _
        rwa [List.append_assoc]
  | deliver m hhand hattached =>
      exact h.of_quiet [.called (.deliver m) none] (events_note _ _) rfl rfl rfl rfl
        (hhand ▸ List.Sublist.refl [m])
  | putBack m r e hhand hattached hkind hroom =>
      -- the message comes behind all that wait, older or not: it is put back while they wait
      refine h.of_events [.called (.deliver m) (some r), .reported e, .returned m] (events_note _ _)
        rfl rfl (List.nil_sublist _) ?_
      have hbefore := hline [.called (.deliver m) (some r), .reported e, .returned m]
      rw [Ledger.line, hhand, List.append_assoc] at hbefore
      obtain ⟨hdelivered, hrest, hacross⟩ := List.pairwise_append.mp hbefore
      change (l.delivered ++ [] ++ (l.queue ++ [m])).Pairwise _
      rw [List.append_nil]
      refine List.pairwise_append.mpr ⟨hdelivered, List.pairwise_append.mpr ⟨hrest.of_cons,
        List.pairwise_singleton _ _, ?_⟩, ?_⟩
      · intro earlier hearlier later hlater
        rw [List.mem_singleton.mp hlater]
        have hwaiting := h.waiting_append [.called (.deliver m) (some r), .reported e]
        exact .inr ⟨l.events ++ [.called (.deliver m) (some r), .reported e], [], by simp,
          hwaiting ▸ hearlier⟩
      · intro earlier hearlier later hlater
        refine hacross earlier hearlier later ?_
        simpa [or_comm] using hlater
  | overflow | lose | orphan =>
      exact h.of_quiet _ (events_note _ _) rfl rfl rfl rfl (List.nil_sublist l.inHand)
  | refuse | enter | abandon | depart | leave =>
      exact h.of_quiet _ (events_note _ _) rfl rfl rfl rfl (List.Sublist.refl l.inHand)

end Ledger

namespace Course

/-- The order of deliveries on a topic: they follow the order in which messages enter the queue. A
message is delivered after another one that was accepted later only where it was put back while that
one waited. Where no message of the topic was put back so, payloads are delivered in the order in
which they were accepted. -/
structure InOrder (p : Course) (topic : String) : Prop where
  entered : (p.client.delivered.filter (·.topic = topic)).Sublist
    (p.client.entered.filter (·.topic = topic))
  overtaken : p.client.delivered.Pairwise fun m m' =>
    m.serial < m'.serial ∨ Overtaken p.client.events m' m
  accepted : (∀ m m', m.topic = topic → m'.topic = topic → m'.serial < m.serial →
      ¬ Overtaken p.client.events m' m) →
    ((p.client.delivered.filter (·.topic = topic)).map (·.payload)).Sublist
      ((p.offered.filter (·.topic = topic)).map (·.payload))

/-- Where no later message of a topic overtakes an earlier one, its deliveries have ascending
numbers. -/
theorem Accounts.delivered_ascending {p : Course} {topic : String} (h : p.Accounts)
    (hovertaken : p.client.delivered.Pairwise fun m m' =>
      m.serial < m'.serial ∨ Overtaken p.client.events m' m)
    (hnone : ∀ m m', m.topic = topic → m'.topic = topic → m'.serial < m.serial →
      ¬ Overtaken p.client.events m' m) :
    (p.client.delivered.filter (·.topic = topic)).Pairwise fun m m' => m.serial < m'.serial := by
  refine ((hovertaken.and h.once).filter _).imp_of_mem fun {m m'} hm hm' hpair => ?_
  obtain ⟨hm, htopic⟩ := List.mem_filter.mp hm
  obtain ⟨hm', htopic'⟩ := List.mem_filter.mp hm'
  rcases hpair.1 with hlt | hlate
  · exact hlt
  · refine Nat.lt_of_le_of_ne (Nat.le_of_not_lt fun hlt => ?_) fun hserial => hpair.2 ?_
    · exact hnone m m' (by simpa using htopic) (by simpa using htopic') hlt hlate
    · have hsame := h.faithful m hm
      rw [hserial, h.faithful m' hm'] at hsame
      exact (Option.some.inj hsame).symm

/-- Deliveries with ascending numbers follow the order of acceptance. -/
theorem Accounts.delivered_sublist {p : Course} {topic : String} (h : p.Accounts)
    (hoffered : p.offered.Pairwise fun m m' => m.serial < m'.serial)
    (hdelivered : (p.client.delivered.filter (·.topic = topic)).Pairwise
      fun m m' => m.serial < m'.serial) :
    (p.client.delivered.filter (·.topic = topic)).Sublist
      (p.offered.filter (·.topic = topic)) := by
  have hsubset :
      p.client.delivered.filter (·.topic = topic) ⊆ p.offered.filter (·.topic = topic) := by
    refine List.filter_subset _ fun m hm => ?_
    exact List.mem_of_getElem? (h.faithful m hm)
  have : Std.Antisymm fun m m' : Message => m.serial < m'.serial :=
    ⟨fun _ _ hlt hlt' => absurd hlt' (Nat.lt_asymm hlt)⟩
  have hsubperm := (h.once.filter (·.topic = topic)).subperm hsubset
  exact List.sublist_of_subperm_of_pairwise hsubperm hdelivered (hoffered.filter _)

variable (settings : Config.MqttSettings) (availabilityTopic : String)
  (identifier : Config.Scalar) (now : Instant) (script : Script)

theorem run_fresh_ordered (deeds : List Deed) :
    ((fresh settings availabilityTopic identifier now script).run deeds).ledger.Accounted ∧
      ((fresh settings availabilityTopic identifier now script).run deeds).ledger.Ordered := by
  have hmoves : Ledger.Moves True _ _ :=
    run_fresh_moves settings availabilityTopic identifier now script deeds (.inl trivial)
  have hkeep (l l' : Ledger) (hmove : Ledger.Move True l l') (h : l.Accounted ∧ l.Ordered) :
      l'.Accounted ∧ l'.Ordered := ⟨hmove.accounted h.1, hmove.ordered h.1 h.2⟩
  refine hmoves.keep hkeep ?_
  exact ⟨⟨rfl, rfl, Nat.zero_le _, trivial⟩, ⟨rfl, rfl, List.Sublist.refl [], List.Pairwise.nil⟩⟩

/-- On every topic, deliveries follow the queue, and overtake only what is put back. -/
theorem run_inOrder (deeds : List Deed) (topic : String) :
    ((fresh settings availabilityTopic identifier now script).run deeds).InOrder topic := by
  obtain ⟨haccounted, hordered⟩ :=
    run_fresh_ordered settings availabilityTopic identifier now script deeds
  have haccounts := run_accounts settings availabilityTopic identifier now script deeds
  generalize (fresh settings availabilityTopic identifier now script).run deeds = p at *
  have hevents : p.ledger.events = p.client.events := p.client.ledger_events _ _
  have hdelivered : p.ledger.delivered = p.client.delivered := by
    rw [Ledger.delivered, hevents, Client.delivered]
  have htaken := hordered.taken
  have hline := hordered.line
  rw [Ledger.line, List.append_assoc] at hline
  rw [hdelivered, hevents] at htaken hline
  have hentered := hordered.entered
  rw [hevents] at hentered
  have hovertaken := (List.pairwise_append.mp hline).1
  refine ⟨?_, hovertaken, fun hnone => ?_⟩
  · refine List.Sublist.filter _ ?_
    rw [Client.entered, hentered]
    exact ((List.sublist_append_left _ _).trans htaken).trans (List.sublist_append_left _ _)
  · have hoffered : p.offered.Pairwise fun m m' => m.serial < m'.serial :=
      haccounted.offered_ascending
    have hdelivered := haccounts.delivered_ascending hovertaken hnone
    exact (haccounts.delivered_sublist hoffered hdelivered).map _

/-- Deliveries on a topic need not follow the order of acceptance. Here the first message is refused
while the second one waits, and comes behind it. -/
theorem deliveries_not_in_order : ¬ ∀ (settings : Config.MqttSettings) (availabilityTopic : String)
    (identifier : Config.Scalar) (now : Instant) (script : Script) (deeds : List Deed)
    (topic : String) (p : Course),
    p = (fresh settings availabilityTopic identifier now script).run deeds →
      ((p.client.delivered.filter (·.topic = topic)).map (·.payload)).Sublist
        ((p.offered.filter (·.topic = topic)).map (·.payload)) := by
  intro h
  have hordered := h {} "power_supply_metrics/status" (.text "cid") .zero
    { publishing := [none, some ⟨.protocol, "lost"⟩] }
    ([.start, .publish "p/a" (.text "1") none, .publish "p/a" (.text "2") none] ++
      List.replicate 14 .goOn) "p/a" _ rfl
  revert hordered
  decide +kernel

end Course

end Mqtt

end SupplyGauge
