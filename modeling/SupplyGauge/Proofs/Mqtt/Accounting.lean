import Mathlib.Algebra.Order.Group.Multiset
import Mathlib.Data.List.Nodup
import Mathlib.Tactic.Abel
import SupplyGauge.Proofs.Mqtt.Progress

/-! # Every message is accounted for

A message that is accepted waits in the queue, is in hand, has been delivered or has
been dropped, and it is so in one of these ways only. A loss is told by an entry of
its own. Moves keep these accounts, hence they hold at any time of every run.
-/

namespace SupplyGauge

def Event.delivered? : Event → Option Mqtt.Message
  | .called (.deliver m) none => some m
  | _ => none

def Event.dropped? : Event → Option Mqtt.Message
  | .dropped m => some m
  | _ => none

namespace Mqtt

/-- Whether an entry tells of the loss of a message: the queue is full, or a loop has failed. -/
def Tells (e : Log.Entry) (m : Message) : Prop :=
  e = overflowEntry m.topic ∨ ∃ fault, e = failureEntry fault

/-- Whether the entry that follows on each loss tells of it. -/
def LossesTold : List Event → Prop
  | [] => True
  | .dropped m :: rest => (∃ e, rest.head? = some (.reported e) ∧ Tells e m) ∧ LossesTold rest
  | _ :: rest => LossesTold rest

theorem LossesTold.append {events later : List Event} (h : LossesTold events)
    (hlater : LossesTold later) : LossesTold (events ++ later) := by
  induction events with
  | nil => exact hlater
  | cons event events ih =>
      cases event with
      | dropped m =>
          obtain ⟨⟨e, hhead, htells⟩, hrest⟩ := h
          refine ⟨⟨e, ?_, htells⟩, ih hrest⟩
          change (events ++ later).head? = _
          rw [List.head?_append, hhead]
          rfl
      | _ => exact ih h

namespace Client

/-- The messages that have been delivered, in order. -/
def delivered (c : Client) : List Message := c.events.filterMap Event.delivered?

/-- The messages that have been lost, in order. -/
def dropped (c : Client) : List Message := c.events.filterMap Event.dropped?

end Client

namespace Ledger

/-- The messages that have been delivered, in order. -/
def delivered (l : Ledger) : List Message := l.events.filterMap Event.delivered?

/-- The messages that have been lost, in order. -/
def dropped (l : Ledger) : List Message := l.events.filterMap Event.dropped?

/-- The accounts of a ledger. -/
structure Accounted (l : Ledger) : Prop where
  balance : (l.offered : Multiset Message) = l.queue + l.delivered + l.inHand + l.dropped
  serials : l.offered.map (·.serial) = List.range l.offered.length
  bounded : l.queue.length ≤ queueLimit
  told : LossesTold l.events

variable {byHand : Prop} {l l' : Ledger}

/-- The accounts after events that deliver or drop some messages. -/
theorem Accounted.of_events (h : l.Accounted) (events : List Event)
    (hevents : l'.events = l.events ++ events)
    (hbalance : (l'.offered : Multiset Message) =
      l'.queue + (l.delivered + events.filterMap Event.delivered?) + l'.inHand +
        (l.dropped + events.filterMap Event.dropped?))
    (hserials : l'.offered.map (·.serial) = List.range l'.offered.length)
    (hbounded : l'.queue.length ≤ queueLimit) (htold : LossesTold events) : l'.Accounted where
  balance := by
    rw [delivered, dropped, hevents, List.filterMap_append, List.filterMap_append,
      ← Multiset.coe_add, ← Multiset.coe_add]
    exact hbalance
  serials := hserials
  bounded := hbounded
  told := hevents ▸ h.told.append htold

/-- The accounts after events that concern no message. -/
theorem Accounted.of_session (h : l.Accounted) (events : List Event)
    (hevents : l'.events = l.events ++ events) (hoffered : l'.offered = l.offered)
    (hqueue : l'.queue = l.queue) (hhand : l'.inHand = l.inHand)
    (hdelivered : events.filterMap Event.delivered? = [])
    (hdropped : events.filterMap Event.dropped? = []) (htold : LossesTold events) :
    l'.Accounted := by
  refine h.of_events events hevents ?_ (hoffered ▸ h.serials) (hqueue ▸ h.bounded) htold
  rw [hdelivered, hdropped, hoffered, hqueue, hhand, Multiset.coe_nil, add_zero, add_zero]
  exact h.balance

/-- The accounts after events in which a message leaves the hand: it is delivered or dropped, or
waits again. -/
theorem Accounted.of_hand (h : l.Accounted) {m : Message} (hhand : l.inHand = [m])
    (events : List Event) (hevents : l'.events = l.events ++ events)
    (hoffered : l'.offered = l.offered) (hempty : l'.inHand = [])
    (hgoes : (l'.queue : Multiset Message) + events.filterMap Event.delivered? +
      events.filterMap Event.dropped? = l.queue + {m})
    (hbounded : l'.queue.length ≤ queueLimit) (htold : LossesTold events) : l'.Accounted := by
  refine h.of_events events hevents ?_ (hoffered ▸ h.serials) hbounded htold
  have hbalance := h.balance
  rw [hhand, Multiset.coe_singleton] at hbalance
  rw [hoffered, hbalance, hempty, Multiset.coe_nil, add_zero]
  calc (l.queue : Multiset Message) + l.delivered + {m} + l.dropped
      = l.queue + {m} + (l.delivered + l.dropped) := by abel
    _ = l'.queue + events.filterMap Event.delivered? + events.filterMap Event.dropped? +
          (l.delivered + l.dropped) := by rw [hgoes]
    _ = l'.queue + (l.delivered + events.filterMap Event.delivered?) +
          (l.dropped + events.filterMap Event.dropped?) := by abel

theorem Move.accounted (hmove : Move byHand l l') (h : l.Accounted) : l'.Accounted := by
  have hbalance := h.balance
  have hlost (m : Message) : (l.queue : Multiset Message) + 0 + {m} = l.queue + {m} := by
    rw [add_zero]
  cases hmove with
  | remark e hremark =>
      refine h.of_session [e] (l.events_note [e]) rfl rfl rfl ?_ ?_ ?_
      all_goals cases e <;> first | contradiction | rfl | trivial
  | accept m hroom hserial =>
      refine h.of_events [.accepted m] (l.events_note _) ?_ ?_ ?_ trivial
      · dsimp only [note]
        rw [← Multiset.coe_add, ← Multiset.coe_add, hbalance]
        simp only [Event.delivered?, Event.dropped?, List.filterMap_cons, List.filterMap_nil,
          Multiset.coe_nil]
        abel
      · dsimp only
        rw [List.map_append, List.length_append, h.serials, List.map_singleton, hserial]
        exact List.range_succ.symm
      · dsimp only
        rw [List.length_append]
        exact hroom
  | take m rest hqueue hhand hconnected =>
      refine h.of_events [.taken m] (l.events_note _) ?_ h.serials ?_ trivial
      · rw [hqueue, hhand] at hbalance
        dsimp only [note]
        rw [hbalance]
        simp only [Event.delivered?, Event.dropped?, List.filterMap_cons, List.filterMap_nil,
          Multiset.coe_nil, ← Multiset.cons_coe, ← Multiset.singleton_add]
        abel
      · have hbounded := h.bounded
        rw [hqueue] at hbounded
        exact Nat.le_of_succ_le hbounded
  | deliver m hhand hattached =>
      refine h.of_hand hhand [.called (.deliver m) none] (events_note _ _) rfl rfl ?_ h.bounded
        trivial
      exact add_zero _
  | putBack m r e hhand hattached hkind hroom =>
      refine h.of_hand hhand [.called (.deliver m) (some r), .reported e, .returned m]
        (events_note _ _) rfl rfl ?_ ?_ trivial
      · exact (add_zero _).trans (add_zero _)
      · dsimp only
        rw [List.length_append]
        exact hroom
  | overflow m r e hhand hattached hkind =>
      refine h.of_hand hhand [.called (.deliver m) (some r), .reported e, .dropped m,
        .reported (overflowEntry m.topic)] (events_note _ _) rfl rfl ?_ h.bounded ?_
      · exact hlost m
      · exact ⟨⟨_, rfl, .inl rfl⟩, trivial⟩
  | lose m r hhand hattached hkind =>
      refine h.of_hand hhand [.called (.deliver m) (some r), .dropped m,
        .reported (failureEntry (.refused r))] (events_note _ _) rfl rfl ?_ h.bounded ?_
      · exact hlost m
      · exact ⟨⟨_, rfl, .inr ⟨_, rfl⟩⟩, trivial⟩
  | orphan m hhand hattached =>
      refine h.of_hand hhand [.dropped m, .reported (failureEntry .noSession)] (events_note _ _)
        rfl rfl ?_ h.bounded ?_
      · exact hlost m
      · exact ⟨⟨_, rfl, .inr ⟨_, rfl⟩⟩, trivial⟩
  | refuse | enter | abandon | depart | leave =>
      exact h.of_session _ (events_note _ _) rfl rfl rfl rfl rfl trivial

theorem Accounted.offered_nodup (h : l.Accounted) : l.offered.Nodup :=
  List.Nodup.of_map (·.serial) (h.serials ▸ List.nodup_range)

/-- A message is found among the accepted ones at the place that it carries. -/
theorem Accounted.getElem?_serial (h : l.Accounted) {m : Message} (hm : m ∈ l.offered) :
    l.offered[m.serial]? = some m := by
  obtain ⟨i, hi, rfl⟩ := List.mem_iff_getElem.mp hm
  have hserial : (l.offered.map (·.serial))[i]? = some i := by
    rw [h.serials, List.getElem?_range hi]
  rw [List.getElem?_map, List.getElem?_eq_getElem hi, Option.map_some, Option.some.injEq] at hserial
  rw [hserial, List.getElem?_eq_getElem hi]

theorem Accounted.delivered_le (h : l.Accounted) :
    (l.delivered : Multiset Message) ≤ l.offered := by
  rw [h.balance, add_assoc, add_comm (l.queue : Multiset Message), add_assoc]
  exact Multiset.le_add_right _ _

end Ledger

namespace Course

/-- The accounts of a client in use: which messages there are, that each loss is told, that what is
delivered was accepted as it is and comes only once, that the queue keeps to its limit, and that no
message is in hand while the client is stopped. -/
structure Accounts (p : Course) : Prop where
  balance : (p.offered : Multiset Message) =
    p.client.queue + p.client.delivered + p.client.inHand + p.client.dropped
  single : p.client.inHand.length ≤ 1
  told : LossesTold p.client.events
  faithful : ∀ m ∈ p.client.delivered, p.offered[m.serial]? = some m
  once : p.client.delivered.Nodup
  bounded : p.client.queue.length ≤ queueLimit
  stopped : p.client.current = none → p.client.inHand = []

variable (settings : Config.MqttSettings) (availabilityTopic : String)
  (identifier : Config.Scalar) (now : Instant) (script : Script)

theorem run_fresh_accounted (deeds : List Deed) :
    ((fresh settings availabilityTopic identifier now script).run deeds).ledger.Accounted := by
  have hmoves : Ledger.Moves True _ _ :=
    run_fresh_moves settings availabilityTopic identifier now script deeds (.inl trivial)
  refine hmoves.keep (fun _ _ => Ledger.Move.accounted) ⟨rfl, rfl, Nat.zero_le _, trivial⟩

/-- At any time of every run, the messages for which publishing has answered yes are those that
wait, those delivered, at most one in hand, and those dropped, each with an entry of its own. What
is delivered is what was accepted, and no message is delivered twice. -/
theorem run_accounts (deeds : List Deed) :
    ((fresh settings availabilityTopic identifier now script).run deeds).Accounts := by
  have haccounted := run_fresh_accounted settings availabilityTopic identifier now script deeds
  have horderly := (run_fresh_sound settings availabilityTopic identifier now script deeds).orderly
  generalize (fresh settings availabilityTopic identifier now script).run deeds = p at *
  have hevents : p.ledger.events = p.client.events := p.client.ledger_events _ _
  have hdelivered : p.ledger.delivered = p.client.delivered := by
    rw [Ledger.delivered, hevents, Client.delivered]
  have hdropped : p.ledger.dropped = p.client.dropped := by
    rw [Ledger.dropped, hevents, Client.dropped]
  have hle := hdelivered ▸ haccounted.delivered_le
  constructor
  · rw [← hdelivered, ← hdropped]
    exact haccounted.balance
  · rcases hcurrent : p.client.current with _ | n
    · rw [horderly.inHand_eq_nil hcurrent]
      exact Nat.zero_le 1
    · rw [horderly.inHand_eq hcurrent]
      exact Option.length_toList_le
  · exact hevents ▸ haccounted.told
  · intro m hm
    exact haccounted.getElem?_serial (Multiset.subset_of_le hle (Multiset.mem_coe.mpr hm))
  · exact Multiset.coe_nodup.mp
      (Multiset.nodup_of_le hle (Multiset.coe_nodup.mpr haccounted.offered_nodup))
  · exact haccounted.bounded
  · exact horderly.inHand_eq_nil

end Course

end Mqtt

end SupplyGauge
