import SupplyGauge.Proofs.Mqtt.Progress

/-! # What a session has announced before deliveries

A loop attempts a delivery only on a session that connecting has opened. Whether the
session has been announced depends on how connecting came out. A refused announcement
is an error of connecting, and yet the session counts as connected; so loops deliver
messages on sessions that have not been announced, if the refusal is one by the protocol.
-/

namespace SupplyGauge.Mqtt

/-- The calls that open, announce and end the latest session, after one more event. -/
def sessionAfter (calls : List Event) : Event → List Event
  | .called (.enter at_) answer => [.called (.enter at_) answer]
  | .called (.announce p) answer => calls ++ [.called (.announce p) answer]
  | .called .leave answer => calls ++ [.called .leave answer]
  | _ => calls

/-- The calls that open, announce and end the latest session. -/
def session (events : List Event) : List Event := events.foldl sessionAfter []

/-- Whether something has been announced on the latest session, and the broker has accepted it. -/
def Announced (events : List Event) (p : Publication) : Prop :=
  .called (.announce p) none ∈ session events

/-- The calls of connecting, and the refusal that connecting fails with, if it fails. -/
inductive Opening (online : Publication) : List Event → Option Refusal → Prop
  | refused (at_ : Connection) (r : Refusal) :
      Opening online [.called (.enter at_) (some r)] (some r)
  | entered (at_ : Connection) (answer : Option Refusal) :
      Opening online [.called (.enter at_) none, .called (.announce online) answer] answer

/-- Whether the latest session has been opened, with an announcement that the broker has accepted or
the protocol has refused. -/
def InUse (online : Publication) (events : List Event) : Prop :=
  ∃ at_ answer, session events = [.called (.enter at_) none, .called (.announce online) answer] ∧
    ∀ r ∈ answer, r.kind = .protocol

/-- Whether something holds before each attempt to deliver a message. The latest event of the past
comes first. -/
def BeforeAttempts (holds : List Event → Prop) : List Event → Prop
  | [] => True
  | .called (.deliver _) _ :: past => holds past.reverse ∧ BeforeAttempts holds past
  | _ :: past => BeforeAttempts holds past

theorem BeforeAttempts.holds {holds : List Event → Prop} {past before after : List Event}
    {m : Message} {answer : Option Refusal} (h : BeforeAttempts holds past)
    (hpast : past.reverse = before ++ .called (.deliver m) answer :: after) : holds before := by
  have hsplit : past = after.reverse ++ .called (.deliver m) answer :: before.reverse := by
    rw [← List.reverse_inj, hpast]
    simp
  generalize after.reverse = newer at hsplit
  subst hsplit
  clear hpast
  -- by induction on what has happened since the attempt
  induction newer with
  | nil => exact before.reverse_reverse ▸ h.1
  | cons event newer ih =>
      refine ih ?_
      unfold BeforeAttempts at h
      split at h
      · contradiction
      next hcons =>
        obtain ⟨rfl, rfl⟩ := List.cons.inj hcons
        exact h.2
      next hcons =>
        obtain ⟨rfl, rfl⟩ := List.cons.inj hcons
        exact h

namespace Ledger

variable {byHand : Prop} {l l' : Ledger}

/-- Every session is the outcome of connecting, and so was every one on which a delivery was
attempted. -/
structure Opened (l : Ledger) : Prop where
  attached : l.attached = true → ∃ failure, Opening (l.voice "online") (session l.events) failure
  attempts : BeforeAttempts
    (fun before => ∃ failure, Opening (l.voice "online") (session before) failure) l.past

theorem session_note (l : Ledger) (events : List Event) :
    session (l.note events).events = events.foldl sessionAfter (session l.events) := by
  rw [session, events_note, List.foldl_append, session]

theorem Move.opened (hmove : Move byHand l l') (h : l.Opened) : l'.Opened := by
  have hnote (events : List Event) (hquiet : events.foldl sessionAfter (session l.events) =
      session l.events) (hattached : l.attached = true) :
      ∃ failure, Opening (l.voice "online") (session (l.note events).events) failure := by
    rw [session_note, hquiet]
    exact h.attached hattached
  cases hmove with
  | remark e hremark =>
      cases e with
      | reported | signalled | limitReached => exact ⟨hnote _ rfl, h.attempts⟩
      | _ => contradiction
  | accept | take => exact ⟨hnote _ rfl, h.attempts⟩
  | deliver m hhand hattached => exact ⟨hnote _ rfl, h.attached hattached, h.attempts⟩
  | lose m r hhand hattached => exact ⟨hnote _ rfl, h.attached hattached, h.attempts⟩
  | orphan => exact ⟨hnote _ rfl, h.attempts⟩
  | putBack m r e hhand hattached =>
      exact ⟨fun hstill => absurd hstill Bool.false_ne_true, h.attached hattached, h.attempts⟩
  | overflow m r e hhand hattached =>
      exact ⟨fun hstill => absurd hstill Bool.false_ne_true, h.attached hattached, h.attempts⟩
  | refuse at_ r =>
      refine ⟨fun _ => ⟨some r, ?_⟩, h.attempts⟩
      exact (l.session_note [.called (.enter at_) (some r)]).symm ▸ .refused at_ r
  | enter at_ answer =>
      refine ⟨fun _ => ⟨answer, ?_⟩, h.attempts⟩
      exact (l.session_note [.called (.enter at_) none,
        .called (.announce (l.voice "online")) answer]).symm ▸ .entered at_ answer
  | abandon at_ r =>
      refine ⟨fun _ => ⟨some r, ?_⟩, h.attempts⟩
      exact (l.session_note [.called (.enter at_) none,
        .called (.announce (l.voice "online")) (some r)]).symm ▸ .entered at_ (some r)
  | depart | leave => exact ⟨fun hstill => absurd hstill Bool.false_ne_true, h.attempts⟩

/-- While sessions are left to the loops, a message in hand was taken in the present session, and
loops use only sessions that are open. -/
structure Attended (l : Ledger) : Prop where
  held : l.inHand ≠ [] → l.connected = true
  connected : l.connected = true → InUse (l.voice "online") l.events
  attempts : BeforeAttempts (InUse (l.voice "online")) l.past

theorem Move.attended (hmove : Move False l l') (h : l.Attended) : l'.Attended := by
  have hnever {inUse : Prop} (hstill : false = true) : inUse := absurd hstill Bool.false_ne_true
  have hnote (events : List Event) (hquiet : events.foldl sessionAfter (session l.events) =
      session l.events) (hconnected : l.connected = true) :
      InUse (l.voice "online") (l.note events).events := by
    rw [InUse, session_note, hquiet]
    exact h.connected hconnected
  cases hmove with
  | remark e hremark =>
      cases e with
      | reported | signalled | limitReached =>
          exact ⟨h.held, hnote _ rfl, h.attempts⟩
      | _ => contradiction
  | accept => exact ⟨h.held, hnote _ rfl, h.attempts⟩
  | take m rest hqueue hhand hconnected =>
      exact ⟨fun _ => hconnected.resolve_left id, hnote _ rfl, h.attempts⟩
  | deliver m hhand hattached =>
      have hconnected := h.held (by simp [hhand])
      exact ⟨fun hheld => absurd rfl hheld, fun _ => hnote _ rfl hconnected, h.connected hconnected,
        h.attempts⟩
  | putBack m r e hhand | overflow m r e hhand | lose m r hhand =>
      -- the attempt was made in the session in which the message was taken
      have hconnected := h.held (by simp [hhand])
      exact ⟨fun hheld => absurd rfl hheld, hnever, h.connected hconnected, h.attempts⟩
  | orphan => exact ⟨fun hheld => absurd rfl hheld, hnever, h.attempts⟩
  | refuse at_ r hconnected =>
      have hclosed := hconnected.resolve_left id
      refine ⟨h.held, fun hstill => ?_, h.attempts⟩
      exact hnever (hclosed.symm.trans hstill)
  | enter at_ answer hconnected =>
      refine ⟨fun _ => rfl, fun _ => ⟨at_, answer, ?_, (hconnected.resolve_left id).2⟩, h.attempts⟩
      exact l.session_note
        [.called (.enter at_) none, .called (.announce (l.voice "online")) answer]
  | abandon at_ r hconnected =>
      exact ⟨fun hheld => hnever (hconnected.symm.trans (h.held hheld)), hnever, h.attempts⟩
  | depart r hattached hconnected hhand | leave answer hattached hconnected hhand =>
      exact ⟨fun hheld => absurd (hhand.resolve_left id) hheld, hnever, h.attempts⟩

end Ledger

theorem Opening.announced_iff {online : Publication} {before : List Event}
    {failure : Option Refusal} (h : Opening online (session before) failure) :
    Announced before online ↔ failure = none := by
  unfold Announced
  generalize session before = calls at h
  cases h with
  | refused => simp
  | entered at_ answer => simp [eq_comm]

namespace Course

variable (settings : Config.MqttSettings) (availabilityTopic : String)
  (identifier : Config.Scalar) (now : Instant) (script : Script)

def online : Publication := ⟨availabilityTopic, "online", 1, settings.retain.status⟩

theorem run_fresh_opened (deeds : List Deed) :
    ((fresh settings availabilityTopic identifier now script).run deeds).ledger.Opened := by
  have hmoves : Ledger.Moves True _ _ :=
    run_fresh_moves settings availabilityTopic identifier now script deeds (.inl trivial)
  exact hmoves.keep (fun _ _ => Ledger.Move.opened)
    ⟨fun hattached => absurd hattached Bool.false_ne_true, trivial⟩

theorem run_fresh_attended (deeds : List Deed)
    (hleft : ∀ deed ∈ deeds, deed.leavesSessions = true) :
    ((fresh settings availabilityTopic identifier now script).run deeds).ledger.Attended := by
  have hmoves : Ledger.Moves False _ _ :=
    run_fresh_moves settings availabilityTopic identifier now script deeds (.inr hleft)
  exact hmoves.keep (fun _ _ => Ledger.Move.attended)
    ⟨fun hheld => absurd rfl hheld, fun hconnected => absurd hconnected Bool.false_ne_true, trivial⟩

theorem run_fresh_voice (deeds : List Deed) :
    ((fresh settings availabilityTopic identifier now script).run deeds).ledger.voice "online" =
      online settings availabilityTopic := by
  have hmoves : Ledger.Moves True _ _ :=
    run_fresh_moves settings availabilityTopic identifier now script deeds (.inl trivial)
  rw [hmoves.voice]
  rfl

/-- A delivery is attempted only on a session that connecting has opened, and the session has been
announced if and only if connecting did not fail. Where sessions are left to the loops, connecting
can have failed only in that the protocol refused the announcement. -/
theorem attempt_announced_iff (deeds : List Deed) {before after : List Event} {m : Message}
    {answer : Option Refusal}
    (hattempt : ((fresh settings availabilityTopic identifier now script).run deeds).client.events =
      before ++ .called (.deliver m) answer :: after) :
    ∃ failure, Opening (online settings availabilityTopic) (session before) failure ∧
      (Announced before (online settings availabilityTopic) ↔ failure = none) ∧
      ((∀ deed ∈ deeds, deed.leavesSessions = true) →
        InUse (online settings availabilityTopic) before) := by
  have hvoice := run_fresh_voice settings availabilityTopic identifier now script deeds
  have hopened := run_fresh_opened settings availabilityTopic identifier now script deeds
  have hattended := run_fresh_attended settings availabilityTopic identifier now script deeds
  generalize (fresh settings availabilityTopic identifier now script).run deeds = p at *
  have hpast : p.ledger.past.reverse = before ++ .called (.deliver m) answer :: after :=
    (p.client.ledger_events _ _).trans hattempt
  obtain ⟨failure, hopening⟩ := hvoice ▸ hopened.attempts.holds hpast
  exact ⟨failure, hopening, hopening.announced_iff,
    fun hleft => hvoice ▸ (hattended hleft).attempts.holds hpast⟩

/-- What happens when the broker refuses to announce the client: the message is delivered next. -/
def refusedRun : Course :=
  (fresh {} "power_supply_metrics/status" (.text "cid") .zero
    { publishing := [some ⟨.protocol, "refused"⟩] }).run
      ([.start, .publish "p/a" (.text "1") none] ++ List.replicate 8 .goOn)

theorem attempt_announced_iff_refusedRun :
    refusedRun.client.events = refusedRun.client.events.take 8 ++
        [.called (.deliver ⟨⟨"p/a", "1", 1, false⟩, 0⟩) none] ∧
      InUse (online {} "power_supply_metrics/status") (refusedRun.client.events.take 8) ∧
      ∃ failure, Opening (online {} "power_supply_metrics/status")
          (session (refusedRun.client.events.take 8)) failure ∧
        (Announced (refusedRun.client.events.take 8) (online {} "power_supply_metrics/status") ↔
          failure = none) := by
  have hattempt : refusedRun.client.events = refusedRun.client.events.take 8 ++
      [.called (.deliver ⟨⟨"p/a", "1", 1, false⟩, 0⟩) none] := by decide +kernel
  obtain ⟨failure, hopening, hannounced, hused⟩ :=
    attempt_announced_iff {} "power_supply_metrics/status" (.text "cid") .zero
      { publishing := [some ⟨.protocol, "refused"⟩] } _ hattempt
  exact ⟨hattempt, hused (by decide), failure, hopening, hannounced⟩

example : ¬ Announced (refusedRun.client.events.take 8)
    (online {} "power_supply_metrics/status") := by
  unfold Announced
  decide +kernel

end Course

end SupplyGauge.Mqtt
