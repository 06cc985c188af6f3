import SupplyGauge.Proofs.Mqtt.Announcement

/-! # Sessions are left as often as they are entered

Entering and leaving should take turns, and nothing should be left open when the client
is stopped. A session ends without leave if a delivery on it is refused, if its end
cannot be announced, or if its beginning cannot be announced for a reason other than the
protocol. These refusals are the only way out of balance.
-/

namespace SupplyGauge

/-- Whether an event is a refusal that gives up a session without leave. -/
def Event.abandons : Event → Bool
  | .called (.deliver _) (some _) => true
  | .called (.announce p) (some r) => p.payload != "online" || r.kind != .protocol
  | _ => false

namespace Mqtt

/-- Whether a session is open after one more event; none if a session has been entered while
another one was open, or left while none was. -/
def balanceAfter : Option Bool → Event → Option Bool
  | some false, .called (.enter _) none => some true
  | some true, .called (.enter _) none => none
  | some true, .called .leave _ => some false
  | some false, .called .leave _ => none
  | balance, _ => balance

/-- Whether a session is open after some events, as long as entering and leaving take turns. -/
def balance (events : List Event) : Option Bool := events.foldl balanceAfter (some false)

/-- Whether every session that was entered has been left once, and before another one was
entered. -/
def Balanced (events : List Event) : Prop := balance events = some false

@[simp] theorem balanceAfter_announce (balance : Option Bool) (p : Publication)
    (answer : Option Refusal) : balanceAfter balance (.called (.announce p) answer) = balance := by
  rcases balance with _ | _ | _ <;> rfl

/-- The balance shows whether there is a session unless one has been abandoned. After that it is
lost with the next session, and there is no session as long as it is not. -/
def Kept (abandoned : Bool) (balance : Option Bool) (connected : Bool) : Prop :=
  match abandoned with
  | false => balance = some connected
  | true => balance = none ∨ balance = some true ∧ connected = false

theorem Kept.abandon {abandoned : Bool} {balance : Option Bool} (h : Kept abandoned balance true) :
    Kept true balance false := by
  cases abandoned with
  | false => exact .inr ⟨h, rfl⟩
  | true => exact h.imp_right fun hopen => absurd hopen.2 Bool.noConfusion

theorem Kept.enter {abandoned : Bool} {balance : Option Bool} (h : Kept abandoned balance false)
    (at_ : Connection) :
    Kept abandoned (balanceAfter balance (.called (.enter at_) none)) true := by
  cases abandoned with
  | false =>
      rw [show balance = some false from h]
      rfl
  | true =>
      rcases h with rfl | ⟨rfl, -⟩
      · exact .inl rfl
      · exact .inl rfl

theorem Kept.leave {abandoned : Bool} {balance : Option Bool} (h : Kept abandoned balance true)
    (answer : Option Refusal) :
    Kept abandoned (balanceAfter balance (.called .leave answer)) false := by
  cases abandoned with
  | false =>
      rw [show balance = some true from h]
      rfl
  | true =>
      rcases h with rfl | ⟨-, hclosed⟩
      · exact .inl rfl
      · contradiction

namespace Ledger

variable {l l' : Ledger}

/-- While sessions are left to the loops, the balance is kept until a session is abandoned. -/
structure Weighed (l : Ledger) : Prop where
  held : l.inHand ≠ [] → l.connected = true
  attached : l.connected = true → l.attached = true
  voice : ∀ payload, (l.voice payload).payload = payload
  kept : Kept (l.events.any Event.abandons) (balance l.events) l.connected

theorem kept_note (l : Ledger) (events : List Event) (connected : Bool) :
    Kept ((l.note events).events.any Event.abandons) (balance (l.note events).events) connected ↔
      Kept (l.events.any Event.abandons || events.any Event.abandons)
        (events.foldl balanceAfter (balance l.events)) connected := by
  rw [balance, events_note, List.any_append, List.foldl_append, ← balance]

theorem Move.weighed (hmove : Move False l l') (h : l.Weighed) : l'.Weighed := by
  have hquiet (events : List Event) (hany : events.any Event.abandons = false)
      (hbalance : ∀ b, events.foldl balanceAfter b = b) :
      Kept ((l.note events).events.any Event.abandons) (balance (l.note events).events)
        l.connected := by
    rw [kept_note, hany, hbalance, Bool.or_false]
    exact h.kept
  have habandon (events : List Event) (hany : events.any Event.abandons = true)
      (hbalance : ∀ b, events.foldl balanceAfter b = b) (hconnected : l.connected = true) :
      Kept ((l.note events).events.any Event.abandons) (balance (l.note events).events) false := by
    have hkept := h.kept
    rw [hconnected] at hkept
    rw [kept_note, hany, hbalance, Bool.or_true]
    exact hkept.abandon
  have hnever {attached : Prop} (hstill : false = true) : attached :=
    absurd hstill Bool.false_ne_true
  have honline := h.voice "online"
  have hoffline := h.voice "offline"
  cases hmove with
  | remark e hremark =>
      cases e with
      | reported | signalled | limitReached =>
          exact ⟨h.held, h.attached, h.voice, hquiet _ rfl (by rintro (_ | _ | _) <;> rfl)⟩
      | _ => contradiction
  | accept =>
      exact ⟨h.held, h.attached, h.voice, hquiet _ rfl (by rintro (_ | _ | _) <;> rfl)⟩
  | take m rest hqueue hhand hconnected =>
      exact ⟨fun _ => hconnected.resolve_left id, h.attached, h.voice,
        hquiet _ rfl (by rintro (_ | _ | _) <;> rfl)⟩
  | deliver =>
      exact ⟨fun hheld => absurd rfl hheld, h.attached, h.voice,
        hquiet _ rfl (by rintro (_ | _ | _) <;> rfl)⟩
  | putBack m r e hhand | overflow m r e hhand | lose m r hhand =>
      exact ⟨fun hheld => absurd rfl hheld, hnever, h.voice,
        habandon _ rfl (by rintro (_ | _ | _) <;> rfl) (h.held (by simp [hhand]))⟩
  | orphan m hhand hattached =>
      -- what is in hand was taken in a session, which is still attached
      have hstill := h.attached (h.held (by simp [hhand]))
      rw [hattached] at hstill
      exact hnever hstill
  | refuse at_ r =>
      exact ⟨h.held, fun _ => rfl, h.voice, hquiet _ rfl (by rintro (_ | _ | _) <;> rfl)⟩
  | enter at_ answer hconnected =>
      obtain ⟨hclosed, hprotocol⟩ := hconnected.resolve_left id
      refine ⟨fun _ => rfl, fun _ => rfl, h.voice, (kept_note l _ true).mpr ?_⟩
      have hany : [.called (.enter at_) none, .called (.announce (l.voice "online")) answer].any
          Event.abandons = false := by
        cases answer <;> simp_all [Event.abandons]
      have hkept := h.kept
      rw [hclosed] at hkept
      rw [hany, Bool.or_false]
      simpa using hkept.enter at_
  | abandon at_ r hconnected hkind =>
      refine ⟨fun hheld => hnever (hconnected.symm.trans (h.held hheld)), hnever, h.voice,
        (kept_note l _ false).mpr ?_⟩
      have hany : [.called (.enter at_) none, .called (.announce (l.voice "online")) (some r)].any
          Event.abandons = true := by
        simp [Event.abandons, hkind]
      have hkept := h.kept
      rw [hconnected] at hkept
      rw [hany, Bool.or_true]
      simpa using (hkept.enter at_).abandon
  | depart r hattached hconnected hhand =>
      refine ⟨fun hheld => absurd (hhand.resolve_left id) hheld, hnever, h.voice, ?_⟩
      refine habandon [.called (.announce (l.voice "offline")) (some r)] ?_
        (by rintro (_ | _ | _) <;> rfl) hconnected
      simp [Event.abandons, hoffline]
  | leave answer hattached hconnected hhand =>
      refine ⟨fun hheld => absurd (hhand.resolve_left id) hheld, hnever, h.voice,
        (kept_note l.detach _ false).mpr ?_⟩
      have hkept : Kept (l.detach.events.any Event.abandons) (balance l.detach.events)
          l.connected := h.kept
      rw [hconnected] at hkept
      simpa [Event.abandons] using hkept.leave answer

end Ledger

namespace Course

variable (settings : Config.MqttSettings) (availabilityTopic : String)
  (identifier : Config.Scalar) (now : Instant) (script : Script)

theorem run_fresh_weighed (deeds : List Deed) (hleft : ∀ deed ∈ deeds, deed.leavesSessions = true) :
    ((fresh settings availabilityTopic identifier now script).run deeds).ledger.Weighed := by
  have hmoves : Ledger.Moves False _ _ :=
    run_fresh_moves settings availabilityTopic identifier now script deeds (.inr hleft)
  exact hmoves.keep (fun _ _ => Ledger.Move.weighed)
    ⟨fun hheld => absurd rfl hheld, fun hconnected => absurd hconnected Bool.false_ne_true,
      fun _ => rfl, rfl⟩

/-- Whenever a client whose sessions are left to its loops is stopped, every session that was
entered has been left once and before the next one was entered, if and only if no refusal has made
the client abandon a session. -/
theorem balanced_iff_none_abandoned (deeds : List Deed)
    (hleft : ∀ deed ∈ deeds, deed.leavesSessions = true)
    (hstopped :
      ((fresh settings availabilityTopic identifier now script).run deeds).client.current = none) :
    Balanced ((fresh settings availabilityTopic identifier now script).run deeds).client.events ↔
      ∀ event ∈ ((fresh settings availabilityTopic identifier now script).run deeds).client.events,
        event.abandons = false := by
  have hweighed := run_fresh_weighed settings availabilityTopic identifier now script deeds hleft
  have htended := run_fresh_tended settings availabilityTopic identifier now script deeds hleft
  generalize (fresh settings availabilityTopic identifier now script).run deeds = p at *
  have hevents : p.ledger.events = p.client.events := p.client.ledger_events _ _
  have hclosed : p.ledger.connected = false := htended.idle hstopped
  have hkept := hweighed.kept
  rw [hevents, hclosed] at hkept
  -- once a session has been abandoned, the balance stays open or is lost
  rcases habandoned : p.client.events.any Event.abandons with _ | _
  · rw [habandoned] at hkept
    refine iff_of_true hkept fun event hevent => ?_
    exact Bool.eq_false_iff.mpr (List.any_eq_false.mp habandoned event hevent)
  · rw [habandoned] at hkept
    obtain ⟨event, hevent, habandons⟩ := List.any_eq_true.mp habandoned
    refine iff_of_false (fun hbalanced => ?_) fun hnone => ?_
    · rcases hkept with hlost | ⟨hopen, -⟩
      · simp [Balanced, hlost] at hbalanced
      · simp [Balanced, hopen] at hbalanced
    · simp [hnone event hevent] at habandons

/-- What happens when a delivery is refused: another session is entered before the first one is
left. -/
def lostRun : Course :=
  (fresh {} "power_supply_metrics/status" (.text "cid") .zero
    { publishing := [none, some ⟨.protocol, "lost"⟩] }).run
      ([.start, .publish "p/a" (.text "1") none] ++ List.replicate 8 .goOn ++ [.stop] ++
        List.replicate 6 .goOn)

theorem balanced_iff_none_abandoned_lostRun : lostRun.client.current = none ∧
    (Balanced lostRun.client.events ↔ ∀ event ∈ lostRun.client.events, event.abandons = false) :=
  have hstopped : lostRun.client.current = none := by decide +kernel
  ⟨hstopped, balanced_iff_none_abandoned {} "power_supply_metrics/status" (.text "cid") .zero
    { publishing := [none, some ⟨.protocol, "lost"⟩] } _ (by decide) hstopped⟩

example : balance lostRun.client.events = none := by decide +kernel

end Course

end Mqtt

end SupplyGauge
