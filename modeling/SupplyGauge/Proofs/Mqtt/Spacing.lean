import SupplyGauge.Proofs.History.Moments

/-! # Attempts and the time between them

An attempt to connect is free if a delivery has been refused since the last attempt, and otherwise
it comes at least a second after that one, as far as the clock tells. So within some seconds there
are no more attempts than one for each second, one for each refused delivery, and one more.
-/

namespace SupplyGauge

/-- Whether an event is an attempt to connect. -/
def Event.isAttempt : Event → Bool
  | .called (.enter _) _ => true
  | _ => false

/-- Whether the protocol refuses a delivery in an event. -/
def Event.refusesDelivery : Event → Bool
  | .called (.deliver _) (some r) => r.kind = .protocol
  | _ => false

theorem Event.refusesDelivery_of_isAttempt {e : Event} (h : e.isAttempt = true) :
    e.refusesDelivery = false := by
  unfold Event.isAttempt at h
  split at h
  · rfl
  · contradiction

/-- Whether a moment is one of those from a number of quanta on until some seconds later. -/
def Instant.within (start seconds : Nat) (t : Instant) : Bool :=
  match t.quanta? with
  | some n => decide ((start : Int) ≤ n ∧ n ≤ (start + seconds * Schedule.second : Nat))
  | none => false

theorem Instant.At.within_iff {t : Instant} {n : Nat} (h : t.At n) (start seconds : Nat) :
    t.within start seconds = true ↔ start ≤ n ∧ n ≤ start + seconds * Schedule.second := by
  unfold Instant.within
  rw [show t.quanta? = some (n : Int) from h]
  simp only [decide_eq_true_eq, Int.ofNat_le]

theorem Instant.At.unique {t : Instant} {n k : Nat} (h : t.At n) (h' : t.At k) : n = k :=
  Int.ofNat.inj (Option.some.inj (h.symm.trans h'))

namespace Mqtt

open Schedule

/-- The number of attempts to connect within some seconds. -/
def attempts (start seconds : Nat) (events : List (Instant × Event)) : Nat :=
  events.countP fun (t, e) => t.within start seconds && e.isAttempt

/-- The number of deliveries that the protocol refuses within some seconds. -/
def refusedDeliveries (start seconds : Nat) (events : List (Instant × Event)) : Nat :=
  events.countP fun (t, e) => t.within start seconds && e.refusesDelivery

/-- When the last attempt was made, if no delivery has been refused since. The latest event comes
first. -/
def lastAttempt? : List (Instant × Event) → Option Instant
  | [] => none
  | (t, e) :: past =>
    if e.isAttempt then some t
    else if e.refusesDelivery then none
    else lastAttempt? past

/-- Whether events are in order, and attempts apart where they have to be. The latest event comes
first. -/
def Spaced : List (Instant × Event) → Prop
  | [] => True
  | (t, e) :: past =>
    Spaced past ∧ t.Proper ∧ (∀ x ∈ past, x.1.le t = true) ∧
      (e.isAttempt = true → ∀ last, lastAttempt? past = some last → Apart last t)

theorem mem_of_lastAttempt? {past : List (Instant × Event)} {t : Instant}
    (h : lastAttempt? past = some t) : ∃ e, (t, e) ∈ past := by
  induction past with
  | nil => contradiction
  | cons x past ih =>
      obtain ⟨t', e⟩ := x
      unfold lastAttempt? at h
      split at h
      · obtain rfl := Option.some.inj h
        exact ⟨e, List.mem_cons_self⟩
      · split at h
        · contradiction
        · obtain ⟨e', he'⟩ := ih h
          exact ⟨e', List.mem_cons_of_mem _ he'⟩

theorem Spaced.proper {past : List (Instant × Event)} (h : Spaced past) :
    ∀ x ∈ past, x.1.Proper := by
  induction past with
  | nil => exact fun x hx => absurd hx List.not_mem_nil
  | cons y past ih =>
      intro x hx
      rcases List.mem_cons.mp hx with rfl | hmem
      · exact h.2.1
      · exact ih h.1 x hmem

theorem attempts_cons {t : Instant} {m : Nat} (hm : t.At m) (start seconds : Nat) (e : Event)
    (past : List (Instant × Event)) : attempts start seconds ((t, e) :: past) =
      attempts start seconds past +
        if (start ≤ m ∧ m ≤ start + seconds * second) ∧ e.isAttempt = true then 1 else 0 := by
  rw [attempts, attempts, List.countP_cons]
  simp only [Bool.and_eq_true, hm.within_iff]

theorem refusedDeliveries_cons {t : Instant} {m : Nat} (hm : t.At m) (start seconds : Nat)
    (e : Event) (past : List (Instant × Event)) : refusedDeliveries start seconds ((t, e) :: past) =
      refusedDeliveries start seconds past +
        if (start ≤ m ∧ m ≤ start + seconds * second) ∧ e.refusesDelivery = true then 1 else 0 := by
  rw [refusedDeliveries, refusedDeliveries, List.countP_cons]
  simp only [Bool.and_eq_true, hm.within_iff]

theorem attempts_cons_other {e : Event} (he : e.isAttempt = false) (start seconds : Nat)
    (t : Instant) (past : List (Instant × Event)) :
    attempts start seconds ((t, e) :: past) = attempts start seconds past :=
  List.countP_cons_of_neg (by simp [he])

theorem refusedDeliveries_cons_other {e : Event} (hr : e.refusesDelivery = false)
    (start seconds : Nat) (t : Instant) (past : List (Instant × Event)) :
    refusedDeliveries start seconds ((t, e) :: past) = refusedDeliveries start seconds past :=
  List.countP_cons_of_neg (by simp [hr])

/-- Whether the last attempt was made before a start, unless a delivery has been refused since. -/
def FreeAt (start : Nat) (past : List (Instant × Event)) : Prop :=
  ∀ t k, lastAttempt? past = some t → t.At k → k < start

/-- What the attempts within some seconds amount to up to a moment: each of them takes a second of
the time since the start, unless it is paid for by a refused delivery. An attempt after which no
delivery has been refused is still to be paid for. -/
structure Paid (start seconds n : Nat) (past : List (Instant × Event)) : Prop where
  free : FreeAt start past →
    secondPace * attempts start seconds past + pace start ≤
      secondPace * refusedDeliveries start seconds past + pace n
  held : ∀ t k, lastAttempt? past = some t → t.At k → start ≤ k →
    secondPace * attempts start seconds past + pace start ≤
      secondPace * (refusedDeliveries start seconds past + 1) + pace k

variable {start seconds m n : Nat} {t : Instant} {e : Event} {past : List (Instant × Event)}

theorem freeAt_or_held (start : Nat) (past : List (Instant × Event)) : FreeAt start past ∨
    ∃ t k, lastAttempt? past = some t ∧ t.At k ∧ start ≤ k := by
  by_cases hfree : FreeAt start past
  · exact .inl hfree
  · simp only [FreeAt, not_forall, Nat.not_lt] at hfree
    obtain ⟨t, k, ht, hk, hle⟩ := hfree
    exact .inr ⟨t, k, ht, hk, hle⟩

/-- An attempt is a second later than one that is still to be paid for. -/
theorem Paid.attempt (h : Paid start seconds (max start m) past) (hm : t.At m)
    (he : e.isAttempt = true) (hapart : ∀ last, lastAttempt? past = some last → Apart last t)
    (hlast : ∀ last k, lastAttempt? past = some last → last.At k → k ≤ m) (hstart : start ≤ n)
    (hmn : m ≤ n) (hend : n ≤ start + seconds * second) :
    Paid start seconds n ((t, e) :: past) := by
  have hr := Event.refusesDelivery_of_isAttempt he
  have hnow : lastAttempt? ((t, e) :: past) = some t := by rw [lastAttempt?, if_pos he]
  constructor
  · intro hfree
    have hbefore := hfree t m hnow hm
    have hpaid := h.free fun t' k ht' hk => Nat.lt_of_le_of_lt (hlast t' k ht' hk) hbefore
    rw [Nat.max_eq_left (Nat.le_of_lt hbefore)] at hpaid
    have hpace := pace_mono hstart
    rw [attempts_cons hm, refusedDeliveries_cons_other hr, if_neg (by omega)]
    simp only [Nat.add_zero]
    omega
  · intro t' k ht' hk hle
    obtain rfl := Option.some.inj (hnow.symm.trans ht')
    obtain rfl := hm.unique hk
    rw [attempts_cons hm, refusedDeliveries_cons_other hr, if_pos ⟨⟨hle, by omega⟩, he⟩]
    simp only [Nat.mul_add, Nat.mul_one]
    have hpaid := h.free
    rw [Nat.max_eq_right hle] at hpaid
    rcases freeAt_or_held start past with hfree | ⟨t', k, ht', hk, hle'⟩
    · have hpaid := hpaid hfree
      omega
    · have hpaid := h.held t' k ht' hk hle'
      have hpace := (hapart t' ht').pace_le hk hm
      rw [Nat.mul_add, Nat.mul_one] at hpaid
      omega

/-- A refused delivery pays for the last attempt. -/
theorem Paid.refusal (h : Paid start seconds (max start m) past) (hm : t.At m)
    (he : e.isAttempt = false) (hr : e.refusesDelivery = true)
    (hlast : ∀ last k, lastAttempt? past = some last → last.At k → k ≤ m) (hstart : start ≤ n)
    (hmn : m ≤ n) (hend : n ≤ start + seconds * second) :
    Paid start seconds n ((t, e) :: past) := by
  have hnone : lastAttempt? ((t, e) :: past) = none := by
    rw [lastAttempt?, he, if_neg Bool.false_ne_true, if_pos hr]
  refine ⟨fun _ => ?_, fun t' k ht' => absurd (hnone.symm.trans ht') (by simp)⟩
  rw [attempts_cons_other he, refusedDeliveries_cons hm, Nat.mul_add]
  rcases freeAt_or_held start past with hfree | ⟨t', k, ht', hk, hle⟩
  · have hpaid := h.free hfree
    have hpace := pace_mono (Nat.max_le.mpr ⟨hstart, hmn⟩)
    omega
  · have hpaid := h.held t' k ht' hk hle
    have hkm := hlast t' k ht' hk
    have hpace := pace_mono (Nat.le_trans hkm hmn)
    rw [Nat.mul_add] at hpaid
    rw [if_pos ⟨⟨by omega, by omega⟩, hr⟩]
    omega

/-- Other events change nothing. -/
theorem Paid.other (h : Paid start seconds n past) (he : e.isAttempt = false)
    (hr : e.refusesDelivery = false) : Paid start seconds n ((t, e) :: past) := by
  have hsame : lastAttempt? ((t, e) :: past) = lastAttempt? past := by
    rw [lastAttempt?, he, hr, if_neg Bool.false_ne_true, if_neg Bool.false_ne_true]
  constructor
  · rw [FreeAt, hsame, attempts_cons_other he, refusedDeliveries_cons_other hr]
    exact h.free
  · rw [hsame, attempts_cons_other he, refusedDeliveries_cons_other hr]
    exact h.held

theorem Spaced.paid (h : Spaced past) (hstart : start ≤ n) (hend : n ≤ start + seconds * second)
    (htimes : ∀ x ∈ past, ∀ k, x.1.At k → k ≤ n) : Paid start seconds n past := by
  induction past generalizing n with
  | nil =>
      exact ⟨fun _ => Nat.add_le_add_left (pace_mono hstart) _, fun t k hnone => by contradiction⟩
  | cons x past ih =>
      obtain ⟨t, e⟩ := x
      obtain ⟨hpast, ⟨m, hm⟩, horder, hattempt⟩ := h
      have hmn : m ≤ n := htimes _ List.mem_cons_self m hm
      have hearlier (x : Instant × Event) (hx : x ∈ past) (k : Nat) (hk : x.1.At k) : k ≤ m :=
        (hk.le_iff hm).mp (horder x hx)
      have hlast (last : Instant) (k : Nat) (ht : lastAttempt? past = some last)
          (hk : last.At k) : k ≤ m := by
        obtain ⟨e', he'⟩ := mem_of_lastAttempt? ht
        exact hearlier _ he' k hk
      -- up to the event, nothing but what was before it counts
      have hbefore : Paid start seconds (max start m) past :=
        ih hpast (Nat.le_max_left _ _) (by omega)
          fun x hx k hk => Nat.le_trans (hearlier x hx k hk) (Nat.le_max_right _ _)
      rcases he : e.isAttempt with _ | _
      · rcases hr : e.refusesDelivery with _ | _
        · refine (ih hpast hstart hend fun x hx k hk => ?_).other he hr
          exact Nat.le_trans (hearlier x hx k hk) hmn
        · exact hbefore.refusal hm he hr hlast hstart hmn hend
      · exact hbefore.attempt hm he (hattempt he) hlast hstart hmn hend

/-- Within some seconds there are at most as many attempts as seconds and refused deliveries, and
one more. -/
theorem Spaced.attempts_bounded (h : Spaced past) (start seconds : Nat) :
    attempts start seconds past ≤ seconds + 1 + refusedDeliveries start seconds past := by
  induction past with
  | nil => exact Nat.zero_le _
  | cons x past ih =>
      obtain ⟨t, e⟩ := x
      obtain ⟨m, hm⟩ := h.2.1
      have hthen := ih h.1
      by_cases hend : m ≤ start + seconds * second
      · have htimes : ∀ x ∈ (t, e) :: past, ∀ k, x.1.At k → k ≤ start + seconds * second := by
          intro x hx k hk
          refine Nat.le_trans ?_ hend
          rcases List.mem_cons.mp hx with rfl | hmem
          · exact Nat.le_of_eq (hk.unique hm)
          · exact (hk.le_iff hm).mp (h.2.2.1 x hmem)
        have hpaid := h.paid (Nat.le_add_right start _) (Nat.le_refl _) htimes
        have hpace := pace_add_lt start seconds
        suffices hless : secondPace * attempts start seconds ((t, e) :: past) <
            secondPace * (refusedDeliveries start seconds ((t, e) :: past) + 1 + (seconds + 1)) by
          have hcounts := Nat.lt_of_mul_lt_mul_left hless
          omega
        rw [Nat.mul_add _ _ (seconds + 1)]
        rcases freeAt_or_held start ((t, e) :: past) with hfree | ⟨t', k, ht', hk, hle⟩
        · have hpaid := hpaid.free hfree
          rw [Nat.mul_add]
          omega
        · have hpaid := hpaid.held t' k ht' hk hle
          obtain ⟨e', he'⟩ := mem_of_lastAttempt? ht'
          have hend' := pace_mono (htimes _ he' k hk)
          omega
      · rw [attempts_cons hm, refusedDeliveries_cons hm]
        simp only [hend, and_false, false_and, if_false, Nat.add_zero]
        exact hthen

end Mqtt

end SupplyGauge
