import SupplyGauge.Proofs.Mqtt.Loops

/-! # How a client advances

By a turn of a loop or a fetch, the loops stay in order, the current loop stays the
current one, a loop that is over stays over, and as many turns of the caller are to
be expected as before. Loops wait for messages only in a session. All that happens
besides is moves of the ledger.
-/

namespace SupplyGauge.Mqtt

namespace Client

open Ledger

/-- What holds while sessions are left to the loops: loops wait for messages only in a session, and
there is none while no loop is the current one. -/
structure Tended (c : Client) : Prop where
  waiting : ∀ i, (c.loop i).stand = .awaiting → c.connected = true
  idle : c.current = none → c.connected = false
  attached : c.connected = true → c.attached = true

/-- Whether the caller waits for the end of the current loop. -/
def watch (c : Client) : Bool := c.current.any fun n => (c.loop n).watched

/-- The number of turns that the caller can expect: those to come, and the one for the end of a
loop. -/
def expected (c : Client) : Nat := c.callerTurns + c.watch.toNat

/-- What everything keeps but starting and stopping the client. -/
structure Keeps (c c' : Client) : Prop where
  orderly : c'.Orderly
  current : c'.current = c.current
  expected : c'.expected ≤ c.expected
  watched : ∀ i, (c'.loop i).stand ≠ .over →
    (c.loop i).stand ≠ .over ∧ (c'.loop i).watched = (c.loop i).watched

/-- A client comes to another one by turns of its loops. -/
structure Advances (byHand : Prop) (c c' : Client) : Prop extends Keeps c c' where
  accepted : c'.accepted = c.accepted
  tended : c.Tended → c'.Tended
  moves : byHand ∨ c.Tended → ∀ offered,
    Moves byHand (c.ledger offered c.inHand) (c'.ledger offered c'.inHand)

variable {byHand : Prop} {c c' : Client} {n : Nat}

theorem Keeps.trans {c'' : Client} (h : Keeps c c') (h' : Keeps c' c'') : Keeps c c'' where
  orderly := h'.orderly
  current := h'.current.trans h.current
  expected := Nat.le_trans h'.expected h.expected
  watched i hstand := by
    obtain ⟨hthen, hwatched⟩ := h'.watched i hstand
    obtain ⟨hfirst, hwatched'⟩ := h.watched i hthen
    exact ⟨hfirst, hwatched.trans hwatched'⟩

/-- Loops that are not touched. -/
theorem Keeps.of_eq (h : c.Orderly) (c' : Client) (hloops : c'.loops = c.loops)
    (hlisteners : c'.listeners = c.listeners) (hcurrent : c'.current = c.current)
    (hturns : c'.callerTurns ≤ c.callerTurns) : Keeps c c' := by
  have hloop (i : Nat) : c'.loop i = c.loop i := by rw [loop, loop, hloops]
  refine ⟨h.congr hloops hlisteners hcurrent, hcurrent, ?_, ?_⟩
  · simp only [Client.expected, watch, hcurrent, hloop]
    exact Nat.add_le_add_right hturns _
  · intro i hstand
    rw [hloop i] at hstand ⊢
    exact ⟨hstand, rfl⟩

theorem Advances.refl (h : c.Orderly) : Advances byHand c c where
  toKeeps := .of_eq h c rfl rfl rfl (Nat.le_refl _)
  accepted := rfl
  tended htended := htended
  moves _ _ := .refl

theorem Advances.trans {c'' : Client} (h : Advances byHand c c') (h' : Advances byHand c' c'') :
    Advances byHand c c'' where
  toKeeps := h.toKeeps.trans h'.toKeeps
  accepted := h'.accepted.trans h.accepted
  tended htended := h'.tended (h.tended htended)
  moves htended offered :=
    (h.moves htended offered).trans (h'.moves (htended.imp_right h.tended) offered)

/-- A state that a loop can come into from another one. -/
structure Follows (d d' : Delivery) : Prop where
  fetching : d'.fetch.isActive = true → d'.stand = .awaiting
  unwatched : d'.stand = .over → d'.watched = false
  watched : d'.stand ≠ .over → d.stand ≠ .over ∧ d'.watched = d.watched

/-- A loop that is not over is the current one. -/
theorem Orderly.current_of_stand (h : c.Orderly) (hstand : (c.loop n).stand ≠ .over) :
    c.current = some n := by
  by_contra hcurrent
  exact hstand (h.others n hcurrent)

theorem Follows.over_of_current {d : Delivery} (hfollows : Follows (c.loop n) d) (h : c.Orderly)
    (hcurrent : c.current ≠ some n) : d.stand = .over := by
  by_contra hstand
  exact hcurrent (h.current_of_stand (hfollows.watched hstand).1)

/-- As many turns of the caller are to be expected after a change as before. -/
theorem Changes.expected {d : Delivery} (hchanges : Changes c n c' d) (h : c.Orderly)
    (hfollows : Follows (c.loop n) d) : c'.expected = c.expected := by
  have hturns := hchanges.callerTurns
  rw [Client.expected, Client.expected, watch, watch, hchanges.current]
  by_cases hcurrent : c.current = some n
  · simp only [hcurrent, Option.any_some]
    rw [hchanges.loop_self (h.bounded n hcurrent)]
    exact hturns
  · -- a loop that is not the current one is over, and nobody waits for it before or after
    have hwatched := h.unwatched n (h.others n hcurrent)
    have hd := hfollows.unwatched (hfollows.over_of_current h hcurrent)
    rw [hwatched, hd] at hturns
    have hwatch : (c.current.any fun i => (c'.loop i).watched) =
        c.current.any fun i => (c.loop i).watched := by
      rcases hm : c.current with _ | m
      · rfl
      · have hmn : m ≠ n := fun hmn => hcurrent (hmn ▸ hm)
        simp only [Option.any_some, hchanges.loop_of_ne hmn]
    rw [hwatch]
    simpa using hturns

/-- Loops stay in order if the one that is touched is among the listeners exactly if it listens. -/
theorem Changes.orderly {d : Delivery} (hchanges : Changes c n c' d) (h : c.Orderly)
    (hn : n < c.loops.size) (hfollows : Follows (c.loop n) d)
    (hlisteners : ∀ i, i ∈ c'.listeners ↔ if i = n then d.fetch = .listening else i ∈ c.listeners)
    (hnodup : c'.listeners.Nodup) : c'.Orderly := by
  have hself := hchanges.loop_self hn
  have hother (i : Nat) (hi : i ≠ n) := hchanges.loop_of_ne hi
  constructor
  · intro i
    by_cases hi : i = n
    · exact hi ▸ hself ▸ hfollows.fetching
    · exact hother i hi ▸ h.fetching i
  · intro i
    rw [hlisteners i]
    split
    next hi => rw [hi, hself]
    next hi => rw [hother i hi, h.listening i]
  · exact hnodup
  · intro i hi
    rw [hchanges.current] at hi
    by_cases hin : i = n
    · subst hin
      exact hself ▸ hfollows.over_of_current h hi
    · exact hother i hin ▸ h.others i hi
  · intro i hi
    rw [hchanges.current] at hi
    exact hchanges.size ▸ h.bounded i hi
  · intro i
    by_cases hi : i = n
    · exact hi ▸ hself ▸ hfollows.unwatched
    · exact hother i hi ▸ h.unwatched i

theorem Leaves.orderly {d : Delivery} (hleaves : Leaves c n c' d) (h : c.Orderly)
    (hfollows : Follows (c.loop n) d)
    (hlistening : d.fetch = .listening ↔ (c.loop n).fetch = .listening) : c'.Orderly := by
  by_cases hn : n < c.loops.size
  · refine hleaves.toChanges.orderly h hn hfollows ?_ (hleaves.listeners ▸ h.nodup)
    intro i
    rw [hleaves.listeners]
    split
    next hi => rw [hlistening, hi, h.listening n]
    next => rfl
  · have hloops : c'.loops = c.loops := by
      rw [hleaves.loops, Array.setIfInBounds_eq_of_size_le (Nat.le_of_not_lt hn)]
    exact h.congr hloops hleaves.listeners hleaves.current

/-- While the fetch of the current loop is not active, nobody listens. -/
theorem Orderly.listeners_eq_nil (h : c.Orderly) (hcurrent : c.current = some n)
    (hlisten : (c.loop n).fetch ≠ .listening) : c.listeners = [] := by
  rw [List.eq_nil_iff_forall_not_mem]
  intro i hi
  have hlistening := (h.listening i).mp hi
  have hawaiting := h.fetching i (by rw [hlistening]; rfl)
  have hin := h.current_of_stand (by rw [hawaiting]; decide)
  rw [hcurrent, Option.some.injEq] at hin
  exact hlisten (hin ▸ hlistening)

/-- If the caller waits for the end of the current loop and has no turn to come, the loop is over:
else its end would still bring one. -/
theorem Orderly.over_of_unexpected (h : c.Orderly)
    (hwatched : ∃ n, c.current = some n ∧ ((c.loop n).stand ≠ .over → (c.loop n).watched = true))
    (hexpected : c.expected = 0) (i : Nat) : (c.loop i).stand = .over := by
  obtain ⟨n, hcurrent, hwatched⟩ := hwatched
  by_cases hi : i = n
  · subst hi
    by_contra hstand
    have hwatch := (Nat.add_eq_zero_iff.mp hexpected).2
    rw [watch, hcurrent, Option.any_some, hwatched hstand] at hwatch
    contradiction
  · exact h.others i (by rw [hcurrent]; simpa using Ne.symm hi)

theorem inHand_eq_range (c : Client) :
    c.inHand = (List.range c.loops.size).filterMap fun i => (c.loop i).fetch.message? := by
  have hloops : c.loops.toList = (List.range c.loops.size).map c.loop := by
    refine List.ext_getElem (by simp) fun i hi _ => ?_
    simp [loop, Array.getElem?_eq_getElem (by simpa using hi)]
  rw [inHand, hloops, List.filterMap_map]
  rfl

theorem filterMap_of_single {α : Type} {l : List Nat} {f : Nat → Option α} (hnodup : l.Nodup)
    (hn : n ∈ l) (hf : ∀ i ∈ l, i ≠ n → f i = none) : l.filterMap f = (f n).toList := by
  induction l with
  | nil => contradiction
  | cons i l ih =>
      rw [List.nodup_cons] at hnodup
      by_cases hi : i = n
      · subst hi
        have hrest : l.filterMap f = [] := by
          rw [List.filterMap_eq_nil_iff]
          intro j hj
          exact hf j (List.mem_cons_of_mem _ hj) fun hji => hnodup.1 (hji ▸ hj)
        rcases hfi : f i with _ | a <;> simp [hfi, hrest]
      · rw [List.filterMap_cons_none (hf i List.mem_cons_self hi)]
        exact ih hnodup.2 ((List.mem_cons.mp hn).resolve_left (Ne.symm hi)) fun j hj =>
          hf j (List.mem_cons_of_mem _ hj)

/-- A loop that is over has no message in hand. -/
theorem Orderly.message?_eq_none (h : c.Orderly) (hstand : (c.loop n).stand ≠ .awaiting) :
    (c.loop n).fetch.message? = none :=
  message?_of_inactive (h.inactive hstand)

/-- Only the current loop can have a message in hand. -/
theorem Orderly.inHand_eq (h : c.Orderly) (hcurrent : c.current = some n) :
    c.inHand = (c.loop n).fetch.message?.toList := by
  rw [inHand_eq_range]
  refine filterMap_of_single List.nodup_range (List.mem_range.mpr (h.bounded n hcurrent)) ?_
  intro i _ hi
  have hover := h.others i (by rw [hcurrent]; simpa using Ne.symm hi)
  exact h.message?_eq_none (by rw [hover]; decide)

/-- While no loop is the current one, no message is in hand. -/
theorem Orderly.inHand_eq_nil (h : c.Orderly) (hcurrent : c.current = none) : c.inHand = [] := by
  rw [inHand_eq_range, List.filterMap_eq_nil_iff]
  intro i _
  have hover := h.others i (by simp [hcurrent])
  exact h.message?_eq_none (by rw [hover]; decide)

theorem Changes.inHand_eq {d : Delivery} (hchanges : Changes c n c' d)
    (hmessage : d.fetch.message? = (c.loop n).fetch.message?) : c'.inHand = c.inHand := by
  rw [inHand_eq_range, inHand_eq_range, hchanges.size]
  refine List.filterMap_congr fun i hi => ?_
  by_cases hin : i = n
  · subst hin
    rw [hchanges.loop_self (List.mem_range.mp hi), hmessage]
  · rw [hchanges.loop_of_ne hin]

theorem Changes.watched {d : Delivery} (hchanges : Changes c n c' d)
    (hfollows : Follows (c.loop n) d) (i : Nat) (hstand : (c'.loop i).stand ≠ .over) :
    (c.loop i).stand ≠ .over ∧ (c'.loop i).watched = (c.loop i).watched := by
  by_cases hi : i = n
  · subst hi
    by_cases hn : i < c.loops.size
    · rw [hchanges.loop_self hn] at hstand ⊢
      exact hfollows.watched hstand
    · rw [loop_of_size_le (hchanges.size ▸ Nat.le_of_not_lt hn)] at hstand
      contradiction
  · rw [hchanges.loop_of_ne hi] at hstand ⊢
    exact ⟨hstand, rfl⟩

theorem Changes.tended {d : Delivery} (hchanges : Changes c n c' d)
    (hconnected : c'.connected = c.connected) (hattached : c'.attached = c.attached)
    (hstand : d.stand = .awaiting → (c.loop n).stand = .awaiting) (htended : c.Tended) :
    c'.Tended := by
  refine ⟨fun i hi => ?_, ?_, ?_⟩
  case refine_2 =>
    rw [hchanges.current, hconnected]
    exact htended.idle
  case refine_3 =>
    rw [hconnected, hattached]
    exact htended.attached
  rw [hconnected]
  refine htended.waiting i ?_
  by_cases hin : i = n
  · subst hin
    by_cases hn : i < c.loops.size
    · rw [hchanges.loop_self hn] at hi
      exact hstand hi
    · rw [loop_of_size_le (hchanges.size ▸ Nat.le_of_not_lt hn)] at hi
      contradiction
  · rwa [hchanges.loop_of_ne hin] at hi

/-- A change that does not show in the ledger. -/
theorem Changes.advances {d : Delivery} (hchanges : Changes c n c' d) (h : c.Orderly)
    (horderly : c'.Orderly) (hfollows : Follows (c.loop n) d)
    (hmessage : d.fetch.message? = (c.loop n).fetch.message?)
    (hstand : d.stand = .awaiting → (c.loop n).stand = .awaiting)
    (hledger : ∀ offered inHand, c'.ledger offered inHand = c.ledger offered inHand) :
    Advances byHand c c' where
  orderly := horderly
  current := hchanges.current
  accepted := hchanges.accepted
  expected := Nat.le_of_eq (hchanges.expected h hfollows)
  watched := hchanges.watched hfollows
  tended := hchanges.tended (congrArg Ledger.connected (hledger [] []))
    (congrArg Ledger.attached (hledger [] [])) hstand
  moves _ offered := by
    rw [hchanges.inHand_eq hmessage, hledger]

theorem Leaves.advances {d : Delivery} (hleaves : Leaves c n c' d) (h : c.Orderly)
    (hfollows : Follows (c.loop n) d)
    (hlistening : d.fetch = .listening ↔ (c.loop n).fetch = .listening)
    (hmessage : d.fetch.message? = (c.loop n).fetch.message?)
    (hstand : d.stand = .awaiting → (c.loop n).stand = .awaiting)
    (hledger : ∀ offered inHand, c'.ledger offered inHand = c.ledger offered inHand) :
    Advances byHand c c' :=
  hleaves.toChanges.advances h (hleaves.orderly h hfollows hlistening) hfollows hmessage hstand
    hledger

end Client

end SupplyGauge.Mqtt
