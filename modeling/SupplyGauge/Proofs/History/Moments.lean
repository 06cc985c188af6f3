import SupplyGauge.Proofs.History.Turns
import SupplyGauge.Proofs.Number.Rounding

/-! # Moments

Time is counted in doubles, so it does not go on evenly. A timer that is due at a moment is taken
when the clock does not tell that moment from the present, or later, and time moves only on to what
a timer is due at. Still as many timers of a second as there are seconds, and one more, can be set
one after the other within a number of whole seconds: what the clock does not tell apart adds up to
less than a second before the moments are too far apart for it to matter.
-/

namespace SupplyGauge

open Binary64

/-- A moment that is a number of quanta after the beginning. -/
def Instant.At (t : Instant) (n : Nat) : Prop := t.quanta? = some (n : Int)

/-- Whether a moment is a proper one. -/
def Instant.Proper (t : Instant) : Prop := ∃ n, t.At n

theorem Instant.At.measures {t : Instant} {n : Nat} (h : t.At n) : Measures t n := .inl h

theorem Instant.At.le_iff {t t' : Instant} {n n' : Nat} (h : t.At n) (h' : t'.At n') :
    t.le t' = true ↔ n ≤ n' :=
  h.measures.le_iff h'.measures

namespace Schedule

/-- The number of quanta in the shortest time that the clock tells apart. -/
def leastQuanta : Nat := 4835703278458517 * twoTo 992

theorem measures_resolution : Measures resolution leastQuanta := .inl (by decide +kernel)

/-- Whether a timer that is due at a moment can be taken at another one. -/
def Reached (due now : Instant) : Prop := ¬ (now.add resolution).le due = true

theorem Reached.mono_due {due due' now : Instant} (hnow : now.Proper) (h : Reached due' now)
    (hdue : due.le due' = true) : Reached due now := by
  obtain ⟨n, hn⟩ := hnow
  exact fun hle => h ((hn.measures.add measures_resolution).le_trans hle hdue)

theorem Reached.mono_now {due now later : Instant} (hnow : now.Proper) (hlater : later.Proper)
    (hle : now.le later = true) (h : Reached due now) : Reached due later := by
  obtain ⟨n, hn⟩ := hnow
  obtain ⟨n', hn'⟩ := hlater
  have hsum := hn.measures.add measures_resolution
  have hsum' := hn'.measures.add measures_resolution
  refine fun hdue => h (hsum.le_trans ((hsum.le_iff hsum').mpr (nearest_mono ?_)) hdue)
  exact Nat.add_le_add_right ((hn.le_iff hn').mp hle) _

/-- Time goes on to the moment of a timer only if that is a proper moment and not before. -/
theorem proper_of_reached {due now : Instant} (hnow : now.Proper)
    (hdue : (now.add resolution).le due = true) (h : Reached due due) :
    due.Proper ∧ now.le due = true := by
  obtain ⟨n, hn⟩ := hnow
  have hsum := hn.measures.add measures_resolution
  obtain ⟨k, hk, hle⟩ := hsum.exists_of_le hdue
  have hlater : now.le due = true := by
    refine (hn.measures.le_iff hk).mpr (Nat.le_trans ?_ hle)
    conv_lhs => rw [← hn.measures.nearest_eq]
    exact nearest_mono (Nat.le_add_right _ _)
  rcases hk with hat | ⟨rfl, -⟩
  · exact ⟨⟨k, hat⟩, hlater⟩
  · exact absurd (by decide +kernel) h

/-! ## Timers of at least a second -/

/-- A timer that is set for some seconds is due no earlier than one that is set for a second at an
earlier moment. -/
theorem second_le {t now : Instant} (ht : t.Proper) (hnow : now.Proper) (hle : t.le now = true)
    {seconds : Nat} (hseconds : 1 ≤ seconds) :
    (t.add (.ofInt 1)).le (now.add (.ofInt seconds)) = true := by
  obtain ⟨n, hn⟩ := ht
  obtain ⟨n', hn'⟩ := hnow
  have hsum := hn.measures.add (measures_ofInt 1)
  have hsum' := hn'.measures.add (measures_ofInt seconds)
  refine (hsum.le_iff hsum').mpr (nearest_mono (Nat.add_le_add ((hn.le_iff hn').mp hle) ?_))
  exact nearest_mono (Nat.mul_le_mul_right _ hseconds)

/-- Whether a timer of a second that is set at a moment can be taken at another one. -/
def Apart (t t' : Instant) : Prop := Reached (t.add (.ofInt 1)) t'

/-- The number of quanta in a second. -/
@[irreducible] def second : Nat := twoTo quantumExponent

/-- From this moment on, the shortest time that the clock tells apart is lost in a sum. -/
@[irreducible] def coarse : Nat := twoTo 1098

theorem measures_second : Measures (.ofInt 1) second := by
  unfold second
  have hexact : nearest (1 * twoTo quantumExponent) = 1 * twoTo quantumExponent :=
    nearest_shifted (by decide) (by rw [Nat.one_mul]; exact twoTo_le (by decide))
  have hsecond := measures_ofInt 1
  rw [hexact, Nat.one_mul] at hsecond
  exact hsecond

theorem nearest_add_least {n : Nat} (hn : nearest n = n) (hcoarse : coarse ≤ n) :
    nearest (n + leastQuanta) = n := by
  refine nearest_add_eq hn ?_
  unfold coarse at hcoarse
  have hlog := le_log2 hcoarse
  calc 2 * leastQuanta
    _ < twoTo 1046 := by decide +kernel
    _ ≤ twoTo (dropped n) := twoTo_le (by unfold dropped; omega)

/-- Moments that are apart have almost a second between them, and more than one where the clock is
coarse. -/
theorem Apart.lt {t t' : Instant} {n n' : Nat} (h : Apart t t') (ht : t.At n) (ht' : t'.At n') :
    n + second < n' + leastQuanta ∧ (coarse ≤ n' → n + second < n') := by
  have hsum := ht.measures.add measures_second
  have hsum' := ht'.measures.add measures_resolution
  have hlt : nearest (n + second) < nearest (n' + leastQuanta) := by
    rw [← Nat.not_le, ← hsum'.le_iff hsum]
    exact h
  have hcancel {a b : Nat} (hnearest : nearest a < nearest b) : a < b := by
    by_contra hle
    exact Nat.not_lt.mpr (nearest_mono (Nat.le_of_not_lt hle)) hnearest
  refine ⟨hcancel hlt, fun hcoarse => hcancel ?_⟩
  rw [nearest_add_least ht'.measures.nearest_eq hcoarse, ← ht'.measures.nearest_eq] at hlt
  exact hlt

/-! ## As many timers as seconds -/

/-- A measure of time by which moments that are apart are a second apart: what the clock does not
tell apart is made up for by a part more of every moment that is not coarse. -/
def pace (n : Nat) : Nat := 100000000 * n + min n coarse

/-- What the measure gives for a second. -/
def secondPace : Nat := 100000000 * second

theorem pace_mono {a b : Nat} (h : a ≤ b) : pace a ≤ pace b := by
  unfold pace
  omega

theorem Apart.pace_le {t t' : Instant} {n n' : Nat} (h : Apart t t') (ht : t.At n)
    (ht' : t'.At n') : pace n + secondPace ≤ pace n' := by
  obtain ⟨hlt, hcoarse⟩ := h.lt ht ht'
  have hleast : 100000001 * leastQuanta ≤ second := by decide +kernel
  unfold pace secondPace
  rcases Nat.lt_or_ge n' coarse with hfine | hge
  · omega
  · have hmore := hcoarse hge
    omega

/-- Within some seconds, the measure grows by less than one second more. -/
theorem pace_add_lt (n seconds : Nat) :
    pace (n + seconds * second) < pace n + secondPace * (seconds + 1) := by
  have hcoarse : coarse < 100000000 * second := by decide +kernel
  have hseconds : 100000000 * (seconds * second) = 100000000 * second * seconds := by
    rw [Nat.mul_comm seconds, Nat.mul_assoc]
  unfold pace secondPace
  rw [Nat.mul_add, Nat.mul_add, hseconds]
  omega

/-! ## Rounds -/

/-- The turns that have been given out and not been taken, no matter what timers there are. -/
def soon {α : Type} (s : Schedule α) : List α := s.present ++ s.upcoming

end Schedule

variable {α : Type}

namespace TimerHeap

theorem takeBefore_taken (limit : Instant) (fuel : Nat) (h : TimerHeap α) :
    ∀ t ∈ (takeBefore limit fuel h).1, ¬ limit.le t.due = true := by
  induction fuel generalizing h with
  | zero => exact fun t ht => absurd ht List.not_mem_nil
  | succ fuel ih =>
      simp only [takeBefore]
      split
      next first hfirst =>
        split
        · exact fun t ht => absurd ht List.not_mem_nil
        next hdue =>
          intro t ht
          rcases List.mem_cons.mp ht with rfl | hlater
          · exact hdue
          · exact ih _ t hlater
      next => exact fun t ht => absurd ht List.not_mem_nil

/-- If any timer is taken, the first one is. -/
theorem takeBefore_first {limit : Instant} {fuel : Nat} {h : TimerHeap α} {first : Timer α}
    (hfirst : h[0]? = some first) (htaken : (takeBefore limit fuel h).1 ≠ []) :
    ¬ limit.le first.due = true := by
  cases fuel with
  | zero => exact absurd rfl htaken
  | succ fuel =>
      simp only [takeBefore, hfirst] at htaken
      exact fun hdue => htaken (by rw [if_pos hdue])

end TimerHeap

/-- A timer that is called off is due as before, though it is void. -/
theorem Timers.callOff_due (t : Timers α) (number : Nat) :
    ∀ x ∈ (t.callOff number).heap.toList, ∃ y ∈ t.heap.toList,
      y.purpose = x.purpose ∧ y.due = x.due := by
  intro x hx
  unfold Timers.callOff at hx
  split at hx
  next place _ =>
    obtain ⟨i, hi, rfl⟩ := List.getElem_of_mem hx
    simp only [Array.toList_modify, List.length_modify] at hi
    refine ⟨t.heap.toList[i], List.getElem_mem hi, ?_⟩
    simp only [Array.toList_modify, List.getElem_modify]
    split <;> exact ⟨rfl, rfl⟩
  next => exact ⟨x, hx, rfl, rfl⟩

namespace Schedule

/-- Time goes on to a moment at which a timer can be taken. -/
theorem nextMoment_proper {s : Schedule α} {now : Instant} (hnow : now.Proper)
    (htaken : s.upcoming = [] →
      (s.timers.takeBefore ((s.nextMoment now).add resolution)).1 ≠ []) :
    (s.nextMoment now).Proper ∧ now.le (s.nextMoment now) = true := by
  have hself : now.Proper ∧ now.le now = true := by
    obtain ⟨n, hn⟩ := hnow
    exact ⟨⟨n, hn⟩, (hn.le_iff hn).mpr (Nat.le_refl n)⟩
  unfold nextMoment at htaken ⊢
  split
  next first hupcoming hfirst =>
    simp only [hupcoming, hfirst, true_implies] at htaken
    split
    next hdue =>
      rw [if_pos hdue] at htaken
      exact proper_of_reached hnow hdue (TimerHeap.takeBefore_first hfirst htaken)
    next => exact hself
  next => exact hself

/-- What a round consists of has been given out before, or a timer stands for it that can be taken
at the moment of the round. -/
theorem nextRound_soon (s : Schedule α) (now : Instant) :
    (∀ turn ∈ (s.nextRound now).2.soon, turn ∈ s.soon ∨ ∃ t ∈ s.timers.heap.toList,
      t.purpose = turn ∧ Reached t.due (s.nextRound now).1) ∧
    ∀ t ∈ (s.nextRound now).2.timers.heap.toList, t ∈ s.timers.heap.toList := by
  simp only [nextRound, soon, List.append_nil]
  generalize nextMoment _ now = moment
  have hheap := TimerHeap.takeBefore_perm (moment.add resolution) s.timers.clear.heap.size
    s.timers.clear.heap
  have hclear := s.timers.clear_heap_subperm.subset
  refine ⟨fun turn hturn => ?_, fun t ht => hclear (hheap.subset (List.mem_append_right _ ht))⟩
  rcases List.mem_append.mp hturn with hupcoming | hdue
  · exact .inl (List.mem_append_right _ (List.mem_reverse.mp hupcoming))
  · obtain ⟨t, ht, rfl⟩ := List.mem_map.mp hdue
    have htaken := (List.mem_filter.mp ht).1
    exact .inr ⟨t, hclear (hheap.subset (List.mem_append_left _ htaken)), rfl,
      TimerHeap.takeBefore_taken _ _ _ t htaken⟩

/-- A turn that comes has been given out before, or a timer stands for it that can be taken when it
comes. The same holds of what is given out then. -/
theorem next?_soon {s rest : Schedule α} {now later : Instant} {turn : α} (hnow : now.Proper)
    (hnext : s.next? now = some (turn, later, rest)) :
    (later.Proper ∧ now.le later = true) ∧
    (∀ u ∈ turn :: rest.soon, u ∈ s.soon ∨
      ∃ t ∈ s.timers.heap.toList, t.purpose = u ∧ Reached t.due later) ∧
    ∀ t ∈ rest.timers.heap.toList, t ∈ s.timers.heap.toList := by
  unfold next? at hnext
  by_cases hempty : s.present.isEmpty
  · simp only [hempty, ↓reduceIte] at hnext
    have hround := s.nextRound_soon now
    split at hnext
    · contradiction
    next first others hpresent =>
      obtain ⟨rfl, rfl, rfl⟩ := by simpa using hnext
      have hsoon : (s.nextRound now).2.soon =
          first :: ({ (s.nextRound now).2 with present := others } : Schedule α).soon := by
        rw [soon, hpresent]
        rfl
      refine ⟨nextMoment_proper hnow fun hupcoming hnone => ?_, hsoon ▸ hround.1, hround.2⟩
      dsimp only at hupcoming hnone
      simp only [nextRound] at hpresent
      rw [hnone, hupcoming] at hpresent
      contradiction
  · simp only [hempty, Bool.false_eq_true, ↓reduceIte] at hnext
    split at hnext
    · contradiction
    next first others hpresent =>
      obtain ⟨rfl, rfl, rfl⟩ := by simpa using hnext
      obtain ⟨n, hn⟩ := hnow
      refine ⟨⟨⟨n, hn⟩, (hn.le_iff hn).mpr (Nat.le_refl n)⟩, fun u hu => .inl ?_,
        fun _ ht => ht⟩
      rw [soon, hpresent]
      exact hu

end Schedule

theorem Scene.next?_soon {s rest : Scene} {turn : Turn} (hnow : s.now.Proper)
    (h : s.next? = some (turn, rest)) :
    (rest.now.Proper ∧ s.now.le rest.now = true) ∧
    (∀ u ∈ turn :: rest.schedule.soon, u ∈ s.schedule.soon ∨
      ∃ t ∈ s.schedule.timers.heap.toList, t.purpose = u ∧ Schedule.Reached t.due rest.now) ∧
    ∀ t ∈ rest.schedule.timers.heap.toList, t ∈ s.schedule.timers.heap.toList := by
  unfold next? at h
  rw [Option.map_eq_some_iff] at h
  obtain ⟨⟨turn', now, schedule⟩, hnext, heq⟩ := h
  obtain ⟨rfl, rfl⟩ := Prod.mk.inj heq
  exact Schedule.next?_soon hnow hnext

end SupplyGauge
