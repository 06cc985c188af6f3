import SupplyGauge.Proofs.History.HeapOrder
import SupplyGauge.Proofs.History.Moments

/-! # No turn is forgotten and no timer passed over

A turn that has been given out stays until it is taken, and a timer that is not called off stays
until its turn is given out. While turns are left, time stands still, and then it moves to the first
timer, so that it never goes on beyond a timer that stands.
-/

namespace SupplyGauge

variable {α : Type}

namespace TimerHeap

theorem dropVoid_keeps (fuel : Nat) {h : TimerHeap α} {x : Timer α} (hx : x ∈ h.toList)
    (hvalid : x.void = false) : x ∈ (dropVoid fuel h).2.toList := by
  induction fuel generalizing h with
  | zero => exact hx
  | succ fuel ih =>
      simp only [dropVoid]
      split
      next first hfirst =>
        split
        next hvoid =>
          refine ih (List.mem_of_ne_of_mem ?_ ((removeFirst_perm h first hfirst).symm.subset hx))
          rintro rfl
          exact Bool.false_ne_true (hvalid.symm.trans hvoid)
        next => exact hx
      next => exact hx

end TimerHeap

namespace Timers

theorem clear_keeps (t : Timers α) {x : Timer α} (hx : x ∈ t.heap.toList)
    (hvalid : x.void = false) : x ∈ t.clear.heap.toList := by
  unfold clear
  split
  · refine (TimerHeap.ofArray_perm _).symm.subset ?_
    rw [Array.toList_filter]
    exact List.mem_filter.mpr ⟨hx, by simp [hvalid]⟩
  · exact TimerHeap.dropVoid_keeps _ hx hvalid

theorem clear_heaped {t : Timers α} (hheaped : t.heap.Heaped) : t.clear.heap.Heaped := by
  have hdated := hheaped.dated.of_subset t.clear_heap_subperm.subset
  unfold clear at hdated ⊢
  split
  next =>
    refine TimerHeap.ofArray_heaped (hheaped.dated.of_subset ?_)
    rw [Array.toList_filter]
    exact List.filter_subset_self _
  next => exact hheaped.dropVoid _

theorem callOff_heaped {t : Timers α} (hheaped : t.heap.Heaped) (number : Nat) :
    (t.callOff number).heap.Heaped := by
  have hsize : (t.callOff number).heap.size = t.heap.size := by
    unfold callOff
    split
    · exact Array.size_modify
    · rfl
  have hrank (i : Nat) : (t.callOff number).heap.rankAt i = t.heap.rankAt i := by
    unfold callOff
    split
    next place _ =>
      simp only [TimerHeap.rankAt, Array.getElem?_modify]
      split
      · cases t.heap[i]? <;> rfl
      · rfl
    next => rfl
  refine ⟨fun x hx => ?_, fun i hpos hi hle => ?_⟩
  · obtain ⟨y, hy, -, hdue⟩ := t.callOff_due number x hx
    exact hdue ▸ hheaped.dated y hy
  · rw [hrank, hrank]
    exact hheaped.ordered i hpos (hsize ▸ hi) hle

/-- Calling off touches no timer whose purpose is not that of any timer with the number. -/
theorem mem_callOff_iff {t : Timers α} {number : Nat} (spared : α → Prop)
    (hspared : ∀ y ∈ t.heap.toList, y.number = number → ¬ spared y.purpose) {x : Timer α}
    (hx : spared x.purpose) : x ∈ (t.callOff number).heap.toList ↔ x ∈ t.heap.toList := by
  unfold callOff
  split
  next place hplace =>
    obtain ⟨hlt, hfound, -⟩ := Array.findIdx?_eq_some_iff_getElem.mp hplace
    have hother : ¬ spared t.heap[place].purpose :=
      hspared _ (Array.getElem_mem_toList hlt) (by simpa using (Bool.and_eq_true_iff.mp hfound).1)
    simp only [Array.toList_modify, List.mem_iff_getElem, List.length_modify, List.getElem_modify]
    refine ⟨fun ⟨i, hi, heq⟩ => ⟨i, hi, ?_⟩, fun ⟨i, hi, heq⟩ => ⟨i, hi, ?_⟩⟩
    all_goals
      by_cases hsame : place = i
      · subst hsame
        refine absurd ?_ hother
        simpa [← heq] using hx
      · rwa [if_neg hsame] at *
  next => rfl

end Timers

namespace Schedule

theorem add_ne_nan {t seconds : Instant} (ht : t.Proper) (hseconds : seconds ≠ .nan) :
    t.add seconds ≠ .nan := by
  obtain ⟨n, hn⟩ := ht
  refine Binary64.add_ne_nan ?_ hseconds
  cases t with
  | finite => rfl
  | nan | infinite => contradiction

/-- A number of seconds is not over before it begins. -/
theorem le_add_seconds {t : Instant} (ht : t.Proper) (seconds : Nat) :
    t.le (t.add (.ofInt seconds)) = true := by
  obtain ⟨n, hn⟩ := ht
  refine (hn.measures.le_iff (hn.measures.add (Binary64.measures_ofInt seconds))).mpr ?_
  conv_lhs => rw [← hn.measures.nearest_eq]
  exact Binary64.nearest_mono (Nat.le_add_right _ _)

theorem nextRound_keeps (s : Schedule α) (now : Instant) (hpresent : s.present = []) :
    (∀ u ∈ s.soon, u ∈ (s.nextRound now).2.soon) ∧
    ∀ x ∈ s.timers.heap.toList, x.void = false →
      x ∈ (s.nextRound now).2.timers.heap.toList ∨ x.purpose ∈ (s.nextRound now).2.soon := by
  simp only [nextRound, soon, hpresent, List.nil_append, List.append_nil]
  generalize nextMoment _ now = moment
  have hheap := TimerHeap.takeBefore_perm (moment.add resolution) s.timers.clear.heap.size
    s.timers.clear.heap
  refine ⟨fun u hu => List.mem_append_left _ (List.mem_reverse.mpr hu), fun x hx hvalid => ?_⟩
  rcases List.mem_append.mp (hheap.symm.subset (s.timers.clear_keeps hx hvalid)) with htaken | hleft
  · right
    refine List.mem_append_right _ (List.mem_map_of_mem (List.mem_filter.mpr ⟨htaken, ?_⟩))
    simp [hvalid]
  · exact .inl hleft

theorem nextRound_heaped {s : Schedule α} (hheaped : s.timers.heap.Heaped) (now : Instant) :
    (s.nextRound now).2.timers.heap.Heaped := by
  simp only [nextRound]
  exact (Timers.clear_heaped hheaped).takeBefore _ _

/-- Time moves only where no turn is given out, and not beyond the first timer. -/
theorem nextRound_le {s : Schedule α} (hheaped : s.timers.heap.Heaped) (now : Instant) :
    (s.nextRound now).1 = now ∨ s.upcoming = [] ∧
      ∀ x ∈ s.timers.heap.toList, x.void = false → (s.nextRound now).1.le x.due = true := by
  simp only [nextRound, nextMoment]
  split
  next first hupcoming hfirst =>
    split
    next =>
      refine .inr ⟨hupcoming, fun x hx hvalid => ?_⟩
      exact (Timers.clear_heaped hheaped).first_le hfirst (s.timers.clear_keeps hx hvalid)
    next => exact .inl rfl
  next => exact .inl rfl

/-- When a turn comes, what has been given out and what has a timer is not lost, and time has not
passed over a timer. -/
theorem next?_keeps {s rest : Schedule α} {now later : Instant} {turn : α}
    (hnext : s.next? now = some (turn, later, rest)) :
    (∀ u ∈ s.soon, u ∈ turn :: rest.soon) ∧
    (∀ x ∈ s.timers.heap.toList, x.void = false →
      x ∈ rest.timers.heap.toList ∨ x.purpose ∈ turn :: rest.soon) ∧
    (s.timers.heap.Heaped → rest.timers.heap.Heaped ∧
      (later = now ∨ s.soon = [] ∧
        ∀ x ∈ s.timers.heap.toList, x.void = false → later.le x.due = true)) := by
  have htake {s : Schedule α} {first : α} {others : List α} (hs : s.present = first :: others) :
      s.soon = first :: ({ s with present := others } : Schedule α).soon := by
    rw [soon, hs]
    rfl
  unfold next? at hnext
  by_cases hempty : s.present.isEmpty
  · simp only [hempty, ↓reduceIte] at hnext
    have hpresent := List.isEmpty_iff.mp hempty
    have hkeeps := s.nextRound_keeps now hpresent
    split at hnext
    · contradiction
    next first others hfirst =>
      obtain ⟨rfl, rfl, rfl⟩ := by simpa using hnext
      rw [htake hfirst] at hkeeps
      refine ⟨hkeeps.1, hkeeps.2, fun hheaped => ⟨nextRound_heaped hheaped now, ?_⟩⟩
      rcases nextRound_le hheaped now with hsame | ⟨hupcoming, hle⟩
      · exact .inl hsame
      · refine .inr ⟨?_, hle⟩
        rw [soon, hpresent, hupcoming]
        rfl
  · simp only [hempty, Bool.false_eq_true, ↓reduceIte] at hnext
    split at hnext
    · contradiction
    next first others hfirst =>
      obtain ⟨rfl, rfl, rfl⟩ := by simpa using hnext
      exact ⟨fun u hu => htake hfirst ▸ hu, fun x hx _ => .inl hx,
        fun hheaped => ⟨hheaped, .inl rfl⟩⟩

end Schedule

theorem Scene.next?_keeps {s rest : Scene} {turn : Turn} (hnext : s.next? = some (turn, rest)) :
    (∀ u ∈ s.schedule.soon, u ∈ turn :: rest.schedule.soon) ∧
    (∀ x ∈ s.schedule.timers.heap.toList, x.void = false →
      x ∈ rest.schedule.timers.heap.toList ∨ x.purpose ∈ turn :: rest.schedule.soon) ∧
    (s.schedule.timers.heap.Heaped → rest.schedule.timers.heap.Heaped ∧
      (rest.now = s.now ∨ s.schedule.soon = [] ∧
        ∀ x ∈ s.schedule.timers.heap.toList, x.void = false → rest.now.le x.due = true)) := by
  unfold next? at hnext
  rw [Option.map_eq_some_iff] at hnext
  obtain ⟨⟨turn', now, schedule⟩, hnext, heq⟩ := hnext
  obtain ⟨rfl, rfl⟩ := Prod.mk.inj heq
  exact Schedule.next?_keeps hnext

end SupplyGauge
