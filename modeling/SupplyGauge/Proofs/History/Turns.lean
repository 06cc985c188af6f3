import Mathlib.Data.List.Perm.Subperm
import SupplyGauge.History.Scene

/-! # A schedule gives out only what was put in

The heap operations move timers and never copy them. Hence every turn that a
schedule gives out is one of the turns that were given to it or that a timer of
its own stands for, and the turns left over are the others.
-/

namespace SupplyGauge

variable {α : Type}

namespace TimerHeap

theorem swap_perm (h : TimerHeap α) (i j : Nat) : (h.swapIfInBounds i j).toList.Perm h.toList := by
  rw [Array.swapIfInBounds_def]
  split
  · split
    · exact (Array.swap_perm _ _).toList
    · exact List.Perm.refl _
  · exact List.Perm.refl _

theorem rise_perm (h : TimerHeap α) (top place : Nat) :
    (rise h top place).toList.Perm h.toList := by
  induction place using Nat.strongRecOn generalizing h with
  | ind place ih =>
      rw [rise]
      split
      · exact List.Perm.refl _
      next hplace =>
        dsimp only
        split
        · exact (ih _ (by omega) _).trans (swap_perm _ _ _)
        · exact List.Perm.refl _

theorem sink_perm (fuel : Nat) (h : TimerHeap α) (place : Nat) :
    (sink fuel h place).1.toList.Perm h.toList := by
  induction fuel generalizing h place with
  | zero => exact List.Perm.refl _
  | succ fuel ih =>
      simp only [sink]
      split
      · exact (ih _ _).trans (swap_perm _ _ _)
      · exact List.Perm.refl _

theorem settle_perm (h : TimerHeap α) (top : Nat) : (settle h top).toList.Perm h.toList :=
  (rise_perm _ _ _).trans (sink_perm _ _ _)

theorem insert_perm (h : TimerHeap α) (t : Timer α) : (insert h t).toList.Perm (t :: h.toList) := by
  refine (rise_perm _ _ _).trans ?_
  rw [Array.toList_push]
  exact List.perm_append_singleton t h.toList

theorem ofArray_perm (timers : Array (Timer α)) : (ofArray timers).toList.Perm timers.toList := by
  unfold ofArray
  generalize (List.range (timers.size / 2)).reverse = places
  induction places generalizing timers with
  | nil => exact List.Perm.refl _
  | cons place rest ih => exact (ih _).trans (settle_perm timers place)

/-- Putting the last timer in the first place and shortening the heap removes the first timer. -/
theorem replaceFirst_perm (first : Timer α) (rest : List (Timer α)) (hrest : rest ≠ []) :
    (first :: (((first :: rest).set 0 (rest.getLast hrest)).dropLast)).Perm (first :: rest) := by
  rw [List.set_cons_zero, List.dropLast_cons_of_ne_nil hrest]
  refine List.Perm.cons first ?_
  conv_rhs => rw [← List.dropLast_append_getLast hrest]
  exact (List.perm_append_singleton _ _).symm

theorem removeFirst_perm (h : TimerHeap α) (first : Timer α) (hfirst : h[0]? = some first) :
    (first :: (removeFirst h).toList).Perm h.toList := by
  obtain ⟨timers⟩ := h
  cases timers with
  | nil => simp at hfirst
  | cons head rest =>
      have hhead : head = first := by simpa using hfirst
      subst hhead
      by_cases hrest : rest = []
      · subst hrest
        exact List.Perm.refl _
      · have hsize : ¬ (rest.length + 1 ≤ 1) := by
          have := List.length_pos_of_ne_nil hrest
          omega
        have hback : (Array.mk (head :: rest)).back? = some (rest.getLast hrest) := by
          simp [List.getLast?_cons, List.getLast?_eq_some_getLast hrest]
        simp only [removeFirst, hback, List.size_toArray, List.length_cons, if_neg hsize]
        refine ((settle_perm _ _).cons head).trans ?_
        simpa using replaceFirst_perm head rest hrest

theorem takeBefore_perm (limit : Instant) (fuel : Nat) (h : TimerHeap α) :
    ((takeBefore limit fuel h).1 ++ (takeBefore limit fuel h).2.toList).Perm h.toList := by
  induction fuel generalizing h with
  | zero => exact List.Perm.refl _
  | succ fuel ih =>
      simp only [takeBefore]
      split
      next first hfirst =>
        split
        · exact List.Perm.refl _
        · exact ((ih _).cons first).trans (removeFirst_perm h first hfirst)
      next => exact List.Perm.refl _

theorem dropVoid_subperm (fuel : Nat) (h : TimerHeap α) :
    (dropVoid fuel h).2.toList.Subperm h.toList := by
  induction fuel generalizing h with
  | zero => exact List.Subperm.refl _
  | succ fuel ih =>
      simp only [dropVoid]
      split
      next first hfirst =>
        split
        · exact ((ih _).trans List.Subperm.cons_self).trans
            (removeFirst_perm h first hfirst).subperm
        · exact List.Subperm.refl _
      next => exact List.Subperm.refl _

end TimerHeap

namespace Timers

/-- What the timers are for, the void ones included. -/
def purposes (t : Timers α) : List α := t.heap.toList.map (·.purpose)

theorem set_purposes_perm (t : Timers α) (due : Instant) (purpose : α) :
    (t.set due purpose).2.purposes.Perm (purpose :: t.purposes) :=
  (TimerHeap.insert_perm t.heap _).map _

@[simp] theorem callOff_purposes (t : Timers α) (number : Nat) :
    (t.callOff number).purposes = t.purposes := by
  unfold callOff
  split
  next place _ =>
    simp only [purposes, Array.toList_modify]
    apply List.ext_getElem
    · simp
    · intro i hi hj
      simp only [List.getElem_map, List.getElem_modify]
      split <;> rfl
  next => rfl

theorem clear_heap_subperm (t : Timers α) : t.clear.heap.toList.Subperm t.heap.toList := by
  unfold clear
  split
  · refine (TimerHeap.ofArray_perm _).subperm.trans ?_
    rw [Array.toList_filter]
    exact List.filter_sublist.subperm
  · exact TimerHeap.dropVoid_subperm _ _

theorem clear_purposes_subperm (t : Timers α) : t.clear.purposes.Subperm t.purposes := by
  obtain ⟨kept, hperm, hsub⟩ := t.clear_heap_subperm
  exact ⟨kept.map (·.purpose), hperm.map _, hsub.map _⟩

theorem takeBefore_purposes_perm (t : Timers α) (limit : Instant) :
    ((t.takeBefore limit).1.map (·.purpose) ++ (t.takeBefore limit).2.purposes).Perm
      t.purposes := by
  rw [purposes, ← List.map_append]
  exact (TimerHeap.takeBefore_perm limit _ t.heap).map _

end Timers

namespace Schedule

/-- All turns that are still to come, the purposes of timers included. -/
def turns (s : Schedule α) : List α := s.present ++ s.upcoming ++ s.timers.purposes

theorem give_turns_perm (s : Schedule α) (turn : α) :
    (s.give turn).turns.Perm (turn :: s.turns) := by
  simp only [turns, give, List.append_assoc, List.cons_append]
  exact List.perm_middle

theorem setTimer_turns_perm (s : Schedule α) (due : Instant) (turn : α) :
    (s.setTimer due turn).2.turns.Perm (turn :: s.turns) := by
  simp only [turns, setTimer]
  exact ((s.timers.set_purposes_perm due turn).append_left _).trans List.perm_middle

@[simp] theorem callOff_turns (s : Schedule α) (number : Nat) :
    (s.callOff number).turns = s.turns := by
  simp [turns, callOff]

/-- A round consists of turns that were to come; the others still are. -/
theorem nextRound_turns_subperm (s : Schedule α) (now : Instant) (hpresent : s.present = []) :
    (s.nextRound now).2.turns.Subperm s.turns := by
  simp only [nextRound, turns, hpresent, List.nil_append, List.append_nil]
  -- nothing below depends on which moment that is
  generalize nextMoment _ now = moment
  have hround := (s.timers.clear.takeBefore_purposes_perm (moment.add resolution)).subperm.trans
    s.timers.clear_purposes_subperm
  have hdue := ((List.filter_sublist (p := fun t : Timer α => !t.void)
    (l := (s.timers.clear.takeBefore (moment.add resolution)).1)).map (·.purpose)).subperm
  rw [List.append_assoc]
  exact (s.upcoming.reverse_perm.subperm.append
    ((hdue.append (List.Subperm.refl _)).trans hround))

/-- The turn that comes next was to come, and what is to come after it was so before. -/
theorem next?_turns_subperm {s rest : Schedule α} {now later : Instant} {turn : α}
    (hnext : s.next? now = some (turn, later, rest)) :
    (turn :: rest.turns).Subperm s.turns := by
  have htake (s : Schedule α) (first : α) (others : List α) (hs : s.present = first :: others) :
      s.turns = first :: ({ s with present := others } : Schedule α).turns := by
    simp [turns, hs]
  unfold next? at hnext
  by_cases hempty : s.present.isEmpty
  · simp only [hempty, ↓reduceIte] at hnext
    have hround := s.nextRound_turns_subperm now (List.isEmpty_iff.mp hempty)
    split at hnext
    · contradiction
    next first others hs =>
      obtain ⟨rfl, rfl, rfl⟩ := by simpa using hnext
      exact (htake _ _ _ hs).symm ▸ hround
  · simp only [hempty, Bool.false_eq_true, ↓reduceIte] at hnext
    split at hnext
    · contradiction
    next first others hs =>
      obtain ⟨rfl, rfl, rfl⟩ := by simpa using hnext
      rw [htake _ _ _ hs]

end Schedule

/-- The turn that comes next was to come, and nothing happens by its coming. -/
theorem Scene.next?_turns_subperm {s rest : Scene} {turn : Turn} (h : s.next? = some (turn, rest)) :
    (turn :: rest.schedule.turns).Subperm s.schedule.turns ∧ rest.past = s.past := by
  unfold next? at h
  rw [Option.map_eq_some_iff] at h
  obtain ⟨⟨turn', now, schedule⟩, hnext, heq⟩ := h
  obtain ⟨rfl, rfl⟩ := Prod.mk.inj heq
  exact ⟨s.schedule.next?_turns_subperm hnext, rfl⟩

end SupplyGauge
