import SupplyGauge.Proofs.History.Turns
import SupplyGauge.Proofs.Number.Order

/-! # The first timer of a heap

No timer of a heap is due before the one above it, provided that every timer has a moment at which
it is due. A timer that rises or sinks breaks this order only where it stands, and what it passes
is in order around it. So the first timer of a heap is due no later than any other.
-/

namespace SupplyGauge

namespace TimerHeap

open Binary64

variable {α : Type} {h h' : TimerHeap α} {top place : Nat}

/-- Whether every timer has a moment at which it is due. -/
def Dated (h : TimerHeap α) : Prop := ∀ t ∈ h.toList, t.due ≠ .nan

theorem Dated.of_subset (hdated : h.Dated) (hsubset : h'.toList ⊆ h.toList) : h'.Dated :=
  fun t ht => hdated t (hsubset ht)

/-- The place of a timer among all places of the heap, as the place of its moment in time. -/
def rankAt (h : TimerHeap α) (i : Nat) : Int := ((h[i]?).map (·.due.rank)).getD 0

theorem rankAt_eq {i : Nat} (hi : i < h.size) : h.rankAt i = h[i].due.rank := by
  simp [rankAt, hi]

theorem precedes_iff (hdated : h.Dated) {i j : Nat} (hi : i < h.size) (hj : j < h.size) :
    precedes h i j = true ↔ h.rankAt i < h.rankAt j := by
  rw [rankAt_eq hi, rankAt_eq hj, precedes, Array.getElem?_eq_getElem hi,
    Array.getElem?_eq_getElem hj]
  exact lt_iff_rank (hdated _ (Array.getElem_mem_toList hi))
    (hdated _ (Array.getElem_mem_toList hj))

theorem rankAt_swap {i j : Nat} (hi : i < h.size) (hj : j < h.size) (k : Nat) :
    rankAt (h.swapIfInBounds i j) k =
      if k = i then h.rankAt j else if k = j then h.rankAt i else h.rankAt k := by
  rw [Array.swapIfInBounds_def, dif_pos hi, dif_pos hj]
  simp only [rankAt, Array.getElem?_swap, Array.getElem?_eq_getElem hi,
    Array.getElem?_eq_getElem hj]
  by_cases hkj : j = k
  · subst hkj
    by_cases hji : j = i
    · subst hji
      simp
    · simp [hji]
  · by_cases hki : i = k
    · subst hki
      simp [hkj]
    · simp [hki, hkj, Ne.symm hki, Ne.symm hkj]

/-! ## Order -/

/-- Whether no timer is due before the one above it, as far as that stands at `top` or after it. -/
def OrderedFrom (top : Nat) (h : TimerHeap α) : Prop :=
  ∀ i, 0 < i → i < h.size → top ≤ (i - 1) / 2 → h.rankAt ((i - 1) / 2) ≤ h.rankAt i

/-- Whether a place is `top` or one of those below it. -/
inductive Under (top : Nat) : Nat → Prop
  | self : Under top top
  | next {place : Nat} : 0 < place → Under top ((place - 1) / 2) → Under top place

theorem Under.le (hunder : Under top place) : top ≤ place := by
  induction hunder with
  | self => exact Nat.le_refl top
  | next => omega

theorem Under.above (hunder : Under top place) (hplace : top < place) :
    Under top ((place - 1) / 2) := by
  cases hunder with
  | self => omega
  | next _ habove => exact habove

theorem under_zero (place : Nat) : Under 0 place := by
  induction place using Nat.strongRecOn with
  | ind place ih =>
      by_cases hzero : place = 0
      · exact hzero ▸ .self
      · exact .next (Nat.pos_of_ne_zero hzero) (ih _ (by omega))

/-- In a heap that is all in order the first timer is due no later than that at any place. -/
theorem OrderedFrom.first_le (hordered : OrderedFrom 0 h) {i : Nat} (hi : i < h.size) :
    h.rankAt 0 ≤ h.rankAt i := by
  induction i using Nat.strongRecOn with
  | ind i ih =>
      by_cases hzero : i = 0
      · exact Int.le_of_eq (by rw [hzero])
      · have habove := ih ((i - 1) / 2) (by omega) (by omega)
        exact Int.le_trans habove (hordered i (Nat.pos_of_ne_zero hzero) hi (Nat.zero_le _))

/-- Whether the timer at a place may only be due before those above it. -/
structure Rising (top place : Nat) (h : TimerHeap α) : Prop where
  dated : h.Dated
  under : Under top place
  bounded : place < h.size
  others : ∀ i, 0 < i → i < h.size → top ≤ (i - 1) / 2 → i ≠ place →
    h.rankAt ((i - 1) / 2) ≤ h.rankAt i
  around : top < place → ∀ i, 0 < i → i < h.size → (i - 1) / 2 = place →
    h.rankAt ((place - 1) / 2) ≤ h.rankAt i

/-- Whether only the timer at a place may be out of order. -/
structure Sinking (top place : Nat) (h : TimerHeap α) : Prop where
  dated : h.Dated
  under : Under top place
  bounded : place < h.size
  others : ∀ i, 0 < i → i < h.size → top ≤ (i - 1) / 2 → i ≠ place → (i - 1) / 2 ≠ place →
    h.rankAt ((i - 1) / 2) ≤ h.rankAt i
  around : top < place → ∀ i, 0 < i → i < h.size → (i - 1) / 2 = place →
    h.rankAt ((place - 1) / 2) ≤ h.rankAt i

theorem Dated.swap (hdated : h.Dated) (i j : Nat) :
    Dated (α := α) (h.swapIfInBounds i j) :=
  hdated.of_subset (swap_perm h i j).subset

/-- A timer that is due before the one above it changes places with that one. -/
theorem Rising.step (hrising : Rising top place h) (hplace : top < place)
    (hbefore : h.rankAt place < h.rankAt ((place - 1) / 2)) :
    Rising top ((place - 1) / 2) (h.swapIfInBounds place ((place - 1) / 2)) := by
  have hunder := hrising.under.above hplace
  have htop := hunder.le
  have hbounded := hrising.bounded
  have habove : (place - 1) / 2 < h.size := by omega
  have hrank := rankAt_swap hrising.bounded habove
  have hsize : (h.swapIfInBounds place ((place - 1) / 2)).size = h.size :=
    Array.size_swapIfInBounds
  refine ⟨hrising.dated.swap _ _, hunder, hsize ▸ habove, fun i hpos hi hle hne => ?_,
    fun hlt i hpos hi hbelow => ?_⟩
  · rw [hsize] at hi
    rw [hrank, hrank]
    by_cases hself : i = place
    · subst hself
      rw [if_neg (by omega), if_pos rfl, if_pos rfl]
      exact Int.le_of_lt hbefore
    · rw [if_neg hself, if_neg hne]
      by_cases hchild : (i - 1) / 2 = place
      · rw [if_pos hchild]
        exact hrising.around hplace i hpos hi hchild
      · rw [if_neg hchild]
        have hsame := hrising.others i hpos hi hle hself
        split
        next hsibling =>
          rw [hsibling] at hsame
          exact Int.le_trans (Int.le_of_lt hbefore) hsame
        next => exact hsame
  · rw [hsize] at hi
    have hhigher := hrising.others ((place - 1) / 2) (by omega) habove
      (hunder.above hlt).le (by omega)
    rw [hrank, hrank, if_neg (by omega), if_neg (by omega)]
    split
    next => exact hhigher
    next hself =>
      rw [if_neg (by omega)]
      refine Int.le_trans hhigher ?_
      have hsibling := hrising.others i hpos hi (by omega) hself
      rwa [hbelow] at hsibling

/-- Where the timer that rises is due no earlier than the one above it, all are in order. -/
theorem Rising.stop (hrising : Rising top place h)
    (hstop : top < place → h.rankAt ((place - 1) / 2) ≤ h.rankAt place) : OrderedFrom top h := by
  intro i hpos hi hle
  by_cases hself : i = place
  · subst hself
    exact hstop (by omega)
  · exact hrising.others i hpos hi hle hself

theorem Rising.rise (hrising : Rising top place h) : OrderedFrom top (rise h top place) := by
  induction place using Nat.strongRecOn generalizing h with
  | ind place ih =>
      rw [TimerHeap.rise]
      split
      next hplace => exact hrising.stop fun hlt => absurd hlt (Nat.not_lt.mpr hplace)
      next hplace =>
        have hbounded := hrising.bounded
        have hprecedes := precedes_iff hrising.dated hbounded
          (show (place - 1) / 2 < h.size by omega)
        dsimp only
        split
        next hbefore =>
          exact ih _ (by omega) (hrising.step (by omega) (hprecedes.mp hbefore))
        next hnot =>
          exact hrising.stop fun _ => Int.not_lt.mp fun hlt => hnot (hprecedes.mpr hlt)

/-- The one that is due first of those below a timer changes places with it. -/
theorem Sinking.step {below : Nat} (hsinking : Sinking top place h) (hpos : 0 < below)
    (hbelow : below < h.size) (habove : (below - 1) / 2 = place)
    (hfirst : ∀ i, 0 < i → i < h.size → (i - 1) / 2 = place → h.rankAt below ≤ h.rankAt i) :
    Sinking top below (h.swapIfInBounds place below) := by
  have hunder := hsinking.under.le
  have hrank := rankAt_swap hsinking.bounded hbelow
  have hsize : (h.swapIfInBounds place below).size = h.size := Array.size_swapIfInBounds
  refine ⟨hsinking.dated.swap _ _, .next hpos (habove ▸ hsinking.under), hsize ▸ hbelow,
    fun i hpos' hi hle hne hnot => ?_, fun hlt i hpos' hi hchild => ?_⟩
  · rw [hsize] at hi
    rw [hrank, hrank, if_neg hnot]
    by_cases hself : i = place
    · subst hself
      rw [if_neg (by omega), if_pos rfl]
      exact hsinking.around (by omega) below hpos hbelow habove
    · rw [if_neg hself, if_neg hne]
      split
      next hsibling => exact hfirst i hpos' hi hsibling
      next hother => exact hsinking.others i hpos' hi hle hself hother
  · rw [hsize] at hi
    rw [hrank, hrank, habove, if_pos rfl, if_neg (by omega), if_neg (by omega)]
    have hsame := hsinking.others i hpos' hi (by omega) (by omega) (by omega)
    rwa [hchild] at hsame

/-- A timer with none below it may only be due before those above it. -/
theorem Sinking.stop (hsinking : Sinking top place h) (hleaf : h.size ≤ 2 * place + 1) :
    Rising top place h :=
  ⟨hsinking.dated, hsinking.under, hsinking.bounded,
    fun i hpos hi hle hne => hsinking.others i hpos hi hle hne (by omega), hsinking.around⟩

/-- Of the timers below a place, the right one is the first unless the left one is due before it. -/
theorem firstBelow (hdated : h.Dated) (hleft : 2 * place + 1 < h.size) :
    ∃ below, (if 2 * place + 1 + 1 < h.size && !precedes h (2 * place + 1) (2 * place + 1 + 1)
        then 2 * place + 1 + 1 else 2 * place + 1) = below ∧
      0 < below ∧ below < h.size ∧ (below - 1) / 2 = place ∧
      ∀ i, 0 < i → i < h.size → (i - 1) / 2 = place → h.rankAt below ≤ h.rankAt i := by
  have hchild {i : Nat} (hpos : 0 < i) (hi : (i - 1) / 2 = place) :
      i = 2 * place + 1 ∨ i = 2 * place + 1 + 1 := by omega
  by_cases hright : 2 * place + 1 + 1 < h.size
  · have hprecedes := precedes_iff hdated hleft hright
    rw [decide_eq_true hright, Bool.true_and]
    cases hbefore : precedes h (2 * place + 1) (2 * place + 1 + 1) with
    | false =>
        refine ⟨_, if_pos rfl, by omega, hright, by omega, fun i hpos hi hplace => ?_⟩
        have hnot := mt hprecedes.mpr (Bool.eq_false_iff.mp hbefore)
        rcases hchild hpos hplace with rfl | rfl
        · exact Int.not_lt.mp hnot
        · exact Int.le_refl _
    | true =>
        refine ⟨_, if_neg Bool.false_ne_true, by omega, hleft, by omega,
          fun i hpos hi hplace => ?_⟩
        rcases hchild hpos hplace with rfl | rfl
        · exact Int.le_refl _
        · exact Int.le_of_lt (hprecedes.mp hbefore)
  · rw [decide_eq_false hright, Bool.false_and]
    refine ⟨_, if_neg Bool.false_ne_true, by omega, hleft, by omega, fun i hpos hi hplace => ?_⟩
    rcases hchild hpos hplace with rfl | rfl
    · exact Int.le_refl _
    · exact absurd hi hright

theorem Sinking.sink {fuel : Nat} (hsinking : Sinking top place h)
    (hfuel : h.size ≤ place + fuel) :
    Rising top (sink fuel h place).2 (sink fuel h place).1 := by
  induction fuel generalizing h place with
  | zero => exact absurd hsinking.bounded (Nat.not_lt.mpr hfuel)
  | succ fuel ih =>
      simp only [TimerHeap.sink]
      split
      next hleft =>
        obtain ⟨below, hbelow, hpos, hlt, habove, hfirst⟩ := firstBelow hsinking.dated hleft
        rw [hbelow]
        refine ih (hsinking.step hpos hlt habove hfirst) ?_
        rw [Array.size_swapIfInBounds]
        omega
      next hleaf => exact hsinking.stop (Nat.le_of_not_lt hleaf)

/-- A timer comes to where it belongs among those below it. -/
theorem settle_ordered (hdated : h.Dated) (htop : top < h.size)
    (hbelow : OrderedFrom (top + 1) h) : OrderedFrom top (settle h top) := by
  have hsinking : Sinking top top h :=
    ⟨hdated, .self, htop, fun i hpos hi hle _ hnot => hbelow i hpos hi (by omega),
      fun hlt => absurd hlt (Nat.lt_irrefl top)⟩
  exact (hsinking.sink (Nat.le_add_left _ _)).rise

/-! ## Heaps -/

/-- Whether every timer has a moment at which it is due, and none is due before the one above it. -/
structure Heaped (h : TimerHeap α) : Prop where
  dated : h.Dated
  ordered : OrderedFrom 0 h

theorem heaped_empty : Heaped (α := α) #[] :=
  ⟨fun _ ht => absurd ht List.not_mem_nil, fun i _ hi => absurd hi (Nat.not_lt_zero i)⟩

/-- The first timer is due no later than any other. -/
theorem Heaped.first_le (hheaped : h.Heaped) {first t : Timer α} (hfirst : h[0]? = some first)
    (ht : t ∈ h.toList) : first.due.le t.due = true := by
  obtain ⟨hpos, rfl⟩ := Array.getElem?_eq_some_iff.mp hfirst
  obtain ⟨i, hi, rfl⟩ := List.getElem_of_mem ht
  rw [Array.length_toList] at hi
  have hle := hheaped.ordered.first_le hi
  rw [rankAt_eq hpos, rankAt_eq hi] at hle
  exact (le_iff_rank (hheaped.dated _ (Array.getElem_mem_toList hpos)) (hheaped.dated _ ht)).mpr hle

theorem Heaped.insert (hheaped : h.Heaped) {t : Timer α} (ht : t.due ≠ .nan) :
    Heaped (insert h t) := by
  have hsize : (h.push t).size = h.size + 1 := Array.size_push t
  have hdated : Dated (h.push t) := by
    intro x hx
    rw [Array.toList_push] at hx
    rcases List.mem_append.mp hx with hold | hnew
    · exact hheaped.dated x hold
    · exact List.mem_singleton.mp hnew ▸ ht
  have hsame {i : Nat} (hi : i < h.size) : rankAt (h.push t) i = h.rankAt i := by
    rw [rankAt, rankAt, Array.getElem?_push_lt hi, Array.getElem?_eq_getElem hi]
  have hrising : Rising 0 h.size (h.push t) := by
    refine ⟨hdated, under_zero _, by omega, fun i hpos hi hle hne => ?_,
      fun _ i hpos hi hbelow => ?_⟩
    · rw [hsame (by omega), hsame (by omega)]
      exact hheaped.ordered i hpos (by omega) hle
    · omega
  exact ⟨hdated.of_subset (rise_perm _ _ _).subset, hrising.rise⟩

theorem Heaped.removeFirst (hheaped : h.Heaped) : Heaped (removeFirst h) := by
  unfold TimerHeap.removeFirst
  split
  next last hlast =>
    split
    next => exact heaped_empty
    next hsize =>
      have hdated : Dated ((h.setIfInBounds 0 last).pop) := by
        intro t ht
        rw [Array.toList_pop, Array.toList_setIfInBounds] at ht
        rcases List.mem_or_eq_of_mem_set (List.dropLast_subset _ ht) with hold | rfl
        · exact hheaped.dated t hold
        · exact hheaped.dated _ (Array.mem_toList_iff.mpr (Array.mem_of_back? hlast))
      have hshorter : ((h.setIfInBounds 0 last).pop).size = h.size - 1 := by
        rw [Array.size_pop, Array.size_setIfInBounds]
      have hsame {i : Nat} (hpos : 0 < i) (hi : i < h.size - 1) :
          rankAt ((h.setIfInBounds 0 last).pop) i = h.rankAt i := by
        simp only [rankAt, Array.getElem?_pop, Array.size_setIfInBounds, if_pos hi]
        rw [Array.getElem?_setIfInBounds_ne (Nat.ne_of_lt hpos)]
      refine ⟨hdated.of_subset (settle_perm _ _).subset, settle_ordered hdated (by omega) ?_⟩
      intro i hpos hi hle
      rw [hshorter] at hi
      rw [hsame (by omega) (by omega), hsame hpos hi]
      exact hheaped.ordered i hpos (by omega) (Nat.zero_le _)
  next => exact hheaped

/-- Place after place, from the last one down, timers come to where they belong. -/
theorem settleAll_ordered {places : Nat} (hdated : h.Dated) (hplaces : places ≤ h.size)
    (hordered : OrderedFrom places h) :
    OrderedFrom 0 ((List.range places).reverse.foldl settle h) := by
  induction places generalizing h with
  | zero => exact hordered
  | succ places ih =>
      rw [List.range_succ, List.reverse_append]
      have hperm := settle_perm h places
      refine ih (hdated.of_subset hperm.subset) ?_ (settle_ordered hdated hplaces hordered)
      have hlength := hperm.length_eq
      rw [Array.length_toList, Array.length_toList] at hlength
      omega

theorem ofArray_heaped (hdated : h.Dated) : Heaped (ofArray h) := by
  refine ⟨hdated.of_subset (ofArray_perm h).subset, ?_⟩
  refine settleAll_ordered hdated (by omega) fun i hpos hi hle => ?_
  omega

theorem Heaped.takeBefore (hheaped : h.Heaped) (limit : Instant) (fuel : Nat) :
    Heaped (takeBefore limit fuel h).2 := by
  induction fuel generalizing h with
  | zero => exact hheaped
  | succ fuel ih =>
      simp only [TimerHeap.takeBefore]
      split
      · split
        · exact hheaped
        · exact ih hheaped.removeFirst
      · exact hheaped

theorem Heaped.dropVoid (hheaped : h.Heaped) (fuel : Nat) : Heaped (dropVoid fuel h).2 := by
  induction fuel generalizing h with
  | zero => exact hheaped
  | succ fuel ih =>
      simp only [TimerHeap.dropVoid]
      split
      · split
        · exact ih hheaped.removeFirst
        · exact hheaped
      · exact hheaped

end TimerHeap

end SupplyGauge
