import SupplyGauge.Proofs.Files.LookUp
import SupplyGauge.Proofs.Files.Trail

/-! # Paths that are too long

A test on the entry of a path always ends, whatever kind of entry is there and wherever
its links lead, with one exception: the path, or a name that is met on its trail, is longer
than the system takes.
-/

namespace SupplyGauge.Files.Tree

variable {t : Tree}

/-- A location whose last name is too long for an entry. -/
def EndsTooLong (l : Location) : Prop := ∃ name ∈ l.getLast?, tooLong name = true

/-- A path that the system takes for one, but finds too long: as a whole, or in a name on its
trail. -/
structure Overlong (t : Tree) (path : String) : Prop where
  clean : hasNul path = false
  exceeds : pathLimit < path.utf8ByteSize ∨ ∃ l ∈ t.trail path, EndsTooLong l

theorem endsTooLong_concat {dir : Location} {name : String} :
    EndsTooLong (dir ++ [name]) ↔ tooLong name = true := by
  simp [EndsTooLong]

theorem refuses_error_iff {cause cause' : Cause} :
    Refuses (.error cause) cause' ↔ cause = cause' := by
  simp [Refuses]

theorem refuses_barred_iff {cause cause' : Cause} :
    Refuses (.ok (.barred cause)) cause' ↔ cause = cause' := by
  simp [Refuses]

theorem not_refuses_entry {l : Location} {n : Node} {cause : Cause} :
    ¬ Refuses (.ok (.entry l n)) cause := by
  simp [Refuses]

theorem not_refuses_free {l : Location} {cause : Cause} : ¬ Refuses (.ok (.free l)) cause := by
  simp [Refuses]

/-- Following names is refused for the length of a name exactly if a name on the trail is too
long. -/
theorem along_tooLong_iff {jump : Location → List String → Except Cause Target}
    {later : Location → List String → List Location}
    (hjump : ∀ dir names, Refuses (jump dir names) .nameTooLong ↔
      ∃ l ∈ later dir names, EndsTooLong l) (names : List String) (dir : Location) :
    Refuses (t.along true jump dir names) .nameTooLong ↔
      ∃ l ∈ t.alongTrail later dir names, EndsTooLong l := by
  induction names generalizing dir with
  | nil => simp [along, alongTrail, not_refuses_entry]
  | cons name rest ih =>
      rcases name_cases name with hstay | rfl | hname
      · rw [along_stay hstay, alongTrail_stay hstay]
        exact ih dir
      · rw [along_up, alongTrail_up]
        exact ih dir.dropLast
      · rw [along_named hname, alongTrail_named hname]
        simp only [List.mem_cons, exists_eq_or_imp, endsTooLong_concat]
        by_cases hlong : tooLong name = true
        · rw [if_pos hlong, refuses_error_iff]
          exact iff_of_true rfl (.inl hlong)
        · rw [if_neg hlong, or_iff_right hlong]
          rcases t.node? (dir ++ [name]) with _ | ⟨content | _ | target⟩
          · dsimp only
            split
            · simp [not_refuses_free]
            · split <;> simp [refuses_barred_iff, refuses_error_iff]
          · dsimp only
            split
            · simp [not_refuses_entry]
            · split <;> simp [refuses_barred_iff, refuses_error_iff]
          · exact ih _
          · exact hjump _ _

theorem walk_tooLong_iff (links : Nat) (dir : Location) (names : List String) :
    Refuses (t.walk true links dir names) .nameTooLong ↔
      ∃ l ∈ t.walkTrail links dir names, EndsTooLong l := by
  induction links generalizing dir names with
  | zero => exact along_tooLong_iff (fun _ _ => by simp [refuses_error_iff]) names dir
  | succ links ih => exact along_tooLong_iff ih names dir

/-! ## Statuses -/

theorem status_of_nul {path : String} (h : hasNul path = true) :
    t.status path = .error .embeddedNul := by
  rw [status, if_pos h]

theorem status_of_clean {path : String} (h : hasNul path = false) :
    t.status path ≠ .error .embeddedNul := by
  rw [status, h]
  simp only [Bool.false_eq_true, if_false]
  split <;> simp

/-- A path has no status for its length exactly if it is overlong. -/
theorem status_tooLong_iff {path : String} :
    t.status path = .error (.system .nameTooLong path) ↔ t.Overlong path := by
  have hlook (hclean : hasNul path = false) :
      t.status path = .error (.system .nameTooLong path) ↔
        Refuses (t.look true path) .nameTooLong := by
    rw [status, hclean]
    simp only [Bool.false_eq_true, if_false]
    split
    next => simp_all [not_refuses_entry]
    next => simp_all [not_refuses_free]
    next => simp_all [refuses_barred_iff]
    next => simp_all [refuses_error_iff]
  have hexceeds : Refuses (t.look true path) .nameTooLong ↔
      (pathLimit < path.utf8ByteSize ∨ ∃ l ∈ t.trail path, EndsTooLong l) := by
    unfold look
    by_cases hlong : pathLimit < path.utf8ByteSize
    · rw [if_pos hlong]
      exact iff_of_true (.inl rfl) (.inl hlong)
    · rw [if_neg hlong, or_iff_right hlong]
      exact walk_tooLong_iff _ _ _
  constructor
  · intro h
    have hclean : hasNul path = false := by
      refine Bool.eq_false_iff.mpr fun hnul => ?_
      rw [status_of_nul hnul] at h
      cases h
    exact ⟨hclean, hexceeds.mp ((hlook hclean).mp h)⟩
  · rintro ⟨hclean, h⟩
    exact (hlook hclean).mpr (hexceeds.mpr h)

/-- Whether a path leads to a directory cannot be told exactly if it is overlong. -/
theorem isDirectory_error_iff {path : Path} {f : Failure} :
    t.isDirectory path = .error f ↔
      f = .system .nameTooLong path.toString ∧ t.Overlong path.toString := by
  rw [← status_tooLong_iff]
  unfold isDirectory test
  cases hstatus : t.status path.toString with
  | ok found => simp
  | error f' =>
      rcases status_error_cases hstatus with habsent | rfl
      · have hother : f' ≠ .system .nameTooLong path.toString := by
          rintro rfl
          contradiction
        simp [habsent, hother]
      · simp [Failure.isAbsence, eq_comm]

theorem list_nul_iff {path : Path} :
    t.list path = .error .embeddedNul ↔ hasNul path.toString = true := by
  cases hnul : hasNul path.toString with
  | true => simp [list, status_of_nul hnul]
  | false =>
      have hclean := status_of_clean (t := t) hnul
      unfold list
      split <;> simp_all

theorem read_nul_iff {path : Path} :
    t.read path = .error .embeddedNul ↔ hasNul path.toString = true := by
  cases hnul : hasNul path.toString with
  | true => simp [read, status_of_nul hnul]
  | false =>
      have hclean := status_of_clean (t := t) hnul
      unfold read
      split <;> simp_all

end SupplyGauge.Files.Tree
