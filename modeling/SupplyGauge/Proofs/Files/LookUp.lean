import SupplyGauge.Files.Tree

/-! # Why look-ups fail

Looking a path up makes nothing and opens nothing, so it fails for few causes only: most of them
say that nothing is there, and the one that does not is a name that is too long.
-/

namespace SupplyGauge.Files.Tree


/-- Whether a look-up fails for a cause, or comes to a name that is barred for it. -/
def Refuses (found : Except Cause Target) (cause : Cause) : Prop :=
  found = .error cause ∨ found = .ok (.barred cause)

/-- Causes for which a look-up can fail. It makes nothing and opens nothing. -/
def lookUpCauses : List Cause := [.notFound, .notDirectory, .nameTooLong, .tooManyLinks]

theorem along_refuses {t : Tree} {follow : Bool}
    {jump : Location → List String → Except Cause Target}
    (hjump : ∀ dir names cause, Refuses (jump dir names) cause → cause ∈ lookUpCauses)
    {cause : Cause} {dir : Location} {names : List String}
    (h : Refuses (t.along follow jump dir names) cause) : cause ∈ lookUpCauses := by
  induction names generalizing dir with
  | nil => simp [Refuses, along] at h
  | cons name rest ih =>
      have hentry (l : Location) (n : Node) : ¬ Refuses (.ok (.entry l n)) cause := by
        simp [Refuses]
      have hfree (l : Location) : ¬ Refuses (.ok (.free l)) cause := by simp [Refuses]
      have herror {other : Cause} (h : Refuses (.error other) cause) : cause = other := by
        simpa [Refuses, eq_comm] using h
      have hbarred {other : Cause} (h : Refuses (.ok (.barred other)) cause) : cause = other := by
        simpa [Refuses, eq_comm] using h
      unfold along at h
      split at h
      next => exact ih h
      split at h
      next => exact ih h
      split at h
      next => simp [herror h, lookUpCauses]
      -- what the entry of the name is
      dsimp only at h
      split at h
      next =>
        split at h
        next => exact (hfree _ h).elim
        split at h
        next => simp [hbarred h, lookUpCauses]
        next => simp [herror h, lookUpCauses]
      next => exact ih h
      next =>
        split at h
        next => exact (hentry _ _ h).elim
        split at h
        next => simp [hbarred h, lookUpCauses]
        next => simp [herror h, lookUpCauses]
      next =>
        split at h
        next => exact (hentry _ _ h).elim
        next => exact hjump _ _ _ h

theorem walk_refuses {t : Tree} {follow : Bool} {links : Nat} {cause : Cause} {dir : Location}
    {names : List String} (h : Refuses (t.walk follow links dir names) cause) :
    cause ∈ lookUpCauses := by
  induction links generalizing dir names cause with
  | zero =>
      refine along_refuses (fun dir names cause h => ?_) h
      simp [Refuses] at h
      simp [← h, lookUpCauses]
  | succ links ih => exact along_refuses (fun _ _ _ h => ih h) h

/-- Where a look-up of a path fails, nothing is there or a name is too long. -/
theorem status_error_cases {t : Tree} {path : String} {f : Failure} (h : t.status path = .error f) :
    Failure.isAbsence f = true ∨ f = .system .nameTooLong path := by
  have hlookUp {cause : Cause} (hcause : cause ∈ lookUpCauses) :
      Failure.isAbsence (.system cause path) = true ∨
        Failure.system cause path = .system .nameTooLong path := by
    simp only [lookUpCauses, List.mem_cons, List.not_mem_nil, or_false] at hcause
    rcases hcause with rfl | rfl | rfl | rfl <;> simp [Failure.isAbsence]
  have hlook {cause : Cause} (hcause : Refuses (t.look true path) cause) :
      cause ∈ lookUpCauses := by
    unfold look at hcause
    split at hcause
    next =>
      simp [Refuses] at hcause
      simp [← hcause, lookUpCauses]
    next => exact walk_refuses hcause
  unfold status at h
  split at h
  next =>
    obtain rfl := Except.error.inj h
    exact .inl rfl
  next =>
    split at h
    next => contradiction
    next =>
      obtain rfl := Except.error.inj h
      exact .inl rfl
    next cause hfound =>
      obtain rfl := Except.error.inj h
      exact hlookUp (hlook (.inr hfound))
    next cause hfound =>
      obtain rfl := Except.error.inj h
      exact hlookUp (hlook (.inl hfound))

end SupplyGauge.Files.Tree
