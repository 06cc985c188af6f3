import Mathlib.Data.List.DropRight
import SupplyGauge.Supply.Cycle

/-! # The fields of a result

A result is filled by calls: samples are added, or the cycle is marked as failed. What others see of
it are four fields, and each call sets some of them. Whatever the calls and their order, the
availability, the state and the error agree with each other. A failure drops the samples before it,
but not those that are added after it.
-/

namespace SupplyGauge.Supply.Result

open SupplyGauge.Metric (Sample)

/-- A call that changes a result. -/
inductive Call where
  | extend (samples : List Sample)
  | fail (error : String)

namespace Call

/-- The samples that a call adds. -/
def samples : Call → List Sample
  | extend samples => samples
  | fail _ => []

/-- The error that a call sets. -/
def error? : Call → Option String
  | extend _ => none
  | fail error => some error

end Call

def call (r : Result) : Call → Result
  | .extend samples => r.extend samples
  | .fail error => r.fail error

/-- A fresh result after calls. -/
def after (calls : List Call) : Result := calls.foldl call {}

/-- The calls after the last failure, or all calls if there is none. -/
def sinceFailure (calls : List Call) : List Call := calls.rtakeWhile (·.error?.isNone)

/-- The fields of a result as others see them. -/
structure View where
  samples : List Sample := []
  state : String := "online"
  available : Bool := true
  error : Option String := none

/-- The fields that a call sets: added samples change no other field, a failure changes all. -/
def View.call (v : View) : Call → View
  | .extend samples => { v with samples := v.samples ++ samples }
  | .fail error => { samples := [], state := "error", available := false, error := some error }

def view (r : Result) : View := ⟨r.samples, r.state, r.available, r.error⟩

/-! ## One call -/

theorem view_call (r : Result) (c : Call) : (r.call c).view = r.view.call c := by
  cases c <;> rfl

/-- Whether availability, state and error agree. -/
structure View.Consistent (v : View) : Prop where
  available_iff : v.available = true ↔ v.state = "online"
  state_iff : v.state = "online" ↔ v.error = none

theorem View.Consistent.call {v : View} (h : v.Consistent) (c : Call) : (v.call c).Consistent := by
  cases c with
  | extend samples => exact ⟨h.available_iff, h.state_iff⟩
  | fail error => exact ⟨by simp [View.call], by simp [View.call]⟩

theorem sinceFailure_concat (calls : List Call) (c : Call) : sinceFailure (calls ++ [c]) =
    if c.error?.isNone then sinceFailure calls ++ [c] else [] :=
  List.rtakeWhile_concat _ calls c

/-! ## All calls -/

theorem view_after (calls : List Call) : (after calls).view = calls.foldl View.call {} :=
  (List.foldl_hom view fun r c => (view_call r c).symm).symm

theorem consistent_foldl {v : View} (h : v.Consistent) (calls : List Call) :
    (calls.foldl View.call v).Consistent := by
  induction calls generalizing v with
  | nil => exact h
  | cons c calls ih => exact ih (h.call c)

theorem error_foldl (calls : List Call) :
    (calls.foldl View.call {}).error = (calls.filterMap Call.error?).getLast? := by
  induction calls using List.reverseRecOn with
  | nil => rfl
  | append_singleton calls c ih =>
      rw [List.foldl_concat, List.filterMap_append]
      cases c with
      | extend samples => simpa [View.call, Call.error?] using ih
      | fail error => simp [View.call, Call.error?]

/-- What is left are the samples that have been added since the last failure. -/
theorem samples_foldl (calls : List Call) :
    (calls.foldl View.call {}).samples = (sinceFailure calls).flatMap Call.samples := by
  induction calls using List.reverseRecOn with
  | nil => rfl
  | append_singleton calls c ih =>
      rw [List.foldl_concat, sinceFailure_concat]
      cases c with
      | extend samples => simp [View.call, Call.error?, Call.samples, ih]
      | fail error => rfl

/-- After any calls the fields of a result are what the calls set one after the other. The result is
available if and only if its state is online, and this if and only if it has no error; its error is
that of the last failure. Its samples are those added since then, so a failed result is without
samples if and only if none have been added since its failure. -/
theorem failed_empty_iff (calls : List Call) :
    let v := calls.foldl View.call {}
    (after calls).view = v ∧
      (v.available = true ↔ v.state = "online") ∧ (v.state = "online" ↔ v.error = none) ∧
      v.error = (calls.filterMap Call.error?).getLast? ∧
      v.samples = (sinceFailure calls).flatMap Call.samples ∧
      (v.available = false →
        (v.samples.length = 0 ↔ ∀ c ∈ sinceFailure calls, c.samples = [])) := by
  intro v
  have hconsistent : v.Consistent := consistent_foldl ⟨by simp, by simp⟩ calls
  have hsamples := samples_foldl calls
  refine ⟨view_after calls, hconsistent.available_iff, hconsistent.state_iff, error_foldl calls,
    hsamples, fun _ => ?_⟩
  rw [List.length_eq_zero_iff, hsamples, List.flatMap_eq_nil_iff]

example (s : Sample) :
    (after [.fail "gone", .extend [s]]).view = ⟨[s], "error", false, some "gone"⟩ := rfl

end SupplyGauge.Supply.Result
