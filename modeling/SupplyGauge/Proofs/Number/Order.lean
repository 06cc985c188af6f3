import SupplyGauge.Proofs.Number.Rounding
import SupplyGauge.Proofs.Number.Undefined

/-! # The order of doubles

Doubles that are numbers are in a total order, that of their numbers of quanta with the infinities
at both ends. Both zeros have the same place in it.
-/

namespace SupplyGauge.Binary64

/-- The place of a double among all of them. What is no number has none, and gets that of zero. -/
def rank : Binary64 → Int
  | .nan => 0
  | .infinite negative => if negative then -limit else limit
  | .finite negative m s _ => if negative then -(m * twoTo s : Nat) else (m * twoTo s : Nat)

variable {x y : Binary64}

theorem lt_iff_rank (hx : x ≠ .nan) (hy : y ≠ .nan) : x.lt y = true ↔ x.rank < y.rank := by
  have hpositive : 0 < limit := twoTo_pos 2098
  rcases x with _ | negx | ⟨negx, mx, sx, cx⟩
  · exact absurd rfl hx
  · rcases y with _ | negy | ⟨negy, my, sy, cy⟩
    · exact absurd rfl hy
    · simp only [lt, rank]
      generalize limit = l at hpositive
      cases negx <;> cases negy <;> simp
      omega
    · have hlt := lt_limit cy
      simp only [lt, rank]
      generalize my * twoTo sy = b, limit = l at hpositive hlt
      cases negx <;> cases negy <;> simp <;> omega
  · have hlt := lt_limit cx
    rcases y with _ | negy | ⟨negy, my, sy, cy⟩
    · exact absurd rfl hy
    · simp only [lt, rank]
      generalize mx * twoTo sx = a, limit = l at hpositive hlt
      cases negx <;> cases negy <;> simp <;> omega
    · simp only [lt, rank, decide_eq_true_eq]

theorem le_iff_rank (hx : x ≠ .nan) (hy : y ≠ .nan) : x.le y = true ↔ x.rank ≤ y.rank := by
  have hsame : same x y = (!lt x y && !lt y x) := by
    unfold same
    split
    · contradiction
    · contradiction
    · rfl
  have hxy := lt_iff_rank hx hy
  have hyx := lt_iff_rank hy hx
  rw [le, hsame]
  cases hlt : lt x y <;> cases hgt : lt y x <;> simp [hlt, hgt] at hxy hyx ⊢ <;> omega

end SupplyGauge.Binary64
