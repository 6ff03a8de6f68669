import DoRuntime.Js.Number

namespace DoRuntime.Js

open Float.Model

/-- Where a number stands on the line: its side, and on that side its exponent and its mantissa. -/
def position : UnpackedFloat → Option (Int ×ₗ Int ×ₗ Int)
  | .notANumber => none
  | .infinity .negative => some (toLex (-2, toLex (0, 0)))
  | .finite .negative m e _ => some (toLex (-1, toLex (-e, -(m : Int))))
  | .zero _ => some (toLex (0, toLex (0, 0)))
  | .finite .positive m e _ => some (toLex (1, toLex (e, (m : Int))))
  | .infinity .positive => some (toLex (2, toLex (0, 0)))

theorem position_lt_iff (a b c x y z : Int) :
    (toLex (a, toLex (b, c)) : Int ×ₗ Int ×ₗ Int) < toLex (x, toLex (y, z)) ↔
      a < x ∨ a = x ∧ (b < y ∨ b = y ∧ c < z) := by
  rw [Prod.Lex.toLex_lt_toLex, Prod.Lex.toLex_lt_toLex]

theorem finite_lt_iff (m n : Nat) (e f : Int) :
    (compare e f).then (compare m n) = .lt ↔ e < f ∨ e = f ∧ m < n := by
  rw [Ordering.then_eq_lt, Int.compare_eq_lt, Int.compare_eq_eq, Nat.compare_eq_lt]

theorem finite_gt_iff (m n : Nat) (e f : Int) :
    (compare e f).then (compare m n) = .gt ↔ f < e ∨ e = f ∧ n < m := by
  rw [Ordering.then_eq_gt, Int.compare_eq_gt, Int.compare_eq_eq, Nat.compare_eq_gt]

theorem compare_lt_iff (a b : UnpackedFloat) :
    a.compare b = some .lt ↔ ∃ p q, position a = some p ∧ position b = some q ∧ p < q := by
  rcases a with s | _ | s | ⟨s, m, e, _⟩ <;> rcases b with t | _ | t | ⟨t, n, f, _⟩ <;>
    (try cases s) <;> (try cases t) <;>
    simp [UnpackedFloat.compare, position, position_lt_iff, finite_lt_iff, finite_gt_iff, Ordering.swap_eq_lt]
  rfl

theorem lt_trans_number {a b c : Float} (first : a < b) (second : b < c) : a < c := by
  rw [lt_iff_order] at first second ⊢
  obtain ⟨p, q, hp, hq, less⟩ := (compare_lt_iff _ _).1 first
  obtain ⟨q', r, hq', hr, more⟩ := (compare_lt_iff _ _).1 second
  rw [hq] at hq'
  cases hq'
  exact (compare_lt_iff _ _).2 ⟨p, r, hp, hr, lt_trans less more⟩

end DoRuntime.Js
