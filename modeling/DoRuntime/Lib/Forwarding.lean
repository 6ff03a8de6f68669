import Mathlib

/-! Nodes in a tree, each older than its children, of which some are gone and leave what they had to
their parent. -/

namespace Forwarding

/-- The first node still there, going up at most as many steps as given. -/
def climb (parent : Nat → Nat) (gone : Nat → Bool) : Nat → Nat → Nat
  | 0, x => x
  | steps + 1, x => if gone x then climb parent gone steps (parent x) else x

/-- The node that has taken over what a node had. -/
def heir (parent : Nat → Nat) (gone : Nat → Bool) (x : Nat) : Nat := climb parent gone x x

section Heir

variable {parent : Nat → Nat} {gone : Nat → Bool}

theorem climb_enough (older : ∀ x, gone x = true → parent x < x) {steps x : Nat} (enough : x ≤ steps) :
    climb parent gone steps x = heir parent gone x := by
  induction x using Nat.strong_induction_on generalizing steps with
  | _ x ih =>
    unfold heir
    cases steps with
    | zero =>
      obtain rfl : x = 0 := Nat.le_zero.1 enough
      rfl
    | succ steps =>
      cases x with
      | zero =>
        have stays : gone 0 = false := by
          by_contra left
          exact Nat.not_lt_zero _ (older 0 (by simpa using left))
        simp [climb, stays]
      | succ x =>
        simp only [climb]
        by_cases left : gone (x + 1)
        · have below := older _ left
          have up : climb parent gone steps (parent (x + 1)) = heir parent gone (parent (x + 1)) :=
            ih _ below (by omega)
          have same : climb parent gone x (parent (x + 1)) = heir parent gone (parent (x + 1)) :=
            ih _ below (by omega)
          simp only [left, if_true, up, same]
        · simp only [left, Bool.false_eq_true, if_false]

theorem heir_of_stays {x : Nat} (stays : gone x = false) : heir parent gone x = x := by
  unfold heir
  cases x <;> simp [climb, stays]

theorem heir_of_gone (older : ∀ x, gone x = true → parent x < x) {x : Nat} (left : gone x = true) :
    heir parent gone x = heir parent gone (parent x) := by
  have below := older x left
  conv_lhs => unfold heir
  cases x with
  | zero => exact absurd below (Nat.not_lt_zero _)
  | succ x =>
    simp only [climb, left, if_true]
    exact climb_enough older (by omega)

theorem heir_stays (older : ∀ x, gone x = true → parent x < x) (x : Nat) : gone (heir parent gone x) = false := by
  induction x using Nat.strong_induction_on with
  | _ x ih =>
    by_cases left : gone x
    · rw [heir_of_gone older left]
      exact ih _ (older x left)
    · have stays : gone x = false := by simpa using left
      rw [heir_of_stays stays, stays]

theorem heir_le (older : ∀ x, gone x = true → parent x < x) (x : Nat) : heir parent gone x ≤ x := by
  induction x using Nat.strong_induction_on with
  | _ x ih =>
    by_cases left : gone x
    · have below := older x left
      rw [heir_of_gone older left]
      exact Nat.le_trans (ih _ below) (Nat.le_of_lt below)
    · rw [heir_of_stays (by simpa using left)]

/-- Only the parents of the nodes that are gone matter. -/
theorem heir_congr (older : ∀ x, gone x = true → parent x < x) {parent' : Nat → Nat}
    (same : ∀ x, gone x = true → parent' x = parent x) (x : Nat) : heir parent' gone x = heir parent gone x := by
  induction x using Nat.strong_induction_on with
  | _ x ih =>
    by_cases left : gone x
    · rw [heir_of_gone older left, heir_of_gone (fun y gone => same y gone ▸ older y gone) left, same x left]
      exact ih _ (older x left)
    · rw [heir_of_stays (by simpa using left), heir_of_stays (by simpa using left)]

/-- A node that leaves hands on what it had to the heir of its parent, and no other node changes hands. -/
theorem heir_leave (older : ∀ x, gone x = true → parent x < x) {g : Nat} (below : parent g < g)
    (stays : gone g = false) {gone' : Nat → Bool} (left : ∀ x, gone' x = (gone x || x == g)) (x : Nat) :
    heir parent gone' x = if heir parent gone x = g then heir parent gone (parent g) else heir parent gone x := by
  have older' : ∀ x, gone' x = true → parent x < x := by
    intro x departed
    rw [left] at departed
    by_cases mine : x = g
    · exact mine ▸ below
    · exact older x (by simpa [mine] using departed)
  induction x using Nat.strong_induction_on with
  | _ x ih =>
    by_cases mine : x = g
    · subst mine
      rw [heir_of_gone older' (by simp [left]), heir_of_stays stays, if_pos rfl, ih _ below, if_neg]
      exact Nat.ne_of_lt (Nat.lt_of_le_of_lt (heir_le older _) below)
    · by_cases departed : gone x
      · rw [heir_of_gone older departed, heir_of_gone older' (by simp [left, departed])]
        exact ih _ (older x departed)
      · have here : gone x = false := by simpa using departed
        rw [heir_of_stays here, heir_of_stays (by simp [left, here, mine]), if_neg mine]

end Heir

end Forwarding
