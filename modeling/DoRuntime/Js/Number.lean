import Mathlib

namespace DoRuntime.Js

open Float.Model

/-- The integer a JavaScript number denotes, if it denotes one. -/
def integralValue (x : Float) : Option Int :=
  match x.toModel.unpack with
  | .zero _ => some 0
  | .finite sign mantissa exponent _ =>
    if 0 ≤ exponent then some (sign.apply (mantissa * 2 ^ exponent.toNat))
    else if mantissa % 2 ^ (-exponent).toNat = 0 then
      some (sign.apply (mantissa / 2 ^ (-exponent).toNat))
    else none
  | .infinity _ | .notANumber => none

def maxSafeInteger : Nat := 2 ^ 53 - 1

/-- `Number.isSafeInteger`. -/
def isSafeInteger (x : Float) : Bool :=
  match integralValue x with
  | some n => n.natAbs ≤ maxSafeInteger
  | none => false

/-- `Number.isNaN`. -/
def isNaN (x : Float) : Bool := x.toModel.unpack.isNaN

def isNegativeZero (x : Float) : Bool :=
  match x.toModel.unpack with
  | .zero .negative => true
  | _ => false

/-- `Math.max` of two numbers: NaN is contagious and `+0` is the larger zero. -/
def mathMax (a b : Float) : Float :=
  if isNaN a then a
  else if isNaN b then b
  else if a < b then b
  else if b < a then a
  else if isNegativeZero a then b
  else a

theorem unpacked_compare_swap (a b : UnpackedFloat) :
    b.compare a = (a.compare b).map Ordering.swap := by
  have signs : ∀ s t : UnpackedFloat.Sign, compare t s = (compare s t).swap := by
    intro s t
    cases s <;> cases t <;> rfl
  cases a with
  | notANumber => cases b <;> rfl
  | infinity s =>
    cases b with
    | infinity t => simp [UnpackedFloat.compare, signs s t]
    | notANumber => cases s <;> rfl
    | zero t => cases s <;> rfl
    | finite t m e _ => cases s <;> cases t <;> rfl
  | zero s =>
    cases b with
    | infinity t => cases t <;> rfl
    | notANumber => rfl
    | zero t => rfl
    | finite t m e _ => cases t <;> rfl
  | finite s m e _ =>
    cases b with
    | infinity t => cases s <;> cases t <;> rfl
    | notANumber => rfl
    | zero t => cases s <;> rfl
    | finite t m' e' _ =>
      have swapped : (compare e' e).then (compare m' m) = ((compare e e').then (compare m m')).swap := by
        rw [Ordering.swap_then, Int.compare_swap, Nat.compare_swap]
      cases s <;> cases t <;> simp [UnpackedFloat.compare, swapped]

/-- The IEEE ordering of two numbers, `none` where one of them is NaN. -/
def order (a b : Float) : Option Ordering := a.toModel.unpack.compare b.toModel.unpack

theorem order_swap (a b : Float) : order b a = (order a b).map Ordering.swap :=
  unpacked_compare_swap _ _

theorem lt_iff_order (a b : Float) : a < b ↔ order a b = some .lt := by
  change decide (a.toModel < b.toModel) = true ↔ _
  rw [decide_eq_true_iff]
  change (a.toModel.unpack.compare b.toModel.unpack == some .lt) = true ↔ _
  simp [order]

theorem le_iff_order (a b : Float) : a ≤ b ↔ order a b = some .lt ∨ order a b = some .eq := by
  change decide (a.toModel ≤ b.toModel) = true ↔ _
  rw [decide_eq_true_iff]
  change (a.toModel.unpack.compare b.toModel.unpack).any (·.isLE) = true ↔ _
  unfold order
  rcases a.toModel.unpack.compare b.toModel.unpack with _ | _ | _ | _ <;> simp [Ordering.isLE]

theorem order_none_iff (a b : Float) : order a b = none ↔ isNaN a ∨ isNaN b := by
  change a.toModel.unpack.compare b.toModel.unpack = none ↔
    a.toModel.unpack.isNaN = true ∨ b.toModel.unpack.isNaN = true
  rcases a.toModel.unpack with s | _ | s | ⟨s, m, e, _⟩ <;>
    rcases b.toModel.unpack with t | _ | t | ⟨t, m', e', _⟩ <;>
    (try cases s) <;> (try cases t) <;> simp [UnpackedFloat.compare, UnpackedFloat.isNaN]

theorem order_self {x : Float} (number : isNaN x = false) : order x x = some .eq := by
  have known : order x x ≠ none := by simp [order_none_iff, number]
  have swapped := order_swap x x
  generalize order x x = compared at known swapped
  rcases compared with _ | _ | _ | _
  · contradiction
  · simp [Ordering.swap] at swapped
  · rfl
  · simp [Ordering.swap] at swapped

theorem isSafeInteger_iff (x : Float) :
    isSafeInteger x = true ↔ ∃ n, integralValue x = some n ∧ n.natAbs ≤ maxSafeInteger := by
  unfold isSafeInteger
  cases integralValue x <;> simp

theorem not_nan_of_safe {x : Float} (safe : isSafeInteger x = true) : isNaN x = false := by
  obtain ⟨n, value, _⟩ := (isSafeInteger_iff x).mp safe
  change x.toModel.unpack.isNaN = false
  unfold integralValue at value
  split at value <;> simp_all [UnpackedFloat.isNaN]

/-- Numbers the IEEE order cannot tell apart denote the same integer, the two zeros included. -/
theorem integralValue_of_order_eq {a b : Float} (same : order a b = some .eq)
    {n : Int} (value : integralValue b = some n) : integralValue a = some n := by
  unfold order at same
  unfold integralValue at value ⊢
  cases ha : a.toModel.unpack with
  | notANumber => simp [ha, UnpackedFloat.compare] at same
  | infinity s =>
    cases hb : b.toModel.unpack <;> cases s <;>
      simp [ha, hb, UnpackedFloat.compare] at same value
  | zero s =>
    cases hb : b.toModel.unpack with
    | notANumber => simp [hb] at value
    | infinity t => simp [hb] at value
    | zero t => simpa [hb] using value
    | finite t m e _ => cases t <;> simp [ha, hb, UnpackedFloat.compare] at same
  | finite s m e _ =>
    cases hb : b.toModel.unpack with
    | notANumber => simp [hb] at value
    | infinity t => simp [hb] at value
    | zero t => cases s <;> simp [ha, hb, UnpackedFloat.compare] at same
    | finite t m' e' _ =>
      rw [hb] at value
      have parts : s = t ∧ e = e' ∧ m = m' := by
        cases s <;> cases t <;>
          simp [ha, hb, UnpackedFloat.compare, Ordering.then_eq_eq, Ordering.swap_eq_eq] at same ⊢ <;>
          exact same
      obtain ⟨rfl, rfl, rfl⟩ := parts
      exact value

theorem isSafeInteger_of_order_eq {a b : Float} (same : order a b = some .eq)
    (safe : isSafeInteger b = true) : isSafeInteger a = true := by
  obtain ⟨n, value, bound⟩ := (isSafeInteger_iff b).mp safe
  exact (isSafeInteger_iff a).mpr ⟨n, integralValue_of_order_eq same value, bound⟩

theorem mathMax_cases {a b : Float} (ha : isNaN a = false) (hb : isNaN b = false) :
    (a < b ∧ mathMax a b = b) ∨ (¬ a ≤ b ∧ mathMax a b = a) ∨
      (order a b = some .eq ∧ (mathMax a b = a ∨ mathMax a b = b)) := by
  have known : order a b ≠ none := by simp [order_none_iff, ha, hb]
  have swapped := order_swap a b
  simp only [mathMax, ha, hb, lt_iff_order, le_iff_order, Bool.false_eq_true, ite_false]
  rcases h : order a b with _ | _ | _ | _
  · exact absurd h known
  · simp
  · rw [h] at swapped
    simp [swapped]
    cases isNegativeZero a <;> simp
  · rw [h] at swapped
    simp [swapped]

theorem mathMax_of_lt {a b : Float} (more : b < a) : mathMax a b = a := by
  have ordered := (lt_iff_order b a).mp more
  have known : order b a ≠ none := by simp [ordered]
  simp only [ne_eq, order_none_iff, not_or, Bool.not_eq_true] at known
  rcases mathMax_cases known.2 known.1 with ⟨less, _⟩ | ⟨_, same⟩ | ⟨same, _⟩
  · rw [lt_iff_order, order_swap, ordered] at less
    contradiction
  · exact same
  · rw [order_swap, ordered] at same
    contradiction

/-- The larger of a number and a safe integer is a safe integer exactly when it is the second,
    or the first is one too. -/
theorem isSafeInteger_mathMax {a b : Float} (ha : isNaN a = false) (safe : isSafeInteger b = true) :
    isSafeInteger (mathMax a b) = true ↔ a ≤ b ∨ isSafeInteger a = true := by
  rcases mathMax_cases ha (not_nan_of_safe safe) with ⟨less, result⟩ | ⟨more, result⟩ | ⟨same, result⟩
  · have below : a ≤ b := (le_iff_order a b).mpr (.inl ((lt_iff_order a b).mp less))
    simp [result, safe, below]
  · simp [result, more]
  · have below : a ≤ b := (le_iff_order a b).mpr (.inr same)
    have first := isSafeInteger_of_order_eq same safe
    rcases result with result | result <;> simp [result, safe, first, below]

end DoRuntime.Js
