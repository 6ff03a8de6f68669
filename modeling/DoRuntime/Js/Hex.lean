import DoRuntime.Js.Json
import DoRuntime.Lib.Lexicographic

namespace DoRuntime.Js

def hexFrom : Nat → Nat → JsString
  | 0, n => [hexDigit n]
  | fuel + 1, n => if n < 16 then [hexDigit n] else hexFrom fuel (n / 16) ++ [hexDigit (n % 16)]

/-- `toString(16)` of a whole number. -/
def toString16 (n : Nat) : JsString := hexFrom n n

def padStart (s : JsString) (targetLength : Nat) (fill : CodeUnit) : JsString :=
  List.replicate (targetLength - s.length) fill ++ s

/-- The last digits of a number. -/
def lastDigits : Nat → Nat → JsString
  | 0, _ => []
  | width + 1, n => lastDigits width (n / 16) ++ [hexDigit (n % 16)]

theorem lastDigits_length (width n : Nat) : (lastDigits width n).length = width := by
  induction width generalizing n with
  | zero => rfl
  | succ width ih => rw [lastDigits, List.length_append, ih, List.length_singleton]

theorem lastDigits_zero (width : Nat) : lastDigits width 0 = List.replicate width 48 := by
  induction width with
  | zero => rfl
  | succ width ih => rw [lastDigits, Nat.zero_div, ih, List.replicate_succ']; rfl

theorem padded_hexFrom {width n fuel : Nat} (fits : n < 16 ^ (width + 1)) (enough : n ≤ fuel) :
    padStart (hexFrom fuel n) (width + 1) 48 = lastDigits (width + 1) n := by
  induction width generalizing n fuel with
  | zero =>
    have small : n < 16 := by omega
    have one : hexFrom fuel n = [hexDigit n] := by
      cases fuel with
      | zero => rfl
      | succ fuel => rw [hexFrom, if_pos small]
    rw [one, lastDigits, Nat.mod_eq_of_lt small]
    rfl
  | succ width ih =>
    rw [lastDigits]
    by_cases small : n < 16
    · have one : hexFrom fuel n = [hexDigit n] := by
        cases fuel with
        | zero => rfl
        | succ fuel => rw [hexFrom, if_pos small]
      rw [one, Nat.div_eq_of_lt small, Nat.mod_eq_of_lt small, lastDigits_zero]
      rfl
    · obtain ⟨fuel, rfl⟩ : ∃ less, fuel = less + 1 := ⟨fuel - 1, by omega⟩
      have below : n / 16 < 16 ^ (width + 1) := by
        rw [Nat.pow_succ] at fits
        omega
      rw [hexFrom, if_neg small, ← ih below (show n / 16 ≤ fuel by omega)]
      unfold padStart
      rw [List.length_append, List.length_singleton, Nat.add_sub_add_right, List.append_assoc]

theorem padded_digits {width n : Nat} (fits : n < 16 ^ (width + 1)) :
    padStart (toString16 n) (width + 1) 48 = lastDigits (width + 1) n := padded_hexFrom fits (Nat.le_refl n)

theorem hexDigit_lt : ∀ d < 16, ∀ e < 16, d < e → hexDigit d < hexDigit e := by decide

/-- Lists of one length are ordered by what comes first. -/
theorem append_lt_of_length {p q : JsString} (same : p.length = q.length) (below : p < q) (x y : JsString) :
    p ++ x < q ++ y := by
  have apart : ¬ p <+: q := by
    intro starts
    have equal := starts.eq_of_length same
    rw [equal] at below
    exact lt_irrefl q below
  exact Lexicographic.lt_append y (Lexicographic.append_lt x below apart)

theorem lastDigits_lt {width m n : Nat} (below : m < n) (fits : n < 16 ^ width) :
    lastDigits width m < lastDigits width n := by
  induction width generalizing m n with
  | zero => omega
  | succ width ih =>
    rw [lastDigits, lastDigits]
    have high : n / 16 < 16 ^ width := by
      rw [Nat.pow_succ] at fits
      omega
    rcases Nat.lt_or_ge (m / 16) (n / 16) with less | reached
    · exact append_lt_of_length (by rw [lastDigits_length, lastDigits_length]) (ih less high) _ _
    · have same : m / 16 = n / 16 := by omega
      have last := hexDigit_lt (m % 16) (Nat.mod_lt _ (by decide)) (n % 16) (Nat.mod_lt _ (by decide)) (by omega)
      rw [same]
      exact List.append_left_lt (List.cons_lt_cons_iff.2 (.inl last))

end DoRuntime.Js
