import Mathlib.Data.List.Lex
import Mathlib.Order.Cover
import Mathlib.Order.BoundedOrder.Basic

namespace DoRuntime.Lexicographic

section Order

variable {α : Type} [LinearOrder α] {p k e : List α} {a b : α}

theorem lt_append (more : List α) (below : p < k) : p < k ++ more :=
  List.Lex.append_right (· < ·) more below

theorem le_append (more : List α) : p ≤ p ++ more := by
  rcases more with - | ⟨a, rest⟩
  · rw [List.append_nil]
  · have below : List.Lex (· < ·) (p ++ []) (p ++ a :: rest) := List.Lex.append_left _ List.Lex.nil p
    rw [List.append_nil] at below
    exact le_of_lt below

/-- What lies between a list and one that begins with it begins with it too. -/
theorem prefix_of_between {more : List α} (low : p ≤ k) (high : k < p ++ more) : p <+: k := by
  induction p generalizing k with
  | nil => exact List.nil_prefix
  | cons a p ih =>
    cases k with
    | nil => exact absurd (lt_of_le_of_lt low (List.nil_lt_cons a p)) (lt_irrefl _)
    | cons b k =>
      rcases List.cons_lt_cons_iff.1 high with less | ⟨rfl, less⟩
      · exact absurd (List.cons_lt_cons_iff.2 (.inl less)) (not_lt.2 low)
      · have low : p ≤ k := not_lt.1 fun below => not_lt.2 low (List.cons_lt_cons_iff.2 (.inr ⟨rfl, below⟩))
        exact List.cons_prefix_cons.2 ⟨rfl, ih low less⟩

/-- Where two lists part, no continuation of the smaller one catches up. -/
theorem append_lt (more : List α) (below : p < e) (apart : ¬ p <+: e) : p ++ more < e := by
  by_contra reached
  rcases lt_or_eq_of_le (not_lt.1 reached) with above | same
  · exact apart (prefix_of_between (le_of_lt below) above)
  · exact apart ⟨more, same.symm⟩

theorem prefix_iff_between (next : a ⋖ b) : p ++ [a] <+: k ↔ p ++ [a] ≤ k ∧ k < p ++ [b] := by
  constructor
  · rintro ⟨more, rfl⟩
    refine ⟨le_append more, ?_⟩
    rw [List.append_assoc]
    exact List.append_left_lt (List.cons_lt_cons_iff.2 (.inl next.lt))
  · rintro ⟨low, high⟩
    obtain ⟨rest, rfl⟩ := prefix_of_between (le_trans (le_append [a]) low) high
    have low : ¬ rest < [a] := fun below => not_lt.2 low (List.append_left_lt below)
    have high : rest < [b] := by
      by_contra above
      rcases lt_or_eq_of_le (not_lt.1 above) with above | same
      · exact lt_asymm high (List.append_left_lt above)
      · rw [same] at high
        exact lt_irrefl _ high
    cases rest with
    | nil => exact absurd (List.nil_lt_cons a []) low
    | cons c rest =>
      have below : c < b := (List.cons_lt_cons_iff.1 high).resolve_right fun other => List.not_lt_nil _ other.2
      rcases lt_trichotomy a c with above | rfl | less
      · exact absurd below (next.2 above)
      · exact ⟨rest, by simp⟩
      · exact absurd (List.cons_lt_cons_iff.2 (.inl less)) low

/-- The least list above another is the one that goes on with the least element. -/
theorem lt_iff_append_bot_le [OrderBot α] : p < k ↔ p ++ [⊥] ≤ k := by
  constructor
  · intro below
    by_cases starts : p <+: k
    · obtain ⟨rest, rfl⟩ := starts
      cases rest with
      | nil => exact absurd (by simpa using below) (lt_irrefl p)
      | cons c rest =>
        refine not_lt.1 fun above => ?_
        rw [List.append_cons p c rest] at above
        rcases eq_or_lt_of_le (bot_le : ⊥ ≤ c) with rfl | less
        · exact not_lt.2 (le_append rest) above
        · have more : p ++ [⊥] < p ++ [c] ++ rest :=
            lt_append rest (List.append_left_lt (List.cons_lt_cons_iff.2 (.inl less)))
          exact lt_asymm above more
    · exact le_of_lt (append_lt [⊥] below starts)
  · intro reached
    have longer : p < p ++ [⊥] := by
      have below : List.Lex (· < ·) (p ++ []) (p ++ [⊥]) := List.Lex.append_left _ List.Lex.nil p
      rw [List.append_nil] at below
      exact below
    exact lt_of_lt_of_le longer reached

end Order

section Code

variable {α β : Type} [LinearOrder α] {code : α → List β} {valid : α → Prop} {xs ys : List α}

/-- A code whose words keep the order, whatever follows them, keeps it on texts. -/
theorem flatMap_lt_flatMap [LinearOrder β]
    (ordered : ∀ {a b}, valid a → valid b → a < b → ∀ s t, code a ++ s < code b ++ t)
    (words : ∀ {a}, code a ≠ []) (left : ∀ a ∈ xs, valid a) (right : ∀ a ∈ ys, valid a) (below : xs < ys) :
    xs.flatMap code < ys.flatMap code := by
  induction xs generalizing ys with
  | nil =>
    cases ys with
    | nil => exact absurd below (List.not_lt_nil _)
    | cons b ys =>
      rw [List.flatMap_nil, List.flatMap_cons]
      cases word : code b with
      | nil => exact absurd word words
      | cons c rest => exact List.nil_lt_cons _ _
  | cons a xs ih =>
    cases ys with
    | nil => exact absurd below (List.not_lt_nil _)
    | cons b ys =>
      rw [List.flatMap_cons, List.flatMap_cons]
      rcases List.cons_lt_cons_iff.1 below with less | ⟨rfl, less⟩
      · exact ordered (left a List.mem_cons_self) (right b List.mem_cons_self) less _ _
      · exact List.append_left_lt (ih (fun c member => left c (List.mem_cons_of_mem _ member))
          (fun c member => right c (List.mem_cons_of_mem _ member)) less)

theorem flatMap_lt_iff [LinearOrder β]
    (ordered : ∀ {a b}, valid a → valid b → a < b → ∀ s t, code a ++ s < code b ++ t)
    (words : ∀ {a}, code a ≠ []) (left : ∀ a ∈ xs, valid a) (right : ∀ a ∈ ys, valid a) :
    xs.flatMap code < ys.flatMap code ↔ xs < ys := by
  constructor
  · intro below
    rcases lt_trichotomy xs ys with less | rfl | more
    · exact less
    · exact absurd below (lt_irrefl _)
    · exact absurd below (lt_asymm (flatMap_lt_flatMap ordered words right left more))
  · exact flatMap_lt_flatMap ordered words left right

/-- A text begins with another exactly where its code does, if no word can be mistaken. -/
theorem flatMap_prefix_iff (apart : ∀ {a b}, valid a → valid b → ∀ s t, code a ++ s = code b ++ t → a = b)
    (words : ∀ {a}, code a ≠ []) (left : ∀ a ∈ xs, valid a) (right : ∀ a ∈ ys, valid a) :
    xs.flatMap code <+: ys.flatMap code ↔ xs <+: ys := by
  constructor
  · intro starts
    induction xs generalizing ys with
    | nil => exact List.nil_prefix
    | cons a xs ih =>
      cases ys with
      | nil =>
        have none_ := List.prefix_nil.1 starts
        rw [List.flatMap_cons, List.append_eq_nil_iff] at none_
        exact absurd none_.1 words
      | cons b ys =>
        obtain ⟨rest, same⟩ := starts
        rw [List.flatMap_cons, List.flatMap_cons, List.append_assoc] at same
        obtain rfl := apart (left a List.mem_cons_self) (right b List.mem_cons_self) _ _ same
        have later : xs.flatMap code <+: ys.flatMap code := ⟨rest, List.append_cancel_left same⟩
        exact List.cons_prefix_cons.2 ⟨rfl, ih (fun c member => left c (List.mem_cons_of_mem _ member))
          (fun c member => right c (List.mem_cons_of_mem _ member)) later⟩
  · rintro ⟨rest, rfl⟩
    rw [List.flatMap_append]
    exact List.prefix_append _ _

end Code

end DoRuntime.Lexicographic
