import Mathlib.Data.List.Basic

namespace DoRuntime.Weave

variable {α : Type} {f g : Nat → List α} {p : Nat} {s t : List α}

/-- The text from offset `p` on, with what is inserted before each of its symbols. -/
def window (f : Nat → List α) : Nat → List α → List α
  | _, [] => []
  | p, a :: rest => f p ++ a :: window f (p + 1) rest

/-- The same, with what is inserted after the last symbol. -/
def weave (f : Nat → List α) (p : Nat) (text : List α) : List α := window f p text ++ f (p + text.length)

theorem window_append (f : Nat → List α) (p : Nat) (s t : List α) :
    window f p (s ++ t) = window f p s ++ window f (p + s.length) t := by
  induction s generalizing p with
  | nil => rfl
  | cons a s ih =>
    rw [List.cons_append, window, window, ih, List.length_cons, List.append_assoc, List.cons_append,
      Nat.add_right_comm, Nat.add_assoc p s.length 1]

theorem window_congr (same : ∀ i, p ≤ i → i < p + t.length → f i = g i) : window f p t = window g p t := by
  induction t generalizing p with
  | nil => rfl
  | cons a t ih =>
    rw [List.length_cons] at same
    rw [window, window, same p (Nat.le_refl _) (by omega), ih fun i low high => same i (by omega) (by omega)]

theorem weave_congr (same : ∀ i, p ≤ i → i ≤ p + t.length → f i = g i) : weave f p t = weave g p t := by
  rw [weave, weave, window_congr fun i low high => same i low (Nat.le_of_lt high), same _ (by omega) (Nat.le_refl _)]

theorem window_of_none (none_ : ∀ i, p ≤ i → i < p + t.length → f i = []) : window f p t = t := by
  induction t generalizing p with
  | nil => rfl
  | cons a t ih =>
    rw [List.length_cons] at none_
    rw [window, none_ p (Nat.le_refl _) (by omega), ih fun i low high => none_ i (by omega) (by omega)]
    rfl

theorem weave_of_none (none_ : ∀ i, p ≤ i → i ≤ p + t.length → f i = []) : weave f p t = t := by
  rw [weave, window_of_none fun i low high => none_ i low (Nat.le_of_lt high), none_ _ (by omega) (Nat.le_refl _), List.append_nil]

/-- Insertions of the same lengths give the same text only where they are the same. -/
theorem window_inj (lengths : ∀ i, (f i).length = (g i).length) {rest more : List α}
    (same : window f p t ++ rest = window g p t ++ more) :
    (∀ i, p ≤ i → i < p + t.length → f i = g i) ∧ rest = more := by
  induction t generalizing p with
  | nil => exact ⟨fun i low high => by rw [List.length_nil] at high; omega, same⟩
  | cons a t ih =>
    rw [window, window, List.append_assoc, List.append_assoc] at same
    obtain ⟨here, later⟩ := List.append_inj same (lengths p)
    obtain ⟨all, ends⟩ := ih (List.cons.inj later).2
    refine ⟨fun i low high => ?_, ends⟩
    rw [List.length_cons] at high
    rcases Nat.eq_or_lt_of_le low with rfl | above
    · exact here
    · exact all i above (by omega)

theorem weave_inj (lengths : ∀ i, (f i).length = (g i).length) (same : weave f p t = weave g p t) :
    ∀ i, p ≤ i → i ≤ p + t.length → f i = g i := by
  obtain ⟨all, ends⟩ := window_inj lengths same
  intro i low high
  rcases Nat.eq_or_lt_of_le high with rfl | below
  · exact ends
  · exact all i low below

/-- Two texts side by side share the offset between them. -/
theorem weave_append {f₁ f₂ : Nat → List α} (left : ∀ i, p ≤ i → i < p + s.length → f i = f₁ i)
    (right : ∀ i, p + s.length < i → i ≤ p + s.length + t.length → f i = f₂ i)
    (middle : f (p + s.length) = f₁ (p + s.length) ++ f₂ (p + s.length)) :
    weave f p (s ++ t) = weave f₁ p s ++ weave f₂ (p + s.length) t := by
  rw [weave, weave, weave, window_append, window_congr left, List.length_append, ← Nat.add_assoc,
    List.append_assoc, List.append_assoc]
  congr 1
  cases t with
  | nil =>
    rw [List.length_nil, Nat.add_zero, window, window, List.nil_append, List.nil_append]
    exact middle
  | cons b t =>
    rw [List.length_cons] at right ⊢
    rw [window, window, middle, window_congr fun i low high => right i (by omega) (by omega),
      right (p + s.length + (t.length + 1)) (by omega) (Nat.le_refl _)]
    simp only [List.append_assoc, List.cons_append]

theorem weave_leading (none_ : ∀ i, p ≤ i → i < p + s.length → f i = []) :
    weave f p (s ++ t) = s ++ weave f (p + s.length) t := by
  rw [weave, weave, window_append, window_of_none none_, List.length_append, ← Nat.add_assoc, List.append_assoc]

theorem weave_trailing (none_ : ∀ i, p + s.length < i → i ≤ p + s.length + t.length → f i = []) :
    weave f p (s ++ t) = weave f p s ++ t := by
  have silent : weave (fun _ => []) (p + s.length) t = t := weave_of_none fun _ _ _ => rfl
  rw [weave_append (fun _ _ _ => rfl) none_ (List.append_nil _).symm, silent]

/-- A text between two others, which has no insertions of its own. -/
theorem weave_gap {m : List α} (some_ : m ≠ [])
    (none_ : ∀ i, p + s.length < i → i < p + s.length + m.length → f i = []) :
    weave f p (s ++ (m ++ t)) = weave f p s ++ (m ++ weave f (p + s.length + m.length) t) := by
  obtain ⟨a, m, rfl⟩ := List.exists_cons_of_ne_nil some_
  rw [List.length_cons] at none_
  have rest : window f (p + s.length + 1) m = m :=
    window_of_none fun i low high => none_ i (by omega) (by omega)
  have length : p + (s ++ (a :: m ++ t)).length = p + s.length + (a :: m).length + t.length := by
    simp only [List.length_append]
    omega
  rw [weave, weave, weave, length, window_append, window_append, window, rest]
  simp only [List.append_assoc, List.cons_append]

/-- Insertions at both ends of a text that is not empty. -/
theorem weave_wrap {w v : List α} (some_ : s ≠ []) (first : f p = w ++ g p)
    (last : f (p + s.length) = g (p + s.length) ++ v) (same : ∀ i, p < i → i < p + s.length → f i = g i) :
    weave f p s = w ++ (weave g p s ++ v) := by
  obtain ⟨a, t, rfl⟩ := List.exists_cons_of_ne_nil some_
  rw [List.length_cons] at same
  have rest : window f (p + 1) t = window g (p + 1) t :=
    window_congr fun i low high => same i (by omega) (by omega)
  rw [weave, weave, window, window, first, last, rest]
  simp only [List.append_assoc, List.cons_append]

theorem prefix_weave (f : Nat → List α) (p : Nat) (t : List α) : f p <+: weave f p t := by
  cases t with
  | nil => exact List.prefix_refl _
  | cons a t =>
    rw [weave, window, List.append_assoc]
    exact List.prefix_append _ _

/-- A beginning that no insertion can have put there is the text's own. -/
theorem prefix_of_weave {w z : List α} (apart : ∀ i, p ≤ i → i < p + w.length → ∀ a ∈ (f i).head?, a ∉ w)
    (same : weave f p t = w ++ z) : ∃ rest, t = w ++ rest ∧ weave f (p + w.length) rest = z := by
  induction w generalizing p t with
  | nil => exact ⟨t, rfl, same⟩
  | cons c w ih =>
    rw [List.length_cons] at apart
    have silent : f p = [] := by
      cases here : f p with
      | nil => rfl
      | cons a more =>
        have first : a = c := by
          cases t with
          | nil =>
            rw [weave, window, List.nil_append, List.length_nil, Nat.add_zero, here] at same
            exact (List.cons.inj same).1
          | cons b t =>
            rw [weave, window, here] at same
            exact (List.cons.inj same).1
        have clash := apart p (Nat.le_refl _) (by omega) a (by rw [here]; rfl)
        exact absurd (first ▸ List.mem_cons_self) clash
    cases t with
    | nil =>
      rw [weave, window, List.nil_append, List.length_nil, Nat.add_zero, silent] at same
      cases same
    | cons b t =>
      rw [weave, window, silent, List.nil_append, List.cons_append, List.cons_append, List.length_cons] at same
      obtain ⟨rfl, tail⟩ := List.cons.inj same
      have length : p + (t.length + 1) = p + 1 + t.length := by omega
      rw [length] at tail
      obtain ⟨rest, rfl, ends⟩ := ih (fun i low high a first member =>
        apart i (by omega) (by omega) a first (List.mem_cons_of_mem _ member)) tail
      refine ⟨rest, rfl, ?_⟩
      rw [← ends, List.length_cons, Nat.add_right_comm, Nat.add_assoc]

end DoRuntime.Weave
