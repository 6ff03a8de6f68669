import Mathlib

namespace DoRuntime.Js

variable {ε α β : Type}

theorem except_bind_ok (value : Except ε α) (next : α → Except ε β) (result : β) :
    (value >>= next) = .ok result ↔ ∃ middle, value = .ok middle ∧ next middle = .ok result := by
  cases value <;> simp [bind, Except.bind]

theorem except_map_ok (value : Except ε α) (f : α → β) (result : β) :
    value.map f = .ok result ↔ ∃ middle, value = .ok middle ∧ f middle = result := by
  cases value <;> simp [Except.map]

/-- A loop over a list succeeds exactly when each of its turns does. -/
theorem mapM_ok_iff (f : α → Except ε β) (inputs : List α) :
    (∃ outputs, inputs.mapM f = .ok outputs) ↔ ∀ input ∈ inputs, ∃ output, f input = .ok output := by
  induction inputs with
  | nil => simp [pure, Except.pure]
  | cons head tail ih =>
    simp only [List.mapM_cons, except_bind_ok, List.forall_mem_cons, ← ih]
    constructor
    · rintro ⟨_, first, firstOk, rest, restOk, _⟩
      exact ⟨⟨first, firstOk⟩, rest, restOk⟩
    · rintro ⟨⟨first, firstOk⟩, rest, restOk⟩
      exact ⟨first :: rest, first, firstOk, rest, restOk, rfl⟩

theorem mapM_output {f : α → Except ε β} {inputs : List α} {outputs : List β}
    (loaded : inputs.mapM f = .ok outputs) :
    List.Forall₂ (fun input output => f input = .ok output) inputs outputs := by
  induction inputs generalizing outputs with
  | nil =>
    cases loaded
    exact .nil
  | cons head tail ih =>
    simp only [List.mapM_cons, except_bind_ok] at loaded
    obtain ⟨first, firstOk, rest, restOk, same⟩ := loaded
    cases same
    exact .cons firstOk (ih restOk)

theorem mapM_output_mem {f : α → Except ε β} {inputs : List α} {outputs : List β}
    (loaded : inputs.mapM f = .ok outputs) {output : β} (member : output ∈ outputs) :
    ∃ input ∈ inputs, f input = .ok output := by
  have turns := mapM_output loaded
  clear loaded
  induction turns with
  | nil => cases member
  | cons turn _ ih =>
    rcases List.mem_cons.mp member with rfl | member
    · exact ⟨_, List.mem_cons_self, turn⟩
    · obtain ⟨input, held, ran⟩ := ih member
      exact ⟨input, List.mem_cons_of_mem _ held, ran⟩

theorem forM_ok_iff (check : α → Except ε Unit) (inputs : List α) :
    inputs.forM check = .ok () ↔ ∀ input ∈ inputs, check input = .ok () := by
  induction inputs with
  | nil => simp [pure, Except.pure]
  | cons head tail ih =>
    simp only [List.forM_eq_forM, List.forM_cons, except_bind_ok, List.forall_mem_cons] at ih ⊢
    rw [← ih]
    constructor
    · intro both
      obtain ⟨_, headOk, tailOk⟩ := both
      exact ⟨headOk, tailOk⟩
    · intro both
      exact ⟨(), both.1, both.2⟩

end DoRuntime.Js
