import DoRuntime.Js.Utf8
import DoRuntime.Lib.Lexicographic

namespace DoRuntime.Js

open Lexicographic

/-- A string of scalar values, as UTF-8 text is when it is read. -/
def WellFormed (s : JsString) : Prop := ∃ cs : List Nat, (∀ c ∈ cs, IsScalar c) ∧ s = cs.flatMap unitsOf

section Scalars

variable {c d : Nat} {cs ds : List Nat} {s t : JsString}

theorem encodeScalar_ne_nil : encodeScalar c ≠ [] := by
  unfold encodeScalar
  split_ifs <;> exact List.cons_ne_nil _ _

/-- The encodings of scalar values come in the order of the values. -/
theorem encodeScalar_lt (last : IsScalar d) (below : c < d) (s t : Bytes) :
    encodeScalar c ++ s < encodeScalar d ++ t := by
  have last : d < 0x110000 := by
    unfold IsScalar at last
    omega
  unfold encodeScalar
  split_ifs <;> simp only [List.cons_append, List.nil_append, List.cons_lt_cons_iff] <;> omega

theorem encode_lt_iff (left : ∀ u ∈ s, u < 0x10000) (right : ∀ u ∈ t, u < 0x10000) :
    encode s < encode t ↔ scalars s < scalars t :=
  flatMap_lt_iff (fun _ valid below => encodeScalar_lt valid below) encodeScalar_ne_nil
    (scalars_valid left) (scalars_valid right)

theorem unitsOf_ne_nil : unitsOf c ≠ [] := by
  unfold unitsOf
  split <;> exact List.cons_ne_nil _ _

theorem unitsOf_bounded (valid : IsScalar c) : ∀ u ∈ unitsOf c, u < 0x10000 := by
  intro u member
  unfold IsScalar at valid
  unfold unitsOf at member
  split at member
  · rename_i basic
    rw [List.mem_singleton] at member
    rw [member]
    exact basic
  · rw [List.mem_cons, List.mem_singleton] at member
    rcases member with high | low
    · rw [high]
      show 0xD800 + (c - 0x10000) / 0x400 < 0x10000
      omega
    · rw [low]
      show 0xDC00 + (c - 0x10000) % 0x400 < 0x10000
      omega

theorem WellFormed.bounded (wellFormed : WellFormed s) : ∀ u ∈ s, u < 0x10000 := by
  obtain ⟨cs, valid, rfl⟩ := wellFormed
  intro u member
  obtain ⟨c, kept, unit⟩ := List.mem_flatMap.1 member
  exact unitsOf_bounded (valid c kept) u unit

theorem scalars_append (valid : ∀ c ∈ cs, IsScalar c) (rest : JsString) :
    scalars (cs.flatMap unitsOf ++ rest) = cs ++ scalars rest := by
  induction cs with
  | nil => rfl
  | cons c cs ih =>
    rw [List.flatMap_cons, List.append_assoc, scalars_unitsOf (valid c List.mem_cons_self),
      ih fun d member => valid d (List.mem_cons_of_mem _ member)]
    rfl

theorem unitsOf_apart (left : IsScalar c) (right : IsScalar d) (s t : JsString)
    (same : unitsOf c ++ s = unitsOf d ++ t) : c = d := by
  have firsts := congrArg scalars same
  rw [scalars_unitsOf left, scalars_unitsOf right] at firsts
  exact (List.cons.inj firsts).1

/-- A well-formed string begins with another in units exactly where it does in scalar values. -/
theorem prefix_iff_scalars (left : WellFormed s) (right : WellFormed t) : s <+: t ↔ scalars s <+: scalars t := by
  obtain ⟨cs, valid, rfl⟩ := left
  obtain ⟨ds, other, rfl⟩ := right
  rw [scalars_flatMap valid, scalars_flatMap other]
  exact flatMap_prefix_iff unitsOf_apart unitsOf_ne_nil valid other

theorem unitsOf_scalar {u : Nat} (basic : u < 0x10000) : unitsOf u = [u] := if_pos basic

theorem unitsOf_pair {u v : Nat} (pair : (isLead u && isTrail v) = true) :
    unitsOf (0x10000 + (u - 0xD800) * 0x400 + (v - 0xDC00)) = [u, v] := by
  simp only [isLead, isTrail, Bool.and_eq_true, decide_eq_true_eq] at pair
  have high : 0xD800 + (0x10000 + (u - 0xD800) * 0x400 + (v - 0xDC00) - 0x10000) / 0x400 = u := by omega
  have low : 0xDC00 + (0x10000 + (u - 0xD800) * 0x400 + (v - 0xDC00) - 0x10000) % 0x400 = v := by omega
  rw [unitsOf, if_neg (by omega), high, low]

/-- One unit of a string against the scalar value that stands for it. -/
theorem unit_or_lone {u : Nat} (basic : u < 0x10000) {more rest : JsString}
    (later : more <+: rest ∨ rest < more) :
    unitsOf (if isSurrogate u then 0xFFFD else u) ++ more <+: u :: rest ∨
      u :: rest < unitsOf (if isSurrogate u then 0xFFFD else u) ++ more := by
  by_cases lone : isSurrogate u = true
  · rw [if_pos lone, unitsOf_scalar (by decide)]
    simp only [isSurrogate, isLead, isTrail, Bool.or_eq_true, Bool.and_eq_true, decide_eq_true_eq] at lone
    refine .inr (List.cons_lt_cons_iff.2 (.inl ?_))
    omega
  · rw [if_neg lone, unitsOf_scalar basic]
    rcases later with starts | below
    · exact .inl (List.cons_prefix_cons.2 ⟨rfl, starts⟩)
    · exact .inr (List.cons_lt_cons_iff.2 (.inr ⟨rfl, below⟩))

/-- Where a string begins with a well-formed one in scalar values only, a lone surrogate makes it
    the smaller of the two in units. -/
theorem prefix_or_lt_of_scalars (bounded : ∀ u ∈ s, u < 0x10000) (starts : cs <+: scalars s) :
    cs.flatMap unitsOf <+: s ∨ s < cs.flatMap unitsOf := by
  induction s using scalars.induct generalizing cs with
  | case1 =>
    rw [scalars, List.prefix_nil] at starts
    rw [starts]
    exact .inl List.nil_prefix
  | case2 u =>
    cases cs with
    | nil => exact .inl List.nil_prefix
    | cons c cs =>
      rw [scalars, List.cons_prefix_cons, List.prefix_nil] at starts
      obtain ⟨rfl, rfl⟩ := starts
      exact unit_or_lone (bounded u List.mem_cons_self) (.inl List.nil_prefix)
  | case3 u v rest pair ih =>
    cases cs with
    | nil => exact .inl List.nil_prefix
    | cons c cs =>
      rw [scalars, if_pos pair, List.cons_prefix_cons] at starts
      obtain ⟨point, starts⟩ := starts
      rw [List.flatMap_cons, point, unitsOf_pair pair]
      rcases ih (fun w member => bounded w (List.mem_cons_of_mem _ (List.mem_cons_of_mem _ member))) starts with
        later | below
      · exact .inl (List.cons_prefix_cons.2 ⟨rfl, List.cons_prefix_cons.2 ⟨rfl, later⟩⟩)
      · exact .inr (List.cons_lt_cons_iff.2 (.inr ⟨rfl, List.cons_lt_cons_iff.2 (.inr ⟨rfl, below⟩)⟩))
  | case4 u v rest apart ih =>
    cases cs with
    | nil => exact .inl List.nil_prefix
    | cons c cs =>
      rw [scalars, if_neg apart, List.cons_prefix_cons] at starts
      obtain ⟨rfl, starts⟩ := starts
      exact unit_or_lone (bounded u List.mem_cons_self)
        (ih (fun w member => bounded w (List.mem_cons_of_mem _ member)) starts)

/-- Without surrogates the units are the scalar values. -/
theorem scalars_of_basic (basic : ∀ u ∈ s, isSurrogate u = false) : scalars s = s := by
  induction s using scalars.induct with
  | case1 => rfl
  | case2 u => rw [scalars, basic u List.mem_cons_self, if_neg Bool.false_ne_true]
  | case3 u v rest pair ih =>
    have lead : isLead u = true := (Bool.and_eq_true _ _ ▸ pair).1
    have lone := basic u List.mem_cons_self
    rw [isSurrogate, lead] at lone
    cases lone
  | case4 u v rest apart ih =>
    rw [scalars, if_neg apart, basic u List.mem_cons_self, if_neg Bool.false_ne_true,
      ih fun w member => basic w (List.mem_cons_of_mem _ member)]

end Scalars

end DoRuntime.Js
