import DoRuntime.Facets.SubtreeCopy

namespace DoRuntime.Facets

open Js Prog

namespace Session

theorem minted {start s : Session} (reached : Transition.Reaches step Crashes start s)
    (first : ∀ answer ∈ start.returned, ∃ name : Utf16, answer.1.2 = encode name.units) :
    ∀ answer ∈ s.returned, ∃ name : Utf16, answer.1.2 = encode name.units := by
  refine reached.invariant (P := fun s => ∀ answer ∈ s.returned, ∃ name : Utf16, answer.1.2 = encode name.units) first ?_
  intro s e t known _ stepped
  cases e with
  | reopen torn =>
    unfold Session.step at stepped
    dsimp only at stepped
    split at stepped
    · cases stepped
      exact known
    · cases stepped
  | getId parent name =>
    unfold Session.step at stepped
    dsimp only at stepped
    split at stepped
    · cases stepped
      intro answer member
      rcases List.mem_append.1 member with earlier | last
      · exact known answer earlier
      · rw [List.mem_singleton.1 last]
        exact ⟨name, rfl⟩
    · cases stepped
      exact known

end Session

/-- What a copy of `src` onto `dst` makes of the subtree, whatever else goes on in the tree. -/
structure CopiesByName (r : Registry) (src dst : Nat) (result : Except CopyFailure Unit × Copying) : Prop where
  matched : ∀ copy ∈ result.2.copies, Matched result.2.index.registry src dst copy.1 copy.2
  injective : ∀ copy ∈ result.2.copies, ∀ other ∈ result.2.copies, copy.2 = other.2 → copy.1 = other.1
  apart : ∀ copy ∈ result.2.copies, ¬ Under result.2.index.registry src copy.2
  complete : result.1 = .ok () → ∀ x, Under r src x → ∃ target, (x, target) ∈ result.2.copies
  failures : ∀ failure, result.1 = .error failure → Copying.Expected failure

/-- The copies that `cloneFacet` makes, from a facet onto another of the same parent. -/
def CopiesSiblings (index : TreeIndex) : Prop :=
  ∀ world i j parent a b, Copying.PlainNames world → index.registry[i]? = some (parent, a) →
    index.registry[j]? = some (parent, b) → i ≠ j →
      CopiesByName index.registry (i + 1) (j + 1)
        (Copying.copySubtree world (i + 1) (j + 1) { index, copies := [], awaits := 0 })

theorem copiesSiblings {r : Registry} {index : TreeIndex} (formed : WellFormed r) (holds : Holds r index) (minted : Minted r)
    (unmarked : Unmarked r) : CopiesSiblings index := by
  intro world i j parent a b plain first second different
  rw [holds.registry] at first second ⊢
  have start : Copying.Sound (i + 1) (j + 1) r { index, copies := [], awaits := 0 } := ⟨formed, holds, minted, unmarked, nofun⟩
  obtain ⟨r₁, longer₁, sound₁⟩ := start.suspended plain
  have source := (List.getElem?_eq_some_iff.1 (entry_of_longer longer₁ first)).1
  have target := (List.getElem?_eq_some_iff.1 (entry_of_longer longer₁ second)).1
  have result := Copying.copyInto_result plain (maxId + 1) sound₁ .self source target (by omega)
  change CopiesByName r (i + 1) (j + 1) 
    (Copying.copyInto world (maxId + 1) (i + 1) (j + 1) (Copying.suspended world { index, copies := [], awaits := 0 }))
  obtain ⟨r₂, longer₂, sound₂⟩ := result.later.1
  have registry := sound₂.holds.registry
  have longer := longer₁.trans longer₂
  constructor
  · rw [registry]
    exact sound₂.copies
  · intro copy member other member' same
    have matched := sound₂.copies copy member
    rw [same] at matched
    exact matched.source_unique sound₂.formed (sound₂.copies other member')
  · intro copy member
    rw [registry]
    exact siblings_apart sound₂.formed (entry_of_longer longer second) (entry_of_longer longer first) (Ne.symm different)
      (sound₂.copies copy member).under.2
  · intro done x under
    exact result.complete done x (under.mono longer₁)
  · exact result.failures

theorem session_registry {file : Bytes} {index : TreeIndex} {s : Session} (part : file <+: magic)
    (opened : TreeIndex.openFile file = .ok index)
    (reached : Transition.Reaches Session.step Session.Crashes { index, returned := [] } s) :
    WellFormed s.index.registry ∧ Holds s.index.registry s.index ∧ Minted s.index.registry := by
  obtain ⟨first, again, holds⟩ := openFile_new part
  cases opened.symm.trans again
  have start : Session.Consistent { index, returned := [] } := ⟨.nil, holds, nofun⟩
  have consistent := reached.invariant start fun _ _ _ kept crash stepped => kept.step crash stepped
  rw [consistent.holds.registry]
  refine ⟨consistent.formed, consistent.holds, fun facet member => ?_⟩
  obtain ⟨id, returned⟩ := Session.mem_assigned member
  exact Session.minted reached nofun _ returned

def blank : TreeIndex where
  file := magic
  offset := magicLength
  entries := []
  byKey := fun _ => none

/-- A name that begins with a byte order mark. -/
def markedName : Utf16 := ⟨[0xFEFF, 97], by decide⟩

end DoRuntime.Facets
