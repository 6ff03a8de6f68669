import DoRuntime.Facets.FacetDeletion
import DoRuntime.Lib.Transition

namespace DoRuntime.Facets

/-- The promise of a queued operation: behind the tail, with the operation begun, or settled. -/
inductive QueuedPhase
  | waiting
  | running
  | fulfilled
  | rejected
deriving DecidableEq

def QueuedPhase.isSettled (p : QueuedPhase) : Bool := p = .fulfilled || p = .rejected

structure QueuedOperation where
  covered : List FacetId
  phase : QueuedPhase
deriving DecidableEq

/-- A call of `waitFor`. `since` counts the calls of `run` before it. -/
structure SubtreeWait where
  id : FacetId
  since : Nat
  barriers : List Nat
  resolved : Bool
deriving DecidableEq

/-- The operations by the order of their `run` calls, each with its promise; the last one's is the tail. -/
structure SerializedSubtreeDeletionQueue where
  operations : List QueuedOperation
  pending : List Nat
  waits : List SubtreeWait
deriving DecidableEq

namespace SerializedSubtreeDeletionQueue

def opened : SerializedSubtreeDeletionQueue := { operations := [], pending := [], waits := [] }

variable (q : SerializedSubtreeDeletionQueue)

def phaseOf (k : Nat) : Option QueuedPhase := (q.operations[k]?).map (·.phase)

def isSettled (k : Nat) : Bool := (q.phaseOf k).any (·.isSettled)

def covers (k : Nat) (id : FacetId) : Bool := (q.operations[k]?).any (·.covered.contains id)

/-- The tail that the operation was chained to has settled. -/
def tailSettled (k : Nat) : Bool := k = 0 || q.isSettled (k - 1)

def setPhase (k : Nat) (phase : QueuedPhase) : SerializedSubtreeDeletionQueue :=
  { q with operations := q.operations.modify k fun o => { o with phase } }

def run (ids : List FacetId) : SerializedSubtreeDeletionQueue :=
  { q with operations := q.operations ++ [{ covered := ids, phase := .waiting }],
           pending := q.pending ++ [q.operations.length] }

def waitFor (id : FacetId) : SerializedSubtreeDeletionQueue :=
  let barriers := q.pending.filter (q.covers · id)
  { q with waits := q.waits ++ [{ id, since := q.operations.length, barriers, resolved := false }] }

inductive Event
  | run (ids : List FacetId)
  /-- `this.#tail.then(operation)` -/
  | begin (k : Nat)
  | settle (k : Nat) (ok : Bool)
  /-- `this.#pending.delete(promise)` -/
  | forget (k : Nat)
  | waitFor (id : FacetId)
  /-- `await Promise.all(barriers)` -/
  | resume (w : Nat)

def step : Event → Option SerializedSubtreeDeletionQueue
  | .run ids => some (q.run ids)
  | .begin k => if q.phaseOf k = some .waiting ∧ q.tailSettled k = true then some (q.setPhase k .running) else none
  | .settle k ok =>
    if q.phaseOf k = some .running then some (q.setPhase k (if ok then .fulfilled else .rejected)) else none
  | .forget k => if q.isSettled k then some { q with pending := q.pending.filter (· ≠ k) } else none
  | .waitFor id => some (q.waitFor id)
  | .resume w =>
    match q.waits[w]? with
    | none => none
    | some wait =>
      if wait.resolved = false ∧ wait.barriers.all q.isSettled = true then
        some { q with waits := q.waits.set w { wait with resolved := true } }
      else none

section Operations

variable {q : SerializedSubtreeDeletionQueue} {k j : Nat} {p : QueuedPhase} {ids : List FacetId}

theorem phaseOf_setPhase : (q.setPhase k p).phaseOf j = if k = j then (q.phaseOf j).map fun _ => p else q.phaseOf j := by
  unfold phaseOf setPhase
  rw [List.getElem?_modify]
  cases q.operations[j]? <;> split <;> rfl

theorem covers_setPhase : (q.setPhase k p).covers = q.covers := by
  funext j id
  unfold covers setPhase
  rw [List.getElem?_modify]
  cases q.operations[j]? <;> simp <;> split <;> rfl

theorem length_setPhase : (q.setPhase k p).operations.length = q.operations.length := List.length_modify ..

theorem phaseOf_run : (q.run ids).phaseOf j = if j = q.operations.length then some .waiting else q.phaseOf j := by
  unfold phaseOf run
  split
  · rename_i last
    rw [last, List.getElem?_concat_length]
    rfl
  · rename_i other
    rw [List.getElem?_append]
    split
    · rfl
    · have beyond : q.operations.length < j := by omega
      rw [List.getElem?_eq_none (by simp; omega), List.getElem?_eq_none (by omega)]

theorem covers_run (early : j < q.operations.length) (id : FacetId) : (q.run ids).covers j id = q.covers j id := by
  unfold covers run
  rw [List.getElem?_append_left early]

theorem length_run : (q.run ids).operations.length = q.operations.length + 1 := List.length_append

theorem phaseOf_none (beyond : q.operations.length ≤ k) : q.phaseOf k = none := by
  unfold phaseOf
  rw [List.getElem?_eq_none beyond]
  rfl

theorem phaseOf_some (early : k < q.operations.length) : ∃ p, q.phaseOf k = some p :=
  ⟨q.operations[k].phase, by rw [phaseOf, List.getElem?_eq_getElem early]; rfl⟩

theorem lt_of_phaseOf (phase : q.phaseOf k = some p) : k < q.operations.length := by
  by_contra beyond
  rw [phaseOf_none (by omega)] at phase
  cases phase

theorem lt_of_isSettled (settled : q.isSettled k = true) : k < q.operations.length := by
  unfold isSettled at settled
  cases phase : q.phaseOf k with
  | none =>
    rw [phase] at settled
    cases settled
  | some p => exact lt_of_phaseOf phase

theorem isSettled_run (early : j < q.operations.length) : (q.run ids).isSettled j = q.isSettled j := by
  unfold isSettled
  rw [phaseOf_run, if_neg (by omega)]

theorem isSettled_setPhase (unsettled : q.isSettled k = false) (settled : q.isSettled j = true) :
    (q.setPhase k p).isSettled j = true := by
  have apart : k ≠ j := by
    rintro rfl
    rw [unsettled] at settled
    cases settled
  unfold isSettled
  rw [phaseOf_setPhase, if_neg apart]
  exact settled

end Operations

section Invariant

variable {q q' : SerializedSubtreeDeletionQueue} {k : Nat} {p : QueuedPhase}

/-- A wait holds on to what covers its id and had not settled at the call. -/
structure Awaits (q : SerializedSubtreeDeletionQueue) (w : SubtreeWait) : Prop where
  called : w.since ≤ q.operations.length
  behind : ∀ k < w.since, q.covers k w.id = true → q.isSettled k = true ∨ k ∈ w.barriers
  only : ∀ k ∈ w.barriers, k < w.since ∧ q.covers k w.id = true
  ended : w.resolved = true → ∀ k ∈ w.barriers, q.isSettled k = true

structure Sound (q : SerializedSubtreeDeletionQueue) : Prop where
  ordered : ∀ k < q.operations.length, q.phaseOf k ≠ some .waiting → ∀ j < k, q.isSettled j = true
  held : ∀ k < q.operations.length, q.isSettled k = true ∨ k ∈ q.pending
  known : ∀ k ∈ q.pending, k < q.operations.length
  awaits : ∀ w ∈ q.waits, q.Awaits w

theorem Awaits.later {w : SubtreeWait} (awaits : q.Awaits w) (grown : q.operations.length ≤ q'.operations.length)
    (covers : ∀ k < q.operations.length, q'.covers k w.id = q.covers k w.id)
    (settled : ∀ k, q.isSettled k = true → q'.isSettled k = true) : q'.Awaits w := by
  have called := awaits.called
  refine ⟨called.trans grown, fun k early covered => ?_, fun k member => ?_, fun resolved k member => ?_⟩
  · rw [covers k (by omega)] at covered
    exact (awaits.behind k early covered).imp_left (settled k)
  · have held := awaits.only k member
    rw [covers k (by omega)]
    exact held
  · exact settled k (awaits.ended resolved k member)

theorem Sound.setPhase (sound : q.Sound) (unsettled : q.isSettled k = false) (behind : ∀ j < k, q.isSettled j = true) :
    (q.setPhase k p).Sound := by
  have settled : ∀ j, q.isSettled j = true → (q.setPhase k p).isSettled j = true := fun j =>
    isSettled_setPhase unsettled
  constructor
  · intro m early begun j below
    rw [length_setPhase] at early
    rw [phaseOf_setPhase] at begun
    split at begun
    · rename_i same
      exact settled j (behind j (same ▸ below))
    · exact settled j (sound.ordered m early begun j below)
  · intro m early
    rw [length_setPhase] at early
    exact (sound.held m early).imp_left (settled m)
  · intro m member
    rw [length_setPhase]
    exact sound.known m member
  · intro w member
    exact (sound.awaits w member).later (le_of_eq length_setPhase.symm) (fun m _ => by rw [covers_setPhase]) settled

theorem Sound.run (sound : q.Sound) (ids : List FacetId) : (q.run ids).Sound := by
  have settled : ∀ j, q.isSettled j = true → (q.run ids).isSettled j = true := by
    intro j settled
    rw [isSettled_run (lt_of_isSettled settled)]
    exact settled
  constructor
  · intro m early begun j below
    rw [length_run] at early
    rw [phaseOf_run] at begun
    split at begun
    · exact absurd rfl begun
    · exact settled j (sound.ordered m (by omega) begun j below)
  · intro m early
    rw [length_run] at early
    by_cases last : m = q.operations.length
    · exact .inr (List.mem_append_right _ (by simp [last]))
    · exact (sound.held m (by omega)).imp (settled m) (List.mem_append_left _)
  · intro m member
    rw [length_run]
    rcases List.mem_append.1 member with old | new
    · have early := sound.known m old
      omega
    · rw [List.mem_singleton.1 new]
      omega
  · intro w member
    exact (sound.awaits w member).later (by rw [length_run]; omega) (fun m early => covers_run early w.id) settled

theorem Sound.waitFor (sound : q.Sound) (id : FacetId) : (q.waitFor id).Sound := by
  refine ⟨sound.ordered, sound.held, sound.known, fun w member => ?_⟩
  rcases List.mem_append.1 member with old | new
  · exact (sound.awaits w old).later (le_refl _) (fun _ _ => rfl) fun _ settled => settled
  · rw [List.mem_singleton.1 new]
    refine ⟨le_refl _, fun k early covered => ?_, fun k held => ?_, fun resolved => by cases resolved⟩
    · exact (sound.held k early).imp_right fun listed => List.mem_filter.2 ⟨listed, covered⟩
    · obtain ⟨listed, covered⟩ := List.mem_filter.1 held
      exact ⟨sound.known k listed, covered⟩

theorem Sound.forget (sound : q.Sound) (settled : q.isSettled k = true) :
    Sound { q with pending := q.pending.filter (· ≠ k) } := by
  refine ⟨sound.ordered, fun m early => ?_, fun m member => sound.known m (List.mem_filter.1 member).1, fun w member =>
    (sound.awaits w member).later (le_refl _) (fun _ _ => rfl) fun _ settled => settled⟩
  by_cases same : m = k
  · exact .inl (same ▸ settled)
  · exact (sound.held m early).imp_right fun listed => List.mem_filter.2 ⟨listed, by simpa using same⟩

theorem Sound.resume {i : Nat} {w : SubtreeWait} (sound : q.Sound) (found : q.waits[i]? = some w)
    (settled : ∀ k ∈ w.barriers, q.isSettled k = true) :
    Sound { q with waits := q.waits.set i { w with resolved := true } } := by
  refine ⟨sound.ordered, sound.held, sound.known, fun v member => ?_⟩
  rcases List.mem_or_eq_of_mem_set member with old | rfl
  · exact (sound.awaits v old).later (le_refl _) (fun _ _ => rfl) fun _ settled => settled
  · have awaits := sound.awaits w (List.mem_of_getElem? found)
    exact ⟨awaits.called, awaits.behind, awaits.only, fun _ => settled⟩

theorem unsettled_of_phase (phase : q.phaseOf k = some p) (going : p.isSettled = false) : q.isSettled k = false := by
  rw [isSettled, phase]
  exact going

/-- Behind a tail that has settled, everything has. -/
theorem Sound.behind_tail (sound : q.Sound) (tail : q.tailSettled k = true) : ∀ j < k, q.isSettled j = true := by
  intro j below
  have settled : q.isSettled (k - 1) = true := by
    simp only [tailSettled, Bool.or_eq_true, decide_eq_true_eq] at tail
    exact tail.resolve_left (by omega)
  by_cases last : j = k - 1
  · exact last ▸ settled
  · apply sound.ordered (k - 1) (lt_of_isSettled settled) _ j (by omega)
    intro waiting
    rw [unsettled_of_phase waiting rfl] at settled
    cases settled

theorem step_sound {event : Event} (sound : q.Sound) (stepped : q.step event = some q') : q'.Sound := by
  cases event with
  | run ids =>
    cases stepped
    exact sound.run ids
  | begin k =>
    simp only [step, Option.ite_none_right_eq_some, Option.some.injEq] at stepped
    obtain ⟨⟨waiting, tail⟩, rfl⟩ := stepped
    exact sound.setPhase (unsettled_of_phase waiting rfl) (sound.behind_tail tail)
  | settle k ok =>
    simp only [step, Option.ite_none_right_eq_some, Option.some.injEq] at stepped
    obtain ⟨running, rfl⟩ := stepped
    apply sound.setPhase (unsettled_of_phase running rfl)
    exact sound.ordered k (lt_of_phaseOf running) (by rw [running]; decide)
  | forget k =>
    simp only [step, Option.ite_none_right_eq_some, Option.some.injEq] at stepped
    obtain ⟨settled, rfl⟩ := stepped
    exact sound.forget settled
  | waitFor id =>
    cases stepped
    exact sound.waitFor id
  | resume i =>
    simp only [step] at stepped
    split at stepped
    · cases stepped
    · rename_i w found
      simp only [Option.ite_none_right_eq_some, Option.some.injEq, List.all_eq_true] at stepped
      obtain ⟨⟨_, settled⟩, rfl⟩ := stepped
      exact sound.resume found settled

theorem opened_sound : opened.Sound := by
  constructor <;> intro _ absent <;> cases absent

/-- The first operation that has not settled runs, or can begin. -/
theorem Sound.goes_on (sound : q.Sound) (early : k < q.operations.length) (unsettled : q.isSettled k = false) :
    ∃ j, q.phaseOf j = some .running ∨ (q.step (.begin j)).isSome = true := by
  have some_first : ∃ j, j < q.operations.length ∧ q.isSettled j = false := ⟨k, early, unsettled⟩
  obtain ⟨inside, going⟩ := Nat.find_spec some_first
  have before : ∀ j < Nat.find some_first, q.isSettled j = true := by
    intro j below
    have settled := Nat.find_min some_first below
    rw [not_and, Bool.not_eq_false] at settled
    exact settled (by omega)
  refine ⟨Nat.find some_first, ?_⟩
  obtain ⟨phase, is⟩ := phaseOf_some inside
  rw [isSettled, is] at going
  cases phase
  · right
    have tail : q.tailSettled (Nat.find some_first) = true := by
      simp only [tailSettled, Bool.or_eq_true, decide_eq_true_eq]
      by_cases zero : Nat.find some_first = 0
      · exact .inl zero
      · exact .inr (before _ (by omega))
    rw [step, if_pos ⟨is, tail⟩]
    rfl
  · exact .inl is
  · cases going
  · cases going

theorem Sound.wait_over {i : Nat} {w : SubtreeWait} (sound : q.Sound) (found : q.waits[i]? = some w) :
    (∀ k < w.since, q.covers k w.id = true → q.isSettled k = true) ↔
      w.resolved = true ∨ (q.step (.resume i)).isSome = true := by
  have awaits := sound.awaits w (List.mem_of_getElem? found)
  have resumes : (q.step (.resume i)).isSome = true ↔ w.resolved = false ∧ ∀ k ∈ w.barriers, q.isSettled k = true := by
    simp only [step, found, ← List.all_eq_true]
    split <;> simp_all
  have barred : (∀ k ∈ w.barriers, q.isSettled k = true) → ∀ k < w.since, q.covers k w.id = true → q.isSettled k = true :=
    fun settled k early covered => (awaits.behind k early covered).elim id (settled k)
  rw [resumes]
  constructor
  · intro settled
    have free : ∀ k ∈ w.barriers, q.isSettled k = true := by
      intro k member
      obtain ⟨early, covered⟩ := awaits.only k member
      exact settled k early covered
    cases w.resolved
    · exact .inr ⟨rfl, free⟩
    · exact .inl rfl
  · intro ended
    rcases ended with resolved | ⟨_, settled⟩
    · exact barred (awaits.ended resolved)
    · exact barred settled

/-- At any time one operation runs at most, behind everything queued before it; a failed one keeps nothing back; and
    a wait is over or can end exactly when what was queued before it and covers its facet has settled. -/
theorem subtree_deletions_serialized (reached : Transition.Reaches step (fun _ _ => True) opened q) :
    (∀ k, q.phaseOf k = some .running → (∀ j < k, q.isSettled j = true) ∧
      ∀ j, k < j → j < q.operations.length → q.phaseOf j = some .waiting) ∧
    (∀ k < q.operations.length, q.isSettled k = false →
      ∃ j, q.phaseOf j = some .running ∨ (q.step (.begin j)).isSome = true) ∧
    ∀ (i : Nat) (w : SubtreeWait), q.waits[i]? = some w →
      ((∀ k < w.since, q.covers k w.id = true → q.isSettled k = true) ↔
        w.resolved = true ∨ (q.step (.resume i)).isSome = true) := by
  have sound := reached.invariant opened_sound fun _ _ _ sound _ stepped => step_sound sound stepped
  refine ⟨fun k running => ⟨?_, fun j after early => ?_⟩, fun k early unsettled => sound.goes_on early unsettled,
    fun i w found => sound.wait_over found⟩
  · exact sound.ordered k (lt_of_phaseOf running) (by rw [running]; decide)
  · by_contra begun
    have settled := sound.ordered j early begun k after
    rw [unsettled_of_phase running rfl] at settled
    cases settled

/-- The wait on a subtree whose deletion failed ends, while the next deletion runs. -/
theorem subtree_deletions_serialized_failed : ∃ q, Transition.Reaches step (fun _ _ => True) opened q ∧
    q.phaseOf 1 = some .running ∧ (q.step (.resume 0)).isSome = true := by
  have ran : (Transition.run step opened [.run [1, 2], .run [3], .waitFor 2, .begin 0, .settle 0 false, .begin 1]).map
      (fun q => (q.phaseOf 1, q.waits, q.covers 1 2)) = some (some .running, [⟨2, 2, [0], false⟩], false) := by
    decide +kernel
  obtain ⟨q, ran, seen⟩ := Option.map_eq_some_iff.1 ran
  simp only [Prod.mk.injEq] at seen
  obtain ⟨running, waits, other⟩ := seen
  have reached := Transition.run_reaches _ ran
  have serialized := subtree_deletions_serialized reached
  have settled : ∀ k < 2, q.covers k 2 = true → q.isSettled k = true := by
    intro k below covered
    by_cases first : k = 0
    · exact (serialized.1 1 running).1 k (by omega)
    · rw [show k = 1 by omega, other] at covered
      cases covered
  have ended := (serialized.2.2 0 ⟨2, 2, [0], false⟩ (by rw [waits]; rfl)).1 settled
  exact ⟨q, reached, running, ended.resolve_left (by decide)⟩

end Invariant

end SerializedSubtreeDeletionQueue

end DoRuntime.Facets
