import DoRuntime.Facets.SubtreeQueue

namespace DoRuntime.Facets

/-- An operation of `runOperation`, with the promise it was chained to. -/
structure FacetOperation where
  id : FacetId
  prior : Option Nat
  phase : QueuedPhase
deriving DecidableEq

/-- A call of `subtreeOperationBarrier`. `since` counts the calls of `runOperation` before it. -/
structure OperationBarrier where
  targets : List FacetId
  since : Nat
  awaited : List Nat
  resolved : Bool
deriving DecidableEq

/-- The operations by the order of their calls, and the last one of each facet, where the map has it. -/
structure OperationTails where
  operations : List FacetOperation
  tails : FacetId → Option Nat
  barriers : List OperationBarrier

namespace OperationTails

def opened : OperationTails := { operations := [], tails := fun _ => none, barriers := [] }

variable (q : OperationTails)

def phaseOf (k : Nat) : Option QueuedPhase := (q.operations[k]?).map (·.phase)

def idOf (k : Nat) : Option FacetId := (q.operations[k]?).map (·.id)

def isSettled (k : Nat) : Bool := (q.phaseOf k).any (·.isSettled)

/-- What the operation was chained to has settled. -/
def priorSettled (k : Nat) : Bool := ((q.operations[k]?).bind (·.prior)).all q.isSettled

def setPhase (k : Nat) (phase : QueuedPhase) : OperationTails :=
  { q with operations := q.operations.modify k fun o => { o with phase } }

/-- `runOperation`, whose operation begins at once where none is pending. -/
def runOperation (id : FacetId) : OperationTails :=
  let phase := if (q.tails id).isNone then .running else .waiting
  { q with operations := q.operations ++ [{ id, prior := q.tails id, phase }],
           tails := Function.update q.tails id (some q.operations.length) }

/-- `clear` -/
def clear (k : Nat) (id : FacetId) : OperationTails :=
  if q.tails id = some k then { q with tails := Function.update q.tails id none } else q

/-- `subtreeOperationBarrier`, of a facet and its descendants. -/
def subtreeOperationBarrier (targets : List FacetId) : OperationTails :=
  let awaited := targets.filterMap q.tails
  { q with barriers := q.barriers ++ [{ targets, since := q.operations.length, awaited, resolved := false }] }

inductive Event
  | runOperation (id : FacetId)
  /-- `pending.then(operation, operation)` -/
  | begin (k : Nat)
  | settle (k : Nat) (ok : Bool)
  /-- `done.then(clear, clear)` -/
  | clear (k : Nat)
  | barrier (targets : List FacetId)
  /-- `await Promise.all(…)` -/
  | resume (b : Nat)

def step : Event → Option OperationTails
  | .runOperation id => some (q.runOperation id)
  | .begin k => if q.phaseOf k = some .waiting ∧ q.priorSettled k = true then some (q.setPhase k .running) else none
  | .settle k ok =>
    if q.phaseOf k = some .running then some (q.setPhase k (if ok then .fulfilled else .rejected)) else none
  | .clear k =>
    match q.idOf k with
    | none => none
    | some id => if q.isSettled k then some (q.clear k id) else none
  | .barrier targets => some (q.subtreeOperationBarrier targets)
  | .resume b =>
    match q.barriers[b]? with
    | none => none
    | some barrier =>
      if barrier.resolved = false ∧ barrier.awaited.all q.isSettled = true then
        some { q with barriers := q.barriers.set b { barrier with resolved := true } }
      else none

section Operations

variable {q : OperationTails} {k j : Nat} {p : QueuedPhase} {id : FacetId} {o : FacetOperation}

theorem getElem?_setPhase : (q.setPhase k p).operations[j]? =
    if k = j then (q.operations[j]?).map fun o => { o with phase := p } else q.operations[j]? := by
  unfold setPhase
  rw [List.getElem?_modify]
  cases q.operations[j]? <;> split <;> rfl

theorem idOf_setPhase : (q.setPhase k p).idOf j = q.idOf j := by
  unfold idOf
  rw [getElem?_setPhase]
  split
  · cases q.operations[j]? <;> rfl
  · rfl

theorem length_setPhase : (q.setPhase k p).operations.length = q.operations.length := List.length_modify ..

theorem getElem?_runOperation (early : j < q.operations.length) :
    (q.runOperation id).operations[j]? = q.operations[j]? := List.getElem?_append_left early

theorem last_runOperation : (q.runOperation id).operations[q.operations.length]? =
    some { id, prior := q.tails id, phase := if (q.tails id).isNone then .running else .waiting } :=
  List.getElem?_concat_length

theorem length_runOperation : (q.runOperation id).operations.length = q.operations.length + 1 := List.length_append

theorem isSettled_of (found : q.operations[k]? = some o) : q.isSettled k = o.phase.isSettled := by
  rw [isSettled, phaseOf, found]
  rfl

theorem idOf_of (found : q.operations[k]? = some o) : q.idOf k = some o.id := by
  rw [idOf, found]
  rfl

theorem operation_of_id (same : q.idOf k = some id) : ∃ o, q.operations[k]? = some o ∧ o.id = id :=
  Option.map_eq_some_iff.1 same

theorem lt_of_found (found : q.operations[k]? = some o) : k < q.operations.length :=
  (List.getElem?_eq_some_iff.1 found).1

theorem found_of_isSettled (settled : q.isSettled k = true) : ∃ o, q.operations[k]? = some o ∧ o.phase.isSettled = true := by
  cases found : q.operations[k]? with
  | none =>
    rw [isSettled, phaseOf, found] at settled
    cases settled
  | some o => exact ⟨o, rfl, by rwa [isSettled_of found] at settled⟩

theorem isSettled_setPhase (unsettled : q.isSettled k = false) (settled : q.isSettled j = true) :
    (q.setPhase k p).isSettled j = true := by
  have apart : k ≠ j := by
    rintro rfl
    rw [unsettled] at settled
    cases settled
  rw [isSettled, phaseOf, getElem?_setPhase, if_neg apart]
  exact settled

theorem isSettled_runOperation (settled : q.isSettled j = true) : (q.runOperation id).isSettled j = true := by
  obtain ⟨o, found, done'⟩ := found_of_isSettled settled
  rw [isSettled_of ((getElem?_runOperation (lt_of_found found)).trans found)]
  exact done'

end Operations

section Invariant

variable {q q' : OperationTails} {k : Nat} {p : QueuedPhase} {id : FacetId} {o : FacetOperation}

/-- An operation is behind all earlier ones of its facet, through the last of them. -/
structure Chained (q : OperationTails) (k : Nat) (o : FacetOperation) : Prop where
  begun : o.phase ≠ .waiting → ∀ j < k, q.idOf j = some o.id → q.isSettled j = true
  free : o.prior = none → ∀ j < k, q.idOf j = some o.id → q.isSettled j = true
  behind : ∀ j, o.prior = some j → j < k ∧ q.idOf j = some o.id ∧ ∀ m < k, q.idOf m = some o.id → m ≤ j

/-- What the map has for a facet is its last operation; where it has nothing, none is pending. -/
structure Tailed (q : OperationTails) (id : FacetId) : Prop where
  last : ∀ k, q.tails id = some k → q.idOf k = some id ∧ ∀ m, q.idOf m = some id → m ≤ k
  idle : q.tails id = none → ∀ m, q.idOf m = some id → q.isSettled m = true

structure Awaits (q : OperationTails) (b : OperationBarrier) : Prop where
  called : b.since ≤ q.operations.length
  behind : ∀ k < b.since, ∀ id ∈ b.targets, q.idOf k = some id →
    q.isSettled k = true ∨ ∃ a ∈ b.awaited, k ≤ a ∧ q.idOf a = some id
  only : ∀ a ∈ b.awaited, a < b.since ∧ ∃ id ∈ b.targets, q.idOf a = some id
  ended : b.resolved = true → ∀ a ∈ b.awaited, q.isSettled a = true

structure Sound (q : OperationTails) : Prop where
  chained : ∀ k o, q.operations[k]? = some o → q.Chained k o
  tailed : ∀ id, q.Tailed id
  awaits : ∀ b ∈ q.barriers, q.Awaits b

theorem lt_of_idOf (same : q.idOf k = some id) : k < q.operations.length := by
  obtain ⟨o, found, _⟩ := operation_of_id same
  exact lt_of_found found

theorem begun_of_isSettled (found : q.operations[k]? = some o) (settled : q.isSettled k = true) : o.phase ≠ .waiting := by
  intro waiting
  rw [isSettled_of found, waiting] at settled
  cases settled

/-- Where an operation has settled, so have all earlier ones of its facet. -/
theorem Sound.settled_before {j : Nat} (sound : q.Sound) (same : q.idOf k = some id) (settled : q.isSettled k = true)
    (early : j ≤ k) (here : q.idOf j = some id) : q.isSettled j = true := by
  by_cases last : j = k
  · exact last ▸ settled
  · obtain ⟨o, found, rfl⟩ := operation_of_id same
    exact (sound.chained k o found).begun (begun_of_isSettled found settled) j (by omega) here

theorem idOf_runOperation (early : k < q.operations.length) : (q.runOperation id).idOf k = q.idOf k := by
  rw [idOf, getElem?_runOperation early]
  rfl

theorem Chained.later (chained : q.Chained k o) (early : k ≤ q.operations.length)
    (ids : ∀ j < q.operations.length, q'.idOf j = q.idOf j)
    (settled : ∀ j, q.isSettled j = true → q'.isSettled j = true) : q'.Chained k o := by
  refine ⟨fun begun j below same => ?_, fun none j below same => ?_, fun j prior => ?_⟩
  · rw [ids j (by omega)] at same
    exact settled j (chained.begun begun j below same)
  · rw [ids j (by omega)] at same
    exact settled j (chained.free none j below same)
  · obtain ⟨below, same, after⟩ := chained.behind j prior
    refine ⟨below, by rw [ids j (by omega)]; exact same, fun i less here => ?_⟩
    rw [ids i (by omega)] at here
    exact after i less here

theorem Awaits.later {b : OperationBarrier} (awaits : q.Awaits b) (grown : q.operations.length ≤ q'.operations.length)
    (ids : ∀ k < q.operations.length, q'.idOf k = q.idOf k)
    (settled : ∀ k, q.isSettled k = true → q'.isSettled k = true) : q'.Awaits b := by
  have called := awaits.called
  refine ⟨called.trans grown, fun k early id target same => ?_, fun a member => ?_, fun resolved a member => ?_⟩
  · rw [ids k (by omega)] at same
    rcases awaits.behind k early id target same with done' | ⟨a, member, after, here⟩
    · exact .inl (settled k done')
    · have before := (awaits.only a member).1
      exact .inr ⟨a, member, after, by rw [ids a (by omega)]; exact here⟩
  · obtain ⟨before, id, target, same⟩ := awaits.only a member
    exact ⟨before, id, target, by rw [ids a (by omega)]; exact same⟩
  · exact settled a (awaits.ended resolved a member)

theorem Sound.setPhase (sound : q.Sound) (unsettled : q.isSettled k = false) (found : q.operations[k]? = some o)
    (behind : ∀ j < k, q.idOf j = some o.id → q.isSettled j = true) : (q.setPhase k p).Sound := by
  have settled : ∀ j, q.isSettled j = true → (q.setPhase k p).isSettled j = true := fun j =>
    isSettled_setPhase unsettled
  have ids : ∀ j < q.operations.length, (q.setPhase k p).idOf j = q.idOf j := fun _ _ => idOf_setPhase
  refine ⟨fun m n at' => ?_, fun id => ⟨fun j tail => ?_, fun none m same => ?_⟩, fun b member => ?_⟩
  · rw [getElem?_setPhase] at at'
    split at at'
    · rename_i same
      subst same
      rw [found] at at'
      cases at'
      have chained := (sound.chained k o found).later (lt_of_found found).le ids settled
      refine ⟨fun _ j below same => ?_, chained.free, chained.behind⟩
      rw [idOf_setPhase] at same
      exact settled j (behind j below same)
    · exact (sound.chained m n at').later (lt_of_found at').le ids settled
  · simp only [idOf_setPhase]
    exact (sound.tailed id).last j tail
  · rw [idOf_setPhase] at same
    exact settled m ((sound.tailed id).idle none m same)
  · exact (sound.awaits b member).later (le_of_eq length_setPhase.symm) ids settled

theorem Sound.runOperation (sound : q.Sound) (id : FacetId) : (q.runOperation id).Sound := by
  have ids : ∀ j < q.operations.length, (q.runOperation id).idOf j = q.idOf j := fun j early => idOf_runOperation early
  have settled : ∀ j, q.isSettled j = true → (q.runOperation id).isSettled j = true := fun j => isSettled_runOperation
  have last : (q.runOperation id).idOf q.operations.length = some id := idOf_of last_runOperation
  have whole : ∀ {m : Nat} {x : FacetId}, (q.runOperation id).idOf m = some x → m < q.operations.length + 1 := by
    intro m x same
    have inside := lt_of_idOf same
    rwa [length_runOperation] at inside
  have tailed := sound.tailed id
  refine ⟨fun m n found => ?_, fun x => ?_, fun b member => ?_⟩
  · by_cases early : m < q.operations.length
    · rw [getElem?_runOperation early] at found
      exact (sound.chained m n found).later early.le ids settled
    · have inside := lt_of_found found
      rw [length_runOperation] at inside
      obtain rfl : m = q.operations.length := by omega
      rw [last_runOperation] at found
      cases found
      have idle : q.tails id = none → ∀ j < q.operations.length, (q.runOperation id).idOf j = some id →
          (q.runOperation id).isSettled j = true := by
        intro none j below same
        rw [ids j below] at same
        exact settled j (tailed.idle none j same)
      refine ⟨fun begun => ?_, idle, fun j prior => ?_⟩
      · apply idle
        cases tail : q.tails id with
        | none => rfl
        | some j => exact absurd (by simp [tail]) begun
      · obtain ⟨same, after⟩ := tailed.last j prior
        have below := lt_of_idOf same
        refine ⟨below, by rw [ids j below]; exact same, fun i less same' => ?_⟩
        rw [ids i less] at same'
        exact after i same'
  · by_cases same : x = id
    · subst same
      have tail : (q.runOperation x).tails x = some q.operations.length := Function.update_self ..
      refine ⟨fun k is => ?_, fun none => ?_⟩
      · obtain rfl : q.operations.length = k := Option.some.inj (tail.symm.trans is)
        refine ⟨last, fun m same => ?_⟩
        have inside := whole same
        omega
      · rw [tail] at none
        cases none
    · have tail : (q.runOperation id).tails x = q.tails x := Function.update_of_ne same ..
      have earlier : ∀ {m : Nat}, (q.runOperation id).idOf m = some x → q.idOf m = some x := by
        intro m same'
        have inside := whole same'
        by_cases early : m < q.operations.length
        · rwa [ids m early] at same'
        · obtain rfl : m = q.operations.length := by omega
          rw [last] at same'
          exact absurd (Option.some.inj same').symm same
      refine ⟨fun k is => ?_, fun none m same' => ?_⟩
      · rw [tail] at is
        obtain ⟨here, after⟩ := (sound.tailed x).last k is
        have early := lt_of_idOf here
        exact ⟨by rw [ids k early]; exact here, fun m same' => after m (earlier same')⟩
      · rw [tail] at none
        exact settled m ((sound.tailed x).idle none m (earlier same'))
  · exact (sound.awaits b member).later (by rw [length_runOperation]; omega) ids settled

theorem Sound.clear (sound : q.Sound) (same : q.idOf k = some id) (settled : q.isSettled k = true) :
    (q.clear k id).Sound := by
  unfold OperationTails.clear
  split
  case isFalse => exact sound
  case isTrue tail =>
    refine ⟨fun m n found => ?_, fun x => ?_, fun b member => ?_⟩
    · obtain ⟨begun, free, behind⟩ := sound.chained m n found
      exact ⟨begun, free, behind⟩
    · have tailed := sound.tailed x
      by_cases here : x = id
      · subst here
        refine ⟨fun j is => ?_, fun _ m same' => ?_⟩
        · have cleared : Function.update q.tails x none x = none := Function.update_self ..
          cases cleared.symm.trans is
        · have before := (tailed.last k tail).2 m same'
          exact sound.settled_before same settled before same'
      · refine ⟨fun j is => tailed.last j ?_, fun none => tailed.idle ?_⟩
        · exact (Function.update_of_ne here ..).symm.trans is
        · exact (Function.update_of_ne here ..).symm.trans none
    · obtain ⟨called, behind, only, ended⟩ := sound.awaits b member
      exact ⟨called, behind, only, ended⟩

theorem Sound.barrier (sound : q.Sound) (targets : List FacetId) : (q.subtreeOperationBarrier targets).Sound := by
  refine ⟨fun m n found => ?_, fun x => ?_, fun b member => ?_⟩
  · obtain ⟨begun, free, behind⟩ := sound.chained m n found
    exact ⟨begun, free, behind⟩
  · obtain ⟨last, idle⟩ := sound.tailed x
    exact ⟨last, idle⟩
  · rcases List.mem_append.1 member with old | new
    · obtain ⟨called, behind, only, ended⟩ := sound.awaits b old
      exact ⟨called, behind, only, ended⟩
    · rw [List.mem_singleton.1 new]
      refine ⟨Nat.le_refl _, fun k early id target same => ?_, fun a held => ?_, fun resolved => by cases resolved⟩
      · have tailed := sound.tailed id
        cases tail : q.tails id with
        | none => exact .inl (tailed.idle tail k same)
        | some a =>
          obtain ⟨here, after⟩ := tailed.last a tail
          exact .inr ⟨a, List.mem_filterMap.2 ⟨id, target, tail⟩, after k same, here⟩
      · obtain ⟨id, target, tail⟩ := List.mem_filterMap.1 held
        have here := ((sound.tailed id).last a tail).1
        exact ⟨lt_of_idOf here, id, target, here⟩

theorem Sound.resume {i : Nat} {b : OperationBarrier} (sound : q.Sound) (found : q.barriers[i]? = some b)
    (settled : ∀ a ∈ b.awaited, q.isSettled a = true) :
    Sound { q with barriers := q.barriers.set i { b with resolved := true } } := by
  refine ⟨fun m n found => ?_, fun x => ?_, fun c member => ?_⟩
  · obtain ⟨begun, free, behind⟩ := sound.chained m n found
    exact ⟨begun, free, behind⟩
  · obtain ⟨last, idle⟩ := sound.tailed x
    exact ⟨last, idle⟩
  · rcases List.mem_or_eq_of_mem_set member with old | rfl
    · obtain ⟨called, behind, only, ended⟩ := sound.awaits c old
      exact ⟨called, behind, only, ended⟩
    · obtain ⟨called, behind, only, _⟩ := sound.awaits b (List.mem_of_getElem? found)
      exact ⟨called, behind, only, fun _ => settled⟩

theorem Sound.behind_prior (sound : q.Sound) (found : q.operations[k]? = some o) (prior : q.priorSettled k = true) :
    ∀ j < k, q.idOf j = some o.id → q.isSettled j = true := by
  have chained := sound.chained k o found
  cases is : o.prior with
  | none => exact chained.free is
  | some m =>
    have settled : q.isSettled m = true := by simpa [priorSettled, found, is] using prior
    obtain ⟨_, same, after⟩ := chained.behind m is
    intro j below here
    exact sound.settled_before same settled (after j below here) here

theorem phase_of (found : q.operations[k]? = some o) (is : q.phaseOf k = some p) : o.phase = p := by
  rw [phaseOf, found] at is
  exact Option.some.inj is

theorem found_of_phase (is : q.phaseOf k = some p) : ∃ o, q.operations[k]? = some o ∧ o.phase = p :=
  Option.map_eq_some_iff.1 is

theorem unsettled_of_phase (is : q.phaseOf k = some p) (going : p.isSettled = false) : q.isSettled k = false := by
  rw [isSettled, is]
  exact going

theorem step_sound {event : Event} (sound : q.Sound) (stepped : q.step event = some q') : q'.Sound := by
  cases event with
  | runOperation id =>
    cases stepped
    exact sound.runOperation id
  | begin k =>
    simp only [step, Option.ite_none_right_eq_some, Option.some.injEq] at stepped
    obtain ⟨⟨waiting, prior⟩, rfl⟩ := stepped
    obtain ⟨o, found, _⟩ := found_of_phase waiting
    exact sound.setPhase (unsettled_of_phase waiting rfl) found (sound.behind_prior found prior)
  | settle k ok =>
    simp only [step, Option.ite_none_right_eq_some, Option.some.injEq] at stepped
    obtain ⟨running, rfl⟩ := stepped
    obtain ⟨o, found, phase⟩ := found_of_phase running
    exact sound.setPhase (unsettled_of_phase running rfl) found ((sound.chained k o found).begun (by rw [phase]; decide))
  | clear k =>
    simp only [step] at stepped
    split at stepped
    · cases stepped
    · rename_i id same
      simp only [Option.ite_none_right_eq_some, Option.some.injEq] at stepped
      obtain ⟨settled, rfl⟩ := stepped
      exact sound.clear same settled
  | barrier targets =>
    cases stepped
    exact sound.barrier targets
  | resume i =>
    simp only [step] at stepped
    split at stepped
    · cases stepped
    · rename_i b found
      simp only [Option.ite_none_right_eq_some, Option.some.injEq, List.all_eq_true] at stepped
      obtain ⟨⟨_, settled⟩, rfl⟩ := stepped
      exact sound.resume found settled

theorem opened_sound : opened.Sound := by
  refine ⟨fun _ _ absent => ?_, fun id => ⟨fun _ absent => ?_, fun _ m absent => ?_⟩, fun _ absent => ?_⟩
  · cases absent
  · cases absent
  · cases absent
  · cases absent

/-- The first operation of a facet that has not settled runs, or can begin. -/
theorem Sound.goes_on (sound : q.Sound) (same : q.idOf k = some id) (unsettled : q.isSettled k = false) :
    ∃ j, q.idOf j = some id ∧ (q.phaseOf j = some .running ∨ (q.step (.begin j)).isSome = true) := by
  have some_first : ∃ j, q.idOf j = some id ∧ q.isSettled j = false := ⟨k, same, unsettled⟩
  obtain ⟨here, going⟩ := Nat.find_spec some_first
  have before : ∀ j < Nat.find some_first, q.idOf j = some id → q.isSettled j = true := by
    intro j below here
    have settled := Nat.find_min some_first below
    rw [not_and, Bool.not_eq_false] at settled
    exact settled here
  obtain ⟨o, found, rfl⟩ := operation_of_id here
  refine ⟨Nat.find some_first, here, ?_⟩
  have is : q.phaseOf (Nat.find some_first) = some o.phase := by
    rw [phaseOf, found]
    rfl
  rw [isSettled_of found] at going
  cases phase : o.phase
  · right
    have prior : q.priorSettled (Nat.find some_first) = true := by
      unfold priorSettled
      rw [found, Option.bind_some]
      cases last : o.prior with
      | none => rfl
      | some m =>
        obtain ⟨below, here, _⟩ := (sound.chained _ o found).behind m last
        exact before m below here
    rw [step, if_pos ⟨is.trans (congrArg some phase), prior⟩]
    rfl
  · exact .inl (is.trans (congrArg some phase))
  · rw [phase] at going
    cases going
  · rw [phase] at going
    cases going

theorem Sound.barrier_over {i : Nat} {b : OperationBarrier} (sound : q.Sound) (found : q.barriers[i]? = some b) :
    (∀ k < b.since, ∀ id ∈ b.targets, q.idOf k = some id → q.isSettled k = true) ↔
      b.resolved = true ∨ (q.step (.resume i)).isSome = true := by
  have awaits := sound.awaits b (List.mem_of_getElem? found)
  have resumes : (q.step (.resume i)).isSome = true ↔ b.resolved = false ∧ ∀ a ∈ b.awaited, q.isSettled a = true := by
    simp only [step, found, ← List.all_eq_true]
    split <;> simp_all
  have barred : (∀ a ∈ b.awaited, q.isSettled a = true) →
      ∀ k < b.since, ∀ id ∈ b.targets, q.idOf k = some id → q.isSettled k = true := by
    intro settled k early id target same
    rcases awaits.behind k early id target same with done | ⟨a, member, after, here⟩
    · exact done
    · exact sound.settled_before here (settled a member) after same
  rw [resumes]
  constructor
  · intro settled
    have free : ∀ a ∈ b.awaited, q.isSettled a = true := by
      intro a member
      obtain ⟨early, id, target, same⟩ := awaits.only a member
      exact settled a early id target same
    cases b.resolved
    · exact .inr ⟨rfl, free⟩
    · exact .inl rfl
  · intro ended
    rcases ended with resolved | ⟨_, settled⟩
    · exact barred (awaits.ended resolved)
    · exact barred settled

/-- The operations of one facet run one at a time in the order of their calls, also behind one that failed; and a
    barrier is over or can end exactly when every operation called before it on a facet of its subtree has settled. -/
theorem facet_operations_serialized (reached : Transition.Reaches step (fun _ _ => True) opened q) :
    (∀ k id, q.idOf k = some id → q.phaseOf k = some .running →
      (∀ j < k, q.idOf j = some id → q.isSettled j = true) ∧
        ∀ j, k < j → q.idOf j = some id → q.phaseOf j = some .waiting) ∧
    (∀ k id, q.idOf k = some id → q.isSettled k = false →
      ∃ j, q.idOf j = some id ∧ (q.phaseOf j = some .running ∨ (q.step (.begin j)).isSome = true)) ∧
    ∀ (i : Nat) (b : OperationBarrier), q.barriers[i]? = some b →
      ((∀ k < b.since, ∀ id ∈ b.targets, q.idOf k = some id → q.isSettled k = true) ↔
        b.resolved = true ∨ (q.step (.resume i)).isSome = true) := by
  have sound := reached.invariant opened_sound fun _ _ _ sound _ stepped => step_sound sound stepped
  refine ⟨fun k id same running => ?_, fun k id same unsettled => sound.goes_on same unsettled,
    fun i b found => sound.barrier_over found⟩
  obtain ⟨o, found, rfl⟩ := operation_of_id same
  have phase := phase_of found running
  refine ⟨(sound.chained k o found).begun (by rw [phase]; decide), fun j after here => ?_⟩
  obtain ⟨n, found', same'⟩ := operation_of_id here
  by_contra waits
  have begun : n.phase ≠ .waiting := by
    intro waiting
    rw [phaseOf, found'] at waits
    exact waits (congrArg some waiting)
  have settled := (sound.chained j n found').begun begun k after (by rw [same']; exact same)
  rw [unsettled_of_phase running rfl] at settled
  cases settled

/-- The barrier of a facet ends once its second operation, behind one that failed, has settled. -/
theorem facet_operations_serialized_failed : ∃ q, Transition.Reaches step (fun _ _ => True) opened q ∧
    q.phaseOf 0 = some .rejected ∧ (q.step (.resume 0)).isSome = true := by
  have ran : (Transition.run step opened [.runOperation 1, .runOperation 1, .barrier [1], .settle 0 false, .begin 1,
      .settle 1 true]).map (fun q => (q.phaseOf 0, q.phaseOf 1, q.barriers)) =
        some (some .rejected, some .fulfilled, [⟨[1], 2, [1], false⟩]) := by
    decide +kernel
  obtain ⟨q, ran, seen⟩ := Option.map_eq_some_iff.1 ran
  simp only [Prod.mk.injEq] at seen
  obtain ⟨first, second, barriers⟩ := seen
  have reached := Transition.run_reaches _ ran
  have serialized := facet_operations_serialized reached
  have settled : ∀ k < 2, ∀ id ∈ [1], q.idOf k = some id → q.isSettled k = true := by
    intro k below _ _ _
    rw [isSettled]
    by_cases zero : k = 0
    · rw [zero, first]
      rfl
    · rw [show k = 1 by omega, second]
      rfl
  have ended := (serialized.2.2 0 ⟨[1], 2, [1], false⟩ (by rw [barriers]; rfl)).1 settled
  exact ⟨q, reached, first, ended.resolve_left (by decide)⟩

end Invariant

end OperationTails

end DoRuntime.Facets
