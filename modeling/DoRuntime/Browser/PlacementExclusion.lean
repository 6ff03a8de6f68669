import DoRuntime.Browser.ActorTree

namespace DoRuntime.Browser.BrowserActorTree

open Transition

structure Consistent (t : BrowserActorTree) : Prop where
  starting : ∀ id operation, t.starting id = some operation →
    operation < t.nextOperation ∧ (t.operations operation).id = id ∧
      (t.operations operation).phase.inFlight = true
  live : ∀ id operation, t.live id = some operation →
    operation < t.nextOperation ∧ (t.operations operation).id = id ∧
      (t.operations operation).phase = .placed ∧ (t.operations operation).cancelled = false
  inFlight : ∀ operation < t.nextOperation, (t.operations operation).phase.inFlight = true →
    t.starting (t.operations operation).id = some operation
  placed : ∀ operation < t.nextOperation, (t.operations operation).phase = .placed →
    t.live (t.operations operation).id = some operation
  apart : ∀ id, t.starting id = none ∨ t.live id = none
  answered : ∀ call < t.nextCall, ∀ operation, (t.calls call).handle = .of operation →
    operation < t.nextOperation ∧ (t.operations operation).id = (t.calls call).id
  unused : ∀ operation, t.nextOperation ≤ operation → (t.operations operation).phase = .ended

/-- An operation that never becomes live. -/
def Doomed (t : BrowserActorTree) (operation : Nat) : Prop :=
  (t.operations operation).phase = .ended ∨ (t.operations operation).cancelled = true

structure Fenced (t : BrowserActorTree) : Prop where
  queued : ∀ call < t.nextCall, ∀ prior, (t.calls call).handle = .behind prior →
    (t.calls call).aborted = false
  aborted : ∀ call < t.nextCall, (t.calls call).aborted = true →
    ∃ operation, (t.calls call).handle = .of operation ∧ t.Doomed operation
  deletions : ∀ deletion d, t.deletions deletion = some d → d.since ≤ t.nextCall ∧
    ∀ call < d.since, (t.calls call).id = d.target →
      ∃ operation, (t.calls call).handle = .of operation ∧
        ((t.operations operation).phase = .ended ∨
          d.pending = some operation ∧ (t.operations operation).cancelled = true)
  deletedAll : ∀ d ∈ t.deletedAll, d.since ≤ t.nextCall ∧ d.found = [] ∧
    ∀ call < d.since, (t.calls call).id = d.target →
      ∃ operation, (t.calls call).handle = .of operation ∧ (t.operations operation).phase = .ended

theorem Consistent.exclusive {t : BrowserActorTree} (consistent : t.Consistent) : t.Exclusive := by
  intro i known_i j known_j open_i open_j same
  have holder : ∀ k < t.nextOperation, (t.operations k).phase.storageOpen = true →
      t.starting (t.operations k).id = some k ∨ t.live (t.operations k).id = some k := by
    intro k known held
    cases phase : (t.operations k).phase with
    | load | ended => simp [phase, Phase.storageOpen] at held
    | createActorContainer | containerStart =>
      exact .inl (consistent.inFlight k known (by rw [phase]; rfl))
    | placed => exact .inr (consistent.placed k known phase)
  have held_i := holder i known_i open_i
  have held_j := holder j known_j open_j
  rw [same] at held_i
  rcases consistent.apart (t.operations j).id with none_starting | none_live
  · simp_all
  · simp_all

theorem Fenced.abortFinal {t : BrowserActorTree} (consistent : t.Consistent) (fenced : t.Fenced) :
    t.AbortFinal := by
  intro id operation placed call known answered
  by_contra aborted
  obtain ⟨doomed, same, unwinds⟩ := fenced.aborted call known (Bool.eq_true_of_not_eq_false aborted)
  obtain ⟨_, _, phase, uncancelled⟩ := consistent.live id operation placed
  cases same.symm.trans answered
  rcases unwinds with ended | cancelled
  · rw [phase] at ended
    cases ended
  · rw [uncancelled] at cancelled
    cases cancelled

theorem Fenced.deletionFinal {t : BrowserActorTree} (consistent : t.Consistent) (fenced : t.Fenced) :
    t.DeletionFinal := by
  intro d logged
  obtain ⟨_, found, unwound⟩ := fenced.deletedAll d logged
  refine ⟨found, ?_⟩
  intro call before target operation answered placed
  obtain ⟨ended, same, phase⟩ := unwound call before target
  cases same.symm.trans answered
  rw [(consistent.live _ _ placed).2.2.1] at phase
  cases phase

/-- What the calls and the deletions of `t` have settled stays settled in `t'`. -/
structure Extends (t t' : BrowserActorTree) : Prop where
  calls : t'.calls = t.calls
  nextCall : t'.nextCall = t.nextCall
  deletions : t'.deletions = t.deletions
  deletedAll : t'.deletedAll = t.deletedAll
  ended : ∀ operation < t.nextOperation, (t.operations operation).phase = .ended →
    (t'.operations operation).phase = .ended
  cancelled : ∀ operation < t.nextOperation, (t.operations operation).cancelled = true →
    (t'.operations operation).cancelled = true

theorem Fenced.extends {t t' : BrowserActorTree} (fenced : t.Fenced) (consistent : t.Consistent)
    (extends_ : Extends t t') : t'.Fenced := by
  obtain ⟨calls, nextCall, deletions, deletedAll, ended, cancelled⟩ := extends_
  have known := fun call before operation answered => (consistent.answered call before operation answered).1
  refine ⟨?_, ?_, ?_, ?_⟩ <;> simp only [calls, nextCall, deletions, deletedAll]
  · exact fenced.queued
  · intro call before aborted
    obtain ⟨operation, answered, doomed⟩ := fenced.aborted call before aborted
    have registered := known call before operation answered
    refine ⟨operation, answered, ?_⟩
    exact doomed.imp (ended operation registered) (cancelled operation registered)
  · intro deletion d pending
    obtain ⟨since, fenced⟩ := fenced.deletions deletion d pending
    refine ⟨since, ?_⟩
    intro call before target
    obtain ⟨operation, answered, unwinds⟩ := fenced call before target
    have registered := known call (by omega) operation answered
    refine ⟨operation, answered, ?_⟩
    exact unwinds.imp (ended operation registered) (And.imp_right (cancelled operation registered))
  · intro d logged
    obtain ⟨since, found, fenced⟩ := fenced.deletedAll d logged
    refine ⟨since, found, ?_⟩
    intro call before target
    obtain ⟨operation, answered, unwound⟩ := fenced call before target
    exact ⟨operation, answered, ended operation (known call (by omega) operation answered) unwound⟩

theorem Consistent.register {t : BrowserActorTree} (consistent : t.Consistent) {id : FacetId}
    (unstarted : t.starting id = none) (idle : t.live id = none) :
    (t.register id).Consistent ∧ Extends t (t.register id) := by
  have others : ∀ operation < t.nextOperation, (t.register id).operations operation = t.operations operation := by
    intro operation known
    simp [BrowserActorTree.register, Nat.ne_of_lt known]
  refine ⟨⟨?_, ?_, ?_, ?_, ?_, ?_, ?_⟩, rfl, rfl, rfl, rfl, ?_, ?_⟩
  · intro i operation started
    by_cases same : i = id
    · subst same
      obtain rfl : t.nextOperation = operation := by simpa [BrowserActorTree.register] using started
      simp [BrowserActorTree.register, Phase.inFlight]
    · obtain ⟨known, placed, phase⟩ := consistent.starting i operation
        (by simpa [BrowserActorTree.register, same] using started)
      rw [others operation known]
      exact ⟨Nat.lt_succ_of_lt known, placed, phase⟩
  · intro i operation live
    obtain ⟨known, placed⟩ := consistent.live i operation live
    rw [others operation known]
    exact ⟨Nat.lt_succ_of_lt known, placed⟩
  · intro operation known flying
    by_cases new : operation = t.nextOperation
    · simp [BrowserActorTree.register, new]
    · have known : operation < t.nextOperation := by
        have : operation < t.nextOperation + 1 := known
        omega
      rw [others operation known] at flying ⊢
      have started := consistent.inFlight operation known flying
      have other : (t.operations operation).id ≠ id := by
        intro same
        rw [same, unstarted] at started
        cases started
      simpa [BrowserActorTree.register, other] using started
  · intro operation known placed
    by_cases new : operation = t.nextOperation
    · simp [BrowserActorTree.register, new] at placed
    · have known : operation < t.nextOperation := by
        have : operation < t.nextOperation + 1 := known
        omega
      rw [others operation known] at placed ⊢
      exact consistent.placed operation known placed
  · intro i
    by_cases same : i = id
    · exact .inr (by rw [same]; exact idle)
    · simpa [BrowserActorTree.register, same] using consistent.apart i
  · intro call before operation answered
    obtain ⟨known, same⟩ := consistent.answered call before operation answered
    rw [others operation known]
    exact ⟨Nat.lt_succ_of_lt known, same⟩
  · intro operation fresh
    have beyond : t.nextOperation + 1 ≤ operation := fresh
    have : operation ≠ t.nextOperation := by omega
    simpa [BrowserActorTree.register, this] using consistent.unused operation (by omega)
  · intro operation known phase
    rw [others operation known]
    exact phase
  · intro operation known cancelled
    rw [others operation known]
    exact cancelled

theorem Extends.refl (t : BrowserActorTree) : Extends t t :=
  ⟨rfl, rfl, rfl, rfl, fun _ _ phase => phase, fun _ _ cancelled => cancelled⟩

/-- What one `start` does to the operations, and the operation that its handle names. -/
theorem Consistent.place {t : BrowserActorTree} (consistent : t.Consistent) (id : FacetId) :
    (t.place id).2.Consistent ∧ Extends t (t.place id).2 ∧
      ∀ operation, (t.place id).1 = .of operation → operation < (t.place id).2.nextOperation ∧
        ((t.place id).2.operations operation).id = id := by
  unfold BrowserActorTree.place
  cases live : t.live id with
  | some current =>
    refine ⟨consistent, Extends.refl t, ?_⟩
    intro operation same
    cases same
    obtain ⟨known, same, _⟩ := consistent.live id current live
    exact ⟨known, same⟩
  | none =>
    cases starting : t.starting id with
    | some prior =>
      refine ⟨consistent, Extends.refl t, ?_⟩
      intro operation same
      obtain ⟨known, placed, _⟩ := consistent.starting id prior starting
      by_cases cancelled : (t.operations prior).cancelled = true
      · simp [cancelled] at same
      · simp only [cancelled, Bool.false_eq_true, if_false, Handle.of.injEq] at same
        subst same
        exact ⟨known, placed⟩
    | none =>
      obtain ⟨registered, extends_⟩ := consistent.register starting live
      refine ⟨registered, extends_, ?_⟩
      intro operation same
      cases same
      simp [BrowserActorTree.register]

theorem Consistent.start {t : BrowserActorTree} (consistent : t.Consistent) (fenced : t.Fenced)
    (id : FacetId) : (t.start id).Consistent ∧ (t.start id).Fenced := by
  obtain ⟨placed, extends_, answers⟩ := consistent.place id
  have kept := fenced.extends consistent extends_
  unfold BrowserActorTree.start
  generalize t.place id = result at *
  obtain ⟨handle, t'⟩ := result
  dsimp only at placed kept answers ⊢
  have old : ∀ call < t'.nextCall, (if call = t'.nextCall then
      { id, handle, aborted := false } else t'.calls call : StartCall) = t'.calls call := by
    intro call before
    simp [Nat.ne_of_lt before]
  refine ⟨{ placed with answered := ?_ }, ⟨?_, ?_, ?_, ?_⟩⟩
  · intro call before operation answered
    by_cases new : call = t'.nextCall
    · simp only [new, if_true] at answered ⊢
      exact answers operation answered
    · simp only [new, if_false] at answered ⊢
      exact placed.answered call (by have : call < t'.nextCall + 1 := before; omega) operation answered
  · intro call before prior queued
    by_cases new : call = t'.nextCall
    · simp [new]
    · simp only [new, if_false] at queued ⊢
      exact kept.queued call (by have : call < t'.nextCall + 1 := before; omega) prior queued
  · intro call before aborted
    by_cases new : call = t'.nextCall
    · simp [new] at aborted
    · simp only [new, if_false] at aborted ⊢
      exact kept.aborted call (by have : call < t'.nextCall + 1 := before; omega) aborted
  · intro deletion d pending
    obtain ⟨since, fenced⟩ := kept.deletions deletion d pending
    refine ⟨Nat.le_succ_of_le since, ?_⟩
    intro call before
    dsimp only
    rw [old call (by omega)]
    exact fenced call before
  · intro d logged
    obtain ⟨since, found, fenced⟩ := kept.deletedAll d logged
    refine ⟨Nat.le_succ_of_le since, found, ?_⟩
    intro call before
    dsimp only
    rw [old call (by omega)]
    exact fenced call before

/-- A queued call answers no deletion that is under way. -/
theorem Consistent.startAgain {t : BrowserActorTree} (consistent : t.Consistent) (fenced : t.Fenced)
    {call prior : Nat} (made : call < t.nextCall) (queued : (t.calls call).handle = .behind prior) :
    (t.startAgain call).Consistent ∧ (t.startAgain call).Fenced := by
  obtain ⟨placed, extends_, answers⟩ := consistent.place (t.calls call).id
  have kept := fenced.extends consistent extends_
  have same_calls := extends_.calls
  rw [← same_calls] at queued
  rw [← extends_.nextCall] at made
  unfold BrowserActorTree.startAgain
  generalize t.place (t.calls call).id = result at *
  obtain ⟨handle, t'⟩ := result
  dsimp only at placed kept answers queued made ⊢
  have others : ∀ i, i ≠ call → (if i = call then { t'.calls i with handle } else t'.calls i) = t'.calls i := by
    intro i other
    simp [other]
  have same_id : ∀ i, (if i = call then { t'.calls i with handle } else t'.calls i).id = (t'.calls i).id := by
    intro i
    split <;> rfl
  have unanswered : ∀ operation, (t'.calls call).handle ≠ .of operation := by
    intro operation answered
    rw [queued] at answered
    cases answered
  refine ⟨{ placed with answered := ?_ }, ⟨?_, ?_, ?_, ?_⟩⟩
  · intro i before operation answered
    dsimp only at answered ⊢
    rw [same_id]
    by_cases same : i = call
    · subst same
      rw [same_calls]
      exact answers operation (by simpa using answered)
    · rw [others i same] at answered
      exact placed.answered i before operation answered
  · intro i before prior' queued'
    by_cases same : i = call
    · subst same
      simpa using kept.queued i made prior queued
    · dsimp only at queued' ⊢
      rw [others i same] at queued' ⊢
      exact kept.queued i before prior' queued'
  · intro i before aborted
    by_cases same : i = call
    · subst same
      simp [kept.queued i made prior queued] at aborted
    · dsimp only at aborted ⊢
      rw [others i same] at aborted ⊢
      exact kept.aborted i before aborted
  · intro deletion d pending
    obtain ⟨since, fenced⟩ := kept.deletions deletion d pending
    refine ⟨since, ?_⟩
    intro i before target
    dsimp only at target ⊢
    rw [same_id] at target
    obtain ⟨operation, answered, unwinds⟩ := fenced i before target
    have other : i ≠ call := fun same => unanswered operation (by rw [← same, answered])
    exact ⟨operation, by rw [others i other, answered], unwinds⟩
  · intro d logged
    obtain ⟨since, found, fenced⟩ := kept.deletedAll d logged
    refine ⟨since, found, ?_⟩
    intro i before target
    dsimp only at target ⊢
    rw [same_id] at target
    obtain ⟨operation, answered, unwound⟩ := fenced i before target
    have other : i ≠ call := fun same => unanswered operation (by rw [← same, answered])
    exact ⟨operation, by rw [others i other, answered], unwound⟩

section Phases

variable {t : BrowserActorTree} {operation : Nat}

theorem Consistent.known (consistent : t.Consistent) (flying : (t.operations operation).phase.inFlight = true) :
    operation < t.nextOperation := by
  by_contra unknown
  rw [consistent.unused operation (by omega)] at flying
  cases flying

@[simp]
theorem setPhase_id (phase : Phase) (i : Nat) :
    ((t.setPhase operation phase).operations i).id = (t.operations i).id := by
  unfold setPhase
  dsimp only
  split <;> rfl

@[simp]
theorem setPhase_cancelled (phase : Phase) (i : Nat) :
    ((t.setPhase operation phase).operations i).cancelled = (t.operations i).cancelled := by
  unfold setPhase
  dsimp only
  split <;> rfl

theorem setPhase_self (phase : Phase) : ((t.setPhase operation phase).operations operation).phase = phase := by
  simp [setPhase]

theorem setPhase_other (phase : Phase) {i : Nat} (other : i ≠ operation) :
    ((t.setPhase operation phase).operations i).phase = (t.operations i).phase := by
  simp [setPhase, other]

/-- Moving an operation that has not ended settles nothing anew. -/
theorem setPhase_extends (phase : Phase) (flying : (t.operations operation).phase.inFlight = true) :
    Extends t (t.setPhase operation phase) := by
  refine ⟨rfl, rfl, rfl, rfl, ?_, ?_⟩
  · intro i _ ended
    have other : i ≠ operation := by
      intro same
      rw [← same, ended] at flying
      cases flying
    rw [setPhase_other phase other, ended]
  · intro i _ cancelled
    rwa [setPhase_cancelled]

theorem Consistent.setPhase (consistent : t.Consistent) {phase : Phase}
    (flying : (t.operations operation).phase.inFlight = true) (flies : phase.inFlight = true) :
    (t.setPhase operation phase).Consistent := by
  have phases : ∀ i, ((t.setPhase operation phase).operations i).phase.inFlight =
      (t.operations i).phase.inFlight := by
    intro i
    by_cases same : i = operation
    · rw [same, setPhase_self, flies, flying]
    · rw [setPhase_other phase same]
  have unplaced : ∀ i, (t.operations i).phase.inFlight = false → i ≠ operation := by
    intro i still same
    rw [same, flying] at still
    cases still
  refine ⟨?_, ?_, ?_, ?_, consistent.apart, ?_, ?_⟩
  · intro id i started
    rw [setPhase_id, phases]
    exact consistent.starting id i started
  · intro id i live
    obtain ⟨known, same, placed, uncancelled⟩ := consistent.live id i live
    have other := unplaced i (by rw [placed]; rfl)
    rw [setPhase_id, setPhase_other phase other, setPhase_cancelled]
    exact ⟨known, same, placed, uncancelled⟩
  · intro i known held
    rw [phases] at held
    rw [setPhase_id]
    exact consistent.inFlight i known held
  · intro i known placed
    have other := unplaced i (by rw [← phases, placed]; rfl)
    rw [setPhase_other phase other] at placed
    rw [setPhase_id]
    exact consistent.placed i known placed
  · intro call made i answered
    rw [setPhase_id]
    exact consistent.answered call made i answered
  · intro i fresh
    have ended := consistent.unused i fresh
    have other := unplaced i (by rw [ended]; rfl)
    rw [setPhase_other phase other, ended]

/-- The only entry of `#starting` that `unregister` takes out is the operation's own. -/
theorem Consistent.unregister_starting (consistent : t.Consistent) (known : operation < t.nextOperation)
    (flying : (t.operations operation).phase.inFlight = true) (id : FacetId) :
    (t.unregister operation).starting id =
      if id = (t.operations operation).id then none else t.starting id := by
  have started := consistent.inFlight operation known flying
  by_cases same : id = (t.operations operation).id
  · simp [unregister, same, started]
  · have other : t.starting id ≠ some operation := by
      intro held
      exact same (consistent.starting id operation held).2.1.symm
    simp [unregister, same, other]

theorem Consistent.unwind (consistent : t.Consistent)
    (flying : (t.operations operation).phase.inFlight = true) : (t.unwind operation).Consistent := by
  have known := consistent.known flying
  have starting : ∀ id, (t.unwind operation).starting id =
      if id = (t.operations operation).id then none else t.starting id :=
    consistent.unregister_starting known flying
  have others : ∀ i, i ≠ operation → (t.unwind operation).operations i = t.operations i := by
    intro i other
    simp [BrowserActorTree.unwind, unregister, BrowserActorTree.setPhase, other]
  have same_id : ∀ i, ((t.unwind operation).operations i).id = (t.operations i).id := fun i => setPhase_id _ i
  have ended : ((t.unwind operation).operations operation).phase = .ended := setPhase_self _
  refine ⟨?_, ?_, ?_, ?_, ?_, ?_, ?_⟩
  · intro id i started
    rw [starting] at started
    split at started
    · cases started
    · rename_i apart
      obtain ⟨bound, same, phase⟩ := consistent.starting id i started
      have other : i ≠ operation := fun eq => apart (by rw [← same, eq])
      rw [others i other]
      exact ⟨bound, same, phase⟩
  · intro id i live
    obtain ⟨bound, same, placed, uncancelled⟩ := consistent.live id i live
    have other : i ≠ operation := by
      intro eq
      rw [← eq, placed] at flying
      cases flying
    rw [others i other]
    exact ⟨bound, same, placed, uncancelled⟩
  · intro i bound held
    have other : i ≠ operation := by
      intro eq
      rw [eq, ended] at held
      cases held
    rw [others i other] at held ⊢
    have started := consistent.inFlight i bound held
    rw [starting, if_neg ?_]
    · exact started
    · intro eq
      rw [eq, consistent.inFlight operation known flying] at started
      cases started
      exact other rfl
  · intro i bound placed
    have other : i ≠ operation := by
      intro eq
      rw [eq, ended] at placed
      cases placed
    rw [others i other] at placed ⊢
    exact consistent.placed i bound placed
  · intro id
    rw [starting]
    split
    · exact .inl rfl
    · exact consistent.apart id
  · intro call made i answered
    rw [same_id]
    exact consistent.answered call made i answered
  · intro i fresh
    have beyond : t.nextOperation ≤ i := fresh
    rw [others i (by omega)]
    exact consistent.unused i fresh

theorem Consistent.goLive (consistent : t.Consistent)
    (flying : (t.operations operation).phase.inFlight = true)
    (uncancelled : (t.operations operation).cancelled = false) : (t.goLive operation).Consistent := by
  have known := consistent.known flying
  have started := consistent.inFlight operation known flying
  have idle : t.live (t.operations operation).id = none := by
    rcases consistent.apart (t.operations operation).id with unstarted | idle
    · rw [started] at unstarted
      cases unstarted
    · exact idle
  have starting : ∀ id, (t.goLive operation).starting id =
      if id = (t.operations operation).id then none else t.starting id :=
    consistent.unregister_starting known flying
  have live : ∀ id, (t.goLive operation).live id =
      if id = (t.operations operation).id then some operation else t.live id := fun _ => rfl
  have others : ∀ i, i ≠ operation → (t.goLive operation).operations i = t.operations i := by
    intro i other
    simp [BrowserActorTree.goLive, unregister, BrowserActorTree.setPhase, other]
  have same_id : ∀ i, ((t.goLive operation).operations i).id = (t.operations i).id := fun i => setPhase_id _ i
  have placed : ((t.goLive operation).operations operation).phase = .placed := setPhase_self _
  have still : ((t.goLive operation).operations operation).cancelled = false :=
    (setPhase_cancelled _ operation).trans uncancelled
  refine ⟨?_, ?_, ?_, ?_, ?_, ?_, ?_⟩
  · intro id i held
    rw [starting] at held
    split at held
    · cases held
    · rename_i apart
      obtain ⟨bound, same, phase⟩ := consistent.starting id i held
      have other : i ≠ operation := fun eq => apart (by rw [← same, eq])
      rw [others i other]
      exact ⟨bound, same, phase⟩
  · intro id i held
    rw [live] at held
    split at held
    · rename_i same
      cases held
      rw [same_id]
      exact ⟨known, same.symm, placed, still⟩
    · rename_i apart
      obtain ⟨bound, same, phase⟩ := consistent.live id i held
      have other : i ≠ operation := fun eq => apart (by rw [← same, eq])
      rw [others i other]
      exact ⟨bound, same, phase⟩
  · intro i bound held
    have other : i ≠ operation := by
      intro eq
      rw [eq, placed] at held
      cases held
    rw [others i other] at held ⊢
    have begun := consistent.inFlight i bound held
    rw [starting, if_neg ?_]
    · exact begun
    · intro eq
      rw [eq, started] at begun
      cases begun
      exact other rfl
  · intro i bound held
    rw [same_id, live]
    by_cases same : i = operation
    · rw [if_pos (by rw [same]), same]
    · rw [others i same] at held
      have earlier := consistent.placed i bound held
      rw [if_neg ?_]
      · exact earlier
      · intro eq
        rw [eq, idle] at earlier
        cases earlier
  · intro id
    rw [starting, live]
    split
    · exact .inl rfl
    · exact consistent.apart id
  · intro call made i answered
    rw [same_id]
    exact consistent.answered call made i answered
  · intro i fresh
    have beyond : t.nextOperation ≤ i := fresh
    rw [others i (by omega)]
    exact consistent.unused i fresh

theorem unwind_extends (flying : (t.operations operation).phase.inFlight = true) :
    Extends t (t.unwind operation) := by
  obtain ⟨_, _, _, _, ended, cancelled⟩ := setPhase_extends .ended flying
  exact ⟨rfl, rfl, rfl, rfl, ended, cancelled⟩

theorem goLive_extends (flying : (t.operations operation).phase.inFlight = true) :
    Extends t (t.goLive operation) := by
  obtain ⟨_, _, _, _, ended, cancelled⟩ := setPhase_extends .placed flying
  exact ⟨rfl, rfl, rfl, rfl, ended, cancelled⟩

theorem Consistent.proceed (consistent : t.Consistent) (fenced : t.Fenced)
    (flying : (t.operations operation).phase.inFlight = true) (ok : Bool) {next : Phase}
    (flies : next.inFlight = true) :
    (t.proceed operation ok next).Consistent ∧ (t.proceed operation ok next).Fenced := by
  unfold BrowserActorTree.proceed
  split
  · exact ⟨consistent.setPhase flying flies, fenced.extends consistent (setPhase_extends next flying)⟩
  · exact ⟨consistent.unwind flying, fenced.extends consistent (unwind_extends flying)⟩

theorem Consistent.containerStarted (consistent : t.Consistent) (fenced : t.Fenced)
    (flying : (t.operations operation).phase.inFlight = true) (ok : Bool) :
    (t.containerStarted operation ok).Consistent ∧ (t.containerStarted operation ok).Fenced := by
  unfold BrowserActorTree.containerStarted
  split
  · rename_i started
    exact ⟨consistent.goLive flying started.2, fenced.extends consistent (goLive_extends flying)⟩
  · exact ⟨consistent.unwind flying, fenced.extends consistent (unwind_extends flying)⟩

end Phases

section Aborts

variable {t : BrowserActorTree}

theorem abortAll_id (ids : FacetId → Bool) (i : Nat) :
    ((t.abortAll ids).operations i).id = (t.operations i).id := by
  unfold abortAll
  dsimp only
  split
  · split
    · rfl
    · split <;> rfl
  · rfl

/-- An aborted operation in flight is cancelled; any other is over. -/
theorem Consistent.abortAll_operation (consistent : t.Consistent) (ids : FacetId → Bool) (i : Nat) :
    (t.abortAll ids).operations i =
      if ids (t.operations i).id = true then
        if (t.operations i).phase.inFlight = true then { t.operations i with cancelled := true }
        else { t.operations i with phase := .ended }
      else t.operations i := by
  unfold BrowserActorTree.abortAll
  dsimp only
  split
  · by_cases flying : (t.operations i).phase.inFlight = true
    · rw [if_pos (consistent.inFlight i (consistent.known flying) flying), if_pos flying]
    · have unstarted : t.starting (t.operations i).id ≠ some i :=
        fun started => flying (consistent.starting _ i started).2.2
      rw [if_neg unstarted, if_neg flying]
      split
      · rfl
      · rename_i idle
        have ended : (t.operations i).phase = .ended := by
          by_cases known : i < t.nextOperation
          · cases phase : (t.operations i).phase with
            | placed => exact absurd (consistent.placed i known phase) idle
            | ended => rfl
            | load | createActorContainer | containerStart => simp [phase, Phase.inFlight] at flying
          · exact consistent.unused i (by omega)
        rw [← ended]
  · rfl

theorem Consistent.abortAll_inFlight (consistent : t.Consistent) (ids : FacetId → Bool) (i : Nat) :
    ((t.abortAll ids).operations i).phase.inFlight = (t.operations i).phase.inFlight := by
  rw [consistent.abortAll_operation]
  split
  · split
    · rfl
    · rename_i still
      rw [Bool.eq_false_of_not_eq_true still]
      rfl
  · rfl

theorem Consistent.abortAll (consistent : t.Consistent) (ids : FacetId → Bool) :
    (t.abortAll ids).Consistent := by
  have unplaced : ∀ i, ids (t.operations i).id = true → ((t.abortAll ids).operations i).phase ≠ .placed := by
    intro i aborted
    rw [consistent.abortAll_operation, if_pos aborted]
    split
    · rename_i flying
      intro placed
      rw [show (t.operations i).phase = .placed from placed] at flying
      cases flying
    · simp
  refine ⟨?_, ?_, ?_, ?_, ?_, ?_, ?_⟩
  · intro id i started
    rw [abortAll_id, consistent.abortAll_inFlight]
    exact consistent.starting id i started
  · intro id i live
    simp only [BrowserActorTree.abortAll] at live
    split at live
    · cases live
    · rename_i kept
      obtain ⟨known, same, placed⟩ := consistent.live id i live
      rw [consistent.abortAll_operation, if_neg (by rw [same]; exact kept)]
      exact ⟨known, same, placed⟩
  · intro i known held
    rw [consistent.abortAll_inFlight] at held
    rw [abortAll_id]
    exact consistent.inFlight i known held
  · intro i known placed
    have kept : ¬ ids (t.operations i).id = true := fun aborted => unplaced i aborted placed
    rw [consistent.abortAll_operation, if_neg kept] at placed ⊢
    simp only [BrowserActorTree.abortAll, kept]
    exact consistent.placed i known placed
  · intro id
    rcases consistent.apart id with unstarted | idle
    · exact .inl unstarted
    · refine .inr ?_
      simp [BrowserActorTree.abortAll, idle]
  · intro call made i answered
    simp only [BrowserActorTree.abortAll] at answered
    have same_call : ((t.abortAll ids).calls call).id = (t.calls call).id := by
      simp only [BrowserActorTree.abortAll]
      split <;> rfl
    rw [abortAll_id, same_call]
    apply consistent.answered call made i
    split at answered <;> exact answered
  · intro i fresh
    have ended := consistent.unused i fresh
    rw [consistent.abortAll_operation, ended]
    split <;> simp_all [Phase.inFlight]

/-- A call that did not queue, for an aborted id, holds an operation that is over or unwinds. -/
theorem Consistent.aborted_call (consistent : t.Consistent) (ids : FacetId → Bool) {call : Nat}
    (made : call < t.nextCall) (aborted : ids (t.calls call).id = true)
    (unqueued : ∀ prior, (t.calls call).handle ≠ .behind prior) :
    ∃ operation, (t.calls call).handle = .of operation ∧
      (((t.abortAll ids).operations operation).phase = .ended ∨
        t.starting (t.calls call).id = some operation ∧
          ((t.abortAll ids).operations operation).cancelled = true) := by
  cases answered : (t.calls call).handle with
  | behind prior => exact absurd answered (unqueued prior)
  | of operation =>
    obtain ⟨known, same⟩ := consistent.answered call made operation answered
    refine ⟨operation, rfl, ?_⟩
    rw [consistent.abortAll_operation, same, if_pos aborted]
    split
    · rename_i flying
      refine .inr ⟨?_, rfl⟩
      rw [← same]
      exact consistent.inFlight operation known flying
    · exact .inl rfl

theorem abortAll_handle (ids : FacetId → Bool) (call : Nat) :
    ((t.abortAll ids).calls call).handle = (t.calls call).handle ∧
      ((t.abortAll ids).calls call).id = (t.calls call).id := by
  simp only [abortAll]
  split <;> exact ⟨rfl, rfl⟩

theorem Consistent.abortAll_settles (consistent : t.Consistent) (ids : FacetId → Bool) (i : Nat) :
    ((t.operations i).phase = .ended → ((t.abortAll ids).operations i).phase = .ended) ∧
      ((t.operations i).cancelled = true → ((t.abortAll ids).operations i).cancelled = true) := by
  rw [consistent.abortAll_operation]
  split
  · split
    · exact ⟨id, fun _ => rfl⟩
    · exact ⟨fun _ => rfl, id⟩
  · exact ⟨id, id⟩

theorem Fenced.abortAll (fenced : t.Fenced) (consistent : t.Consistent) (ids : FacetId → Bool)
    (unqueued : ∀ call < t.nextCall, ids (t.calls call).id = true →
      ∀ prior, (t.calls call).handle ≠ .behind prior) : (t.abortAll ids).Fenced := by
  refine ⟨?_, ?_, ?_, ?_⟩
  · intro call made prior queued
    rw [(abortAll_handle ids call).1] at queued
    have kept : ¬ ids (t.calls call).id = true := fun aborted => unqueued call made aborted prior queued
    simp only [BrowserActorTree.abortAll, kept]
    exact fenced.queued call made prior queued
  · intro call made flagged
    rw [(abortAll_handle ids call).1]
    by_cases aborted : ids (t.calls call).id = true
    · obtain ⟨operation, answered, unwinds⟩ :=
        consistent.aborted_call ids made aborted (unqueued call made aborted)
      exact ⟨operation, answered, unwinds.imp id And.right⟩
    · simp only [BrowserActorTree.abortAll, aborted] at flagged
      obtain ⟨operation, answered, doomed⟩ := fenced.aborted call made flagged
      obtain ⟨ended, cancelled⟩ := consistent.abortAll_settles ids operation
      exact ⟨operation, answered, doomed.imp ended cancelled⟩
  · intro deletion d pending
    obtain ⟨since, fenced⟩ := fenced.deletions deletion d pending
    refine ⟨since, ?_⟩
    intro call before target
    rw [(abortAll_handle ids call).2] at target
    rw [(abortAll_handle ids call).1]
    obtain ⟨operation, answered, unwinds⟩ := fenced call before target
    obtain ⟨ended, cancelled⟩ := consistent.abortAll_settles ids operation
    exact ⟨operation, answered, unwinds.imp ended (And.imp_right cancelled)⟩
  · intro d logged
    obtain ⟨since, found, fenced⟩ := fenced.deletedAll d logged
    refine ⟨since, found, ?_⟩
    intro call before target
    rw [(abortAll_handle ids call).2] at target
    rw [(abortAll_handle ids call).1]
    obtain ⟨operation, answered, unwound⟩ := fenced call before target
    exact ⟨operation, answered, (consistent.abortAll_settles ids operation).1 unwound⟩

end Aborts

section Deletions

variable {t : BrowserActorTree}

theorem Consistent.deleteNext (consistent : t.Consistent) (fenced : t.Fenced) {deletion since : Nat}
    (made : since ≤ t.nextCall) {targets : List FacetId}
    (unqueued : ∀ target, targets.head? = some target → ∀ call < t.nextCall, (t.calls call).id = target →
      ∀ prior, (t.calls call).handle ≠ .behind prior) :
    (t.deleteNext deletion since targets).Consistent ∧ (t.deleteNext deletion since targets).Fenced := by
  cases targets with
  | nil =>
    obtain ⟨queued, aborted, deletions, deletedAll⟩ := fenced
    refine ⟨{ consistent with }, queued, aborted, ?_, deletedAll⟩
    intro i d pending
    simp only [BrowserActorTree.deleteNext, setDeletion] at pending
    split at pending
    · cases pending
    · exact deletions i d pending
  | cons target rest =>
    have aborts : ∀ call < t.nextCall, (t.calls call).id == target → ∀ prior, (t.calls call).handle ≠ .behind prior :=
      fun call before same => unqueued target rfl call before (beq_iff_eq.1 same)
    obtain ⟨queued, aborted, deletions, deletedAll⟩ := fenced.abortAll consistent (· == target) aborts
    refine ⟨{ consistent.abortAll (· == target) with }, queued, aborted, ?_, deletedAll⟩
    intro i d pending
    simp only [BrowserActorTree.deleteNext, setDeletion] at pending
    split at pending
    · cases pending
      refine ⟨made, ?_⟩
      intro call before same
      rw [show ((t.deleteNext deletion since (target :: rest)).calls call).id = _ from
        (abortAll_handle (· == target) call).2] at same
      have aborted : (t.calls call).id == target := beq_iff_eq.2 same
      have earlier : call < t.nextCall := Nat.lt_of_lt_of_le before made
      obtain ⟨operation, answered, unwinds⟩ :=
        consistent.aborted_call (· == target) earlier aborted (aborts call earlier aborted)
      refine ⟨operation, (abortAll_handle (· == target) call).1.trans answered, ?_⟩
      rw [same] at unwinds
      exact unwinds
    · exact deletions i d pending

/-- Once its pending start has unwound, a deletion finds no earlier placement. -/
theorem Fenced.logDeleteAll (fenced : t.Fenced) (consistent : t.Consistent) {deletion : Nat} {d : Deletion}
    (pending : t.deletions deletion = some d) (settled : d.pending.all t.settled = true) :
    (t.logDeleteAll d).Fenced := by
  obtain ⟨since, covered⟩ := fenced.deletions deletion d pending
  have unwound : ∀ call < d.since, (t.calls call).id = d.target →
      ∃ operation, (t.calls call).handle = .of operation ∧ (t.operations operation).phase = .ended := by
    intro call before target
    obtain ⟨operation, answered, unwinds⟩ := covered call before target
    refine ⟨operation, answered, ?_⟩
    rcases unwinds with ended | ⟨awaited, cancelled⟩
    · exact ended
    · simp only [awaited, Option.all_some, BrowserActorTree.settled, Bool.not_eq_true'] at settled
      have known := (consistent.answered call (by omega) operation answered).1
      cases phase : (t.operations operation).phase with
      | load | createActorContainer | containerStart => simp [phase, Phase.inFlight] at settled
      | placed =>
        rw [(consistent.live _ _ (consistent.placed operation known phase)).2.2.2] at cancelled
        cases cancelled
      | ended => rfl
  have found : (List.range d.since).filter (t.holds d.target) = [] := by
    rw [List.filter_eq_nil_iff]
    intro call before held
    simp only [List.mem_range] at before
    simp only [holds, Bool.and_eq_true, decide_eq_true_eq] at held
    obtain ⟨target, held⟩ := held
    obtain ⟨operation, answered, ended⟩ := unwound call before target
    simp only [answered, Bool.or_eq_true, decide_eq_true_eq] at held
    rcases held with live | starting
    · rw [(consistent.live _ _ live).2.2.1] at ended
      cases ended
    · have flying := (consistent.starting _ _ starting).2.2
      rw [ended] at flying
      cases flying
  refine ⟨fenced.queued, fenced.aborted, fenced.deletions, ?_⟩
  intro entry logged
  rcases List.mem_cons.1 logged with rfl | earlier
  · exact ⟨since, found, unwound⟩
  · exact fenced.deletedAll entry earlier

end Deletions

theorem initial_fenced : initial.Consistent ∧ initial.Fenced := by
  refine ⟨⟨?_, ?_, ?_, ?_, fun _ => .inl rfl, ?_, fun _ _ => rfl⟩, ?_, ?_, ?_, ?_⟩ <;>
    simp [initial]

/-- One admitted step keeps the tree fenced. -/
theorem step_fenced (t : BrowserActorTree) (e : Event) (t' : BrowserActorTree)
    (kept : t.Consistent ∧ t.Fenced) (admitted : t.AbortsNoneQueued e) (stepped : t.step e = some t') :
    t'.Consistent ∧ t'.Fenced := by
  obtain ⟨consistent, fenced⟩ := kept
  cases e with
  | start id =>
    cases stepped
    exact consistent.start fenced id
  | startAgain call =>
    simp only [step] at stepped
    split at stepped
    · rename_i made
      cases queued : (t.calls call).handle with
      | of operation => simp [queued] at stepped
      | behind prior =>
        simp only [queued] at stepped
        split at stepped
        · cases stepped
          exact consistent.startAgain fenced made queued
        · cases stepped
    · cases stepped
  | loaded operation ok =>
    simp only [step] at stepped
    split at stepped
    · rename_i phase
      cases stepped
      exact consistent.proceed fenced (by rw [phase]; rfl) ok rfl
    · cases stepped
  | created operation ok =>
    simp only [step] at stepped
    split at stepped
    · rename_i phase
      cases stepped
      exact consistent.proceed fenced (by rw [phase]; rfl) ok rfl
    · cases stepped
  | containerStarted operation ok =>
    simp only [step] at stepped
    split at stepped
    · rename_i phase
      cases stepped
      exact consistent.containerStarted fenced (by rw [phase]; rfl) ok
    · cases stepped
  | abort id =>
    cases stepped
    refine ⟨consistent.abortAll _, fenced.abortAll consistent _ ?_⟩
    intro call made same
    exact admitted id rfl call made (beq_iff_eq.1 same)
  | deleteStorage id subtree =>
    cases stepped
    apply Consistent.deleteNext (t := { t with nextDeletion := t.nextDeletion + 1 }) { consistent with }
      ⟨fenced.queued, fenced.aborted, fenced.deletions, fenced.deletedAll⟩ (Nat.le_refl _)
    exact admitted
  | deleteAll deletion ok =>
    simp only [step] at stepped
    cases pending : t.deletions deletion with
    | none => simp [pending] at stepped
    | some d =>
      simp only [pending] at stepped
      split at stepped
      · rename_i settled
        cases stepped
        apply Consistent.deleteNext (t := t.logDeleteAll d) { consistent with }
          (fenced.logDeleteAll consistent pending settled) (fenced.deletions deletion d pending).1
        intro target next
        cases ok with
        | false => cases next
        | true => exact admitted target ⟨rfl, d, pending, next⟩
      · cases stepped
  | copyStorage source target =>
    cases stepped
    exact ⟨consistent, fenced⟩
  | closeAll =>
    cases stepped
    refine ⟨consistent.abortAll _, fenced.abortAll consistent _ ?_⟩
    intro call made aborted
    exact admitted _ (by simpa [aborts] using aborted) call made rfl

end DoRuntime.Browser.BrowserActorTree
