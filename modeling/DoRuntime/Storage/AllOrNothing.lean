import DoRuntime.Storage.Transaction

namespace DoRuntime.Storage

open ActorSqlite

variable {C : Type}

/-- Where an actor stood when a call opened its transaction. -/
structure Mark (C : Type) where
  current : Option Nat
  savepoints : List (Savepoint C)
  contents : C

def currentOf : Option Nat → CurrentTxn
  | none => .none
  | some id => .explicit id

/-- The transaction objects of the calls in progress, innermost first, against the chain of open
    transactions: its innermost member and its savepoints. -/
inductive Stacked (txns : Nat → ExplicitTxn) : List (DurableObjectTransaction C) → List (Mark C) →
    Option Nat → List (Savepoint C) → Prop
  | nil : Stacked txns [] [] none []
  | active {opened marks current savepoints} {id depth : Nat} {contents : C} :
      Stacked txns opened marks current savepoints →
      (∀ parent, current = some parent → parent < id ∧ (txns parent).hasChild = true) →
      (txns id).parent = current → (txns id).depth = depth →
      (txns id).committed = false → (txns id).dropped = false →
      Stacked txns ({ cacheTxn := some id, rolledBack := false, restored := none } :: opened)
        ({ current, savepoints, contents } :: marks) (some id)
        ({ name := depth, contents } :: savepoints)
  | gone {opened marks current savepoints} {restored : ActorSqlite C} {mark : Mark C} :
      Stacked txns opened marks current savepoints →
      restored.currentTxn = currentOf mark.current → restored.savepoints = mark.savepoints →
      restored.contents = mark.contents →
      Stacked txns ({ cacheTxn := none, rolledBack := true, restored := some restored } :: opened)
        (mark :: marks) current savepoints

/-- The actor's transaction state is the one the calls in progress account for. -/
structure Accounted (a : ActorSqlite C) (opened : List (DurableObjectTransaction C))
    (marks : List (Mark C)) (current : Option Nat) : Prop where
  stacked : Stacked a.txns opened marks current a.savepoints
  currentTxn : a.currentTxn = currentOf current ∨ (current = none ∧ a.currentTxn = .implicit)
  top : ∀ id, current = some id → id < a.nextTxn ∧ (a.txns id).hasChild = false

def InOrder (a : ActorSqlite C) (opened : List (DurableObjectTransaction C)) (marks : List (Mark C)) :
    Prop :=
  a.broken = false → ∃ current, Accounted a opened marks current

theorem currentOf_ne_implicit (current : Option Nat) : currentOf current ≠ .implicit := by
  cases current <;> simp [currentOf]

/-- Two transaction objects that differ at most in their children. -/
def Alike (t t' : ExplicitTxn) : Prop :=
  t.parent = t'.parent ∧ t.depth = t'.depth ∧ t.committed = t'.committed ∧ t.dropped = t'.dropped

/-- The chain depends only on the objects up to its innermost member. -/
theorem Stacked.congr {txns txns' : Nat → ExplicitTxn} {opened : List (DurableObjectTransaction C)}
    {marks : List (Mark C)} {current : Option Nat} {savepoints : List (Savepoint C)}
    (stacked : Stacked txns opened marks current savepoints)
    (alike : ∀ top, current = some top → ∀ i ≤ top, Alike (txns i) (txns' i) ∧
      (i < top → (txns i).hasChild = (txns' i).hasChild)) :
    Stacked txns' opened marks current savepoints := by
  induction stacked with
  | nil => exact .nil
  | @active opened marks current savepoints id _ contents _ chained parent depth committed dropped ih =>
    obtain ⟨⟨same_parent, same_depth, same_committed, same_dropped⟩, _⟩ :=
      alike id rfl id (Nat.le_refl id)
    have below : ∀ top, current = some top → ∀ i ≤ top, Alike (txns i) (txns' i) ∧
        (i < top → (txns i).hasChild = (txns' i).hasChild) := by
      intro top same i bound
      have less := (chained top same).1
      obtain ⟨static, child⟩ := alike id rfl i (by omega)
      exact ⟨static, fun _ => child (by omega)⟩
    apply Stacked.active (ih below) ?_ (by rw [← same_parent, parent])
      (by rw [← same_depth, depth]) (by rw [← same_committed, committed])
      (by rw [← same_dropped, dropped])
    intro top same
    have less := (chained top same).1
    refine ⟨less, ?_⟩
    rw [← (alike id rfl top (by omega)).2 less]
    exact (chained top same).2
  | gone _ current savepoints contents ih => exact .gone (ih alike) current savepoints contents

theorem Accounted.currentTxn_some {a : ActorSqlite C} {opened : List (DurableObjectTransaction C)}
    {marks : List (Mark C)} {id : Nat} (accounted : Accounted a opened marks (some id)) :
    a.currentTxn = .explicit id := by
  rcases accounted.currentTxn with same | ⟨none_open, _⟩
  · exact same
  · cases none_open

/-- Opening a transaction adds it to the chain. -/
theorem Accounted.start {a : ActorSqlite C} {opened : List (DurableObjectTransaction C)}
    {marks : List (Mark C)} {current : Option Nat} (accounted : Accounted a opened marks current)
    {id : Nat} {started : ActorSqlite C} (start : a.startTransaction = some (id, started)) :
    Accounted started ({ cacheTxn := some id, rolledBack := false, restored := none } :: opened)
      ({ current, savepoints := a.savepoints, contents := a.contents } :: marks) (some id) := by
  unfold startTransaction at start
  split at start
  · cases start
  cases current with
  | none =>
    have opens : some (a.openTxn (newTxn none 0)) = some (id, started) := by
      rcases accounted.currentTxn with same | ⟨_, same⟩ <;> simpa [same, currentOf] using start
    cases opens
    refine ⟨.active (accounted.stacked.congr ?_) ?_ ?_ ?_ ?_ ?_, .inl rfl, ?_⟩ <;>
      simp [newTxn]
  | some top =>
    have bound := (accounted.top top rfl).1
    have childless := (accounted.top top rfl).2
    have opens : some ((a.updateTxn top fun t => { t with hasChild := true }).openTxn
        (newTxn (some top) ((a.txns top).depth + 1))) = some (id, started) := by
      simpa [accounted.currentTxn_some, childless] using start
    cases opens
    have other : top ≠ a.nextTxn := by omega
    refine ⟨.active (accounted.stacked.congr ?_) ?_ ?_ ?_ ?_ ?_, .inl rfl, ?_⟩ <;>
      simp [newTxn, updateTxn, other]
    · intro i below
      have apart : i ≠ a.nextTxn := by omega
      refine ⟨?_, ?_⟩
      · by_cases same : i = top <;> simp [apart, same, other, Alike]
      · intro less
        simp [apart, Nat.ne_of_lt less]
    · exact bound

/-- `b` is `a` with transaction `id` taken off the chain, over the transaction `lower`. -/
structure Closes (a b : ActorSqlite C) (id : Nat) (lower : Option Nat) : Prop where
  currentTxn : b.currentTxn = currentOf lower
  nextTxn : b.nextTxn = a.nextTxn
  alike : ∀ i, i ≠ id → Alike (a.txns i) (b.txns i)
  hasChild : ∀ i, i ≠ id → lower ≠ some i → (a.txns i).hasChild = (b.txns i).hasChild
  freed : ∀ parent, lower = some parent → (b.txns parent).hasChild = false

theorem Closes.accounted {a b : ActorSqlite C} {id : Nat} {lower : Option Nat} (closes : Closes a b id lower)
    {opened : List (DurableObjectTransaction C)} {marks : List (Mark C)}
    (stacked : Stacked a.txns opened marks lower b.savepoints)
    (below : ∀ parent, lower = some parent → parent < id) (known : id < a.nextTxn) :
    Accounted b opened marks lower := by
  refine ⟨stacked.congr ?_, .inl closes.currentTxn, ?_⟩
  · intro top same i bound
    have less := below top same
    refine ⟨closes.alike i (by omega), ?_⟩
    intro apart
    apply closes.hasChild i (by omega)
    rw [same]
    simp only [ne_eq, Option.some.injEq]
    omega
  · intro parent same
    have less := below parent same
    refine ⟨?_, closes.freed parent same⟩
    rw [closes.nextTxn]
    omega

/-- Unlinking the innermost transaction, whatever became of its flags since. -/
theorem unlink_current {a b : ActorSqlite C} {id : Nat} (current : b.currentTxn = .explicit id)
    (childless : (b.txns id).hasChild = false)
    (below : ∀ parent, (b.txns id).parent = some parent → parent < id) (nextTxn : b.nextTxn = a.nextTxn)
    (others : ∀ i, i ≠ id → b.txns i = a.txns i) :
    (b.unlink id).1 = true ∧ Closes a (b.unlink id).2 id (b.txns id).parent ∧
      (b.unlink id).2.savepoints = b.savepoints ∧ (b.unlink id).2.contents = b.contents ∧
      (b.unlink id).2.broken = b.broken := by
  simp only [unlink, childless, Bool.false_eq_true, if_false, current, ne_eq, not_true_eq_false]
  cases parent : (b.txns id).parent with
  | none =>
    refine ⟨rfl, ⟨rfl, nextTxn, ?_, ?_, ?_⟩, rfl, rfl, rfl⟩
    · intro i apart
      simp [others i apart, Alike]
    · intro i apart _
      simp [others i apart]
    · intro parent same
      cases same
  | some lower =>
    have less := below lower parent
    refine ⟨rfl, ⟨rfl, nextTxn, ?_, ?_, ?_⟩, rfl, rfl, rfl⟩
    · intro i apart
      rw [← others i apart]
      by_cases same : i = lower <;> simp [updateTxn, same, Alike]
    · intro i apart unfreed
      have distinct : i ≠ lower := fun same => unfreed (by rw [same])
      simp [updateTxn, distinct, others i apart]
    · intro parent same
      cases same
      simp [updateTxn]

/-- What holds of the innermost transaction of a chain, over the savepoints `rest`. -/
structure Innermost (a : ActorSqlite C) (id : Nat) (lower : Option Nat) (rest : List (Savepoint C))
    (contents : C) : Prop where
  currentTxn : a.currentTxn = .explicit id
  savepoints : a.savepoints = { name := (a.txns id).depth, contents } :: rest
  parent : (a.txns id).parent = lower
  hasChild : (a.txns id).hasChild = false
  committed : (a.txns id).committed = false
  dropped : (a.txns id).dropped = false
  below : ∀ parent, lower = some parent → parent < id

/-- `b` has transaction `id` of `a` closed, with the savepoints under it. -/
structure Closed (a b : ActorSqlite C) (id : Nat) (lower : Option Nat) (rest : List (Savepoint C)) :
    Prop where
  closes : Closes a b id lower
  savepoints : b.savepoints = rest
  broken : b.broken = a.broken

theorem release_head (name : Nat) (contents : C) (rest : List (Savepoint C)) :
    release name ({ name, contents } :: rest) = some rest := by simp [release]

theorem rollbackTo_head (name : Nat) (contents : C) (rest : List (Savepoint C)) :
    rollbackTo name ({ name, contents } :: rest) = some (contents, { name, contents } :: rest) := by
  simp [rollbackTo]

section Innermost

variable {a : ActorSqlite C} {id : Nat} {lower : Option Nat} {rest : List (Savepoint C)} {contents : C}

theorem Innermost.unlink (innermost : Innermost a id lower rest contents) {b : ActorSqlite C}
    (current : b.currentTxn = a.currentTxn) (nextTxn : b.nextTxn = a.nextTxn) (broken : b.broken = a.broken)
    (others : ∀ i, i ≠ id → b.txns i = a.txns i) (parent : (b.txns id).parent = (a.txns id).parent)
    (hasChild : (b.txns id).hasChild = (a.txns id).hasChild) (savepoints : b.savepoints = rest) :
    ∃ closed, b.unlink id = (true, closed) ∧ Closed a closed id lower rest ∧ closed.contents = b.contents := by
  rw [innermost.parent] at parent
  obtain ⟨done, closes, same_savepoints, same_contents, same_broken⟩ := unlink_current
    (current.trans innermost.currentTxn) (hasChild.trans innermost.hasChild)
    (by rw [parent]; exact innermost.below) nextTxn others
  rw [parent] at closes
  exact ⟨(b.unlink id).2, Prod.ext done rfl,
    ⟨closes, same_savepoints.trans savepoints, same_broken.trans broken⟩, same_contents⟩

/-- `ExplicitTxn.drop` of a transaction that is still open. -/
theorem Innermost.drop (innermost : Innermost a id lower rest contents) (alive : a.broken = false) :
    ∃ closed, a.drop id = (true, closed) ∧ Closed a closed id lower rest ∧ closed.contents = contents := by
  obtain ⟨closed, unlinked, same⟩ := innermost.unlink
    (b := { a.updateTxn id fun t => { t with dropped := true } with contents, savepoints := rest })
    rfl rfl rfl (by intro i apart; simp [updateTxn, apart]) (by simp [updateTxn]) (by simp [updateTxn]) rfl
  refine ⟨closed, ?_, same⟩
  have restores : (a.updateTxn id fun t => { t with dropped := true }).rollbackImpl id =
      (true, { a.updateTxn id fun t => { t with dropped := true } with contents, savepoints := rest }) := by
    simp [rollbackImpl, updateTxn, innermost.savepoints, rollbackTo_head, release_head]
  simp [ActorSqlite.drop, innermost.dropped, innermost.committed, alive, restores, unlinked]

/-- `ExplicitTxn.rollback` and the `drop` after it. -/
theorem Innermost.rollback (innermost : Innermost a id lower rest contents) (alive : a.broken = false) :
    ∃ restored closed, a.rollback id = (true, restored) ∧ restored.drop id = (true, closed) ∧
      Closed a closed id lower rest ∧ closed.contents = contents := by
  obtain ⟨closed, unlinked, same⟩ := innermost.unlink
    (b := ({ a with contents, savepoints := rest }.updateTxn id fun t => { t with committed := true }).updateTxn
      id fun t => { t with dropped := true })
    rfl rfl rfl (by intro i apart; simp [updateTxn, apart]) (by simp [updateTxn]) (by simp [updateTxn]) rfl
  refine ⟨{ a with contents, savepoints := rest }.updateTxn id fun t => { t with committed := true }, closed,
    ?_, ?_, same⟩
  · simp [ActorSqlite.rollback, alive, innermost.hasChild, innermost.committed, rollbackImpl,
      innermost.savepoints, rollbackTo_head, release_head, updateTxn]
  · simpa [ActorSqlite.drop, innermost.dropped, updateTxn] using unlinked

/-- `ExplicitTxn.commit` that goes through, and the `drop` after it. -/
theorem Innermost.commit (innermost : Innermost a id lower rest contents) (alive : a.broken = false)
    {outcome : CommitOutcome} (releases : outcome ≠ .releaseFails)
    (schedules : lower = none → outcome ≠ .scheduleThrows) :
    ∃ committed closed, a.commit id outcome = (true, committed) ∧ committed.drop id = (true, closed) ∧
      Closed a closed id lower rest ∧ closed.contents = a.contents := by
  obtain ⟨closed, unlinked, same⟩ := innermost.unlink
    (b := ({ a with savepoints := rest }.updateTxn id fun t => { t with committed := true }).updateTxn
      id fun t => { t with dropped := true })
    rfl rfl rfl (by intro i apart; simp [updateTxn, apart]) (by simp [updateTxn]) (by simp [updateTxn]) rfl
  refine ⟨{ a with savepoints := rest }.updateTxn id fun t => { t with committed := true }, closed, ?_, ?_, same⟩
  · simp [ActorSqlite.commit, alive, innermost.hasChild, innermost.parent, releases, innermost.savepoints,
      release_head]
    intro root throws
    exact absurd throws (schedules root)
  · simpa [ActorSqlite.drop, innermost.dropped, updateTxn] using unlinked

/-- A commit that fails leaves everything as it was. -/
theorem Innermost.commit_fails (innermost : Innermost a id lower rest contents) {outcome : CommitOutcome}
    (fails : outcome = .releaseFails ∨ lower = none ∧ outcome = .scheduleThrows) :
    a.commit id outcome = (false, a) := by
  rcases fails with failed | ⟨root, throws⟩
  · simp [ActorSqlite.commit, failed]
  · simp [ActorSqlite.commit, innermost.parent, root, throws]

end Innermost

/-- A transaction object without a child is the innermost one, wherever its call is; taking it off
    leaves its call rolled back. -/
theorem Stacked.innermost {txns : Nat → ExplicitTxn} {opened : List (DurableObjectTransaction C)}
    {marks : List (Mark C)} {current : Option Nat} {savepoints : List (Savepoint C)}
    (stacked : Stacked txns opened marks current savepoints) {id : Nat} (childless : (txns id).hasChild = false)
    {t : DurableObjectTransaction C} (cached : t.cacheTxn = some id) {level : Nat}
    (at_level : opened[level]? = some t) :
    current = some id ∧ t.rolledBack = false ∧ ∃ rest contents,
      savepoints = { name := (txns id).depth, contents } :: rest ∧
      (txns id).committed = false ∧ (txns id).dropped = false ∧
      (∀ parent, (txns id).parent = some parent → parent < id) ∧
      ∀ restored, restored.currentTxn = currentOf (txns id).parent → restored.savepoints = rest →
        restored.contents = contents →
        Stacked txns (opened.set level { cacheTxn := none, rolledBack := true, restored := some restored })
          marks (txns id).parent rest := by
  induction stacked generalizing level with
  | nil => simp at at_level
  | @active opened marks current savepoints top _ contents under chained parent depth committed dropped ih =>
    cases level with
    | zero =>
      cases at_level
      cases cached
      refine ⟨rfl, rfl, savepoints, contents, by rw [depth], committed, dropped, ?_, ?_⟩
      · intro lower same
        exact (chained lower (parent.symm.trans same)).1
      · intro restored same_current same_savepoints same_contents
        rw [parent] at same_current ⊢
        exact .gone under same_current same_savepoints same_contents
    | succ level =>
      have lower := (ih at_level).1
      rw [(chained id lower).2] at childless
      cases childless
  | gone under same_current same_savepoints same_contents ih =>
    cases level with
    | zero =>
      cases at_level
      cases cached
    | succ level =>
      obtain ⟨top, usable, rest, contents, head, committed, dropped, below, takes⟩ := ih at_level
      refine ⟨top, usable, rest, contents, head, committed, dropped, below, ?_⟩
      intro restored current savepoints contents
      exact .gone (takes restored current savepoints contents) same_current same_savepoints same_contents

theorem Accounted.innermost {a : ActorSqlite C} {opened : List (DurableObjectTransaction C)}
    {marks : List (Mark C)} {current : Option Nat} (accounted : Accounted a opened marks current)
    {id : Nat} (childless : (a.txns id).hasChild = false) {t : DurableObjectTransaction C}
    (cached : t.cacheTxn = some id) {level : Nat} (at_level : opened[level]? = some t) :
    ∃ rest contents, Innermost a id (a.txns id).parent rest contents ∧
      ∀ restored closed, restored.currentTxn = currentOf (a.txns id).parent → restored.savepoints = rest →
        restored.contents = contents → Closed a closed id (a.txns id).parent rest →
        Accounted closed (opened.set level { cacheTxn := none, rolledBack := true, restored := some restored })
          marks (a.txns id).parent := by
  obtain ⟨top, _, rest, contents, head, committed, dropped, below, takes⟩ :=
    accounted.stacked.innermost childless cached at_level
  cases top
  refine ⟨rest, contents, ⟨accounted.currentTxn_some, head, rfl, childless, committed, dropped, below⟩, ?_⟩
  intro restored closed current savepoints same_contents closes
  apply closes.closes.accounted ?_ below (accounted.top id rfl).1
  rw [closes.savepoints]
  exact takes restored current savepoints same_contents

theorem InOrder.of_current {a b : ActorSqlite C} {opened : List (DurableObjectTransaction C)}
    {marks : List (Mark C)} (inOrder : InOrder a opened marks) (broken : b.broken = false → a.broken = false)
    (txns : b.txns = a.txns) (savepoints : b.savepoints = a.savepoints) (nextTxn : b.nextTxn = a.nextTxn)
    (current : b.currentTxn = a.currentTxn ∨ a.currentTxn = .none ∧ b.currentTxn = .implicit ∨
      a.currentTxn = .implicit ∧ b.currentTxn = .none) : InOrder b opened marks := by
  intro alive
  obtain ⟨top, stacked, same, bound⟩ := inOrder (broken alive)
  refine ⟨top, ?_, ?_, ?_⟩
  · rw [txns, savepoints]
    exact stacked
  · cases top with
    | none => rcases current with kept | ⟨_, opens⟩ | ⟨_, closes⟩ <;> simp_all [currentOf]
    | some id => simp_all [currentOf]
  · rw [txns, nextTxn]
    exact bound

theorem InOrder.checkpoint {a : ActorSqlite C} {opened : List (DurableObjectTransaction C)}
    {marks : List (Mark C)} (inOrder : InOrder a opened marks) : InOrder a.checkpoint opened marks := by
  unfold ActorSqlite.checkpoint
  split <;> rename_i implicit
  · exact inOrder.of_current id rfl rfl rfl (.inr (.inr ⟨implicit, rfl⟩))
  · exact inOrder

theorem InOrder.write {a : ActorSqlite C} {opened : List (DurableObjectTransaction C)}
    {marks : List (Mark C)} (inOrder : InOrder a opened marks) (effect : C → Option C) :
    InOrder (a.write effect).2 opened marks := by
  have opens : InOrder a.onWrite opened marks := by
    unfold onWrite
    split <;> rename_i implicit
    · exact inOrder.of_current id rfl rfl rfl (.inr (.inl ⟨implicit, rfl⟩))
    · exact inOrder
  unfold ActorSqlite.write
  split
  · exact inOrder
  split
  · exact opens.of_current id rfl rfl rfl (.inl rfl)
  · exact opens

theorem set_getElem?_self {α : Type} {xs : List α} {i : Nat} {x : α} (at_i : xs[i]? = some x) :
    xs.set i x = xs := by
  obtain ⟨bound, same⟩ := List.getElem?_eq_some_iff.1 at_i
  rw [← same, List.set_getElem_self]

theorem InOrder.rollback {a : ActorSqlite C} {opened : List (DurableObjectTransaction C)}
    {marks : List (Mark C)} (inOrder : InOrder a opened marks) {level : Nat}
    {t : DurableObjectTransaction C} (at_level : opened[level]? = some t) :
    InOrder (t.rollback a).2.2 (opened.set level (t.rollback a).2.1) marks := by
  unfold DurableObjectTransaction.rollback
  split
  · rwa [set_getElem?_self at_level]
  cases cached : t.cacheTxn with
  | none => simpa only [set_getElem?_self at_level] using inOrder
  | some id =>
    by_cases idle : a.broken = true ∨ (a.txns id).hasChild = true
    · have refuses : a.rollback id = (false, a) := by simp [ActorSqlite.rollback, idle]
      simpa only [refuses, set_getElem?_self at_level] using inOrder
    · simp only [not_or, Bool.not_eq_true] at idle
      obtain ⟨top, accounted⟩ := inOrder idle.1
      obtain ⟨rest, contents, innermost, takes⟩ := accounted.innermost idle.2 cached at_level
      obtain ⟨restored, closed, rolls, drops, closes, same⟩ := innermost.rollback idle.1
      simp only [rolls, drops]
      intro _
      exact ⟨_, takes closed closed closes.closes.currentTxn closes.savepoints same closes⟩

theorem settle_broken (t : DurableObjectTransaction C) {a : ActorSqlite C} (broken : a.broken = true)
    (returned : Option CommitOutcome) : (settle t a returned).2.2.broken = true := by
  have unlinks : ∀ (b : ActorSqlite C) id, b.broken = true → (b.unlink id).2.broken = true := by
    intro b id broken
    unfold unlink
    repeat' split
    all_goals simpa [updateTxn] using broken
  have drops : ∀ id, (a.drop id).2.broken = true := by
    intro id
    unfold ActorSqlite.drop
    split
    · exact broken
    · simpa [broken] using unlinks _ id (by simpa [updateTxn] using broken)
  have commits : ∀ id outcome, a.commit id outcome = (false, a) := by
    intro id outcome
    simp [ActorSqlite.commit, broken]
  unfold settle
  cases returned with
  | some outcome =>
    cases t.cacheTxn with
    | none => exact broken
    | some id => simpa [commits] using broken
  | none =>
    cases t.cacheTxn with
    | none => exact broken
    | some id =>
      have dropped := drops id
      rcases result : a.drop id with ⟨done, after⟩
      rw [result] at dropped
      cases done <;> simp_all

/-- A call that rolled itself back no longer counts. -/
theorem Accounted.outer {a restored : ActorSqlite C} {outer : List (DurableObjectTransaction C)}
    {mark : Mark C} {marks : List (Mark C)} {current : Option Nat}
    (accounted : Accounted a ({ cacheTxn := none, rolledBack := true, restored := some restored } :: outer)
      (mark :: marks) current) : Accounted a outer marks current := by
  obtain ⟨stacked, currentTxn, top⟩ := accounted
  cases stacked with
  | gone stacked => exact ⟨stacked, currentTxn, top⟩

/-- A call settles all-or-nothing exactly when it settles cleanly, and then leaves the calls around
    it in order. -/
theorem CallRecord.settles {before ended : ActorSqlite C} {t : DurableObjectTransaction C}
    {outer : List (DurableObjectTransaction C)} (mark : Mark C) {marks : List (Mark C)}
    (stood : currentOf mark.current = if before.currentTxn = .implicit then .none else before.currentTxn)
    (savepoints : mark.savepoints = before.savepoints) (contents : mark.contents = before.contents)
    (inOrder : InOrder ended (t :: outer) (mark :: marks)) (returned : Option CommitOutcome)
    (alive : (CallRecord.of before t ended returned).after.broken = false) :
    ((CallRecord.of before t ended returned).AllOrNothing ↔ (CallRecord.of before t ended returned).Clean) ∧
      ((CallRecord.of before t ended returned).Clean →
        InOrder (CallRecord.of before t ended returned).after outer marks) := by
  have lives : ended.broken = false := by
    by_contra broken
    have := settle_broken t (Bool.eq_true_of_not_eq_false broken) returned
    rw [show (settle t ended returned).2.2.broken = false from alive] at this
    cases this
  obtain ⟨current, accounted⟩ := inOrder lives
  have means : (CallRecord.of before t ended returned).AllOrNothing ↔
      (settle t ended returned).2.2.currentTxn = currentOf mark.current ∧
        (settle t ended returned).2.2.savepoints = mark.savepoints ∧
        (settle t ended returned).2.2.contents =
          if (settle t ended returned).1 = true ∧ t.rolledBack = false then ended.contents
          else mark.contents := by
    rw [stood, savepoints, contents]
    rfl
  rw [means]
  have chain := accounted.stacked
  generalize saved : ended.savepoints = held at chain
  cases chain with
  | @gone _ _ _ _ restored _ _ same_current same_savepoints same_contents =>
    have stays : (settle { cacheTxn := none, rolledBack := true, restored := some restored } ended
        returned).2.2 = ended := by
      cases returned <;> rfl
    simp only [CallRecord.Clean, CallRecord.of, stays]
    refine ⟨by simp [same_current, same_savepoints, same_contents], ?_⟩
    intro _ _
    exact ⟨current, accounted.outer⟩
  | @active _ _ lower under id depth start _ _ parent same_depth =>
    obtain ⟨rest, held, innermost, takes⟩ :=
      accounted.innermost (accounted.top id rfl).2 rfl List.getElem?_cons_zero
    rw [parent] at innermost takes
    obtain ⟨⟨rfl, rfl⟩, rfl⟩ : (depth = (ended.txns id).depth ∧ start = held) ∧ under = rest := by
      simpa using saved.symm.trans innermost.savepoints
    have reopens : ∀ {closed : ActorSqlite C}, Closed ended closed id lower under →
        InOrder closed outer marks := by
      intro closed closes _
      exact ⟨lower, (takes { closed with contents := start } closed closes.closes.currentTxn
        closes.savepoints rfl closes).outer⟩
    cases returned with
    | none =>
      obtain ⟨closed, drops, closes, same⟩ := innermost.drop lives
      simp only [CallRecord.Clean, CallRecord.of, settle, drops]
      refine ⟨?_, fun _ => reopens closes⟩
      simp [closes.closes.currentTxn, closes.savepoints, same]
    | some outcome =>
      by_cases fails : outcome = .releaseFails ∨ lower = none ∧ outcome = .scheduleThrows
      · have stuck := innermost.commit_fails fails
        have unclean : ¬ (CallRecord.of before { cacheTxn := some id, rolledBack := false, restored := none }
            ended (some outcome)).Clean := by
          intro clean
          obtain ⟨releases, schedules⟩ := clean.1 _ outcome rfl
          rcases fails with failed | ⟨root, throws⟩
          · exact releases failed
          · exact schedules (by rw [parent, root]; rfl) throws
        refine ⟨⟨?_, fun clean => absurd clean unclean⟩, fun clean => absurd clean unclean⟩
        intro whole
        simp only [settle, stuck, innermost.currentTxn] at whole
        cases lower with
        | none => cases whole.1
        | some lower =>
          have below := innermost.below lower rfl
          have same := whole.1
          simp only [currentOf, CurrentTxn.explicit.injEq] at same
          omega
      · simp only [not_or, not_and] at fails
        obtain ⟨committed, closed, commits, drops, closes, same⟩ :=
          innermost.commit lives fails.1 fails.2
        simp only [CallRecord.Clean, CallRecord.of, settle, commits, drops]
        refine ⟨?_, fun _ => reopens closes⟩
        refine iff_of_true (by simp [closes.closes.currentTxn, closes.savepoints, same]) ⟨?_, by simp⟩
        intro root reached same
        obtain ⟨rfl, rfl⟩ : (ended.txns id).parent.isNone = root ∧ outcome = reached := by simpa using same
        exact ⟨fails.1, fun root => fails.2 (by simpa [parent] using root)⟩

def Run.AllOrNothing (run : Run C) : Prop :=
  ∀ r ∈ run.calls, r.after.broken = false → r.AllOrNothing

def Run.Clean (run : Run C) : Prop :=
  ∀ r ∈ run.calls, r.after.broken = false → r.Clean

theorem exec_length (closure : Closure C) : ∀ (opened : List (DurableObjectTransaction C))
    (a : ActorSqlite C), (exec closure opened a).opened.length = opened.length := by
  induction closure with
  | returns | throws => intro opened a; rfl
  | read via next ih => intro opened a; exact ih _ opened a
  | write via effect next ih =>
    intro opened a
    rw [exec]
    split
    · exact ih _ opened _
    · exact ih _ opened a
  | rollback level next ih =>
    intro opened a
    rw [exec]
    split
    · exact ih _ opened a
    · rw [ih, List.length_set]
  | transaction closure next ih_closure ih_next =>
    intro opened a
    rw [exec]
    split
    · exact ih_next _ opened _
    · rename_i id started _
      have held := ih_closure ({ cacheTxn := some id, rolledBack := false, restored := none } :: opened) started
      dsimp only
      split
      · rename_i emptied
        rw [emptied] at held
        cases held
      · rename_i t outer kept
        rw [kept] at held
        rw [ih_next]
        simpa using held
  | checkpoint next ih | breaks next ih => intro opened a; exact ih opened _

/-- What a run that starts in order does: its calls settle all-or-nothing exactly when they settle
    cleanly, and then it ends in order. -/
def Settles (run : Run C) (marks : List (Mark C)) : Prop :=
  (run.AllOrNothing ↔ run.Clean) ∧ (run.Clean → InOrder run.actor run.opened marks)

theorem exec_settles (closure : Closure C) : ∀ (opened : List (DurableObjectTransaction C))
    (a : ActorSqlite C) (marks : List (Mark C)), InOrder a opened marks →
    Settles (exec closure opened a) marks := by
  induction closure with
  | returns | throws =>
    intro opened a marks inOrder
    refine ⟨?_, fun _ => inOrder⟩
    simp [exec, Run.AllOrNothing, Run.Clean]
  | read via next ih =>
    intro opened a marks inOrder
    exact ih _ opened a marks inOrder
  | write via effect next ih =>
    intro opened a marks inOrder
    rw [exec]
    split
    · exact ih _ opened _ marks (inOrder.write effect)
    · exact ih _ opened a marks inOrder
  | rollback level next ih =>
    intro opened a marks inOrder
    rw [exec]
    split
    · exact ih _ opened a marks inOrder
    · rename_i t at_level
      exact ih _ _ _ marks (inOrder.rollback at_level)
  | checkpoint next ih =>
    intro opened a marks inOrder
    exact ih opened _ marks inOrder.checkpoint
  | breaks next ih =>
    intro opened a marks _
    apply ih opened _ marks
    intro alive
    cases alive
  | transaction closure next ih_closure ih_next =>
    intro opened a marks inOrder
    rw [exec]
    split
    · apply ih_next _ opened _ marks
      intro alive
      cases alive
    · rename_i id started starts
      have alive : a.broken = false := by
        by_contra broken
        simp [startTransaction, Bool.eq_true_of_not_eq_false broken] at starts
      obtain ⟨current, accounted⟩ := inOrder alive
      have opening : InOrder started
          ({ cacheTxn := some id, rolledBack := false, restored := none } :: opened)
          ({ current, savepoints := a.savepoints, contents := a.contents } :: marks) := by
        intro _
        exact ⟨some id, accounted.start starts⟩
      have stood : currentOf current = if a.currentTxn = .implicit then .none else a.currentTxn := by
        rcases accounted.currentTxn with same | ⟨root, same⟩
        · simp [same, currentOf_ne_implicit]
        · simp [same, root, currentOf]
      obtain ⟨body_iff, body_inOrder⟩ := ih_closure _ started _ opening
      dsimp only
      split
      · rename_i emptied
        have held := exec_length closure
          ({ cacheTxn := some id, rolledBack := false, restored := none } :: opened) started
        rw [emptied] at held
        cases held
      · rename_i t outer kept
        generalize exec closure _ started = body at *
        rw [kept] at body_inOrder
        have settles := fun inOrder : InOrder body.actor (t :: outer) (⟨current, a.savepoints, a.contents⟩ :: marks) =>
          CallRecord.settles ⟨current, a.savepoints, a.contents⟩ stood rfl rfl inOrder
            body.returned
        generalize CallRecord.of a t body.actor body.returned = record at *
        have rest := ih_next record.resolved outer record.after marks
        generalize exec (next record.resolved) outer record.after = after at *
        have whole : ∀ P : CallRecord C → Prop,
            (∀ r ∈ body.calls ++ record :: after.calls, r.after.broken = false → P r) ↔
              (∀ r ∈ body.calls, r.after.broken = false → P r) ∧ (record.after.broken = false → P record) ∧
                ∀ r ∈ after.calls, r.after.broken = false → P r := by
          intro P
          simp only [List.mem_append, List.mem_cons]
          refine ⟨fun all => ⟨fun r at_r => all r (.inl at_r), all record (.inr (.inl rfl)),
            fun r at_r => all r (.inr (.inr at_r))⟩, ?_⟩
          intro ⟨before, here, later⟩ r at_r
          rcases at_r with at_r | rfl | at_r
          · exact before r at_r
          · exact here
          · exact later r at_r
        have continues : body.Clean → (record.after.broken = false → record.Clean) →
            Settles after marks := by
          intro clean here
          apply rest
          intro alive
          exact (settles (body_inOrder clean) alive).2 (here alive) alive
        refine ⟨?_, ?_⟩
        · simp only [Run.AllOrNothing, Run.Clean, whole]
          refine ⟨?_, ?_⟩
          · intro ⟨before, here, later⟩
            have clean := body_iff.1 before
            have clean_here := fun alive => (settles (body_inOrder clean) alive).1.1 (here alive)
            exact ⟨clean, clean_here, (continues clean clean_here).1.1 later⟩
          · intro ⟨clean, clean_here, clean_later⟩
            exact ⟨body_iff.2 clean, fun alive => (settles (body_inOrder clean) alive).1.2 (clean_here alive),
              (continues clean clean_here).1.2 clean_later⟩
        · intro clean
          obtain ⟨clean, clean_here, clean_later⟩ := (whole CallRecord.Clean).1 clean
          exact (continues clean clean_here).2 clean_later

/-- Over a whole run, every `transaction()` call that leaves the actor unbroken is all-or-nothing
    exactly when every one of them is clean. -/
theorem transaction_allOrNothing_iff (program : Closure C) (contents : C) :
    (exec program [] (initial contents)).AllOrNothing ↔ (exec program [] (initial contents)).Clean := by
  apply (exec_settles program [] (initial contents) [] ?_).1
  intro _
  refine ⟨none, .nil, .inl rfl, ?_⟩
  intro id open_id
  cases open_id

/-- A root commit whose `RELEASE` fails leaves its transaction open, with what it wrote. -/
def failingCommit : Closure Nat :=
  .transaction (.write .storage (fun n => some (n + 1)) fun _ => .returns .releaseFails) fun _ =>
    .returns .ok

theorem failing_commit_left_open : ¬ (exec failingCommit [] (initial 0)).AllOrNothing := by
  have left : ∃ r ∈ (exec failingCommit [] (initial 0)).calls,
      r.after.broken = false ∧ r.after.savepoints.length ≠ r.before.savepoints.length := by
    unfold failingCommit exec
    exact ⟨_, List.mem_singleton_self _, rfl, by decide⟩
  intro whole
  obtain ⟨r, called, alive, leftover⟩ := left
  exact leftover (by rw [(whole r called alive).2.1])

end DoRuntime.Storage
