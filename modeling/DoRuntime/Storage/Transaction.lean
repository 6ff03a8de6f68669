import DoRuntime.Storage.ExplicitTxn

namespace DoRuntime.Storage

/-- What an operation goes through: `ctx.storage`, or the transaction object of an enclosing
    closure, counted outwards. -/
inductive Via
  | storage
  | txn (level : Nat)

/-- A closure given to `transaction()`, with everything around it that decides what happens: each
    read hands the contents on, each write may fail, `checkpoint` and `breaks` are the ends of
    awaits at which an implicit transaction commits or the actor breaks, and a closure that returns
    carries what becomes of its commit. -/
inductive Closure (C : Type)
  | returns (commit : CommitOutcome)
  | throws
  | read (via : Via) (next : Option C → Closure C)
  | write (via : Via) (effect : C → Option C) (next : Bool → Closure C)
  | rollback (level : Nat) (next : Bool → Closure C)
  | transaction (closure : Closure C) (next : Bool → Closure C)
  | checkpoint (next : Closure C)
  | breaks (next : Closure C)

/-- A `DurableObjectTransaction`. The last field keeps the actor as its own `rollback()` left it. -/
structure DurableObjectTransaction (C : Type) where
  cacheTxn : Option Nat
  rolledBack : Bool
  restored : Option (ActorSqlite C)

/-- One `transaction()` call from the opening of its `ExplicitTxn` until its promise settles. -/
structure CallRecord (C : Type) where
  before : ActorSqlite C
  /-- The actor as the closure ended. -/
  ended : ActorSqlite C
  after : ActorSqlite C
  resolved : Bool
  txn : DurableObjectTransaction C
  /-- For a call that reached `ExplicitTxn.commit`: whether it was a root, and what befell it. -/
  commit : Option (Bool × CommitOutcome)

namespace CallRecord

variable {C : Type}

/-- What atomicity says of one call: the actor stands where it stood, and either all
    the closure wrote is there or nothing of it. -/
def AllOrNothing (r : CallRecord C) : Prop :=
  r.after.currentTxn = (if r.before.currentTxn = .implicit then .none else r.before.currentTxn) ∧
    r.after.savepoints = r.before.savepoints ∧
    r.after.contents =
      if r.resolved = true ∧ r.txn.rolledBack = false then r.ended.contents else r.before.contents

/-- The commit, if one is reached, goes through; and what the closure does after its own rollback
    leaves the actor as the rollback did. -/
def Clean (r : CallRecord C) : Prop :=
  (∀ root outcome, r.commit = some (root, outcome) →
    outcome ≠ .releaseFails ∧ (root = true → outcome ≠ .scheduleThrows)) ∧
  ∀ a, r.txn.restored = some a →
    r.ended.currentTxn = a.currentTxn ∧ r.ended.savepoints = a.savepoints ∧
      r.ended.contents = a.contents

end CallRecord

structure Run (C : Type) where
  /-- `none` for a closure that threw. -/
  returned : Option CommitOutcome
  opened : List (DurableObjectTransaction C)
  actor : ActorSqlite C
  calls : List (CallRecord C)

variable {C : Type}

/-- `getCache`: whether the operation is let through. -/
def Via.usable (opened : List (DurableObjectTransaction C)) : Via → Bool
  | storage => true
  | txn level =>
    match opened[level]? with
    | some t => !t.rolledBack && t.cacheTxn.isSome
    | none => false

/-- `DurableObjectTransaction.rollback` -/
def DurableObjectTransaction.rollback (t : DurableObjectTransaction C) (a : ActorSqlite C) :
    Bool × DurableObjectTransaction C × ActorSqlite C :=
  if t.rolledBack then (true, t, a)
  else
    match t.cacheTxn with
    | none => (false, t, a)
    | some id =>
      match a.rollback id with
      | (false, a) => (false, t, a)
      | (true, a) =>
        match a.drop id with
        | (false, a) => (false, t, a)
        | (true, a) => (true, { cacheTxn := none, rolledBack := true, restored := some a }, a)

/-- What follows the closure: `maybeCommit` where it returned, `maybeRollback` where it or the
    commit threw. Whether the promise resolves, and whether the section itself survives. -/
def settle (t : DurableObjectTransaction C) (a : ActorSqlite C) :
    Option CommitOutcome → Bool × DurableObjectTransaction C × ActorSqlite C
  | some outcome =>
    match t.cacheTxn with
    | none => (true, t, a)
    | some id =>
      let cleared := { t with cacheTxn := none }
      match a.commit id outcome with
      -- `maybeRollback` in the catch branch finds no transaction left to drop
      | (false, a) => (false, { cleared with rolledBack := true }, a)
      | (true, a) =>
        match a.drop id with
        | (true, a) => (true, cleared, a)
        | (false, a) => (false, { cleared with rolledBack := true }, a)
  | none =>
    let abandoned := { t with cacheTxn := none, rolledBack := true }
    match t.cacheTxn with
    | none => (false, abandoned, a)
    | some id =>
      match a.drop id with
      | (true, a) => (false, abandoned, a)
      -- a throw out of the catch branch fails the critical section
      | (false, a) => (false, abandoned, { a with broken := true })

def CallRecord.of (before : ActorSqlite C) (t : DurableObjectTransaction C) (ended : ActorSqlite C)
    (returned : Option CommitOutcome) : CallRecord C where
  before
  ended
  after := (settle t ended returned).2.2
  resolved := (settle t ended returned).1
  txn := t
  commit :=
    match t.cacheTxn with
    | some id => returned.map fun outcome => ((ended.txns id).parent.isNone, outcome)
    | none => none

def exec : Closure C → List (DurableObjectTransaction C) → ActorSqlite C → Run C
  | .returns commit, opened, a => ⟨some commit, opened, a, []⟩
  | .throws, opened, a => ⟨none, opened, a, []⟩
  | .read via next, opened, a =>
    exec (next (if via.usable opened ∧ a.broken = false then some a.contents else none)) opened a
  | .write via effect next, opened, a =>
    if via.usable opened then exec (next (a.write effect).1) opened (a.write effect).2
    else exec (next false) opened a
  | .rollback level next, opened, a =>
    match opened[level]? with
    | none => exec (next false) opened a
    | some t =>
      let (ok, t', a') := t.rollback a
      exec (next ok) (opened.set level t') a'
  | .transaction closure next, opened, a =>
    match a.startTransaction with
    | none => exec (next false) opened { a with broken := true }
    | some (id, started) =>
      let body := exec closure ({ cacheTxn := some id, rolledBack := false, restored := none } :: opened)
        started
      match body.opened with
      | [] => body
      | t :: outer =>
        let record := CallRecord.of a t body.actor body.returned
        let rest := exec (next record.resolved) outer record.after
        { rest with calls := body.calls ++ record :: rest.calls }
  | .checkpoint next, opened, a => exec next opened a.checkpoint
  | .breaks next, opened, a => exec next opened { a with broken := true }

end DoRuntime.Storage
