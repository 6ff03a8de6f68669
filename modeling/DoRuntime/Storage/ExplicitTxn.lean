import Mathlib

namespace DoRuntime.Storage

/-- A savepoint of the database file, with the contents it would roll back to. -/
structure Savepoint (C : Type) where
  name : Nat
  contents : C

/-- `RELEASE name`: the savepoint goes, with every later one. -/
def release {C : Type} (name : Nat) : List (Savepoint C) → Option (List (Savepoint C))
  | [] => none
  | s :: rest => if s.name = name then some rest else release name rest

/-- `ROLLBACK TO name`: later savepoints go, the savepoint itself stays. -/
def rollbackTo {C : Type} (name : Nat) : List (Savepoint C) → Option (C × List (Savepoint C))
  | [] => none
  | s :: rest => if s.name = name then some (s.contents, s :: rest) else rollbackTo name rest

inductive CurrentTxn
  | none
  | implicit
  | explicit (id : Nat)
deriving DecidableEq

/-- An `ExplicitTxn` object, whose savepoint is named by its depth. -/
structure ExplicitTxn where
  parent : Option Nat
  depth : Nat
  hasChild : Bool
  committed : Bool
  dropped : Bool

/-- An `ActorSqlite` with its database, over any type of database contents. -/
structure ActorSqlite (C : Type) where
  contents : C
  /-- Innermost first. -/
  savepoints : List (Savepoint C)
  currentTxn : CurrentTxn
  txns : Nat → ExplicitTxn
  nextTxn : Nat
  broken : Bool

/-- How `ExplicitTxn.commit` is let go: `RELEASE` may fail and leave the savepoint open, and the
    alarm outlet may throw. -/
inductive CommitOutcome
  | ok
  | releaseFails
  | scheduleThrows
deriving DecidableEq

namespace ActorSqlite

variable {C : Type}

def initial (contents : C) : ActorSqlite C where
  contents
  savepoints := []
  currentTxn := .none
  txns := fun _ => { parent := none, depth := 0, hasChild := false, committed := false, dropped := false }
  nextTxn := 0
  broken := false

def updateTxn (a : ActorSqlite C) (id : Nat) (f : ExplicitTxn → ExplicitTxn) : ActorSqlite C :=
  { a with txns := fun i => if i = id then f (a.txns i) else a.txns i }

/-- The commit of an implicit transaction, at the end of the checkpoint that opened it. -/
def checkpoint (a : ActorSqlite C) : ActorSqlite C :=
  if a.currentTxn = .implicit then { a with currentTxn := .none } else a

/-- `onWrite`: a write with no transaction open starts an implicit one. -/
def onWrite (a : ActorSqlite C) : ActorSqlite C :=
  if a.currentTxn = .none then { a with currentTxn := .implicit } else a

/-- A write that changes the contents, or a statement that fails and changes nothing. -/
def write (a : ActorSqlite C) (effect : C → Option C) : Bool × ActorSqlite C :=
  if a.broken then (false, a)
  else
    match effect a.onWrite.contents with
    | some contents => (true, { a.onWrite with contents })
    | none => (false, a.onWrite)

/-- Opens a transaction object and its savepoint. -/
def openTxn (a : ActorSqlite C) (txn : ExplicitTxn) : Nat × ActorSqlite C :=
  (a.nextTxn,
    { a with
      savepoints := { name := txn.depth, contents := a.contents } :: a.savepoints
      currentTxn := .explicit a.nextTxn
      txns := fun i => if i = a.nextTxn then txn else a.txns i
      nextTxn := a.nextTxn + 1 })

def newTxn (parent : Option Nat) (depth : Nat) : ExplicitTxn :=
  { parent, depth, hasChild := false, committed := false, dropped := false }

/-- `startTransaction` with the `ExplicitTxn` constructor; `none` where it throws. -/
def startTransaction (a : ActorSqlite C) : Option (Nat × ActorSqlite C) :=
  if a.broken then none
  else
    match a.currentTxn with
    | .none | .implicit => some (a.openTxn (newTxn none 0))
    | .explicit id =>
      if (a.txns id).hasChild then none
      else some ((a.updateTxn id fun t => { t with hasChild := true }).openTxn
        (newTxn (some id) ((a.txns id).depth + 1)))

/-- `ExplicitTxn.commit`, up to what the alarm and the output gate do with it afterwards. -/
def commit (a : ActorSqlite C) (id : Nat) (outcome : CommitOutcome) : Bool × ActorSqlite C :=
  let txn := a.txns id
  if a.broken ∨ txn.hasChild then (false, a)
  else if txn.parent = none ∧ outcome = .scheduleThrows then (false, a)
  else if outcome = .releaseFails then (false, a)
  else
    match release txn.depth a.savepoints with
    | none => (false, a)
    | some savepoints =>
      (true, { a with savepoints }.updateTxn id fun t => { t with committed := true })

/-- `#rollbackImpl` -/
def rollbackImpl (a : ActorSqlite C) (id : Nat) : Bool × ActorSqlite C :=
  match rollbackTo (a.txns id).depth a.savepoints with
  | none => (false, a)
  | some (contents, savepoints) =>
    match release (a.txns id).depth savepoints with
    | none => (false, { a with contents, savepoints })
    | some rest => (true, { a with contents, savepoints := rest })

/-- `ExplicitTxn.rollback` -/
def rollback (a : ActorSqlite C) (id : Nat) : Bool × ActorSqlite C :=
  if a.broken ∨ (a.txns id).hasChild then (false, a)
  else if (a.txns id).committed then (true, a)
  else
    match a.rollbackImpl id with
    | (false, a) => (false, a)
    | (true, a) => (true, a.updateTxn id fun t => { t with committed := true })

/-- The state update at the end of `ExplicitTxn.drop`. -/
def unlink (a : ActorSqlite C) (id : Nat) : Bool × ActorSqlite C :=
  if (a.txns id).hasChild then (false, a)
  else if a.currentTxn ≠ .explicit id then (false, a)
  else
    match (a.txns id).parent with
    | some parent =>
      (true, { a.updateTxn parent fun t => { t with hasChild := false } with
        currentTxn := .explicit parent })
    | none => (true, { a with currentTxn := .none })

/-- `ExplicitTxn.drop`: rolls back what was not committed, then unlinks. -/
def drop (a : ActorSqlite C) (id : Nat) : Bool × ActorSqlite C :=
  if (a.txns id).dropped then (true, a)
  else
    let marked := a.updateTxn id fun t => { t with dropped := true }
    if (a.txns id).committed ∨ a.broken then marked.unlink id
    else
      let (rolledBack, restored) := marked.rollbackImpl id
      let (unlinked, after) := restored.unlink id
      (unlinked && rolledBack, after)

end ActorSqlite

end DoRuntime.Storage
