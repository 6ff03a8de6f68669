import Mathlib.Data.Option.Basic
import Mathlib.Tactic.Common

namespace DoRuntime.Storage.Sync

inductive SavepointName
  /-- `_cf_sync_savepoint_<depth>` -/
  | sync (depth : Nat)
  /-- `_cf_put_multiple_savepoint` -/
  | putMultiple
deriving DecidableEq

/-- What the file holds: the alarm's row, and the tables of the key-value store and of the actor's SQL. -/
structure Contents (Time Data : Type) where
  alarm : Option Time
  data : Data

inductive Fault
  | fails
  /-- The statement fails, and SQLite rolls the open transaction back with it. -/
  | rollsBack

inductive Statement (Time Data : Type)
  | begin
  | rollback
  | savepoint (name : SavepointName)
  | release (name : SavepointName)
  | rollbackTo (name : SavepointName)
  | select
  | write (effect : Contents Time Data → Option (Contents Time Data))

/-- An `ActorSqlite` in which no explicit transaction is open, with its database. -/
structure ActorSqlite (Time Data : Type) where
  contents : Contents Time Data
  /-- What `BEGIN` found. -/
  begun : Option (Contents Time Data)
  /-- Innermost first. -/
  savepoints : List (SavepointName × Contents Time Data)
  /-- What befalls the statements to come. -/
  faults : List (Option Fault)
  criticalError : Bool
  broken : Bool
  /-- The implicit transaction that is open. -/
  currentTxn : Option Nat
  nextTxn : Nat
  transactionSyncDepth : Nat

namespace ActorSqlite

variable {Time Data : Type}

def isOpen (a : ActorSqlite Time Data) : Bool := a.begun.isSome || !a.savepoints.isEmpty

/-- The savepoints from the innermost of a name outwards. -/
def downTo (name : SavepointName) :
    List (SavepointName × Contents Time Data) → List (SavepointName × Contents Time Data)
  | [] => []
  | (other, before) :: rest => if other = name then (other, before) :: rest else downTo name rest

/-- What a complete rollback restores. -/
def outermost (a : ActorSqlite Time Data) : Contents Time Data :=
  match a.begun, a.savepoints.getLast? with
  | some before, _ => before
  | none, some (_, before) => before
  | none, none => a.contents

def rollBack (a : ActorSqlite Time Data) : ActorSqlite Time Data :=
  { a with contents := a.outermost, begun := none, savepoints := [] }

def effect (a : ActorSqlite Time Data) : Statement Time Data → Option (ActorSqlite Time Data)
  | .begin => if a.isOpen then none else some { a with begun := some a.contents }
  | .rollback => if a.isOpen then some a.rollBack else none
  | .savepoint name => some { a with savepoints := (name, a.contents) :: a.savepoints }
  | .release name =>
    match downTo name a.savepoints with
    | [] => none
    | _ :: rest => some { a with savepoints := rest }
  | .rollbackTo name =>
    match downTo name a.savepoints with
    | [] => none
    | (other, before) :: rest => some { a with contents := before, savepoints := (other, before) :: rest }
  | .select => some a
  | .write change => (change a.contents).map fun contents => { a with contents }

/-- A critical error is latched where SQLite rolled back what was open, and breaks the actor. -/
def autoRollback (a : ActorSqlite Time Data) : ActorSqlite Time Data :=
  if a.isOpen then { a.rollBack with criticalError := true, broken := true } else a

/-- The fault that befalls a statement, if one does, is spent on it. -/
def spent (a : ActorSqlite Time Data) : ActorSqlite Time Data := { a with faults := a.faults.tail }

/-- Runs one statement, and whether it went through. -/
def execute (a : ActorSqlite Time Data) (statement : Statement Time Data) : Bool × ActorSqlite Time Data :=
  if a.criticalError then (false, a)
  else
    match a.faults.head? with
    | some (some .fails) => (false, a.spent)
    | some (some .rollsBack) => (false, a.spent.autoRollback)
    | _ =>
      match a.spent.effect statement with
      | some after => (true, after)
      | none => (false, a.spent)

/-- `notifyWrite`: where no transaction is open, an implicit one is. -/
def notifyWrite (a : ActorSqlite Time Data) : Bool × ActorSqlite Time Data :=
  if a.broken then (false, a)
  else if a.currentTxn.isSome then (true, a)
  else
    match a.execute .begin with
    | (false, a) => (false, a)
    | (true, a) => (true, { a with currentTxn := some a.nextTxn, nextTxn := a.nextTxn + 1 })

def write (a : ActorSqlite Time Data) (change : Contents Time Data → Option (Contents Time Data)) :
    Bool × ActorSqlite Time Data :=
  match a.notifyWrite with
  | (false, a) => (false, a)
  | (true, a) => a.execute (.write change)

/-- What a call of the key-value store or of `sql.exec` runs, up to the first statement that fails. -/
def writeAll (a : ActorSqlite Time Data) : List (Data → Option Data) → Bool × ActorSqlite Time Data
  | [] => (true, a)
  | change :: rest =>
    match a.write fun contents => (change contents.data).map fun data => { contents with data } with
    | (false, a) => (false, a)
    | (true, a) => a.writeAll rest

def rollbackMultiPut (a : ActorSqlite Time Data) : ActorSqlite Time Data :=
  match a.execute (.rollbackTo .putMultiple) with
  | (false, a) => a
  | (true, a) => (a.execute (.release .putMultiple)).2

/-- The writes that create the table come first, and are not in the savepoint. -/
def putMultiple (a : ActorSqlite Time Data) (created pairs : List (Data → Option Data)) :
    Bool × ActorSqlite Time Data :=
  match a.notifyWrite with
  | (false, a) => (false, a)
  | (true, a) =>
    match a.writeAll created with
    | (false, a) => (false, a)
    | (true, a) =>
      match a.execute (.savepoint .putMultiple) with
      | (false, a) => (false, a)
      | (true, a) =>
        match a.writeAll pairs with
        | (false, a) => (false, a.rollbackMultiPut)
        | (true, a) => a.execute (.release .putMultiple)

variable [DecidableEq Time]

/-- `SqliteMetadata.setAlarm`: nothing is written for the time that is known to be set. -/
def setAlarm (a : ActorSqlite Time Data) (cached : Bool) (time : Option Time) : Bool × ActorSqlite Time Data :=
  if cached ∧ a.contents.alarm = time then (true, a)
  else a.write fun contents => some { contents with alarm := time }

/-- `kv.deleteAll()`: the rows are counted, and the file is reset. -/
def resetAll (empty : Data) (a : ActorSqlite Time Data) : Bool × ActorSqlite Time Data :=
  match a.execute .select with
  | (false, a) => (false, a)
  | (true, a) =>
    if a.isOpen then (false, a) else (true, { a with contents := { alarm := none, data := empty } })

/-- What `deleteAll` does with the implicit transaction that is open. -/
def closeCurrent (a : ActorSqlite Time Data) : Bool × ActorSqlite Time Data :=
  if a.currentTxn.isSome then
    match a.execute .rollback with
    | (false, a) => (false, a)
    | (true, a) => (true, { a with currentTxn := none })
  else (true, a)

/-- The file is reset, and an alarm that is to stay is set again. -/
def resetKeeping (empty : Data) (a : ActorSqlite Time Data) (alarm : Option Time) : Bool × ActorSqlite Time Data :=
  match a.resetAll empty with
  | (false, a) => (false, a)
  | (true, a) => if alarm.isSome then a.setAlarm false alarm else (true, a)

def deleteAll (empty : Data) (a : ActorSqlite Time Data) (deleteAlarm : Bool) : Bool × ActorSqlite Time Data :=
  if a.broken then (false, a)
  else
    let localAlarmState := a.contents.alarm
    match a.closeCurrent with
    | (false, a) => (false, a)
    | (true, a) => a.resetKeeping empty (if deleteAlarm then none else localAlarmState)

end ActorSqlite

/-- A callback: each read hands on what it finds, and what an operation answers decides what follows;
    one that fails may be caught. -/
inductive Callback (Time Data : Type)
  | returns (thenable : Bool)
  | throws
  | read (next : Contents Time Data → Callback Time Data)
  | writeAll (changes : List (Data → Option Data)) (next : Bool → Callback Time Data)
  | putMultiple (created pairs : List (Data → Option Data)) (next : Bool → Callback Time Data)
  | setAlarm (cached : Bool) (time : Option Time) (next : Bool → Callback Time Data)
  | deleteAll (deleteAlarm : Bool) (next : Bool → Callback Time Data)
  | transactionSync (callback : Callback Time Data) (next : Bool → Callback Time Data)

/-- One call of `transactionSync`. -/
structure CallRecord (Time Data : Type) where
  before : ActorSqlite Time Data
  /-- The actor with the implicit transaction open. -/
  opened : ActorSqlite Time Data
  /-- The actor as the callback ended. -/
  ended : ActorSqlite Time Data
  after : ActorSqlite Time Data
  returned : Bool
  /-- The callback closed the implicit transaction with a `deleteAll`. -/
  emptied : Bool
  /-- The actor before `ROLLBACK TO`, if it comes to that. -/
  undone : Option (ActorSqlite Time Data)

structure Run (Time Data : Type) where
  /-- The callback returned, and not a thenable. -/
  returned : Bool
  actor : ActorSqlite Time Data
  emptied : Bool
  calls : List (CallRecord Time Data)

open ActorSqlite

variable {Time Data : Type} [DecidableEq Time]

/-- The catch clause of `transactionSync`. -/
def undo (depth : Nat) (a : ActorSqlite Time Data) : ActorSqlite Time Data :=
  if a.criticalError then a
  else
    match a.execute (.rollbackTo (.sync depth)) with
    | (false, a) => a
    | (true, a) => (a.execute (.release (.sync depth))).2

/-- What follows the callback: the actor before the catch clause where it is entered, and after the call. -/
def conclude (depth : Nat) (body : Run Time Data) : Option (ActorSqlite Time Data) × ActorSqlite Time Data :=
  if body.returned ∧ body.actor.criticalError = false then
    match body.actor.execute (.release (.sync depth)) with
    | (true, a) => (none, a)
    | (false, a) => (some a, undo depth a)
  else (some body.actor, undo depth body.actor)

def enter (a : ActorSqlite Time Data) : ActorSqlite Time Data :=
  { a with transactionSyncDepth := a.transactionSyncDepth + 1 }

def leave (a : ActorSqlite Time Data) : ActorSqlite Time Data :=
  { a with transactionSyncDepth := a.transactionSyncDepth - 1 }

/-- A call whose callback was entered. -/
def called (depth : Nat) (a opened : ActorSqlite Time Data) (body : Run Time Data) : CallRecord Time Data where
  before := a
  opened
  ended := body.actor
  after := leave (conclude depth body).2
  returned := (conclude depth body).1.isNone
  emptied := body.emptied
  undone := (conclude depth body).1

def exec (empty : Data) : Callback Time Data → ActorSqlite Time Data → Run Time Data
  | .returns thenable, a => ⟨!thenable, a, false, []⟩
  | .throws, a => ⟨false, a, false, []⟩
  | .read next, a => exec empty (next a.contents) a
  | .writeAll changes next, a => exec empty (next (a.writeAll changes).1) (a.writeAll changes).2
  | .putMultiple created pairs next, a =>
    exec empty (next (a.putMultiple created pairs).1) (a.putMultiple created pairs).2
  | .setAlarm cached time next, a =>
    if a.broken then exec empty (next false) a
    else exec empty (next (a.setAlarm cached time).1) (a.setAlarm cached time).2
  | .deleteAll deleteAlarm next, a =>
    let closed := !a.broken && a.currentTxn.isSome && a.closeCurrent.1
    let rest := exec empty (next (deleteAll empty a deleteAlarm).1) (deleteAll empty a deleteAlarm).2
    { rest with emptied := closed || rest.emptied }
  | .transactionSync callback next, a =>
    let stays (opened after : ActorSqlite Time Data) : CallRecord Time Data :=
      { before := a, opened, ended := opened, after, returned := false, emptied := false, undone := none }
    match a.notifyWrite with
    | (false, opened) =>
      let rest := exec empty (next false) opened
      { rest with calls := stays opened opened :: rest.calls }
    | (true, opened) =>
      let depth := opened.transactionSyncDepth
      match (enter opened).execute (.savepoint (.sync depth)) with
      | (false, after) =>
        let rest := exec empty (next false) (leave after)
        { rest with calls := stays opened (leave after) :: rest.calls }
      | (true, inside) =>
        let body := exec empty callback inside
        let record := called depth a opened body
        let rest := exec empty (next record.returned) record.after
        { rest with emptied := body.emptied || rest.emptied, calls := body.calls ++ record :: rest.calls }

end DoRuntime.Storage.Sync
