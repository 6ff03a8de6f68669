import DoRuntime.Io.OutputGate
import DoRuntime.Lib.Program
import DoRuntime.Lib.Transition
import DoRuntime.Storage.ExplicitTxn

namespace DoRuntime.Storage

open Io Prog

/-- An unset alarm is indistinguishable from an alarm set at infinity. -/
def willFireEarlier (alarm1 alarm2 : Option Int) : Bool :=
  match alarm1, alarm2 with
  | some a, some b => a < b
  | some _, none => true
  | none, _ => false

/-- What the database does with the alarm row, for a connection that sees its own transaction. -/
structure AlarmDatabase where
  alarm : Option Int
  /-- The row as the last local commit left it. -/
  durable : Option Int
  inTransaction : Bool
  savepoints : List (Savepoint (Option Int))

inductive Statement
  | beginTransaction
  | commitTransaction
  | rollbackTransaction
  | savepoint (name : Nat)
  | release (name : Nat)
  | rollbackTo (name : Nat)
  | write
  | setAlarm (time : Option Int)
  | reset

namespace AlarmDatabase

variable (db : AlarmDatabase)

/-- A transaction is open, begun as such or by a savepoint. -/
def isOpen : Bool := db.inTransaction || !db.savepoints.isEmpty

def exec : Statement → Option AlarmDatabase
  | .beginTransaction => if db.isOpen then none else some { db with inTransaction := true }
  | .commitTransaction =>
    if db.isOpen then some { db with durable := db.alarm, inTransaction := false, savepoints := [] } else none
  | .rollbackTransaction =>
    if db.isOpen then some { db with alarm := db.durable, inTransaction := false, savepoints := [] } else none
  | .savepoint name => some { db with savepoints := { name, contents := db.alarm } :: db.savepoints }
  | .release name =>
    match Storage.release name db.savepoints with
    | none => none
    | some savepoints =>
      if savepoints.isEmpty && !db.inTransaction then some { db with durable := db.alarm, savepoints }
      else some { db with savepoints }
  | .rollbackTo name =>
    match Storage.rollbackTo name db.savepoints with
    | none => none
    | some (alarm, savepoints) => some { db with alarm, savepoints }
  | .write => some db
  | .setAlarm time => if db.isOpen then some { db with alarm := time } else some { db with alarm := time, durable := time }
  | .reset => if db.isOpen then none else some { db with alarm := none, durable := none }

end AlarmDatabase

/-- What a task of `commitTasks` commits. An implicit transaction goes by the number of its task. -/
inductive TaskKind
  | implicit
  | root
  | deleteAll
deriving DecidableEq

/-- How far a commit has come. -/
inductive TaskPhase
  | scheduled
  /-- It waits on the `#pendingCommit` of another. -/
  | merged (into : Nat)
  /-- It waits on a request to the alarm outlet. -/
  | scheduling (request : Nat)
  /-- It waits on `#commitCallback`, with `alarmStateForCommit` and `alarmVersionBeforeAsync`. -/
  | persisting (callback : Nat) (alarm : Option Int) (version : Nat)
  | fulfilled
  | rejected (exception : String)
deriving DecidableEq

structure CommitTask where
  kind : TaskKind
  phase : TaskPhase
  /-- The promise that is `#pendingCommit` while the commit is under way. -/
  shared : Settlement
  /-- History: the calls of `#commitCallback` before the local commit of what it commits. -/
  since : Option Nat

structure ImplicitTxn where
  committed : Bool
  dropped : Bool
  someWriteConfirmed : Bool

/-- An `ExplicitTxn` with the flags that decide over the alarm and the output gate. -/
structure LiveTxn where
  parent : Option Nat
  depth : Nat
  hasChild : Bool
  committed : Bool
  dropped : Bool
  alarmDirty : Bool
  someWriteConfirmed : Bool

inductive OpenTxn
  | none
  | implicit (task : Nat)
  | explicit (txn : Nat)
deriving DecidableEq

/-- A call of `AlarmOutlet.scheduleRun`, with the request that its `priorTask` is. -/
structure ScheduleRequest where
  time : Option Int
  movingLater : Bool
  priorTask : Option Nat
  answer : Settlement

/-- The promise that a lock of the output gate was taken for. -/
inductive LockedFor
  | task (task : Nat)
  | rejection (exception : String)
  | other

structure LiveActorSqlite where
  db : AlarmDatabase
  gate : OutputGate
  lockedFor : Nat → LockedFor
  currentTxn : OpenTxn
  implicits : Nat → ImplicitTxn
  txns : Nat → LiveTxn
  nextTxn : Nat
  tasks : Nat → CommitTask
  nextTask : Nat
  /-- The tasks whose function waits for the end of the checkpoint. -/
  evalLater : List Nat
  lastCommit : Option Nat
  deleteAllCommitScheduled : Bool
  broken : Option String
  haveDeferredDelete : Bool
  inAlarmHandler : Bool
  lastConfirmedAlarmDbState : Option Int
  alarmScheduledNoLaterThan : Option Int
  pendingCommit : Option Nat
  alarmLaterInFlight : Option Nat
  alarmLaterIsInFlight : Bool
  /-- The request whose completion handler is still to run. -/
  laterHandler : Option Nat
  pendingLaterAlarmTime : Option (Option Int)
  alarmVersion : Nat
  transactionSyncDepth : Nat
  requests : Nat → ScheduleRequest
  nextRequest : Nat
  callbacks : Nat → Settlement
  nextCallback : Nat

/-- What becomes of the statements of a step and of its call of `scheduleRun`. -/
structure Surroundings where
  fails : Statement → Bool
  scheduleThrows : Bool

namespace LiveActorSqlite

abbrev Act (α : Type) : Type := Prog String LiveActorSqlite α

def setTask (s : LiveActorSqlite) (t : Nat) (f : CommitTask → CommitTask) : LiveActorSqlite :=
  { s with tasks := Function.update s.tasks t (f (s.tasks t)) }

def setPhase (s : LiveActorSqlite) (t : Nat) (phase : TaskPhase) : LiveActorSqlite :=
  s.setTask t fun task => { task with phase }

def setSince (s : LiveActorSqlite) (t : Nat) : LiveActorSqlite :=
  s.setTask t fun task => { task with since := some s.nextCallback }

def setImplicit (s : LiveActorSqlite) (t : Nat) (f : ImplicitTxn → ImplicitTxn) : LiveActorSqlite :=
  { s with implicits := Function.update s.implicits t (f (s.implicits t)) }

def setTxn (s : LiveActorSqlite) (id : Nat) (f : LiveTxn → LiveTxn) : LiveActorSqlite :=
  { s with txns := Function.update s.txns id (f (s.txns id)) }

def lockWhile (s : LiveActorSqlite) (promise : LockedFor) : LiveActorSqlite :=
  { s with
    gate := s.gate.lockWhile
    lockedFor := Function.update s.lockedFor s.gate.locks promise }

/-- A new task of `commitTasks`. -/
def addTask (s : LiveActorSqlite) (kind : TaskKind) : LiveActorSqlite :=
  { s with
    tasks := Function.update s.tasks s.nextTask { kind, phase := .scheduled, shared := .pending, since := none }
    nextTask := s.nextTask + 1 }

section Operations

variable (env : Surroundings)

def run (statement : Statement) : Act Unit := do
  let s ← state
  if env.fails statement then raise "SQLite error"
  else match s.db.exec statement with
  | none => raise "SQLite error"
  | some db => update fun s => { s with db }

def requireNotBroken : Act Unit := do
  let s ← state
  match s.broken with
  | none => pure ()
  | some exception => raise exception

/-- `#startImplicitTxn` -/
def startImplicitTxn : Act Unit := do
  let s ← state
  if s.currentTxn ≠ .none then raise "an implicit transaction requires that no transaction is open"
  else do
    run env .beginTransaction
    update fun s =>
      { s.addTask .implicit with
        implicits := Function.update s.implicits s.nextTask
          { committed := false, dropped := false, someWriteConfirmed := false }
        currentTxn := .implicit s.nextTask
        evalLater := s.evalLater ++ [s.nextTask]
        lastCommit := some s.nextTask }

/-- `#onWrite` -/
def onWrite (allowUnconfirmed : Bool) : Act Unit := do
  requireNotBroken
  let s ← state
  if s.currentTxn = .none then startImplicitTxn env else pure ()
  let s ← state
  match s.currentTxn with
  | .none => raise "we must have a transaction at this point"
  | .implicit t =>
    if !(s.implicits t).someWriteConfirmed && !allowUnconfirmed then
      update fun s => (s.setImplicit t fun txn => { txn with someWriteConfirmed := true }).lockWhile
        (match s.lastCommit with
        | some task => .task task
        | none => .other)
    else pure ()
  | .explicit id =>
    if !(s.txns id).someWriteConfirmed && !allowUnconfirmed then
      update fun s => s.setTxn id fun txn => { txn with someWriteConfirmed := true }
    else pure ()

/-- `#requestScheduledAlarm`, up to the answer of the outlet. -/
def requestScheduledAlarm (requestedTime : Option Int) (priorTask : Option Nat) : Act Nat := do
  let s ← state
  let movingLater := willFireEarlier s.alarmScheduledNoLaterThan requestedTime
  if movingLater then update fun s => { s with alarmScheduledNoLaterThan := requestedTime } else pure ()
  if env.scheduleThrows then raise "scheduleRun threw"
  else do
    update fun s =>
      { s with
        requests := Function.update s.requests s.nextRequest
          { time := requestedTime, movingLater, priorTask, answer := .pending }
        nextRequest := s.nextRequest + 1 }
    pure s.nextRequest

/-- `#scheduleLaterAlarm` -/
def scheduleLaterAlarm (newAlarmTime : Option Int) : Act Unit := do
  let s ← state
  if s.alarmLaterIsInFlight then update fun s => { s with pendingLaterAlarmTime := some newAlarmTime }
  else do
    update fun s => { s with alarmLaterIsInFlight := true }
    let request ← requestScheduledAlarm env newAlarmTime s.alarmLaterInFlight
    update fun s => { s with alarmLaterInFlight := some request, laterHandler := some request }

def startPrecommitAlarmScheduling : Act (Option Nat) := do
  let s ← state
  if s.pendingCommit = none ∧ willFireEarlier s.db.alarm s.alarmScheduledNoLaterThan then do
    update fun s => { s with pendingLaterAlarmTime := none }
    let request ← requestScheduledAlarm env s.db.alarm s.alarmLaterInFlight
    pure (some request)
  else pure none

/-- The loop of `commitImpl`, and the call of `#commitCallback` that follows it. -/
def commitLoop (t : Nat) : Act Unit := do
  let s ← state
  if willFireEarlier s.db.alarm s.alarmScheduledNoLaterThan then do
    let request ← requestScheduledAlarm env s.db.alarm none
    update fun s => s.setPhase t (.scheduling request)
  else
    update fun s =>
      { s.setPhase t (.persisting s.nextCallback s.db.alarm s.alarmVersion) with
        callbacks := Function.update s.callbacks s.nextCallback .pending
        nextCallback := s.nextCallback + 1
        pendingCommit := none }

/-- A failure inside `commitImpl` reaches the merged commits, then its own caller. -/
def orReject (t : Nat) (body : Act Unit) : Act Unit :=
  attempt body fun exception => do
    update fun s => s.setTask t fun task =>
      { task with shared := if task.shared = .pending then .rejected exception else task.shared }
    raise exception

/-- `commitImpl`, up to its first await. -/
def commitImpl (t : Nat) (schedulingPromise : Option Nat) : Act Unit := do
  let s ← state
  match s.pendingCommit with
  | some pending => update fun s => s.setPhase t (.merged pending)
  | none => do
    update fun s => { s with pendingCommit := some t }
    match schedulingPromise with
    | some request => update fun s => s.setPhase t (.scheduling request)
    | none => orReject t (commitLoop env t)

/-- `commitImpl` from one of its awaits on. -/
def resumeCommit (t : Nat) : Act Unit := do
  let s ← state
  match (s.tasks t).phase with
  | .merged pending =>
    match (s.tasks pending).shared with
    | .rejected exception => raise exception
    | _ => update fun s => s.setPhase t .fulfilled
  | .scheduling request =>
    match (s.requests request).answer with
    | .rejected exception => orReject t (raise exception)
    | _ => orReject t (commitLoop env t)
  | .persisting callback alarm version =>
    match s.callbacks callback with
    | .rejected exception => orReject t (raise exception)
    | _ => orReject t do
      update fun s => { s.setTask t fun task => { task with shared := .fulfilled } with lastConfirmedAlarmDbState := alarm }
      let s ← state
      if s.alarmVersion = version ∧ willFireEarlier s.alarmScheduledNoLaterThan alarm then scheduleLaterAlarm env alarm
      else pure ()
      update fun s => s.setPhase t .fulfilled
  | _ => pure ()

/-- The promise of a task rejects; that of a transaction breaks the output gate first. -/
def failTask (t : Nat) (exception : String) : Act Unit :=
  update fun s =>
    let s := s.setPhase t (.rejected exception)
    if (s.tasks t).kind = .deleteAll then s else s.lockWhile (.rejection exception)

/-- `ImplicitTxn.commit` -/
def commitImplicit (t : Nat) : Act Unit := do
  let s ← state
  if (s.implicits t).committed then pure ()
  else do
    run env .commitTransaction
    update fun s => (s.setImplicit t fun txn => { txn with committed := true }).setSince t

/-- `ImplicitTxn.drop` -/
def dropImplicit (t : Nat) : Act Unit := do
  let s ← state
  if (s.implicits t).dropped then pure ()
  else do
    update fun s =>
      { s.setImplicit t fun txn => { txn with dropped := true } with
        currentTxn := if s.currentTxn = .implicit t then .none else s.currentTxn }
    if (s.implicits t).committed ∨ s.broken.isSome then pure () else run env .rollbackTransaction

/-- The function that `#startImplicitTxn` leaves for the end of the checkpoint. -/
def implicitCommit (t : Nat) : Act Unit := do
  requireNotBroken
  let schedulingPromise ← startPrecommitAlarmScheduling env
  attempt (commitImplicit env t) fun exception => do
    requireNotBroken
    raise exception
  dropImplicit env t
  commitImpl env t schedulingPromise

/-- The function that `deleteAll` leaves for the end of the checkpoint. -/
def deleteAllCommit (t : Nat) : Act Unit := do
  requireNotBroken
  update fun s => { s.setSince t with deleteAllCommitScheduled := false }
  let s ← state
  match s.currentTxn with
  | .implicit _ => update fun s => s.setPhase t .fulfilled
  | _ => do
    let schedulingPromise ← startPrecommitAlarmScheduling env
    commitImpl env t schedulingPromise

/-- The next function of the checkpoint's end. -/
def checkpoint (t : Nat) : Act Unit := do
  update fun s => { s with evalLater := s.evalLater.tail }
  let s ← state
  match (s.tasks t).kind with
  | .implicit =>
    attempt (implicitCommit env t) fun exception =>
      attempt (dropImplicit env t >>= fun _ => failTask t exception) fun exception => failTask t exception
  | _ => attempt (deleteAllCommit env t) fun exception => failTask t exception

/-- Savepoints are named after the depth, those of `transactionSync` apart from those of transactions. -/
def savepointName (depth : Nat) : Nat := 2 * depth

def syncSavepointName (depth : Nat) : Nat := 2 * depth + 1

/-- `startTransaction` with the constructor of `ExplicitTxn`. -/
def startTransaction : Act Unit := do
  requireNotBroken
  let s ← state
  let root : LiveTxn :=
    { parent := none, depth := 0, hasChild := false, committed := false, dropped := false, alarmDirty := false
      someWriteConfirmed := false }
  let txn ← match s.currentTxn with
    | .none => pure root
    | .implicit t => do
      commitImplicit env t
      pure root
    | .explicit id =>
      if (s.txns id).hasChild then
        raise "critical section should have blocked creation of more than one child at a time"
      else do
        update fun s => s.setTxn id fun txn => { txn with hasChild := true }
        pure { s.txns id with parent := some id, depth := (s.txns id).depth + 1, hasChild := false, committed := false, dropped := false }
  update fun s =>
    { s with
      txns := Function.update s.txns s.nextTxn txn
      currentTxn := .explicit s.nextTxn
      nextTxn := s.nextTxn + 1 }
  run env (.savepoint (savepointName txn.depth))

/-- `ExplicitTxn.commit` -/
def commit (id : Nat) : Act Unit := do
  requireNotBroken
  let s ← state
  let txn := s.txns id
  if txn.hasChild then
    raise "critical sections should have prevented committing transaction while nested txn is outstanding"
  else match txn.parent with
  | some parent => do
    run env (.release (savepointName txn.depth))
    update fun s => (s.setTxn id fun txn => { txn with committed := true }).setTxn parent fun outer =>
      { outer with
        alarmDirty := outer.alarmDirty || txn.alarmDirty
        someWriteConfirmed := outer.someWriteConfirmed || txn.someWriteConfirmed }
  | none => do
    let schedulingPromise ← startPrecommitAlarmScheduling env
    run env (.release (savepointName txn.depth))
    let t := s.nextTask
    update fun s =>
      { ((s.setTxn id fun txn => { txn with committed := true }).addTask .root).setSince t with
        haveDeferredDelete := s.haveDeferredDelete && !txn.alarmDirty
        lastCommit := some t }
    let failure ← attempt (commitImpl env t schedulingPromise >>= fun _ => pure none) fun exception =>
      pure (some exception)
    if txn.someWriteConfirmed then update fun s => s.lockWhile (.task t) else pure ()
    match failure with
    | none => pure ()
    | some exception => failTask t exception

/-- `#rollbackImpl` -/
def rollbackImpl (id : Nat) : Act Unit := do
  let s ← state
  let txn := s.txns id
  run env (.rollbackTo (savepointName txn.depth))
  run env (.release (savepointName txn.depth))
  update fun s => s.setTxn id fun txn =>
    match txn.parent with
    | some parent =>
      { txn with alarmDirty := (s.txns parent).alarmDirty, someWriteConfirmed := (s.txns parent).someWriteConfirmed }
    | none => { txn with alarmDirty := false, someWriteConfirmed := false }

/-- `ExplicitTxn.rollback` -/
def rollback (id : Nat) : Act Unit := do
  requireNotBroken
  let s ← state
  if (s.txns id).hasChild then
    raise "Cannot roll back an outer transaction while a nested transaction is still running."
  else if (s.txns id).committed then pure ()
  else do
    rollbackImpl env id
    update fun s => s.setTxn id fun txn => { txn with committed := true }

/-- The state update at the end of `ExplicitTxn.drop`. -/
def unlink (id : Nat) : Act Unit := do
  let s ← state
  if (s.txns id).hasChild then raise "an explicit transaction was dropped while a nested one was outstanding"
  else if s.currentTxn ≠ .explicit id then raise "an explicit transaction was dropped out of order"
  else match (s.txns id).parent with
  | some parent => update fun s =>
      { s.setTxn parent fun txn => { txn with hasChild := false } with currentTxn := .explicit parent }
  | none => update fun s => { s with currentTxn := .none }

/-- `ExplicitTxn.drop` -/
def drop (id : Nat) : Act Unit := do
  let s ← state
  if (s.txns id).dropped then pure ()
  else do
    update fun s => s.setTxn id fun txn => { txn with dropped := true }
    if (s.txns id).committed ∨ s.broken.isSome then unlink id
    else do
      attempt (rollbackImpl env id) fun exception => do
        unlink id
        raise exception
      unlink id

/-- A statement that writes, of `put`, `delete` or SQL. -/
def write (allowUnconfirmed : Bool) : Act Unit := do
  onWrite env allowUnconfirmed
  run env .write

/-- `putMultiple`, of pairs all written with one statement each. -/
def putMultiple (pairs : Nat) (allowUnconfirmed : Bool) : Act Unit := do
  requireNotBroken
  let s ← state
  if s.currentTxn = .none then startImplicitTxn env else pure ()
  forEach (List.range pairs) fun _ => write env allowUnconfirmed

/-- `SqliteMetadata.setAlarm`, which writes nothing where its cache has the time already. -/
def setMetadataAlarm (time : Option Int) (allowUnconfirmed cached : Bool) : Act Bool := do
  let s ← state
  if cached ∧ s.db.alarm = time then pure false
  else do
    onWrite env allowUnconfirmed
    run env (.setAlarm time)
    pure true

def setAlarm (newAlarmTime : Option Int) (allowUnconfirmed cached : Bool) : Act Unit := do
  requireNotBroken
  let changed ← setMetadataAlarm env newAlarmTime allowUnconfirmed cached
  if changed then update fun s => { s with alarmVersion := s.alarmVersion + 1 } else pure ()
  update fun s =>
    match s.currentTxn with
    | .explicit id => s.setTxn id fun txn => { txn with alarmDirty := true }
    | _ => { s with haveDeferredDelete := false }

def deleteAll (deleteAlarm : Bool) : Act Unit := do
  requireNotBroken
  let s ← state
  let localAlarmState := s.db.alarm
  match s.currentTxn with
  | .none => pure ()
  | .implicit t => do
    if (s.implicits t).committed then pure ()
    else do
      run env .rollbackTransaction
      update fun s => (s.setImplicit t fun txn => { txn with committed := true }).setSince t
    update fun s => { s with currentTxn := .none }
  | .explicit _ => raise "Cannot call deleteAll() within a transaction"
  if s.deleteAllCommitScheduled then pure ()
  else update fun s =>
    { (s.addTask .deleteAll).lockWhile (.task s.nextTask) with
      evalLater := s.evalLater ++ [s.nextTask]
      deleteAllCommitScheduled := true }
  run env .reset
  if localAlarmState = none then pure ()
  else if deleteAlarm then
    update fun s => { s with alarmVersion := s.alarmVersion + 1, haveDeferredDelete := false }
  else do
    let changed ← setMetadataAlarm env localAlarmState false false
    if changed then update fun s => { s with alarmVersion := s.alarmVersion + 1 } else pure ()

/-- `transactionSync`, up to its callback. -/
def beginSync : Act Unit := do
  onWrite env false
  let s ← state
  update fun s => { s with transactionSyncDepth := s.transactionSyncDepth + 1 }
  attempt (run env (.savepoint (syncSavepointName s.transactionSyncDepth))) fun exception => do
    update fun s => { s with transactionSyncDepth := s.transactionSyncDepth - 1 }
    raise exception

/-- `transactionSync`, from the end of its callback on. -/
def endSync (returned : Bool) : Act Unit := do
  let s ← state
  let name := syncSavepointName (s.transactionSyncDepth - 1)
  update fun s => { s with transactionSyncDepth := s.transactionSyncDepth - 1 }
  attempt (if returned then run env (.release name) else raise "the callback threw") fun exception => do
    run env (.rollbackTo name)
    run env (.release name)
    raise exception

def cancelDeferredAlarmDeletion : Act Unit := update fun s => { s with haveDeferredDelete := false }

/-- `#maybeDeleteDeferredAlarm` -/
def maybeDeleteDeferredAlarm (cached : Bool) : Act Unit := do
  update fun s => { s with inAlarmHandler := false }
  let s ← state
  if s.haveDeferredDelete then do
    if s.broken = none then do
      let changed ← setMetadataAlarm env none false cached
      if changed then update fun s => { s with alarmVersion := s.alarmVersion + 1 } else pure ()
    else pure ()
    update fun s => { s with haveDeferredDelete := false }
  else pure ()

def armAlarmHandler (scheduledTime : Int) (currentTime : Int) : Act Unit := do
  let s ← state
  let localAlarmState := s.db.alarm
  let runs (haveDeferredDelete : Bool) : Act Unit :=
    update fun s => { s with haveDeferredDelete, inAlarmHandler := true }
  if s.inAlarmHandler then raise "armAlarmHandler() called while an alarm handler is already running"
  else if localAlarmState = some scheduledTime then runs true
  else if localAlarmState = s.lastConfirmedAlarmDbState then
    if willFireEarlier localAlarmState (some currentTime) then runs true
    else if willFireEarlier (some scheduledTime) localAlarmState then do
      let request ← requestScheduledAlarm env localAlarmState s.alarmLaterInFlight
      update fun s => { s with pendingLaterAlarmTime := none, alarmLaterInFlight := some request }
    else do
      let _ ← requestScheduledAlarm env localAlarmState none
      pure ()
  else runs false

def abandonAlarm (scheduledTime : Int) (cached : Bool) : Act Unit := do
  let s ← state
  if s.inAlarmHandler then pure ()
  else if s.db.alarm = some scheduledTime then setAlarm env none false cached
  else pure ()

/-- The completion handler of a request of `#scheduleLaterAlarm`, which lets no exception out. -/
def laterDone : Act Unit := do
  update fun s => { s with alarmLaterIsInFlight := false, laterHandler := none }
  let s ← state
  match s.pendingLaterAlarmTime with
  | none => pure ()
  | some nextTime => do
    update fun s => { s with pendingLaterAlarmTime := none }
    if willFireEarlier s.db.alarm nextTime then pure ()
    else attempt (scheduleLaterAlarm env nextTime) fun _ => pure ()

end Operations

inductive Op
  | write (allowUnconfirmed : Bool)
  | putMultiple (pairs : Nat) (allowUnconfirmed : Bool)
  | setAlarm (newAlarmTime : Option Int) (allowUnconfirmed cached : Bool)
  | deleteAll (deleteAlarm : Bool)
  | startTransaction
  | commit (txn : Nat)
  | rollback (txn : Nat)
  | drop (txn : Nat)
  | beginSync
  | endSync (returned : Bool)
  | armAlarmHandler (scheduledTime currentTime : Int)
  | cancelDeferredAlarmDeletion
  | dropDeleter (cached : Bool)
  | abandonAlarm (scheduledTime : Int) (cached : Bool)
  | shutdown (exception : String)
  | criticalError (exception : String)
  /-- The rejection of a task reaches `#taskFailed`. -/
  | taskFailed (task : Nat)
  | checkpoint
  /-- What a commit awaits has settled. -/
  | resume (task : Nat)
  | answer (request : Nat) (outcome : Settlement)
  | persisted (callback : Nat) (outcome : Settlement)
  | laterDone
  | lockOutput
  | settleLock (lock : Nat) (outcome : Settlement)
  | wait
  | settleWait (wait : Nat)

structure Event where
  op : Op
  env : Surroundings

/-- The closure of a transaction holds its object from the constructor until `drop`. -/
def Held (s : LiveActorSqlite) (id : Nat) : Prop :=
  id < s.nextTxn ∧ (s.txns id).dropped = false ∧ (s.currentTxn = .explicit id ∨ (s.txns id).hasChild = true)

instance (s : LiveActorSqlite) (id : Nat) : Decidable (s.Held id) := by
  unfold Held
  infer_instance

/-- The promise that a commit awaits has settled. -/
def awaited (s : LiveActorSqlite) (t : Nat) : Settlement :=
  match (s.tasks t).phase with
  | .merged pending => (s.tasks pending).shared
  | .scheduling request => (s.requests request).answer
  | .persisting callback _ _ => s.callbacks callback
  | _ => .pending

/-- A lock is released where its promise was fulfilled; it may be rejected by its promise or by a timeout. -/
def mayRelease (s : LiveActorSqlite) (l : Nat) : Bool :=
  match s.lockedFor l with
  | .task t => (s.tasks t).phase = .fulfilled
  | .rejection _ => false
  | .other => true

def breaks (s : LiveActorSqlite) (exception : String) : LiveActorSqlite :=
  { s with broken := some (s.broken.getD exception) }

/-- `#onCriticalError`, once SQLite has rolled back of itself. -/
def criticalError (s : LiveActorSqlite) (exception : String) : LiveActorSqlite :=
  if s.broken.isSome then s
  else
    { (s.breaks exception).lockWhile (.rejection exception) with
      db := { s.db with alarm := s.db.durable, inTransaction := false, savepoints := [] } }

/-- The answer of the outlet, which lets a request that moves the alarm earlier be counted on. -/
def answered (s : LiveActorSqlite) (r : Nat) (outcome : Settlement) : LiveActorSqlite :=
  { s with
    requests := Function.update s.requests r { s.requests r with answer := outcome }
    alarmScheduledNoLaterThan :=
      if outcome = .fulfilled ∧ (s.requests r).movingLater = false then (s.requests r).time
      else s.alarmScheduledNoLaterThan }

def step (s : LiveActorSqlite) (e : Event) : Option LiveActorSqlite :=
  match e.op with
  | .write allowUnconfirmed => some (write e.env allowUnconfirmed s).2
  | .putMultiple pairs allowUnconfirmed => some (putMultiple e.env pairs allowUnconfirmed s).2
  | .setAlarm time allowUnconfirmed cached => some (setAlarm e.env time allowUnconfirmed cached s).2
  | .deleteAll deleteAlarm => some (deleteAll e.env deleteAlarm s).2
  | .startTransaction => some (startTransaction e.env s).2
  | .commit id => if s.Held id then some (commit e.env id s).2 else none
  | .rollback id => if s.Held id then some (rollback e.env id s).2 else none
  | .drop id => if s.Held id then some (drop e.env id s).2 else none
  | .beginSync => some (beginSync e.env s).2
  | .endSync returned => if 0 < s.transactionSyncDepth then some (endSync e.env returned s).2 else none
  | .armAlarmHandler scheduledTime currentTime => some (armAlarmHandler e.env scheduledTime currentTime s).2
  | .cancelDeferredAlarmDeletion => some (cancelDeferredAlarmDeletion s).2
  | .dropDeleter cached => some (maybeDeleteDeferredAlarm e.env cached s).2
  | .abandonAlarm scheduledTime cached => some (abandonAlarm e.env scheduledTime cached s).2
  | .shutdown exception => some (s.breaks exception)
  | .criticalError exception => some (s.criticalError exception)
  | .taskFailed t =>
    match (s.tasks t).phase with
    | .rejected exception => some (s.breaks exception)
    | _ => none
  | .checkpoint =>
    match s.evalLater with
    | [] => none
    | t :: _ => some (checkpoint e.env t s).2
  | .resume t =>
    if t < s.nextTask ∧ s.awaited t ≠ .pending then
      some (attempt (resumeCommit e.env t) (fun exception => failTask t exception) s).2
    else none
  | .answer r outcome =>
    if r < s.nextRequest ∧ (s.requests r).answer = .pending ∧ outcome ≠ .pending then some (s.answered r outcome)
    else none
  | .persisted c outcome =>
    if c < s.nextCallback ∧ s.callbacks c = .pending ∧ outcome ≠ .pending then
      some { s with callbacks := Function.update s.callbacks c outcome }
    else none
  | .laterDone =>
    match s.laterHandler with
    | none => none
    | some r => if (s.requests r).answer ≠ .pending then some (laterDone e.env s).2 else none
  | .lockOutput => some (s.lockWhile .other)
  | .settleLock l outcome =>
    if outcome ≠ .pending ∧ (outcome = .fulfilled → s.mayRelease l) then
      some { s with gate := s.gate.settleLock l outcome }
    else none
  | .wait => some { s with gate := s.gate.beginWait }
  | .settleWait w => some { s with gate := s.gate.settleWait w }

/-- A new `ActorSqlite` over a database that holds the alarm. -/
def opened (alarm : Option Int) : LiveActorSqlite where
  db := { alarm, durable := alarm, inTransaction := false, savepoints := [] }
  gate := .opened
  lockedFor := fun _ => .other
  currentTxn := .none
  implicits := fun _ => { committed := false, dropped := false, someWriteConfirmed := false }
  txns := fun _ =>
    { parent := none, depth := 0, hasChild := false, committed := false, dropped := false, alarmDirty := false
      someWriteConfirmed := false }
  nextTxn := 0
  tasks := fun _ => { kind := .root, phase := .scheduled, shared := .pending, since := none }
  nextTask := 0
  evalLater := []
  lastCommit := none
  deleteAllCommitScheduled := false
  broken := none
  haveDeferredDelete := false
  inAlarmHandler := false
  lastConfirmedAlarmDbState := alarm
  alarmScheduledNoLaterThan := alarm
  pendingCommit := none
  alarmLaterInFlight := none
  alarmLaterIsInFlight := false
  laterHandler := none
  pendingLaterAlarmTime := none
  alarmVersion := 0
  transactionSyncDepth := 0
  requests := fun _ => { time := none, movingLater := false, priorTask := none, answer := .pending }
  nextRequest := 0
  callbacks := fun _ => .pending
  nextCallback := 0

end LiveActorSqlite

end DoRuntime.Storage
