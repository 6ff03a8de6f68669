import DoRuntime.Alarms.AlarmTable
import DoRuntime.Lib.Program
import DoRuntime.Lib.Transition

namespace DoRuntime.Alarms

open DoRuntime.Js DoRuntime.Sql Prog

inductive EventOutcome
  | ok
  | canceled
  | scriptNotFound
  | exception
  | aborted
  | exceededCpu
  | unknown
deriving DecidableEq

structure AlarmResult where
  retry : Bool
  retryCountsAgainstLimit : Bool
  outcome : EventOutcome

/-- Where `#makeAlarmTask` stands for an entry: at its wake, with the result whose bookkeeping
    failed if it has one, or at one of its other two awaits. -/
inductive Task
  | sleeping (completed : Option AlarmResult) (bookkeepingBackoff : Nat)
  | delivering (bookkeepingBackoff : Nat)
  | abandoning (completed : AlarmResult) (bookkeepingBackoff : Nat)
  | done

/-- The task is between the start of a delivery and the end of what follows from it. -/
def Task.isBusy : Task → Bool
  | .sleeping none _ | .done => false
  | _ => true

/-- What can throw in the middle of a stretch: a statement, or `projectWake` where it is called. -/
inductive Fallible
  | setAlarm
  | markRunning
  | saveRetry
  | clearRunning
  | deleteAlarm
  | deleteAll
  | projectSet
  | projectDelete
  | projectDeleteAll
  | projectStart
deriving DecidableEq

def Fallible.isStatement : Fallible → Bool
  | setAlarm | markRunning | saveRetry | clearRunning | deleteAlarm | deleteAll => true
  | _ => false

structure Env where
  now : Float
  jitter : Nat → Nat
  fails : Fallible → Bool

structure LiveScheduler where
  /-- `_cf_ALARM` -/
  rows : List AlarmRow
  alarms : String → Option Nat
  entry : Nat → ScheduledAlarm
  task : Nat → Task
  next : Nat
  /-- The `deliverAlarm` calls made, in order: the actor, the time and the retry count. -/
  delivered : List (String × Float × Nat)
  /-- The entries that a `deleteAll` took off the map. -/
  dropped : Nat → Bool
  /-- The entries that a `deleteAlarm` left on the map when it removed their row. -/
  unrecorded : Nat → Bool

/-- The row of an actor. -/
def rowOf (rows : List AlarmRow) (actorId : String) : Option AlarmRow :=
  rows.find? (·.actorId = actorId)

def updateRow (rows : List AlarmRow) (actorId : String) (f : AlarmRow → AlarmRow) : List AlarmRow :=
  rows.map fun row => if row.actorId = actorId then f row else row

def deleteRow (rows : List AlarmRow) (actorId : String) : List AlarmRow :=
  rows.filter (·.actorId ≠ actorId)

def AlarmRow.setRunning (row : AlarmRow) (running : Nat) : AlarmRow :=
  { row with running := bindNumber .integer (some (Float.ofNat running)) }

/-- `STMT.saveRetry` -/
def AlarmRow.saveRetry (row : AlarmRow) (retryTime : Float) (backoff countedRetry : Nat) (counted : Bool) :
    AlarmRow :=
  { row with
    retryTime := bindNumber .integer (some retryTime)
    backoff := bindNumber .integer (some (Float.ofNat backoff))
    countedRetry := bindNumber .integer (some (Float.ofNat countedRetry))
    previousRetryCounted := bindNumber .integer (some (Float.ofNat counted.toNat))
    running := bindNumber .integer (some (Float.ofNat 0)) }

namespace LiveScheduler

abbrev Act (α : Type) : Type := Prog String LiveScheduler α

def setEntry (s : LiveScheduler) (e : Nat) (f : ScheduledAlarm → ScheduledAlarm) : LiveScheduler :=
  { s with entry := fun i => if i = e then f (s.entry i) else s.entry i }

def setTask (s : LiveScheduler) (e : Nat) (task : Task) : LiveScheduler :=
  { s with task := fun i => if i = e then task else s.task i }

def setUnrecorded (s : LiveScheduler) (e : Nat) (unrecorded : Bool) : LiveScheduler :=
  { s with unrecorded := fun i => if i = e then unrecorded else s.unrecorded i }

/-- A new entry for an actor, in the place of the one on the map. -/
def schedule (s : LiveScheduler) (actorId : String) (scheduledTime : Float) (unrecorded : Bool) :
    LiveScheduler :=
  { s with
    alarms := fun a => if a = actorId then some s.next else s.alarms a
    entry := fun i => if i = s.next then scheduleAlarm actorId scheduledTime none else s.entry i
    task := fun i => if i = s.next then .sleeping none 0 else s.task i
    next := s.next + 1
    dropped := fun i => if i = s.next then false else s.dropped i
    unrecorded := fun i => if i = s.next then unrecorded else s.unrecorded i }

/-- The entry is the one on the map. -/
def isLive (s : LiveScheduler) (e : Nat) : Bool := s.alarms (s.entry e).actorId = some e

def getAlarm (s : LiveScheduler) (actorId : String) : Option Float :=
  match s.alarms actorId with
  | none => none
  | some e =>
    if (s.entry e).status = .started then (s.entry e).queuedAlarm else some (s.entry e).scheduledTime

section Operations

variable (env : Env)

def statement (kind : Fallible) (f : List AlarmRow → List AlarmRow) : Act Unit :=
  if env.fails kind then raise "metadata write refused" else update fun s => { s with rows := f s.rows }

def projectNextWake (call : Fallible) : Act Unit :=
  if env.fails call then raise "projectWake failed" else pure ()

def setAlarm (actorId : String) (scheduledTime : Float) : Act Unit := do
  statement env .setAlarm fun rows => AlarmScheduler.upsertAlarm rows actorId scheduledTime
  let s ← state
  match s.alarms actorId with
  | none => update fun s => s.schedule actorId scheduledTime false
  | some e =>
    if (s.entry e).status ≠ .waiting then
      update fun s => (s.setEntry e fun a => { a with queuedAlarm := some scheduledTime }).setUnrecorded e false
    else update fun s => s.schedule actorId scheduledTime false
  projectNextWake env .projectSet

def deleteAll : Act Unit := do
  statement env .deleteAll fun _ => []
  update fun s =>
    { s with
      alarms := fun _ => none
      dropped := fun e => s.dropped e || s.isLive e }
  projectNextWake env .projectDeleteAll

def deleteAlarm (actorId : String) : Act Unit := do
  statement env .deleteAlarm fun rows => deleteRow rows actorId
  let s ← state
  match s.alarms actorId with
  | none => pure ()
  | some e =>
    match (s.entry e).queuedAlarm with
    | some queued =>
      if (s.entry e).status = .started then
        update fun s => (s.setEntry e fun a => { a with queuedAlarm := none }).setUnrecorded e true
      else update fun s => s.schedule actorId queued true
    | none =>
      if (s.entry e).status ≠ .started then
        update fun s => { s with alarms := fun a => if a = actorId then none else s.alarms a }
      else update fun s => s.setUnrecorded e true
  projectNextWake env .projectDelete

/-- `hooks(actorId).reconcile` -/
def reconcile (actorId : String) (stored : Float) : Act Unit := do
  let s ← state
  match s.alarms actorId with
  | none => setAlarm env actorId stored
  | some e =>
    if (s.entry e).queuedAlarm.getD (s.entry e).scheduledTime ≤ stored then pure ()
    else setAlarm env actorId stored

/-- The `catch` of `#makeAlarmTask`. -/
def bookkeepingFailed (e : Nat) (completed : Option AlarmResult) (bookkeepingBackoff : Nat) : Act Unit := do
  let s ← state
  if s.isLive e then
    update fun s => (s.setEntry e fun a =>
        { a with status := if completed.isNone then .waiting else .finished }).setTask e
      (.sleeping completed (min retryBackoffMax bookkeepingBackoff + 1))
  else update fun s => s.setTask e .done

/-- Cleans up behind a queued alarm and starts it. -/
def promote (e : Nat) (queued : Float) : Act Unit := do
  let s ← state
  statement env .clearRunning fun rows => updateRow rows (s.entry e).actorId fun row => row.setRunning 0
  update fun t => (t.schedule (s.entry e).actorId queued false).setTask e .done

/-- `#makeAlarmTask` from the check that follows its delivery on. -/
def settle (e : Nat) (retryInfo : AlarmResult) (bookkeepingBackoff : Nat) : Act Unit := do
  let s ← state
  if s.isLive e then
    match (s.entry e).queuedAlarm with
    | some queued => promote env e queued
    | none => do
      update fun s => s.setEntry e fun a => { a with status := .finished }
      if retryInfo.retry then
        if alarmRetryMaxTries ≤ (s.entry e).countedRetry then
          update fun s => s.setTask e (.abandoning retryInfo bookkeepingBackoff)
        else do
          let countedRetry := (s.entry e).countedRetry + retryInfo.retryCountsAgainstLimit.toNat
          let backoff :=
            if retryInfo.retryCountsAgainstLimit ∧ ¬ (s.entry e).previousRetryCountedAgainstLimit then 0
            else (s.entry e).backoff
          let backoff := min retryBackoffMax backoff
          let retryDelay := alarmRetryDelayMs backoff + env.jitter (alarmRetryDelayMs backoff)
          let backoff := backoff + 1
          let retryTime := env.now + Float.ofNat retryDelay
          statement env .saveRetry fun rows => updateRow rows (s.entry e).actorId fun row =>
            row.saveRetry retryTime backoff countedRetry retryInfo.retryCountsAgainstLimit
          update fun s => (s.setEntry e fun a =>
              { a with
                backoff, countedRetry
                previousRetryCountedAgainstLimit := retryInfo.retryCountsAgainstLimit
                wakeTime := some retryTime }).setTask e (.sleeping none 0)
      else if retryInfo.outcome = .aborted then
        update fun s => s.setTask e (.abandoning retryInfo bookkeepingBackoff)
      else do
        deleteAlarm env (s.entry e).actorId
        update fun s => s.setTask e .done
  else update fun s => s.setTask e .done

/-- Records a delivery and calls `deliverAlarm`. -/
def startDelivery (e bookkeepingBackoff : Nat) : Act Unit := do
  let s ← state
  statement env .markRunning fun rows => updateRow rows (s.entry e).actorId fun row => row.setRunning 1
  update fun s => s.setEntry e fun a => { a with status := .started, wakeTime := none }
  projectNextWake env .projectStart
  update fun t =>
    { t with
      delivered := t.delivered ++
        [((s.entry e).actorId, (s.entry e).scheduledTime, (s.entry e).countedRetry)] }.setTask e
      (.delivering bookkeepingBackoff)

/-- `#makeAlarmTask` from its wake up to the next await. -/
def wake (e : Nat) (completed : Option AlarmResult) (bookkeepingBackoff : Nat) : Act Unit := do
  let s ← state
  if s.isLive e then
    attempt
      (match completed with
      | none => startDelivery env e bookkeepingBackoff
      | some retryInfo => do
        projectNextWake env .projectStart
        settle env e retryInfo bookkeepingBackoff)
      fun _ => bookkeepingFailed e completed bookkeepingBackoff
  else update fun s => s.setTask e .done

/-- What `#runAlarmGuarded` makes of a delivery, `none` where it threw. -/
def runAlarmGuarded : Option AlarmResult → AlarmResult
  | some result => { result with retry := result.outcome ≠ .ok && result.retry }
  | none => { retry := true, retryCountsAgainstLimit := false, outcome := .exception }

def deliverySettled (e : Nat) (result : Option AlarmResult) (bookkeepingBackoff : Nat) : Act Unit :=
  attempt (settle env e (runAlarmGuarded result) bookkeepingBackoff)
    fun _ => bookkeepingFailed e (some (runAlarmGuarded result)) bookkeepingBackoff

/-- `#abandon` from its await on; `answer` is `none` where `abandonAlarm` threw. -/
def abandon (e : Nat) (answer : Option (Option Float)) : Act Unit :=
  match answer with
  | none => raise "abandonAlarm failed"
  | some newerAlarm => do
    let s ← state
    if s.isLive e then do
      match newerAlarm, (s.entry e).queuedAlarm with
      | some newer, none => setAlarm env (s.entry e).actorId newer
      | _, _ => pure ()
      let s ← state
      match (s.entry e).queuedAlarm with
      | some queued => promote env e queued
      | none => do
        deleteAlarm env (s.entry e).actorId
        update fun s => s.setTask e .done
    else update fun s => s.setTask e .done

def abandonSettled (e : Nat) (answer : Option (Option Float)) (completed : AlarmResult)
    (bookkeepingBackoff : Nat) : Act Unit :=
  attempt (abandon env e answer) fun _ => bookkeepingFailed e (some completed) bookkeepingBackoff

end Operations

inductive Event
  | setAlarm (actorId : String) (scheduledTime : Float) (env : Env)
  | deleteAlarm (actorId : String) (env : Env)
  | deleteAll (env : Env)
  | reconcile (actorId : String) (stored : Float) (env : Env)
  /-- The clock reads `woken` when the timer of an entry fires. -/
  | wake (e : Nat) (woken : Float) (env : Env)
  | deliverySettled (e : Nat) (result : Option AlarmResult) (env : Env)
  | abandonSettled (e : Nat) (answer : Option (Option Float)) (env : Env)

/-- One synchronous stretch of the scheduler; `none` where nothing of the kind is due. -/
def step (s : LiveScheduler) : Event → Option LiveScheduler
  | .setAlarm actorId scheduledTime env => some (setAlarm env actorId scheduledTime s).2
  | .deleteAlarm actorId env => some (deleteAlarm env actorId s).2
  | .deleteAll env => some (deleteAll env s).2
  | .reconcile actorId stored env => some (reconcile env actorId stored s).2
  | .wake e woken env =>
    match s.task e with
    | .sleeping completed bookkeepingBackoff =>
      if (s.entry e).scheduledTime ≤ woken ∨ ¬ s.isLive e then
        some (wake env e completed bookkeepingBackoff s).2
      else none
    | _ => none
  | .deliverySettled e result env =>
    match s.task e with
    | .delivering bookkeepingBackoff => some (deliverySettled env e result bookkeepingBackoff s).2
    | _ => none
  | .abandonSettled e answer env =>
    match s.task e with
    | .abandoning completed bookkeepingBackoff =>
      some (abandonSettled env e answer completed bookkeepingBackoff s).2
    | _ => none

/-- What an `AlarmScheduler` starts out as, from what its constructor loaded. -/
def loaded (s : AlarmScheduler) : LiveScheduler where
  rows := s.rows
  alarms := fun actorId => s.alarms.findIdx? (·.1 = actorId)
  entry := fun e => ((s.alarms[e]?).map (·.2)).getD (scheduleAlarm "" 0 none)
  task := fun e => if e < s.alarms.length then .sleeping none 0 else .done
  next := s.alarms.length
  delivered := []
  dropped := fun _ => false
  unrecorded := fun _ => false

/-- A scheduler opened over a table, whose key is the actor. -/
def Opened (s : LiveScheduler) : Prop :=
  ∃ now jitter rows opened, (rows.map AlarmRow.actorId).Nodup ∧
    AlarmScheduler.construct now jitter rows = .ok opened ∧ s = loaded opened

end LiveScheduler

end DoRuntime.Alarms
