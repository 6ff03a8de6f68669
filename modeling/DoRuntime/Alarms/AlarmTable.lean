import DoRuntime.Sql.Cell

namespace DoRuntime.Alarms

open DoRuntime.Js DoRuntime.Sql

def alarmRetryStartSeconds : Nat := 2
def alarmRetryMaxTries : Nat := 6
def retryBackoffMax : Nat := 9

/-- Milliseconds before the retry at a backoff, which the source requires to be in range. -/
def alarmRetryDelayMs (backoff : Nat) : Nat := alarmRetryStartSeconds * 2 ^ backoff * 1000

/-- One row of `_cf_ALARM`, column by column. -/
structure AlarmRow where
  actorId : String
  scheduledTime : Cell
  retryTime : Cell
  backoff : Cell
  countedRetry : Cell
  previousRetryCounted : Cell
  running : Cell

/-- The part of a row that outlives the process, validated. -/
structure PersistedAlarm where
  retryTime : Option Float
  backoff : Nat
  countedRetry : Nat
  previousRetryCountedAgainstLimit : Bool
  running : Bool

inductive AlarmStatus
  | waiting
  | started
  | finished
deriving DecidableEq

structure ScheduledAlarm where
  actorId : String
  scheduledTime : Float
  wakeTime : Option Float
  queuedAlarm : Option Float
  status : AlarmStatus
  previousRetryCountedAgainstLimit : Bool
  backoff : Nat
  countedRetry : Nat

def requireRange (actorId column : String) (value : Float) (max : Nat) : Except StorageError Nat :=
  match integralValue value with
  | some n =>
    if n < 0 ∨ (max : Int) < n then .error (.alarmOutOfRange column actorId value max)
    else .ok n.toNat
  | none => .error (.alarmOutOfRange column actorId value max)

def readRetryTime (row : AlarmRow) : Except StorageError (Option Float) :=
  if isNull row.retryTime.read then .ok none else (getInt64 2 row.retryTime.read).map some

def readPersistedAlarm (row : AlarmRow) : Except StorageError PersistedAlarm := do
  let retryTime ← readRetryTime row
  let backoff ← requireRange row.actorId "backoff" (← getInt64 3 row.backoff.read)
    (retryBackoffMax + 1)
  let countedRetry ← requireRange row.actorId "counted_retry" (← getInt64 4 row.countedRetry.read)
    alarmRetryMaxTries
  let previous ← requireRange row.actorId "previous_retry_counted"
    (← getInt64 5 row.previousRetryCounted.read) 1
  let running ← requireRange row.actorId "running" (← getInt64 6 row.running.read) 1
  return {
    retryTime, backoff, countedRetry
    previousRetryCountedAgainstLimit := previous = 1
    running := running = 1 }

def scheduleAlarm (actorId : String) (scheduledTime : Float) (resumed : Option PersistedAlarm) :
    ScheduledAlarm where
  actorId
  scheduledTime
  wakeTime := some (mathMax scheduledTime ((resumed.bind (·.retryTime)).getD scheduledTime))
  queuedAlarm := none
  status := .waiting
  previousRetryCountedAgainstLimit := (resumed.map (·.previousRetryCountedAgainstLimit)).getD false
  backoff := (resumed.map (·.backoff)).getD 0
  countedRetry := (resumed.map (·.countedRetry)).getD 0

/-- A row still marked running becomes an uncounted retry; `jitter` is what `#jitterMsForDelay`
    drew for the delay. -/
def recoverInterruptedDelivery (now : Float) (jitter : Nat → Nat) (persisted : PersistedAlarm) :
    PersistedAlarm :=
  let backoff := min retryBackoffMax persisted.backoff
  let delay := alarmRetryDelayMs backoff
  { retryTime := some (now + Float.ofNat (delay + jitter delay))
    backoff := backoff + 1
    countedRetry := persisted.countedRetry
    previousRetryCountedAgainstLimit := false
    running := false }

def saveRetry (row : AlarmRow) (resumed : PersistedAlarm) : AlarmRow :=
  { row with
    retryTime := bindNumber .integer resumed.retryTime
    backoff := bindNumber .integer (some (Float.ofNat resumed.backoff))
    countedRetry := bindNumber .integer (some (Float.ofNat resumed.countedRetry))
    previousRetryCounted := bindNumber .integer (some (Float.ofNat 0))
    running := bindNumber .integer (some (Float.ofNat 0)) }

structure AlarmScheduler where
  rows : List AlarmRow
  alarms : List (String × ScheduledAlarm)

namespace AlarmScheduler

/-- One turn of the `#loadAlarmsFromDb` loop: the row as it is left in the table, and its entry. -/
def loadRow (now : Float) (jitter : Nat → Nat) (row : AlarmRow) :
    Except StorageError (AlarmRow × ScheduledAlarm) := do
  let scheduledTime ← getInt64 1 row.scheduledTime.read
  let persisted ← readPersistedAlarm row
  if persisted.running then
    let resumed := recoverInterruptedDelivery now jitter persisted
    return (saveRetry row resumed, scheduleAlarm row.actorId scheduledTime (some resumed))
  else
    return (row, scheduleAlarm row.actorId scheduledTime (some persisted))

/-- The constructor's `#loadAlarmsFromDb`: one bad row stops the whole load. -/
def construct (now : Float) (jitter : Nat → Nat) (rows : List AlarmRow) :
    Except StorageError AlarmScheduler := do
  let loaded ← rows.mapM (loadRow now jitter)
  return { rows := loaded.map (·.1), alarms := loaded.map fun entry => (entry.2.actorId, entry.2) }

def findAlarm (s : AlarmScheduler) (actorId : String) : Option ScheduledAlarm :=
  (s.alarms.find? (·.1 = actorId)).map (·.2)

def getAlarm (s : AlarmScheduler) (actorId : String) : Option Float :=
  match s.findAlarm actorId with
  | none => none
  | some alarm =>
    if alarm.status = .started then alarm.queuedAlarm else some alarm.scheduledTime

def freshRow (actorId : String) (scheduledTime : Float) : AlarmRow where
  actorId
  scheduledTime := bindNumber .integer (some scheduledTime)
  retryTime := bindNumber .integer none
  backoff := bindNumber .integer (some (Float.ofNat 0))
  countedRetry := bindNumber .integer (some (Float.ofNat 0))
  previousRetryCounted := bindNumber .integer (some (Float.ofNat 0))
  running := bindNumber .integer (some (Float.ofNat 0))

/-- `STMT.setAlarm`: the upsert resets the retry budget and leaves `running` as it is. -/
def upsertAlarm (rows : List AlarmRow) (actorId : String) (scheduledTime : Float) : List AlarmRow :=
  match rows.find? (·.actorId = actorId) with
  | none => rows ++ [freshRow actorId scheduledTime]
  | some _ =>
    rows.map fun row =>
      if row.actorId = actorId then { freshRow actorId scheduledTime with running := row.running }
      else row

def putAlarm (alarms : List (String × ScheduledAlarm)) (actorId : String) (alarm : ScheduledAlarm) :
    List (String × ScheduledAlarm) :=
  (actorId, alarm) :: alarms.filter (·.1 ≠ actorId)

def setAlarm (s : AlarmScheduler) (actorId : String) (scheduledTime : Float) : AlarmScheduler where
  rows := upsertAlarm s.rows actorId scheduledTime
  alarms :=
    match s.findAlarm actorId with
    | none => putAlarm s.alarms actorId (scheduleAlarm actorId scheduledTime none)
    | some entry =>
      if entry.status ≠ .waiting then
        putAlarm s.alarms actorId { entry with queuedAlarm := some scheduledTime }
      else putAlarm s.alarms actorId (scheduleAlarm actorId scheduledTime none)

end AlarmScheduler

end DoRuntime.Alarms
