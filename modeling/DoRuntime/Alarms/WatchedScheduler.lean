import DoRuntime.Alarms.LiveScheduler

namespace DoRuntime.Alarms

open DoRuntime.Js Prog

/-- An `AlarmScheduler` that has a `projectWake`. -/
structure WatchedScheduler where
  live : LiveScheduler
  activeDeliveries : List Nat
  /-- What the calls of `projectWake` that returned were given, in order. -/
  projections : List (Option Float × Nat)

namespace WatchedScheduler

abbrev Act (α : Type) : Type := Prog String WatchedScheduler α

def onLive {α : Type} (act : LiveScheduler.Act α) : Act α := fun w =>
  ((act w.live).1, { w with live := (act w.live).2 })

def sooner (earliest : Option Float) (wake : Float) : Option Float :=
  match earliest with
  | none => some wake
  | some time => if wake < time then some wake else some time

/-- What an entry of the map is projected with. -/
def wakeOf (entry : ScheduledAlarm) : Option Float :=
  if entry.status = .started then entry.queuedAlarm else some (entry.wakeTime.getD entry.scheduledTime)

/-- The entries of the map are gone through in the order in which they were made. -/
def earliest (w : WatchedScheduler) : Option Float :=
  let active := w.activeDeliveries.foldl (fun earliest e => sooner earliest (w.live.entry e).scheduledTime) none
  ((List.range w.live.next).filter w.live.isLive).foldl
    (fun earliest e => ((wakeOf (w.live.entry e)).map (sooner earliest)).getD earliest) active

def addActive (w : WatchedScheduler) (e : Nat) : WatchedScheduler :=
  if e ∈ w.activeDeliveries then w else { w with activeDeliveries := w.activeDeliveries ++ [e] }

def projected (w : WatchedScheduler) : WatchedScheduler :=
  { w with projections := w.projections ++ [(w.earliest, w.activeDeliveries.length)] }

/-- An environment in which `projectWake` never throws. -/
def quiet (env : Env) : Env := { env with fails := fun call => call.isStatement && env.fails call }

section Operations

variable (env : Env)

/-- `#projectNextWake` -/
def projectNextWake (call : Fallible) : Act Unit :=
  if env.fails call then raise "projectWake failed" else update projected

/-- The operations of the scheduler end with the projection. -/
def setAlarm (actorId : String) (scheduledTime : Float) : Act Unit := do
  onLive (LiveScheduler.setAlarm (quiet env) actorId scheduledTime)
  projectNextWake env .projectSet

def deleteAll : Act Unit := do
  onLive (LiveScheduler.deleteAll (quiet env))
  projectNextWake env .projectDeleteAll

def deleteAlarm (actorId : String) : Act Unit := do
  onLive (LiveScheduler.deleteAlarm (quiet env) actorId)
  projectNextWake env .projectDelete

def reconcile (actorId : String) (stored : Float) : Act Unit := do
  let w ← state
  match w.live.alarms actorId with
  | none => setAlarm env actorId stored
  | some e =>
    if (w.live.entry e).queuedAlarm.getD (w.live.entry e).scheduledTime ≤ stored then pure ()
    else setAlarm env actorId stored

/-- `#makeAlarmTask` from the check that follows its delivery on. Only where the alarm is over does it project a
    wake. -/
def settle (e : Nat) (retryInfo : AlarmResult) (bookkeepingBackoff : Nat) : Act Unit := do
  let w ← state
  if w.live.isLive e ∧ (w.live.entry e).queuedAlarm = none ∧ ¬ retryInfo.retry ∧ retryInfo.outcome ≠ .aborted then do
    onLive (update fun s => s.setEntry e fun a => { a with status := .finished })
    deleteAlarm env (w.live.entry e).actorId
    onLive (update fun s => s.setTask e .done)
  else onLive (LiveScheduler.settle env e retryInfo bookkeepingBackoff)

/-- Records a delivery, projects it and calls `deliverAlarm`. -/
def startDelivery (e bookkeepingBackoff : Nat) : Act Unit := do
  let w ← state
  onLive (LiveScheduler.statement env .markRunning fun rows =>
    updateRow rows (w.live.entry e).actorId fun row => row.setRunning 1)
  onLive (update fun s => s.setEntry e fun a => { a with status := .started, wakeTime := none })
  update fun w => w.addActive e
  projectNextWake env .projectStart
  onLive (update fun s =>
    { s with
      delivered := s.delivered ++
        [((w.live.entry e).actorId, (w.live.entry e).scheduledTime, (w.live.entry e).countedRetry)] }.setTask e
      (.delivering bookkeepingBackoff))

/-- The `finally` of `#makeAlarmTask`, which is not reached where the task waits for the actor. -/
def closeDelivery (e : Nat) (cleanupFails : Bool) : Act Unit := do
  let w ← state
  match w.live.task e with
  | .delivering _ | .abandoning _ _ => pure ()
  | _ => do
    update fun w => { w with activeDeliveries := w.activeDeliveries.erase e }
    if cleanupFails then pure () else update projected

/-- `#makeAlarmTask` from its wake up to the next await. -/
def wake (e : Nat) (completed : Option AlarmResult) (bookkeepingBackoff : Nat) (cleanupFails : Bool) : Act Unit := do
  let w ← state
  if w.live.isLive e then do
    attempt
      (match completed with
      | none => startDelivery env e bookkeepingBackoff
      | some retryInfo => do
        update fun w => w.addActive e
        projectNextWake env .projectStart
        settle env e retryInfo bookkeepingBackoff)
      fun _ => onLive (LiveScheduler.bookkeepingFailed e completed bookkeepingBackoff)
    closeDelivery e cleanupFails
  else onLive (update fun s => s.setTask e .done)

def deliverySettled (e : Nat) (result : Option AlarmResult) (bookkeepingBackoff : Nat) (cleanupFails : Bool) :
    Act Unit := do
  attempt (settle env e (LiveScheduler.runAlarmGuarded result) bookkeepingBackoff)
    fun _ => onLive (LiveScheduler.bookkeepingFailed e (some (LiveScheduler.runAlarmGuarded result)) bookkeepingBackoff)
  closeDelivery e cleanupFails

/-- `#abandon` from its await on; `answer` is `none` where `abandonAlarm` threw. -/
def abandon (e : Nat) (answer : Option (Option Float)) : Act Unit :=
  match answer with
  | none => raise "abandonAlarm failed"
  | some newerAlarm => do
    let w ← state
    if w.live.isLive e then do
      match newerAlarm, (w.live.entry e).queuedAlarm with
      | some newer, none => setAlarm env (w.live.entry e).actorId newer
      | _, _ => pure ()
      let w ← state
      match (w.live.entry e).queuedAlarm with
      | some queued => onLive (LiveScheduler.promote env e queued)
      | none => do
        deleteAlarm env (w.live.entry e).actorId
        onLive (update fun s => s.setTask e .done)
    else onLive (update fun s => s.setTask e .done)

def abandonSettled (e : Nat) (answer : Option (Option Float)) (completed : AlarmResult) (bookkeepingBackoff : Nat)
    (cleanupFails : Bool) : Act Unit := do
  attempt (abandon env e answer)
    fun _ => onLive (LiveScheduler.bookkeepingFailed e (some completed) bookkeepingBackoff)
  closeDelivery e cleanupFails

end Operations

/-- `cleanupFails` where `projectWake` throws in the `finally` of the task that the event resumes. -/
structure Event where
  event : LiveScheduler.Event
  cleanupFails : Bool

/-- One synchronous stretch of the scheduler; `none` where nothing of the kind is due. -/
def step (w : WatchedScheduler) (event : Event) : Option WatchedScheduler :=
  match event.event with
  | .setAlarm actorId scheduledTime env => some (setAlarm env actorId scheduledTime w).2
  | .deleteAlarm actorId env => some (deleteAlarm env actorId w).2
  | .deleteAll env => some (deleteAll env w).2
  | .reconcile actorId stored env => some (reconcile env actorId stored w).2
  | .wake e woken env =>
    match w.live.task e with
    | .sleeping completed bookkeepingBackoff =>
      if (w.live.entry e).scheduledTime ≤ woken ∨ ¬ w.live.isLive e then
        some (wake env e completed bookkeepingBackoff event.cleanupFails w).2
      else none
    | _ => none
  | .deliverySettled e result env =>
    match w.live.task e with
    | .delivering bookkeepingBackoff => some (deliverySettled env e result bookkeepingBackoff event.cleanupFails w).2
    | _ => none
  | .abandonSettled e answer env =>
    match w.live.task e with
    | .abandoning completed bookkeepingBackoff =>
      some (abandonSettled env e answer completed bookkeepingBackoff event.cleanupFails w).2
    | _ => none

/-- A scheduler whose constructor has projected what it loaded. -/
def opened (s : LiveScheduler) : WatchedScheduler :=
  let w : WatchedScheduler := { live := s, activeDeliveries := [], projections := [] }
  w.projected

end WatchedScheduler

end DoRuntime.Alarms
