import DoRuntime.Alarms.AlarmTable
import DoRuntime.Lib.Transition

namespace DoRuntime.Browser

open Alarms

structure AlarmProjection (Time : Type) where
  generation : Nat
  wakeAt : Option Time
deriving DecidableEq

structure AlarmDelivery (Time : Type) where
  generation : Nat
  retryCount : Nat
  wake : Time
deriving DecidableEq

/-- `BrowserAlarmTransportJournal` -/
structure AlarmJournal (Time : Type) where
  delivery : Option (AlarmDelivery Time)
  projection : AlarmProjection Time
deriving DecidableEq

/-- An awaited operation of the store or of the physical alarm. -/
inductive AlarmAction (Time : Type)
  | save (journal : AlarmJournal Time)
  | create (time : Time)
  | clear

/-- What goes through `#mutate`. -/
inductive AlarmMutation (Time : Type)
  | project (projection : AlarmProjection Time)
  | reconcile
  | fire (scheduledTime : Time)
  /-- The second half of `fire`, once `deliver` has resolved for an attempt of that generation. -/
  | acknowledge (attempt : Nat) (projection : AlarmProjection Time)

/-- A mutation that has loaded the journal, with what it still has to do. -/
structure AlarmTurn (Time : Type) where
  mutation : AlarmMutation Time
  plan : List (AlarmAction Time)
  attempt : Option (AlarmDelivery Time)

structure AlarmCoordinator (Time : Type) where
  journal : Option (AlarmJournal Time)
  /-- The time the physical alarm is armed for. -/
  physical : Option Time
  now : Time
  running : Bool
  activeDeliveries : List Nat
  /-- The generations of the attempts whose `deliver` call is pending. -/
  delivering : List Nat
  turn : Option (AlarmTurn Time)
  /-- The mutations behind `#tail`. -/
  waiting : List (AlarmMutation Time)

namespace AlarmCoordinator

section Operations

variable {Time : Type} [LinearOrder Time] (plus : Time → Nat → Time)

def applyWake : Option Time → AlarmAction Time
  | none => .clear
  | some time => .create time

def projectPlan (current : Option (AlarmJournal Time)) (parsed : AlarmProjection Time) : List (AlarmAction Time) :=
  match current with
  | none => [.save { delivery := none, projection := parsed }, applyWake parsed.wakeAt]
  | some journal =>
    if parsed.generation < journal.projection.generation then []
    else match journal.delivery with
    | some delivery =>
      if parsed.generation ≠ journal.projection.generation ∨ parsed.wakeAt ≠ journal.projection.wakeAt then
        [.save { delivery := some delivery, projection := parsed }]
      else []
    | none => [.save { delivery := none, projection := parsed }, applyWake parsed.wakeAt]

def reconcilePlan (current : Option (AlarmJournal Time)) (now : Time) : List (AlarmAction Time) :=
  match current with
  | none => []
  | some journal =>
    match journal.delivery with
    | some delivery => [.create (max delivery.wake now)]
    | none => [applyWake journal.projection.wakeAt]

def expectedWake (journal : AlarmJournal Time) : Option Time :=
  match journal.delivery with
  | some delivery => some delivery.wake
  | none => journal.projection.wakeAt

/-- The delivery that a `fire` journals. -/
def nextDelivery (journal : AlarmJournal Time) (now : Time) : AlarmDelivery Time :=
  let retryCount :=
    match journal.delivery with
    | some delivery => if delivery.generation = journal.projection.generation then delivery.retryCount else 0
    | none => 0
  { generation := journal.projection.generation
    retryCount := min (retryCount + 1) alarmRetryMaxTries
    wake := plus now (alarmRetryDelayMs (min retryCount (alarmRetryMaxTries - 1))) }

def fireTurn (current : Option (AlarmJournal Time)) (scheduledTime now : Time) : AlarmTurn Time :=
  let journal := current.getD { delivery := none, projection := { generation := 0, wakeAt := some scheduledTime } }
  match expectedWake journal with
  | none => { mutation := .fire scheduledTime, plan := [], attempt := none }
  | some expected =>
    if scheduledTime < expected then { mutation := .fire scheduledTime, plan := [.create expected], attempt := none }
    else
      let delivery := nextDelivery plus journal now
      { mutation := .fire scheduledTime
        plan := [.create delivery.wake, .save { journal with delivery := some delivery }]
        attempt := some delivery }

def acknowledgePlan (current : Option (AlarmJournal Time)) (projection : AlarmProjection Time) : List (AlarmAction Time) :=
  match current with
  | none => [.save { delivery := none, projection }, applyWake projection.wakeAt]
  | some journal =>
    if projection.generation < journal.projection.generation then []
    else [.save { delivery := none, projection }, applyWake projection.wakeAt]

/-- A mutation loads the journal, and decides what it does. -/
def load (s : AlarmCoordinator Time) (mutation : AlarmMutation Time) : AlarmTurn Time :=
  match mutation with
  | .project projection => { mutation, plan := projectPlan s.journal projection, attempt := none }
  | .reconcile => { mutation, plan := reconcilePlan s.journal s.now, attempt := none }
  | .fire scheduledTime => fireTurn plus s.journal scheduledTime s.now
  | .acknowledge _ projection => { mutation, plan := acknowledgePlan s.journal projection, attempt := none }

def perform (s : AlarmCoordinator Time) : AlarmAction Time → AlarmCoordinator Time
  | .save journal => { s with journal := some journal }
  | .create time => { s with physical := some time }
  | .clear => { s with physical := none }

/-- The end of a turn: `fire` calls `deliver` for an attempt that is new, or ends the attempt. -/
def finish (s : AlarmCoordinator Time) (turn : AlarmTurn Time) : AlarmCoordinator Time :=
  match turn.mutation, turn.attempt with
  | .fire _, some delivery =>
    if delivery.generation ∈ s.activeDeliveries then { s with turn := none }
    else
      { s with
        turn := none
        activeDeliveries := delivery.generation :: s.activeDeliveries
        delivering := delivery.generation :: s.delivering }
  | .acknowledge attempt _, _ => { s with turn := none, activeDeliveries := s.activeDeliveries.filter (· ≠ attempt) }
  | _, _ => { s with turn := none }

inductive Event (Time : Type)
  | project (projection : AlarmProjection Time)
  | reconcile
  | fire (scheduledTime : Time)
  /-- The physical alarm goes off, and the host calls `fire` for it. -/
  | goesOff
  | load
  | act
  | finish
  | delivered (generation : Nat) (projection : AlarmProjection Time)
  | refused (generation : Nat)
  | tick (now : Time)
  | stop
  /-- The process starts again, with `reconcile`. -/
  | restart

def step (s : AlarmCoordinator Time) : Event Time → Option (AlarmCoordinator Time)
  | .project projection => if s.running then some { s with waiting := s.waiting ++ [.project projection] } else none
  | .reconcile => if s.running then some { s with waiting := s.waiting ++ [.reconcile] } else none
  | .fire scheduledTime => if s.running then some { s with waiting := s.waiting ++ [.fire scheduledTime] } else none
  | .goesOff =>
    match s.physical with
    | none => none
    | some time =>
      if s.running ∧ time ≤ s.now then some { s with physical := none, waiting := s.waiting ++ [.fire time] } else none
  | .load =>
    match s.turn, s.waiting with
    | none, mutation :: rest => if s.running then some { s with turn := some (s.load plus mutation), waiting := rest } else none
    | _, _ => none
  | .act =>
    match s.turn with
    | some { mutation, plan := action :: plan, attempt } => some { s.perform action with turn := some { mutation, plan, attempt } }
    | _ => none
  | .finish =>
    match s.turn with
    | some { mutation, plan := [], attempt } => some (s.finish { mutation, plan := [], attempt })
    | _ => none
  | .delivered generation projection =>
    if generation ∈ s.delivering then
      some { s with
        delivering := s.delivering.filter (· ≠ generation)
        waiting := s.waiting ++ [.acknowledge generation projection] }
    else none
  | .refused generation =>
    if generation ∈ s.delivering then
      some { s with
        delivering := s.delivering.filter (· ≠ generation)
        activeDeliveries := s.activeDeliveries.filter (· ≠ generation) }
    else none
  | .tick now => if s.now ≤ now then some { s with now } else none
  | .stop => some { s with running := false, activeDeliveries := [], delivering := [], turn := none, waiting := [] }
  | .restart => if s.running then none else some { s with running := true, waiting := [.reconcile] }

end Operations

end AlarmCoordinator

end DoRuntime.Browser
