import DoRuntime.Browser.AlarmCoordinator

namespace DoRuntime.Browser

open Transition

section Projector

variable {Time Reason : Type}

/-- What has become of a projection. -/
inductive Sending (Time Reason : Type)
  /-- Behind the tail. -/
  | queued
  /-- Waiting for `nextGeneration`. -/
  | numbering
  /-- Waiting for `project`. -/
  | projecting (projection : AlarmProjection Time)
  | settled (result : Except Reason (AlarmProjection Time))

/-- `Sent`, with its place in the chain of promises. -/
structure Sent (Time Reason : Type) where
  wakeAt : Option Time
  activeDeliveries : Nat
  sending : Sending Time Reason
  result : Option (Except Reason (AlarmProjection Time))

structure Waiter (Time : Type) where
  acknowledge : Nat
  after : Time
deriving DecidableEq

/-- How a call of `acknowledge` is answered. -/
structure Answer (Time Reason : Type) where
  waiter : Waiter Time
  result : Except Reason (AlarmProjection Time)

structure AlarmProjector (Time Reason : Type) where
  /-- All that was sent, in call order; `latest` is the last. -/
  sent : List (Sent Time Reason)
  waiters : List (Waiter Time)
  /-- What `nextGeneration` gave last. -/
  generation : Option Nat
  acknowledges : Nat
  /-- The calls of `project`, with the place of what they project. -/
  projected : List (Nat × AlarmProjection Time)
  answers : List (Answer Time Reason)

inductive ProjectorEvent (Time Reason : Type)
  | projectWake (wakeAt : Option Time) (activeDeliveries : Nat)
  | acknowledge (scheduledTime : Time)
  /-- The callback behind the tail runs. -/
  | begin_ (i : Nat)
  | numbered (i generation : Nat)
  | unnumbered (i : Nat) (reason : Reason)
  | accepted (i : Nat)
  | refused (i : Nat) (reason : Reason)
  | record (i : Nat)

namespace Sending

def done : Sending Time Reason → Bool
  | settled _ => true
  | _ => false

end Sending

namespace AlarmProjector

variable [LinearOrder Time]

def empty : AlarmProjector Time Reason where
  sent := []
  waiters := []
  generation := none
  acknowledges := 0
  projected := []
  answers := []

def latest (s : AlarmProjector Time Reason) : Option (Sent Time Reason) := s.sent.getLast?

/-- The wake that the waiter is waiting to see gone. -/
def Waiter.waits (waiter : Waiter Time) (wakeAt : Option Time) : Bool :=
  wakeAt.any fun wakeAt => decide (wakeAt ≤ waiter.after)

def settle (s : AlarmProjector Time Reason) : AlarmProjector Time Reason :=
  match s.latest with
  | none => s
  | some latest =>
    match latest.result with
    | some (.error reason) =>
      { s with
        waiters := []
        answers := s.answers ++ s.waiters.map fun waiter => ⟨waiter, .error reason⟩ }
    | none => s
    | some (.ok projection) =>
      if latest.activeDeliveries ≠ 0 then s
      else
        { s with
          waiters := s.waiters.filter (Waiter.waits · projection.wakeAt)
          answers := s.answers ++
            (s.waiters.filter fun waiter => !Waiter.waits waiter projection.wakeAt).map fun waiter => ⟨waiter, .ok projection⟩ }

def projectWake (s : AlarmProjector Time Reason) (wakeAt : Option Time) (activeDeliveries : Nat) :
    AlarmProjector Time Reason :=
  { s with sent := s.sent ++ [{ wakeAt, activeDeliveries, sending := .queued, result := none }] }

def acknowledge (s : AlarmProjector Time Reason) (scheduledTime : Time) : AlarmProjector Time Reason :=
  let waiter : Waiter Time := { acknowledge := s.acknowledges, after := scheduledTime }
  let asked := { s with waiters := s.waiters ++ [waiter], acknowledges := s.acknowledges + 1 }
  match asked.latest with
  | some { wakeAt, activeDeliveries, result := some (.error _), .. } => asked.projectWake wakeAt activeDeliveries
  | _ => asked.settle

/-- The tail a projection is chained onto has settled. -/
def released (s : AlarmProjector Time Reason) (i : Nat) : Bool :=
  i == 0 || (s.sent[i - 1]?).any (·.sending.done)

def setSending (s : AlarmProjector Time Reason) (i : Nat) (sent : Sent Time Reason) (sending : Sending Time Reason) :
    AlarmProjector Time Reason :=
  { s with sent := s.sent.set i { sent with sending } }

def step (s : AlarmProjector Time Reason) : ProjectorEvent Time Reason → Option (AlarmProjector Time Reason)
  | .projectWake wakeAt activeDeliveries => some (s.projectWake wakeAt activeDeliveries)
  | .acknowledge scheduledTime => some (s.acknowledge scheduledTime)
  | .begin_ i =>
    match s.sent[i]? with
    | some sent =>
      match sent.sending with
      | .queued => if s.released i then some (s.setSending i sent .numbering) else none
      | _ => none
    | none => none
  | .numbered i generation =>
    match s.sent[i]? with
    | some sent =>
      match sent.sending with
      | .numbering =>
        let projection : AlarmProjection Time := { generation, wakeAt := sent.wakeAt }
        some { s.setSending i sent (.projecting projection) with
          generation := some generation
          projected := s.projected ++ [(i, projection)] }
      | _ => none
    | none => none
  | .unnumbered i reason =>
    match s.sent[i]? with
    | some sent =>
      match sent.sending with
      | .numbering => some (s.setSending i sent (.settled (.error reason)))
      | _ => none
    | none => none
  | .accepted i =>
    match s.sent[i]? with
    | some sent =>
      match sent.sending with
      | .projecting projection => some (s.setSending i sent (.settled (.ok projection)))
      | _ => none
    | none => none
  | .refused i reason =>
    match s.sent[i]? with
    | some sent =>
      match sent.sending with
      | .projecting _ => some (s.setSending i sent (.settled (.error reason)))
      | _ => none
    | none => none
  | .record i =>
    match s.sent[i]? with
    | some sent =>
      match sent.sending, sent.result with
      | .settled result, none =>
        let recorded := { s with sent := s.sent.set i { sent with result := some result } }
        some recorded.settle
      | _, _ => none
    | none => none

/-- `nextGeneration` is strictly increasing. -/
def Increasing (s : AlarmProjector Time Reason) : ProjectorEvent Time Reason → Prop
  | .numbered _ generation => ∀ last, s.generation = some last → last < generation
  | _ => True

end AlarmProjector

end Projector

end DoRuntime.Browser
