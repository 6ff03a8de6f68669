import DoRuntime.Io.InputGate

namespace DoRuntime.Io

/-- A `TimeoutState`. -/
structure TimeoutState where
  repeats : Bool
  /-- `params.callback` is not undefined. -/
  callback : Bool
  isCanceled : Bool
  /-- The arming whose `AbortController` the timer has. -/
  armed : Option Nat

/-- How far the first promise of an arming's race is. -/
inductive FiringPhase
  /-- The port's delay is pending. -/
  | delayed
  /-- The port's promise is settled, and what was chained to it is still to run. -/
  | elapsed
  | failed
  /-- `run` waits for its lock. -/
  | admission (wait : Nat)
  | callback
  | done
deriving DecidableEq

inductive TimeoutNote
  | set (id : Nat)
  | started (id : Nat)
  | cleared (id : Nat)
  | aborted
deriving DecidableEq

/-- The `TimeoutManager` of an `IoContext`, with the context's input gate, its invocation stack and what
    happened to timers so far. -/
structure Timeouts where
  gates : InputGates
  /-- Top first. -/
  currentInputLocks : List Nat
  aborted : Bool
  /-- `#timeouts`, in the order of insertion. -/
  timeouts : List Nat
  state : Nat → TimeoutState
  nextId : Nat
  timerOf : Nat → Nat
  /-- The critical section captured at the arming, the root gate where there was none. -/
  criticalSection : Nat → Nat
  wakeAborted : Nat → Bool
  phase : Nat → FiringPhase
  armings : Nat
  /-- The arming whose callback runs, and the lock it runs under. -/
  running : Option (Nat × Nat)
  notes : List TimeoutNote

namespace Timeouts

/-- `getCriticalSection`, the root gate for no section; `none` where it throws, the lock on top of the
    stack being released. -/
def getCriticalSection (s : Timeouts) : Option Nat :=
  match s.currentInputLocks with
  | [] => some 0
  | lock :: _ => s.gates.gateOf lock

def updateState (s : Timeouts) (id : Nat) (f : TimeoutState → TimeoutState) : Timeouts :=
  { s with state := Function.update s.state id (f (s.state id)) }

def setPhase (s : Timeouts) (a : Nat) (phase : FiringPhase) : Timeouts :=
  { s with phase := Function.update s.phase a phase }

def note (s : Timeouts) (n : TimeoutNote) : Timeouts := { s with notes := s.notes ++ [n] }

/-- `#arm` -/
def arm (s : Timeouts) (id : Nat) : Timeouts :=
  match s.getCriticalSection with
  | none => s
  | some criticalSection =>
    { s.updateState id fun state => { state with armed := some s.armings } with
      timerOf := Function.update s.timerOf s.armings id
      criticalSection := Function.update s.criticalSection s.armings criticalSection
      wakeAborted := Function.update s.wakeAborted s.armings false
      phase := Function.update s.phase s.armings .delayed
      armings := s.armings + 1 }

def setTimeout (s : Timeouts) (repeats : Bool) : Timeouts :=
  let id := s.nextId
  let state : TimeoutState := { repeats, callback := true, isCanceled := false, armed := none }
  { s with
    nextId := id + 1
    state := Function.update s.state id state
    timeouts := s.timeouts ++ [id]
    notes := s.notes ++ [TimeoutNote.set id] }.arm id

/-- `#cancel` -/
def cancel (s : Timeouts) (id : Nat) : Timeouts :=
  { s.updateState id fun state => { state with isCanceled := true, callback := false, armed := none } with
    wakeAborted :=
      match (s.state id).armed with
      | some a => Function.update s.wakeAborted a true
      | none => s.wakeAborted
    timeouts := s.timeouts.erase id }

def clearTimeout (s : Timeouts) (id : Nat) : Timeouts :=
  if id ∈ s.timeouts then s.cancel id else s

def cancelAll (s : Timeouts) : Timeouts := s.timeouts.foldl cancel s

def getTimeoutCount (s : Timeouts) : Nat := s.timeouts.length

def abort (s : Timeouts) : Timeouts :=
  if s.aborted then s else { s with aborted := true }.cancelAll

/-- What is chained to the delay that elapsed: `#fire`, up to the wait of `run` for its lock. -/
def wake (s : Timeouts) (a : Nat) : Timeouts :=
  let id := s.timerOf a
  if (s.state id).isCanceled then s.setPhase a .done
  else
    let s := s.updateState id fun state => { state with armed := none }
    if s.aborted then s.setPhase a .done
    else { s with gates := s.gates.call (s.criticalSection a) false }.setPhase a (.admission s.gates.waits)

/-- `runImpl` with the body of `#fire`, up to the callback. -/
def letIn (s : Timeouts) (a lock : Nat) : Timeouts :=
  let id := s.timerOf a
  match s.gates.gateOf lock with
  | none => s.setPhase a .done
  | some _ =>
    if s.aborted then { s with gates := (InputGates.release lock s.gates).2 }.setPhase a .done
    else
      let s := { s with currentInputLocks := lock :: s.currentInputLocks }
      if (s.state id).isCanceled then s.setPhase a .done
      else if (s.state id).callback = false then s.setPhase a .done
      else
        let s :=
          if (s.state id).repeats then s
          else { s.updateState id fun state => { state with callback := false } with timeouts := s.timeouts.erase id }
        { s.setPhase a .callback with running := some (a, lock) }.note (.started id)

/-- What is left of the body once the callback has returned or thrown. -/
def finish (s : Timeouts) (a : Nat) : Timeouts :=
  let id := s.timerOf a
  let s := { s with running := none }.setPhase a .done
  if (s.state id).repeats ∧ (s.state id).isCanceled = false then s.arm id else s

/-- The end of a slice. -/
def exit (s : Timeouts) (lock : Nat) : Timeouts :=
  { s with
    currentInputLocks := s.currentInputLocks.erase lock
    gates := (InputGates.release lock s.gates).2 }

inductive Event
  | setTimeoutImpl (repeats : Bool)
  | clearTimeoutImpl (id : Nat)
  | portResolves (arming : Nat)
  | portRejects (arming : Nat)
  /-- The continuation of the port's promise. -/
  | settled (arming : Nat)
  /-- The continuation of the wait for the lock. -/
  | entered (arming : Nat)
  | callbackReturns
  | callbackThrows
  | abort
  /-- The checkpoint end of a slice. -/
  | exit (lock : Nat)
  /-- Another slice of the context, with its lock. -/
  | enter (lock : Nat)
  /-- Anything else that is done to the input gate. -/
  | gate (event : InputGates.Event)

/-- The lock of a callback that runs is its own until it is done. -/
def spares (s : Timeouts) (gates : InputGates) : Bool :=
  match s.running with
  | none => true
  | some (_, lock) => gates.gateOf lock = s.gates.gateOf lock

/-- Continuations and checkpoint ends wait for the callback that runs. -/
def step (s : Timeouts) : Event → Option Timeouts
  | .setTimeoutImpl repeats => some (s.setTimeout repeats)
  | .clearTimeoutImpl id =>
    if 0 < id ∧ id < s.nextId then some ((s.clearTimeout id).note (.cleared id)) else some (s.clearTimeout id)
  | .portResolves a => if s.phase a = .delayed then some (s.setPhase a .elapsed) else none
  | .portRejects a => if s.phase a = .delayed then some (s.setPhase a .failed) else none
  | .settled a =>
    if s.running ≠ none then none
    else match s.phase a with
    | .elapsed => some (s.wake a)
    | .failed => some (s.setPhase a .done)
    | _ => none
  | .entered a =>
    if s.running ≠ none then none
    else match s.phase a with
    | .admission w =>
      match s.gates.wait w with
      | .resolved lock => some (s.letIn a lock)
      | .rejected _ => some (s.setPhase a .done)
      | _ => none
    | _ => none
  | .callbackReturns | .callbackThrows =>
    match s.running with
    | some (a, _) => some (s.finish a)
    | none => none
  | .abort => some (if s.aborted then s else s.abort.note .aborted)
  | .exit lock => if s.running = none ∧ lock ∈ s.currentInputLocks then some (s.exit lock) else none
  | .enter lock =>
    if s.aborted ∨ s.gates.gateOf lock = none then none
    else some { s with currentInputLocks := lock :: s.currentInputLocks }
  | .gate event =>
    (s.gates.step event).bind fun gates => if s.spares gates then some { s with gates } else none

def opened : Timeouts where
  gates := .opened
  currentInputLocks := []
  aborted := false
  timeouts := []
  state := fun _ => { repeats := false, callback := false, isCanceled := false, armed := none }
  nextId := 1
  timerOf := fun _ => 0
  criticalSection := fun _ => 0
  wakeAborted := fun _ => false
  phase := fun _ => .done
  armings := 0
  running := none
  notes := []

end Timeouts

end DoRuntime.Io
