import DoRuntime.Io.InputGate

namespace DoRuntime.Io

open Prog

/-- What `run` is given: the gate or the critical section to wait on, or a lock that was kept for it. -/
inductive SliceInput
  | gate (gate : Nat)
  | lock (lock : Nat)
deriving DecidableEq

/-- How far a call is that takes a lock of the context. -/
inductive ContextCall
  /-- The promise of an `awaitIo` or of an `awaitIoWithInputLock` is pending. -/
  | awaiting (input : SliceInput)
  | admission (wait : Nat)
  /-- A `blockConcurrencyWhile` waits for the first lock of its section. -/
  | firstLock (c wait : Nat)
  | callback (c : Nat)
  /-- The result of a `blockConcurrencyWhile` is out, and its `finally` is to run. -/
  | closing (c : Nat)
  | done
deriving DecidableEq

/-- An `IoContext`, with the input gate of its actor. -/
structure IoContext where
  gates : InputGates
  /-- Top first. -/
  currentInputLocks : List Nat
  /-- The slices that are still to leave at the end of the checkpoint, in order. -/
  checkpointEnds : List Nat
  abortException : Option String
  call : Nat → ContextCall
  calls : Nat

namespace IoContext

abbrev Act (α : Type) : Type := Prog String IoContext α

def onGates {α : Type} (act : InputGates.Act α) : Act α := fun s =>
  ((act s.gates).1, { s with gates := (act s.gates).2 })

def setCall (s : IoContext) (a : Nat) (call : ContextCall) : IoContext :=
  { s with call := Function.update s.call a call }

def addCall (s : IoContext) (call : ContextCall) : IoContext :=
  { s with
    call := Function.update s.call s.calls call
    calls := s.calls + 1 }

/-- A call of `wait` on the gate or on a section. -/
def wait (gate : Nat) (aborted : Bool) : Act Nat := do
  let s ← state
  update fun s => { s with gates := s.gates.call gate aborted }
  pure s.gates.waits

def requireCurrent : Act Nat := do
  let s ← state
  match s.currentInputLocks with
  | [] => raise "no input lock available in this context"
  | lock :: _ => pure lock

def getInputLock : Act Nat := do
  let lock ← requireCurrent
  let s ← state
  onGates (InputGates.addRef lock)
  pure s.gates.locks

/-- The section of the lock on top of the stack, the root gate where there is none. -/
def getCriticalSection : Act Nat := do
  let s ← state
  match s.currentInputLocks with
  | [] => pure 0
  | lock :: _ =>
    match s.gates.gateOf lock with
    | none => raise "InputGate::Lock was used after release"
    | some gate => pure gate

/-- Every gate of the tree is a section of the actor's own, so that `isFor` only finds out a released lock. -/
def runImpl (lock : Nat) : Act Unit := do
  let s ← state
  if s.gates.gateOf lock = none then raise "InputGate::Lock was used after release"
  else
    match s.abortException with
    | some exception => do
      onGates (InputGates.release lock)
      raise exception
    | none =>
      update fun s =>
        { s with
          currentInputLocks := lock :: s.currentInputLocks
          checkpointEnds := s.checkpointEnds ++ [lock] }

/-- `run` for a call, up to its wait. -/
def run (a : Nat) (input : SliceInput) (aborted : Bool) : Act Unit := do
  let s ← state
  update fun s => s.setCall a .done
  match s.abortException, input with
  | some exception, .lock lock => do
    onGates (InputGates.release lock)
    raise exception
  | some exception, .gate _ => raise exception
  | none, .gate gate => do
    let w ← wait gate aborted
    update fun s => s.setCall a (.admission w)
  | none, .lock lock => runImpl lock

/-- `run` from its wait on. -/
def enter (a w : Nat) : Act Unit := do
  let s ← state
  match s.gates.wait w with
  | .resolved lock => do
    update fun s => s.setCall a .done
    runImpl lock
  | .rejected _ => update fun s => s.setCall a .done
  | _ => pure ()

def awaitIo : Act Unit := do
  let criticalSection ← getCriticalSection
  update fun s => s.addCall (.awaiting (.gate criticalSection))

def awaitIoWithInputLock : Act Unit := do
  let inputLock ← getInputLock
  update fun s => s.addCall (.awaiting (.lock inputLock))

def blockConcurrencyWhile : Act Unit := do
  let lock ← getInputLock
  let s ← state
  onGates (InputGates.startCriticalSection lock)
  let w ← wait s.gates.gates false
  update fun t => t.addCall (.firstLock s.gates.gates w)
  onGates (InputGates.release lock)

/-- The `catch` and the `finally` of `blockConcurrencyWhile`. -/
def sectionFailed (a c : Nat) (broken : GateException) : Act Unit := do
  update fun s => { s with gates := s.gates.failed c c broken }.setCall a .done
  onGates (InputGates.drop c)

/-- `#runCriticalSection` from its wait on. -/
def startCallback (a c w : Nat) (broken : GateException) : Act Unit := do
  let s ← state
  match s.gates.wait w with
  | .resolved lock =>
    attempt
      (do
        update fun s => s.setCall a (.callback c)
        runImpl lock)
      fun _ => sectionFailed a c broken
  | .rejected _ => sectionFailed a c broken
  | _ => pure ()

/-- The callback has returned in time. -/
def callbackReturned (a c : Nat) (broken : GateException) : Act Unit :=
  attempt
    (do
      let parentLock ← onGates (InputGates.succeeded c)
      update fun s => s.setCall a (.closing c)
      runImpl parentLock)
    fun _ => sectionFailed a c broken

/-- The `finally` of a `blockConcurrencyWhile` that succeeded. -/
def close (a c : Nat) : Act Unit := do
  update fun s => s.setCall a .done
  onGates (InputGates.drop c)

/-- What a slice does at the end of its checkpoint. -/
def exit (lock : Nat) : Act Unit := do
  let s ← state
  if lock ∈ s.currentInputLocks then do
    update fun s => { s with currentInputLocks := s.currentInputLocks.erase lock }
    onGates (InputGates.release lock)
  else raise "IoContext invocation stack lost a lock it was holding"

def abort (s : IoContext) (exception : String) : IoContext :=
  if s.abortException = none then { s with abortException := some exception } else s

/-- What calls the context, and the continuations of its calls. `broken` is the `BrokenActorError` that is made
    of an exception. -/
inductive Event
  /-- A call of `run` with no input or with a section, of a new event or of a re-entry callback. -/
  | run (gate : Nat) (aborted : Bool)
  | awaitIo
  | awaitIoWithInputLock
  | blockConcurrencyWhile
  /-- The promise of an `awaitIo` has settled. -/
  | settled (a : Nat)
  | admitted (a : Nat)
  | firstLock (a : Nat) (broken : GateException)
  | callbackReturned (a : Nat) (broken : GateException)
  /-- The callback threw, or ran into its deadline. -/
  | callbackFailed (a : Nat) (broken : GateException)
  | closed (a : Nat)
  | checkpointEnd
  | abort (exception : String)
  /-- The continuation of the first wait of a section. -/
  | resume (wait : Nat)
  /-- The signal of a wait aborts. -/
  | cancel (wait : Nat)

/-- A wait of `run`, which is given a signal; that of `#runCriticalSection` is given none. -/
def isAdmission (s : IoContext) (w : Nat) : Bool := (List.range s.calls).any fun a => s.call a = .admission w

/-- One synchronous stretch; `none` for what is not due. -/
def step (s : IoContext) : Event → Option IoContext
  | .run gate aborted =>
    if gate < s.gates.gates then some (run s.calls (.gate gate) aborted (s.addCall .done)).2 else none
  | .awaitIo => some (awaitIo s).2
  | .awaitIoWithInputLock => some (awaitIoWithInputLock s).2
  | .blockConcurrencyWhile => some (blockConcurrencyWhile s).2
  | .settled a =>
    match s.call a with
    | .awaiting input => some (run a input false s).2
    | _ => none
  | .admitted a =>
    match s.call a with
    | .admission w => some (enter a w s).2
    | _ => none
  | .firstLock a broken =>
    match s.call a with
    | .firstLock c w => some (startCallback a c w broken s).2
    | _ => none
  | .callbackReturned a broken =>
    match s.call a with
    | .callback c => some (callbackReturned a c broken s).2
    | _ => none
  | .callbackFailed a broken =>
    match s.call a with
    | .callback c => some (sectionFailed a c broken s).2
    | _ => none
  | .closed a =>
    match s.call a with
    | .closing c => some (close a c s).2
    | _ => none
  | .checkpointEnd =>
    match s.checkpointEnds with
    | [] => none
    | lock :: rest => some (exit lock { s with checkpointEnds := rest }).2
  | .abort exception => some (s.abort exception)
  | .resume w => (s.gates.step (.resume w)).map fun gates => { s with gates }
  | .cancel w =>
    if s.isAdmission w then (s.gates.step (.abort w)).map fun gates => { s with gates } else none

def opened : IoContext where
  gates := .opened
  currentInputLocks := []
  checkpointEnds := []
  abortException := none
  call := fun _ => .done
  calls := 0

end IoContext

end DoRuntime.Io
