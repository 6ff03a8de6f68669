import DoRuntime.Io.InputGate

namespace DoRuntime.Io

open Prog

/-- The calls of `InputGateHooks`. -/
inductive GateHookCall
  | inputGateLocked
  | inputGateReleased
  | inputGateWaiterAdded
  | inputGateWaiterRemoved
deriving DecidableEq

/-- The gates with the hooks of the root and the calls made of them so far. -/
structure HookedGates extends InputGates where
  calls : List GateHookCall

namespace HookedGates

abbrev Act (α : Type) : Type := Prog String HookedGates α

section Gates

variable (s : HookedGates)

def set (f : InputGates → InputGates) : HookedGates := ⟨f s.toInputGates, s.calls⟩

/-- A section has the default hooks, which do nothing. -/
def hook (gate : Nat) (call : GateHookCall) : HookedGates :=
  if gate = 0 then { s with calls := s.calls ++ [call] } else s

def newLock (gate : Nat) (given : Bool) : HookedGates :=
  let gateToLock := if s.isReparented gate then s.parentAsInputGate gate else gate
  let s := s.set (·.newLock gate given)
  if s.lockCount gateToLock = 1 then s.hook gateToLock .inputGateLocked else s

def settle (w : Nat) (status : WaitStatus) : HookedGates := s.set (·.settle w status)

def fulfill (w lock : Nat) : HookedGates :=
  match s.wait w with
  | .linked gate _ => (s.set (·.fulfill w lock)).hook gate .inputGateWaiterRemoved
  | _ => s

def reject (w : Nat) (exception : GateException) : HookedGates :=
  match s.wait w with
  | .linked gate _ => (s.set (·.reject w exception)).hook gate .inputGateWaiterRemoved
  | _ => s

def newWaiterPromise (gate : Nat) (starts : Option Nat) (w : Nat) : HookedGates :=
  (s.hook gate .inputGateWaiterAdded).set (·.newWaiterPromise gate starts w)

/-- `InputGate.wait` -/
def gateWait (gate w : Nat) (aborted : Bool) : HookedGates :=
  if aborted then s.settle w (.rejected .canceled)
  else match s.brokenState gate with
  | some exception => s.settle w (.rejected exception)
  | none =>
    if s.lockCount gate = 0 then (s.newLock gate true).settle w (.resolved s.locks)
    else s.newWaiterPromise gate none w

def setBroken (gate : Nat) (exception : GateException) : HookedGates :=
  let s := (s.waitingChildren gate).foldl (fun s w => s.reject w exception) s
  let s := (s.waiters gate).foldl (fun s w => s.reject w exception) s
  s.set fun s => { s with brokenState := Function.update s.brokenState gate (some exception) }

/-- A section goes on under the lock it has in its parent. -/
def enter (c lock w : Nat) (aborted : Bool) : HookedGates :=
  (s.set fun s =>
    { s with
      state := Function.update s.state c .running
      parentLock := Function.update s.parentLock c (some lock) }).gateWait c w aborted

/-- The first `wait` of a section. -/
def start (c w : Nat) : HookedGates :=
  let s := s.set fun s => { s with state := Function.update s.state c .initialWait }
  let target := s.parentAsInputGate c
  match s.brokenState target with
  | some exception => (s.setBroken c exception).settle w (.rejected exception)
  | none =>
    if s.lockCount target = 0 then (s.newLock target false).enter c s.locks w false
    else s.newWaiterPromise target (some c) w

/-- `wait` of a gate or a section, which is that of the parent once the section is reparented. -/
def waitOn (fuel gate w : Nat) (aborted : Bool) : HookedGates :=
  if gate = 0 then s.gateWait 0 w aborted
  else if aborted then s.settle w (.rejected .canceled)
  else match s.state gate with
  | .notStarted => s.start gate w
  | .initialWait => s.settle w (.rejected (.error "CriticalSection::wait() should be called once initially"))
  | .running => s.gateWait gate w aborted
  | .reparented =>
    match fuel with
    | 0 => s
    | fuel + 1 => waitOn fuel (s.parent gate) w aborted

/-- The first `wait` of a section, from the settlement of its child waiter on. -/
def resume (w : Nat) : HookedGates :=
  match s.wait w with
  | .granted c lock => s.enter c lock w (s.aborted w)
  | .refused _ .canceled => s.settle w (.rejected .canceled)
  | .refused c exception =>
    ((s.set fun s => { s with state := Function.update s.state c .running }).setBroken c exception).settle w
      (.rejected exception)
  | _ => s

def abort (w : Nat) : HookedGates :=
  (s.set fun s => { s with aborted := Function.update s.aborted w true }).reject w .canceled

/-- Hands the gate to the waiter next in line, sections first. -/
def grantNext (gate : Nat) : HookedGates :=
  match s.waitingChildren gate with
  | child :: _ => (s.newLock gate false).fulfill child s.locks
  | [] =>
    match s.waiters gate with
    | waiter :: _ => (s.newLock gate true).fulfill waiter s.locks
    | [] => s

end Gates

/-- `failed` of a section and then of its parents. -/
def failed (s : HookedGates) (fuel c : Nat) (exception : GateException) : HookedGates :=
  if (s.brokenState c).isSome then s
  else
    let s := s.setBroken c exception
    if s.parent c = 0 then s.setBroken 0 exception
    else match fuel with
    | 0 => s
    | fuel + 1 => failed s fuel (s.parent c) exception

def releaseOpen (gate : Nat) : Act Unit := do
  let s ← Prog.state
  if s.lockCount gate = 0 then raise "InputGate::releaseLock() with no locks outstanding"
  else update fun s =>
    let s := s.set fun s => { s with lockCount := Function.update s.lockCount gate (s.lockCount gate - 1) }
    if s.lockCount gate = 0 then (s.hook gate .inputGateReleased).grantNext gate else s

def releaseLock (gate : Nat) : Act Unit := do
  let s ← Prog.state
  if s.isReparented gate then
    if s.waitingChildren gate ≠ [] ∨ s.waiters gate ≠ [] ∨ s.lockCount gate ≠ 0 then
      raise "releasing a lock on a reparented CriticalSection that still holds state"
    else releaseOpen (s.parentAsInputGate gate)
  else releaseOpen gate

def release (lock : Nat) : Act Unit := do
  let s ← Prog.state
  match s.gateOf lock with
  | none => raise "InputGate::Lock was released twice"
  | some gate => do
    update fun s => s.set fun s => { s with gateOf := Function.update s.gateOf lock none }
    releaseLock gate

def addRef (lock : Nat) : Act Unit := do
  let s ← Prog.state
  match s.gateOf lock with
  | none => raise "InputGate::Lock was used after release"
  | some gate => update fun s => s.newLock gate true

def startCriticalSection (lock : Nat) : Act Unit := do
  let s ← Prog.state
  match s.gateOf lock with
  | none => raise "InputGate::Lock was used after release"
  | some gate => update fun s => s.set (·.newSection gate)

/-- The waiters and the locks that go over to the parent call none of its hooks. -/
def succeeded (c : Nat) : Act Nat := do
  let s ← Prog.state
  if s.state c ≠ .running then raise "CriticalSection::succeeded() requires a running critical section"
  else do
    update fun s => s.set (·.reparent c)
    match s.parentLock c with
    | none => raise "CriticalSection::succeeded() with no parent lock"
    | some lock => do
      update fun s => s.set fun s =>
        { s with
          parentLock := Function.update s.parentLock c none
          given := Function.update s.given lock true }
      pure lock

def drop (c : Nat) : Act Unit := do
  let s ← Prog.state
  if s.state c = .running then update fun s => s.failed c c (.error InputGates.neverCompletes) else pure ()
  match s.parentLock c with
  | none => pure ()
  | some lock => do
    update fun s => s.set fun s => { s with parentLock := Function.update s.parentLock c none }
    release lock

/-- A new call of `wait`. -/
def call (s : HookedGates) (gate : Nat) (aborted : Bool) : HookedGates :=
  let w := s.waits
  (s.set fun s =>
    { s with
      asked := Function.update s.asked w gate
      aborted := Function.update s.aborted w aborted
      waits := w + 1 }).waitOn gate gate w aborted

def step (s : HookedGates) : InputGates.Event → Option HookedGates
  | .wait gate aborted => if gate < s.gates then some (s.call gate aborted) else none
  | .abort w => if w < s.waits then some (s.abort w) else none
  | .resume w => if w < s.waits then some (s.resume w) else none
  | .addRef lock => if s.given lock then some (addRef lock s).2 else none
  | .release lock => if s.given lock then some (release lock s).2 else none
  | .startCriticalSection lock => if s.given lock then some (startCriticalSection lock s).2 else none
  | .succeeded c => if 0 < c ∧ c < s.gates then some (succeeded c s).2 else none
  | .failed c exception => if 0 < c ∧ c < s.gates then some (s.failed c c exception) else none
  | .setBroken gate exception => if gate < s.gates then some (s.setBroken gate exception) else none
  | .drop c => if 0 < c ∧ c < s.gates then some (drop c s).2 else none

/-- A new `InputGate`. -/
def opened : HookedGates := ⟨InputGates.opened, []⟩

end HookedGates

end DoRuntime.Io
