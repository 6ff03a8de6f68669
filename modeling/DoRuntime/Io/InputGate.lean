import DoRuntime.Lib.Forwarding
import DoRuntime.Lib.Program
import DoRuntime.Lib.Transition

namespace DoRuntime.Io

open Forwarding Prog

inductive SectionState
  | notStarted
  | initialWait
  | running
  | reparented
deriving DecidableEq

inductive GateException
  | canceled
  | error (message : String)
deriving DecidableEq

/-- Where the promise of a `wait` stands. A child waiter is the one that the first `wait` of a
    section has in its parent; once it settles the section is still to go on. -/
inductive WaitStatus
  | linked (gate : Nat) (starts : Option Nat)
  | granted (starts : Nat) (lock : Nat)
  | refused (starts : Nat) (exception : GateException)
  | resolved (lock : Nat)
  | rejected (exception : GateException)
deriving DecidableEq

/-- An `InputGate`, which is gate 0, with the critical sections nested in it, their locks and the
    calls of `wait` made on them. -/
structure InputGates where
  parent : Nat → Nat
  state : Nat → SectionState
  lockCount : Nat → Nat
  waiters : Nat → List Nat
  waitingChildren : Nat → List Nat
  brokenState : Nat → Option GateException
  parentLock : Nat → Option Nat
  gates : Nat
  /-- `#gate` of a lock, none once it is released. -/
  gateOf : Nat → Option Nat
  /-- The lock is in the hands of a caller, not of a section. -/
  given : Nat → Bool
  locks : Nat
  wait : Nat → WaitStatus
  /-- The gate whose `wait` was called. -/
  asked : Nat → Nat
  aborted : Nat → Bool
  waits : Nat

namespace InputGates

abbrev Act (α : Type) : Type := Prog String InputGates α

section Gates

variable (s : InputGates)

/-- The gate is a section that is done, whose parent has taken over its locks and waiters. -/
def isReparented (g : Nat) : Bool := 0 < g && s.state g = .reparented

/-- The gate itself, or the first of its parents that is not reparented. -/
def adopter (g : Nat) : Nat := heir s.parent s.isReparented g

def parentAsInputGate (c : Nat) : Nat := s.adopter (s.parent c)

def newLock (gate : Nat) (given : Bool) : InputGates :=
  let gateToLock := if s.isReparented gate then s.parentAsInputGate gate else gate
  { s with
    lockCount := Function.update s.lockCount gateToLock (s.lockCount gateToLock + 1)
    gateOf := Function.update s.gateOf s.locks (some gate)
    given := Function.update s.given s.locks given
    locks := s.locks + 1 }

def settle (w : Nat) (status : WaitStatus) : InputGates := { s with wait := Function.update s.wait w status }

def unlink (w : Nat) : InputGates :=
  match s.wait w with
  | .linked g (some _) =>
    { s with waitingChildren := Function.update s.waitingChildren g ((s.waitingChildren g).erase w) }
  | .linked g none => { s with waiters := Function.update s.waiters g ((s.waiters g).erase w) }
  | _ => s

def fulfill (w lock : Nat) : InputGates :=
  match s.wait w with
  | .linked _ (some c) => (s.unlink w).settle w (.granted c lock)
  | .linked _ none => (s.unlink w).settle w (.resolved lock)
  | _ => s

def reject (w : Nat) (exception : GateException) : InputGates :=
  match s.wait w with
  | .linked _ (some c) => (s.unlink w).settle w (.refused c exception)
  | .linked _ none => (s.unlink w).settle w (.rejected exception)
  | _ => s

def newWaiterPromise (gate : Nat) (starts : Option Nat) (w : Nat) : InputGates :=
  match starts with
  | some _ =>
    { s with waitingChildren := Function.update s.waitingChildren gate (s.waitingChildren gate ++ [w]) }.settle w
      (.linked gate starts)
  | none =>
    { s with waiters := Function.update s.waiters gate (s.waiters gate ++ [w]) }.settle w (.linked gate starts)

/-- `InputGate.wait` -/
def gateWait (gate w : Nat) (aborted : Bool) : InputGates :=
  if aborted then s.settle w (.rejected .canceled)
  else match s.brokenState gate with
  | some exception => s.settle w (.rejected exception)
  | none =>
    if s.lockCount gate = 0 then (s.newLock gate true).settle w (.resolved s.locks)
    else s.newWaiterPromise gate none w

def setBroken (gate : Nat) (exception : GateException) : InputGates :=
  let s := (s.waitingChildren gate).foldl (fun s w => s.reject w exception) s
  let s := (s.waiters gate).foldl (fun s w => s.reject w exception) s
  { s with brokenState := Function.update s.brokenState gate (some exception) }

/-- A section goes on under the lock it has in its parent. -/
def enter (c lock w : Nat) (aborted : Bool) : InputGates :=
  { s with
    state := Function.update s.state c .running
    parentLock := Function.update s.parentLock c (some lock) }.gateWait c w aborted

/-- The first `wait` of a section. -/
def start (c w : Nat) : InputGates :=
  let s := { s with state := Function.update s.state c .initialWait }
  let target := s.parentAsInputGate c
  match s.brokenState target with
  | some exception => (s.setBroken c exception).settle w (.rejected exception)
  | none =>
    if s.lockCount target = 0 then (s.newLock target false).enter c s.locks w false
    else s.newWaiterPromise target (some c) w

/-- `wait` of a gate or a section, which is that of the parent once the section is reparented. -/
def waitOn (fuel gate w : Nat) (aborted : Bool) : InputGates :=
  if gate = 0 then s.gateWait 0 w aborted
  else if aborted then s.settle w (.rejected .canceled)
  else match s.state gate with
  | .notStarted => s.start gate w
  | .initialWait => s.settle w (.rejected (.error "CriticalSection::wait() should be called once initially"))
  | .running => s.gateWait gate w aborted
  | .reparented =>
    match fuel with
    | 0 => s
    | fuel + 1 => waitOn fuel (s.parent gate) w aborted

/-- The first `wait` of a section, from the settlement of its child waiter on. -/
def resume (w : Nat) : InputGates :=
  match s.wait w with
  | .granted c lock => s.enter c lock w (s.aborted w)
  | .refused _ .canceled => s.settle w (.rejected .canceled)
  | .refused c exception =>
    ({ s with state := Function.update s.state c .running }.setBroken c exception).settle w (.rejected exception)
  | _ => s

def abort (w : Nat) : InputGates :=
  { s with aborted := Function.update s.aborted w true }.reject w .canceled

/-- Hands the gate to the waiter next in line, sections first. -/
def grantNext (gate : Nat) : InputGates :=
  match s.waitingChildren gate with
  | child :: _ => (s.newLock gate false).fulfill child s.locks
  | [] =>
    match s.waiters gate with
    | waiter :: _ => (s.newLock gate true).fulfill waiter s.locks
    | [] => s

def newSection (parent : Nat) : InputGates :=
  { s with
    parent := Function.update s.parent s.gates parent
    gates := s.gates + 1 }

/-- The parent takes over the waiters and the locks of a section. -/
def reparent (c : Nat) : InputGates :=
  let parentGate := s.parentAsInputGate c
  let moved := s.waitingChildren c ++ s.waiters c
  { s with
    wait := fun w =>
      match s.wait w with
      | .linked _ starts => if w ∈ moved then .linked parentGate starts else s.wait w
      | status => status
    waitingChildren :=
      Function.update (Function.update s.waitingChildren parentGate (s.waitingChildren parentGate ++ s.waitingChildren c))
        c []
    waiters := Function.update (Function.update s.waiters parentGate (s.waiters parentGate ++ s.waiters c)) c []
    lockCount := Function.update (Function.update s.lockCount parentGate (s.lockCount parentGate + s.lockCount c)) c 0
    state := Function.update s.state c .reparented }

end Gates

/-- `failed` of a section and then of its parents. -/
def failed (s : InputGates) (fuel c : Nat) (exception : GateException) : InputGates :=
  if (s.brokenState c).isSome then s
  else
    let s := s.setBroken c exception
    if s.parent c = 0 then s.setBroken 0 exception
    else match fuel with
    | 0 => s
    | fuel + 1 => failed s fuel (s.parent c) exception

def releaseOpen (gate : Nat) : Act Unit := do
  let s ← Prog.state
  if s.lockCount gate = 0 then raise "InputGate::releaseLock() with no locks outstanding"
  else update fun s =>
    let s := { s with lockCount := Function.update s.lockCount gate (s.lockCount gate - 1) }
    if s.lockCount gate = 0 then s.grantNext gate else s

def releaseLock (gate : Nat) : Act Unit := do
  let s ← Prog.state
  if s.isReparented gate then
    if s.waitingChildren gate ≠ [] ∨ s.waiters gate ≠ [] ∨ s.lockCount gate ≠ 0 then
      raise "releasing a lock on a reparented CriticalSection that still holds state"
    else releaseOpen (s.parentAsInputGate gate)
  else releaseOpen gate

def release (lock : Nat) : Act Unit := do
  let s ← Prog.state
  match s.gateOf lock with
  | none => raise "InputGate::Lock was released twice"
  | some gate => do
    update fun s => { s with gateOf := Function.update s.gateOf lock none }
    releaseLock gate

def addRef (lock : Nat) : Act Unit := do
  let s ← Prog.state
  match s.gateOf lock with
  | none => raise "InputGate::Lock was used after release"
  | some gate => update fun s => s.newLock gate true

def startCriticalSection (lock : Nat) : Act Unit := do
  let s ← Prog.state
  match s.gateOf lock with
  | none => raise "InputGate::Lock was used after release"
  | some gate => update fun s => s.newSection gate

def succeeded (c : Nat) : Act Nat := do
  let s ← Prog.state
  if s.state c ≠ .running then raise "CriticalSection::succeeded() requires a running critical section"
  else do
    update fun s => s.reparent c
    match s.parentLock c with
    | none => raise "CriticalSection::succeeded() with no parent lock"
    | some lock => do
      update fun s =>
        { s with
          parentLock := Function.update s.parentLock c none
          given := Function.update s.given lock true }
      pure lock

def neverCompletes : String :=
  "jsg.Error: A critical section within this Durable Object awaited a Promise that " ++
  "apparently will never complete. This could happen in particular if a critical " ++
  "section awaits a task that was initiated outside of the critical section. Since " ++
  "a critical section blocks all other tasks from completing, this leads to " ++
  "deadlock."

def drop (c : Nat) : Act Unit := do
  let s ← Prog.state
  if s.state c = .running then update fun s => s.failed c c (.error neverCompletes) else pure ()
  match s.parentLock c with
  | none => pure ()
  | some lock => do
    update fun s => { s with parentLock := Function.update s.parentLock c none }
    release lock

inductive Event
  /-- A call of `wait`, whose signal may be aborted already. -/
  | wait (gate : Nat) (aborted : Bool)
  | abort (wait : Nat)
  | resume (wait : Nat)
  | addRef (lock : Nat)
  | release (lock : Nat)
  | startCriticalSection (lock : Nat)
  | succeeded (c : Nat)
  | failed (c : Nat) (exception : GateException)
  | setBroken (gate : Nat) (exception : GateException)
  | drop (c : Nat)

/-- A new call of `wait`. -/
def call (s : InputGates) (gate : Nat) (aborted : Bool) : InputGates :=
  let w := s.waits
  { s with
    asked := Function.update s.asked w gate
    aborted := Function.update s.aborted w aborted
    waits := w + 1 }.waitOn gate gate w aborted

/-- What a holder of the gate, its sections and its locks can do, and the continuations of first
    waits; `none` for what nobody has. -/
def step (s : InputGates) : Event → Option InputGates
  | .wait gate aborted => if gate < s.gates then some (s.call gate aborted) else none
  | .abort w => if w < s.waits then some (s.abort w) else none
  | .resume w => if w < s.waits then some (s.resume w) else none
  | .addRef lock => if s.given lock then some (addRef lock s).2 else none
  | .release lock => if s.given lock then some (release lock s).2 else none
  | .startCriticalSection lock => if s.given lock then some (startCriticalSection lock s).2 else none
  | .succeeded c => if 0 < c ∧ c < s.gates then some (succeeded c s).2 else none
  | .failed c exception => if 0 < c ∧ c < s.gates then some (s.failed c c exception) else none
  | .setBroken gate exception => if gate < s.gates then some (s.setBroken gate exception) else none
  | .drop c => if 0 < c ∧ c < s.gates then some (drop c s).2 else none

/-- A new `InputGate`. -/
def opened : InputGates where
  parent := fun _ => 0
  state := fun _ => .notStarted
  lockCount := fun _ => 0
  waiters := fun _ => []
  waitingChildren := fun _ => []
  brokenState := fun _ => none
  parentLock := fun _ => none
  gates := 1
  gateOf := fun _ => none
  given := fun _ => false
  locks := 0
  wait := fun _ => .rejected .canceled
  asked := fun _ => 0
  aborted := fun _ => false
  waits := 0

end InputGates

end DoRuntime.Io
