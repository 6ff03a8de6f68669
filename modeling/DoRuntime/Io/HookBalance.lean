import DoRuntime.Io.GateExclusion
import DoRuntime.Io.GateHooks

namespace DoRuntime.Io

namespace InputGates

/-- The number of waits that are pending at the root. -/
def pending (s : InputGates) : Nat := (s.waiters 0).length + (s.waitingChildren 0).length

def uncounted (s : InputGates) (gate : Nat) : InputGates :=
  { s with lockCount := Function.update s.lockCount gate (s.lockCount gate - 1) }

theorem releaseOpen_run {s : InputGates} {gate : Nat} (busy : s.lockCount gate ≠ 0) : releaseOpen gate s =
    (.ok (), if (s.uncounted gate).lockCount gate = 0 then (s.uncounted gate).grantNext gate else s.uncounted gate) := by
  unfold releaseOpen
  rw [Prog.state_bind, if_neg busy]
  rfl

end InputGates

namespace HookedGates

open Prog Transition
open InputGates (Event Accounted Queued Counted Sound)

section Projections

variable (s : HookedGates)

@[simp]
theorem set_gates (f : InputGates → InputGates) : (s.set f).toInputGates = f s.toInputGates := rfl

@[simp]
theorem hook_gates (gate : Nat) (call : GateHookCall) : (s.hook gate call).toInputGates = s.toInputGates := by
  unfold hook
  split <;> rfl

@[simp]
theorem settle_gates (w : Nat) (status : WaitStatus) :
    (s.settle w status).toInputGates = s.toInputGates.settle w status := rfl

@[simp]
theorem newLock_gates (gate : Nat) (given : Bool) :
    (s.newLock gate given).toInputGates = s.toInputGates.newLock gate given := by
  unfold newLock
  generalize (if s.isReparented gate then s.parentAsInputGate gate else gate) = gateToLock
  dsimp only
  by_cases first : (s.set (·.newLock gate given)).lockCount gateToLock = 1
  · rw [if_pos first, hook_gates, set_gates]
  · rw [if_neg first, set_gates]

@[simp]
theorem fulfill_gates (w lock : Nat) : (s.fulfill w lock).toInputGates = s.toInputGates.fulfill w lock := by
  unfold fulfill
  cases status : s.wait w with
  | linked g starts => rw [hook_gates, set_gates]
  | granted => rw [InputGates.fulfill, status]
  | refused => rw [InputGates.fulfill, status]
  | resolved => rw [InputGates.fulfill, status]
  | rejected => rw [InputGates.fulfill, status]

@[simp]
theorem reject_gates (w : Nat) (exception : GateException) :
    (s.reject w exception).toInputGates = s.toInputGates.reject w exception := by
  unfold reject
  cases status : s.wait w with
  | linked g starts => rw [hook_gates, set_gates]
  | granted => rw [InputGates.reject, status]
  | refused => rw [InputGates.reject, status]
  | resolved => rw [InputGates.reject, status]
  | rejected => rw [InputGates.reject, status]

@[simp]
theorem newWaiterPromise_gates (gate : Nat) (starts : Option Nat) (w : Nat) :
    (s.newWaiterPromise gate starts w).toInputGates = s.toInputGates.newWaiterPromise gate starts w := by
  unfold newWaiterPromise
  rw [set_gates, hook_gates]

@[simp]
theorem gateWait_gates (gate w : Nat) (aborted : Bool) :
    (s.gateWait gate w aborted).toInputGates = s.toInputGates.gateWait gate w aborted := by
  unfold gateWait InputGates.gateWait
  cases aborted with
  | true => rfl
  | false =>
    cases s.brokenState gate with
    | some exception => rfl
    | none =>
      dsimp only
      by_cases free : s.lockCount gate = 0
      · rw [if_neg Bool.false_ne_true, if_neg Bool.false_ne_true, if_pos free, if_pos free, settle_gates, newLock_gates]
      · rw [if_neg Bool.false_ne_true, if_neg Bool.false_ne_true, if_neg free, if_neg free, newWaiterPromise_gates]

theorem rejects_gates (exception : GateException) (ws : List Nat) (s : HookedGates) :
    (ws.foldl (fun s w => s.reject w exception) s).toInputGates =
      ws.foldl (fun s w => s.reject w exception) s.toInputGates := by
  induction ws generalizing s with
  | nil => rfl
  | cons w rest ih => rw [List.foldl_cons, ih, reject_gates, List.foldl_cons]

@[simp]
theorem setBroken_gates (gate : Nat) (exception : GateException) :
    (s.setBroken gate exception).toInputGates = s.toInputGates.setBroken gate exception := by
  unfold setBroken InputGates.setBroken
  dsimp only
  rw [set_gates, rejects_gates, rejects_gates]

@[simp]
theorem enter_gates (c lock w : Nat) (aborted : Bool) :
    (s.enter c lock w aborted).toInputGates = s.toInputGates.enter c lock w aborted := by
  unfold enter InputGates.enter
  rw [gateWait_gates, set_gates]

/-- The first `wait` of a section whose state says so. -/
def begin (c w : Nat) : HookedGates :=
  let target := s.parentAsInputGate c
  match s.brokenState target with
  | some exception => (s.setBroken c exception).settle w (.rejected exception)
  | none =>
    if s.lockCount target = 0 then (s.newLock target false).enter c s.locks w false
    else s.newWaiterPromise target (some c) w

theorem start_eq (c w : Nat) : s.start c w = (s.set (·.withState c .initialWait)).begin c w := rfl

theorem begin_gates (c w : Nat) : (s.begin c w).toInputGates = s.toInputGates.begin c w := by
  unfold begin InputGates.begin
  dsimp only
  cases s.brokenState (s.parentAsInputGate c) with
  | some exception =>
    dsimp only
    rw [settle_gates, setBroken_gates]
  | none =>
    dsimp only
    by_cases free : s.lockCount (s.parentAsInputGate c) = 0
    · rw [if_pos free, if_pos free, enter_gates, newLock_gates]
    · rw [if_neg free, if_neg free, newWaiterPromise_gates]

@[simp]
theorem start_gates (c w : Nat) : (s.start c w).toInputGates = s.toInputGates.start c w := by
  rw [start_eq, begin_gates, InputGates.start_eq, set_gates]

@[simp]
theorem waitOn_gates (fuel gate w : Nat) (aborted : Bool) :
    (s.waitOn fuel gate w aborted).toInputGates = s.toInputGates.waitOn fuel gate w aborted := by
  induction fuel generalizing gate with
  | zero =>
    unfold waitOn InputGates.waitOn
    split
    · rw [gateWait_gates]
    · split
      · rw [settle_gates]
      · cases s.state gate with
        | notStarted => exact start_gates s gate w
        | initialWait => rfl
        | running => exact gateWait_gates s gate w aborted
        | reparented => rfl
  | succ fuel ih =>
    unfold waitOn InputGates.waitOn
    split
    · rw [gateWait_gates]
    · split
      · rw [settle_gates]
      · cases s.state gate with
        | notStarted => exact start_gates s gate w
        | initialWait => rfl
        | running => exact gateWait_gates s gate w aborted
        | reparented => exact ih (s.parent gate)

@[simp]
theorem resume_gates (w : Nat) : (s.resume w).toInputGates = s.toInputGates.resume w := by
  unfold resume InputGates.resume
  cases s.wait w with
  | granted c lock => exact enter_gates s c lock w (s.aborted w)
  | refused c exception =>
    cases exception with
    | canceled => rfl
    | error message =>
      dsimp only
      rw [settle_gates, setBroken_gates, set_gates]
  | linked => rfl
  | resolved => rfl
  | rejected => rfl

@[simp]
theorem abort_gates (w : Nat) : (s.abort w).toInputGates = s.toInputGates.abort w := by
  unfold abort InputGates.abort
  rw [reject_gates, set_gates]

@[simp]
theorem grantNext_gates (gate : Nat) : (s.grantNext gate).toInputGates = s.toInputGates.grantNext gate := by
  unfold grantNext InputGates.grantNext
  cases s.waitingChildren gate with
  | cons child rest =>
    dsimp only
    rw [fulfill_gates, newLock_gates]
  | nil =>
    cases s.waiters gate with
    | cons waiter rest =>
      dsimp only
      rw [fulfill_gates, newLock_gates]
    | nil => rfl

@[simp]
theorem failed_gates (fuel c : Nat) (exception : GateException) :
    (s.failed fuel c exception).toInputGates = s.toInputGates.failed fuel c exception := by
  induction fuel generalizing s c with
  | zero =>
    unfold failed InputGates.failed
    dsimp only
    split
    · rfl
    · rw [setBroken_gates]
      split
      · rw [setBroken_gates, setBroken_gates]
      · rw [setBroken_gates]
  | succ fuel ih =>
    unfold failed InputGates.failed
    dsimp only
    split
    · rfl
    · rw [setBroken_gates]
      split
      · rw [setBroken_gates, setBroken_gates]
      · rw [ih, setBroken_gates]

@[simp]
theorem call_gates (gate : Nat) (aborted : Bool) : (s.call gate aborted).toInputGates = s.toInputGates.call gate aborted := by
  unfold call InputGates.call
  dsimp only
  rw [waitOn_gates, set_gates]

def letGo (gate : Nat) : HookedGates :=
  if (s.uncounted gate).lockCount gate = 0 then ((s.set (·.uncounted gate)).hook gate .inputGateReleased).grantNext gate
  else s.set (·.uncounted gate)

theorem releaseOpen_run {gate : Nat} (busy : s.lockCount gate ≠ 0) : releaseOpen gate s = (.ok (), s.letGo gate) := by
  unfold releaseOpen
  rw [state_bind, if_neg busy]
  rfl

theorem releaseOpen_gates (gate : Nat) :
    (releaseOpen gate s).2.toInputGates = (InputGates.releaseOpen gate s.toInputGates).2 := by
  by_cases busy : s.lockCount gate = 0
  · unfold releaseOpen InputGates.releaseOpen
    rw [state_bind, state_bind, if_pos busy, if_pos busy, raise_run, raise_run]
  · rw [s.releaseOpen_run busy, InputGates.releaseOpen_run busy]
    unfold letGo
    by_cases last : (s.uncounted gate).lockCount gate = 0
    · rw [if_pos last, if_pos last, grantNext_gates, hook_gates, set_gates]
    · rw [if_neg last, if_neg last, set_gates]

theorem releaseLock_gates (gate : Nat) :
    (releaseLock gate s).2.toInputGates = (InputGates.releaseLock gate s.toInputGates).2 := by
  unfold releaseLock InputGates.releaseLock
  rw [state_bind, state_bind]
  by_cases gone : s.isReparented gate
  · rw [if_pos gone, if_pos gone]
    by_cases holds : s.waitingChildren gate ≠ [] ∨ s.waiters gate ≠ [] ∨ s.lockCount gate ≠ 0
    · rw [if_pos holds, if_pos holds, raise_run, raise_run]
    · rw [if_neg holds, if_neg holds, releaseOpen_gates]
  · rw [if_neg gone, if_neg gone, releaseOpen_gates]

theorem release_gates (lock : Nat) :
    (release lock s).2.toInputGates = (InputGates.release lock s.toInputGates).2 := by
  unfold release InputGates.release
  rw [state_bind, state_bind]
  cases s.gateOf lock with
  | none => rfl
  | some gate =>
    dsimp only
    rw [update_bind, update_bind, releaseLock_gates, set_gates]

theorem addRef_gates (lock : Nat) : (addRef lock s).2.toInputGates = (InputGates.addRef lock s.toInputGates).2 := by
  unfold addRef InputGates.addRef
  rw [state_bind, state_bind]
  cases s.gateOf lock with
  | none => rfl
  | some gate => exact newLock_gates s gate true

theorem startCriticalSection_gates (lock : Nat) :
    (startCriticalSection lock s).2.toInputGates = (InputGates.startCriticalSection lock s.toInputGates).2 := by
  unfold startCriticalSection InputGates.startCriticalSection
  rw [state_bind, state_bind]
  cases s.gateOf lock with
  | none => rfl
  | some gate => rfl

/-- What `succeeded` leaves of a running section. -/
theorem succeeded_state {c : Nat} (running : s.state c = .running) : (succeeded c s).2 =
    match s.parentLock c with
    | none => s.set (·.reparent c)
    | some lock => s.set (·.handed c lock) := by
  unfold succeeded
  rw [state_bind, if_neg (not_not.2 running), update_bind]
  cases held : s.parentLock c with
  | none => rfl
  | some lock => rfl

theorem succeeded_refused {c : Nat} (idle : s.state c ≠ .running) : (succeeded c s).2 = s := by
  unfold succeeded
  rw [state_bind, if_pos idle, raise_run]

def dropped (c : Nat) : HookedGates :=
  if s.state c = .running then s.failed c c (.error InputGates.neverCompletes) else s

theorem dropped_gates (c : Nat) : (s.dropped c).toInputGates = s.toInputGates.dropped c := by
  unfold dropped InputGates.dropped
  split
  · rw [failed_gates]
  · rfl

theorem drop_state (c : Nat) : (drop c s).2 =
    match s.parentLock c with
    | none => s.dropped c
    | some lock => (release lock ((s.dropped c).set (·.disown c))).2 := by
  unfold drop dropped
  rw [state_bind]
  by_cases running : s.state c = .running
  · rw [if_pos running, if_pos running, update_bind]
    cases s.parentLock c with
    | none => rfl
    | some lock => rfl
  · rw [if_neg running, if_neg running]
    cases s.parentLock c with
    | none => rfl
    | some lock => rfl

/-- A step does to the gates what it does to gates without hooks. -/
theorem step_gates (event : Event) : (s.step event).map toInputGates = s.toInputGates.step event := by
  cases event with
  | wait gate aborted =>
    simp only [step, InputGates.step, apply_ite (Option.map toInputGates), Option.map_some, Option.map_none, call_gates]
  | abort w =>
    simp only [step, InputGates.step, apply_ite (Option.map toInputGates), Option.map_some, Option.map_none, abort_gates]
  | resume w =>
    simp only [step, InputGates.step, apply_ite (Option.map toInputGates), Option.map_some, Option.map_none, resume_gates]
  | addRef lock =>
    simp only [step, InputGates.step, apply_ite (Option.map toInputGates), Option.map_some, Option.map_none, addRef_gates]
  | release lock =>
    simp only [step, InputGates.step, apply_ite (Option.map toInputGates), Option.map_some, Option.map_none, release_gates]
  | startCriticalSection lock =>
    simp only [step, InputGates.step, apply_ite (Option.map toInputGates), Option.map_some, Option.map_none,
      startCriticalSection_gates]
  | succeeded c =>
    have same : (succeeded c s).2.toInputGates = (InputGates.succeeded c s.toInputGates).2 := by
      by_cases running : s.state c = .running
      · rw [s.succeeded_state running, InputGates.succeeded_state running]
        cases s.parentLock c with
        | none => rfl
        | some lock => rfl
      · rw [s.succeeded_refused running, InputGates.succeeded_refused running]
    simp only [step, InputGates.step, apply_ite (Option.map toInputGates), Option.map_some, Option.map_none, same]
  | failed c exception =>
    simp only [step, InputGates.step, apply_ite (Option.map toInputGates), Option.map_some, Option.map_none, failed_gates]
  | setBroken gate exception =>
    simp only [step, InputGates.step, apply_ite (Option.map toInputGates), Option.map_some, Option.map_none,
      setBroken_gates]
  | drop c =>
    have same : (drop c s).2.toInputGates = (InputGates.drop c s.toInputGates).2 := by
      rw [s.drop_state, InputGates.drop_state]
      cases s.parentLock c with
      | none => exact s.dropped_gates c
      | some lock =>
        dsimp only
        rw [release_gates, set_gates, dropped_gates]
    simp only [step, InputGates.step, apply_ite (Option.map toInputGates), Option.map_some, Option.map_none, same]

theorem step_projects {s t : HookedGates} {event : Event} (stepped : s.step event = some t) :
    s.toInputGates.step event = some t.toInputGates := by
  rw [← s.step_gates, stepped]
  rfl

end Projections

/-- `inputGateLocked` and `inputGateReleased` in turn. -/
def alternation (n : Nat) : List GateHookCall :=
  (List.range n).map fun i => if i % 2 = 0 then .inputGateLocked else .inputGateReleased

def lockCalls (calls : List GateHookCall) : List GateHookCall :=
  calls.filter fun call => call = .inputGateLocked ∨ call = .inputGateReleased

/-- The root is locked after a call of `inputGateLocked` and until the next one of `inputGateReleased`. -/
def Alternate (s : HookedGates) : Prop := ∃ n, lockCalls s.calls = alternation n ∧ (s.lockCount 0 ≠ 0 ↔ n % 2 = 1)

/-- The calls of the waiter hooks, and the waits that they leave out of account. -/
def surplus (s : HookedGates) : Int :=
  s.calls.count .inputGateWaiterAdded - s.calls.count .inputGateWaiterRemoved - s.pending

/-- The hooks balance. -/
structure Balanced (s : HookedGates) : Prop where
  alternate : s.Alternate
  waiters : s.calls.count .inputGateWaiterAdded = s.calls.count .inputGateWaiterRemoved + s.pending

/-- A step keeps the balance, or what is missing of it. -/
structure Balances (s t : HookedGates) : Prop where
  alternate : s.Alternate → t.Alternate
  surplus : t.surplus = s.surplus

section Balance

variable {s t u : HookedGates}

theorem Balances.refl (s : HookedGates) : Balances s s := ⟨id, rfl⟩

theorem Balances.trans (first : Balances s t) (second : Balances t u) : Balances s u :=
  ⟨fun alternate => second.alternate (first.alternate alternate), second.surplus.trans first.surplus⟩

theorem hook_other {gate : Nat} (other : gate ≠ 0) (call : GateHookCall) : s.hook gate call = s := if_neg other

theorem lockCalls_append (calls : List GateHookCall) (call : GateHookCall) :
    lockCalls (calls ++ [call]) = lockCalls calls ++ lockCalls [call] := List.filter_append ..

theorem alternation_succ (n : Nat) : alternation (n + 1) =
    alternation n ++ [if n % 2 = 0 then .inputGateLocked else .inputGateReleased] := by
  unfold alternation
  rw [List.range_succ, List.map_append]
  rfl

/-- Nothing that the hooks tell of differs. -/
theorem Balances.silent (calls : t.calls = s.calls) (locked : t.lockCount 0 ≠ 0 ↔ s.lockCount 0 ≠ 0)
    (pending : t.pending = s.pending) : Balances s t := by
  constructor
  · rintro ⟨n, alternating, held⟩
    exact ⟨n, calls ▸ alternating, locked.trans held⟩
  · unfold HookedGates.surplus
    rw [calls, pending]

/-- A step that the hooks do not tell of comes before one that keeps the balance. -/
theorem Balances.after (rest : Balances t u) (calls : t.calls = s.calls) (locked : t.lockCount 0 ≠ 0 ↔ s.lockCount 0 ≠ 0)
    (pending : t.pending = s.pending) : Balances s u := (Balances.silent calls locked pending).trans rest

theorem Balances.locked (calls : t.calls = s.calls ++ [.inputGateLocked]) (free : s.lockCount 0 = 0)
    (held : t.lockCount 0 ≠ 0) (pending : t.pending = s.pending) : Balances s t := by
  constructor
  · rintro ⟨n, alternating, locked⟩
    have even : n % 2 = 0 := by omega
    refine ⟨n + 1, ?_, by omega⟩
    rw [calls, lockCalls_append, alternating, alternation_succ, if_pos even]
    rfl
  · unfold HookedGates.surplus
    rw [calls, pending, List.count_append, List.count_append]
    rfl

theorem Balances.released (calls : t.calls = s.calls ++ [.inputGateReleased]) (held : s.lockCount 0 ≠ 0)
    (free : t.lockCount 0 = 0) (pending : t.pending = s.pending) : Balances s t := by
  constructor
  · rintro ⟨n, alternating, locked⟩
    have odd : n % 2 ≠ 0 := by omega
    refine ⟨n + 1, ?_, by omega⟩
    rw [calls, lockCalls_append, alternating, alternation_succ, if_neg odd]
    rfl
  · unfold HookedGates.surplus
    rw [calls, pending, List.count_append, List.count_append]
    rfl

theorem Balances.added (calls : t.calls = s.calls ++ [.inputGateWaiterAdded]) (count : t.lockCount 0 = s.lockCount 0)
    (pending : t.pending = s.pending + 1) : Balances s t := by
  constructor
  · rintro ⟨n, alternating, held⟩
    refine ⟨n, ?_, count ▸ held⟩
    rw [calls, lockCalls_append, alternating]
    exact List.append_nil _
  · have one : [GateHookCall.inputGateWaiterAdded].count .inputGateWaiterAdded = 1 := rfl
    have none : [GateHookCall.inputGateWaiterAdded].count .inputGateWaiterRemoved = 0 := rfl
    unfold HookedGates.surplus
    rw [calls, pending, List.count_append, List.count_append, one, none]
    omega

theorem Balances.removed (calls : t.calls = s.calls ++ [.inputGateWaiterRemoved]) (count : t.lockCount 0 = s.lockCount 0)
    (pending : s.pending = t.pending + 1) : Balances s t := by
  constructor
  · rintro ⟨n, alternating, held⟩
    refine ⟨n, ?_, count ▸ held⟩
    rw [calls, lockCalls_append, alternating]
    exact List.append_nil _
  · have none : [GateHookCall.inputGateWaiterRemoved].count .inputGateWaiterAdded = 0 := rfl
    have one : [GateHookCall.inputGateWaiterRemoved].count .inputGateWaiterRemoved = 1 := rfl
    unfold HookedGates.surplus
    rw [calls, pending, List.count_append, List.count_append, one, none]
    omega

theorem newLock_balances (s : HookedGates) (gate : Nat) (given : Bool) : Balances s (s.newLock gate given) := by
  unfold newLock
  generalize target : (if s.isReparented gate then s.parentAsInputGate gate else gate) = g
  have counts : (s.set (·.newLock gate given)).lockCount = Function.update s.lockCount g (s.lockCount g + 1) := by
    rw [set_gates, InputGates.newLock, target]
  dsimp only
  by_cases root : g = 0
  · subst root
    have more : (s.set (·.newLock gate given)).lockCount 0 = s.lockCount 0 + 1 := by rw [counts, Function.update_self]
    by_cases first : s.lockCount 0 = 0
    · rw [if_pos (by omega)]
      exact .locked rfl first (by rw [hook_gates]; omega) rfl
    · rw [if_neg (by omega)]
      exact .silent rfl (by omega) rfl
  · have same : (s.set (·.newLock gate given)).lockCount 0 = s.lockCount 0 := by
      rw [counts, Function.update_of_ne (Ne.symm root)]
    have silent : Balances s (s.set (·.newLock gate given)) := .silent rfl (by rw [same]) rfl
    split
    · rw [hook_other root]
      exact silent
    · exact silent

theorem settle_balances (s : HookedGates) (w : Nat) (status : WaitStatus) : Balances s (s.settle w status) :=
  .silent rfl .rfl rfl

/-- A wait that leaves its list. -/
theorem pending_unlink (queued : Queued s.toInputGates) {w g : Nat} {starts : Option Nat}
    (linked : s.wait w = .linked g starts) (status : WaitStatus) :
    s.pending = ((s.unlink w).settle w status).pending + if g = 0 then 1 else 0 := by
  unfold InputGates.unlink InputGates.pending
  rw [linked]
  by_cases root : g = 0
  · subst root
    rw [if_pos rfl]
    cases starts with
    | none =>
      have member := (queued.waiter 0 w).2 linked
      have positive := List.length_pos_of_mem member
      have one := List.length_erase_of_mem member
      simp only [InputGates.settle, Function.update_self]
      omega
    | some c =>
      have member := (queued.child 0 w).2 ⟨c, linked⟩
      have positive := List.length_pos_of_mem member
      have one := List.length_erase_of_mem member
      simp only [InputGates.settle, Function.update_self]
      omega
  · rw [if_neg root]
    cases starts <;> simp only [InputGates.settle, Function.update_of_ne (Ne.symm root), Nat.add_zero]

theorem unlink_balances (queued : Queued s.toInputGates) {w g : Nat} {starts : Option Nat}
    (linked : s.wait w = .linked g starts) (status : WaitStatus) :
    Balances s ((s.set fun s => (s.unlink w).settle w status).hook g .inputGateWaiterRemoved) := by
  have left := pending_unlink queued linked status
  have count := congrFun (InputGates.SameLocks.unlink s.toInputGates w status).lockCount 0
  by_cases root : g = 0
  · subst root
    rw [if_pos rfl] at left
    exact .removed rfl count left
  · rw [if_neg root, Nat.add_zero] at left
    rw [hook_other root]
    exact .silent rfl (iff_of_eq (congrArg (· ≠ 0) count)) left.symm

theorem fulfill_balances (queued : Queued s.toInputGates) (w lock : Nat) : Balances s (s.fulfill w lock) := by
  unfold fulfill
  cases status : s.wait w with
  | linked g starts =>
    cases starts with
    | none =>
      have gone : s.toInputGates.fulfill w lock = (s.unlink w).settle w (.resolved lock) := by
        rw [InputGates.fulfill, status]
      have balances := unlink_balances queued status (.resolved lock)
      rw [set, ← gone] at balances
      exact balances
    | some c =>
      have gone : s.toInputGates.fulfill w lock = (s.unlink w).settle w (.granted c lock) := by
        rw [InputGates.fulfill, status]
      have balances := unlink_balances queued status (.granted c lock)
      rw [set, ← gone] at balances
      exact balances
  | granted => exact .refl s
  | refused => exact .refl s
  | resolved => exact .refl s
  | rejected => exact .refl s

theorem reject_balances (queued : Queued s.toInputGates) (w : Nat) (exception : GateException) :
    Balances s (s.reject w exception) := by
  unfold reject
  cases status : s.wait w with
  | linked g starts =>
    cases starts with
    | none =>
      have gone : s.toInputGates.reject w exception = (s.unlink w).settle w (.rejected exception) := by
        rw [InputGates.reject, status]
      have balances := unlink_balances queued status (.rejected exception)
      rw [set, ← gone] at balances
      exact balances
    | some c =>
      have gone : s.toInputGates.reject w exception = (s.unlink w).settle w (.refused c exception) := by
        rw [InputGates.reject, status]
      have balances := unlink_balances queued status (.refused c exception)
      rw [set, ← gone] at balances
      exact balances
  | granted => exact .refl s
  | refused => exact .refl s
  | resolved => exact .refl s
  | rejected => exact .refl s

theorem newWaiterPromise_balances (s : HookedGates) (gate : Nat) (starts : Option Nat) (w : Nat) :
    Balances s (s.newWaiterPromise gate starts w) := by
  unfold newWaiterPromise
  have count := congrFun (InputGates.SameLocks.join s.toInputGates gate starts w).lockCount 0
  by_cases root : gate = 0
  · subst root
    refine .added rfl count ?_
    rw [set_gates, hook_gates]
    unfold InputGates.newWaiterPromise InputGates.pending
    cases starts with
    | none =>
      simp only [InputGates.settle, Function.update_self, List.length_append, List.length_singleton]
      omega
    | some c =>
      simp only [InputGates.settle, Function.update_self, List.length_append, List.length_singleton]
      omega
  · rw [hook_other root]
    refine .silent rfl (iff_of_eq (congrArg (· ≠ 0) count)) ?_
    rw [set_gates]
    unfold InputGates.newWaiterPromise InputGates.pending
    cases starts <;> simp only [InputGates.settle, Function.update_of_ne (Ne.symm root)]

theorem queued_reject (queued : Queued s.toInputGates) (w : Nat) (exception : GateException) :
    Queued (s.reject w exception).toInputGates := by
  rw [reject_gates]
  unfold InputGates.reject
  cases status : s.wait w with
  | linked g starts =>
    have made := queued.made ⟨g, starts, status⟩
    cases starts with
    | none => exact queued.leave (InputGates.not_linked fun _ _ => WaitStatus.noConfusion) made
    | some c => exact queued.leave (InputGates.not_linked fun _ _ => WaitStatus.noConfusion) made
  | granted => exact queued
  | refused => exact queued
  | resolved => exact queued
  | rejected => exact queued

theorem rejects_balances (exception : GateException) (ws : List Nat) (queued : Queued s.toInputGates) :
    Balances s (ws.foldl (fun s w => s.reject w exception) s) ∧
      Queued (ws.foldl (fun s w => s.reject w exception) s).toInputGates := by
  induction ws generalizing s with
  | nil => exact ⟨.refl s, queued⟩
  | cons w rest ih =>
    obtain ⟨balances, still⟩ := ih (queued_reject queued w exception)
    exact ⟨(reject_balances queued w exception).trans balances, still⟩

theorem setBroken_balances (queued : Queued s.toInputGates) (gate : Nat) (exception : GateException) :
    Balances s (s.setBroken gate exception) ∧ Queued (s.setBroken gate exception).toInputGates := by
  unfold setBroken
  dsimp only
  obtain ⟨first, still⟩ := rejects_balances exception (s.waitingChildren gate) queued
  obtain ⟨second, last⟩ := rejects_balances exception _ still
  exact ⟨(first.trans second).trans (.silent rfl .rfl rfl), { last with }⟩

theorem failed_balances (queued : Queued s.toInputGates) (fuel c : Nat) (exception : GateException) :
    Balances s (s.failed fuel c exception) ∧ Queued (s.failed fuel c exception).toInputGates := by
  induction fuel generalizing s c with
  | zero =>
    unfold failed
    dsimp only
    obtain ⟨first, still⟩ := setBroken_balances queued c exception
    obtain ⟨second, last⟩ := setBroken_balances still 0 exception
    split
    · exact ⟨.refl s, queued⟩
    · split
      · exact ⟨first.trans second, last⟩
      · exact ⟨first, still⟩
  | succ fuel ih =>
    unfold failed
    dsimp only
    obtain ⟨first, still⟩ := setBroken_balances queued c exception
    obtain ⟨second, last⟩ := setBroken_balances still 0 exception
    obtain ⟨up, end_⟩ := ih still ((s.setBroken c exception).parent c)
    split
    · exact ⟨.refl s, queued⟩
    · split
      · exact ⟨first.trans second, last⟩
      · exact ⟨first.trans up, end_⟩

theorem gateWait_balances (s : HookedGates) (gate w : Nat) (aborted : Bool) : Balances s (s.gateWait gate w aborted) := by
  unfold gateWait
  cases aborted with
  | true => exact settle_balances s w _
  | false =>
    rw [if_neg Bool.false_ne_true]
    cases s.brokenState gate with
    | some exception => exact settle_balances s w _
    | none =>
      dsimp only
      by_cases free : s.lockCount gate = 0
      · rw [if_pos free]
        exact (newLock_balances s gate true).trans (settle_balances _ w _)
      · rw [if_neg free]
        exact newWaiterPromise_balances s gate none w

theorem enter_balances (s : HookedGates) (c lock w : Nat) (aborted : Bool) : Balances s (s.enter c lock w aborted) :=
  (gateWait_balances _ c w aborted).after rfl .rfl rfl

theorem begin_balances (queued : Queued s.toInputGates) (c w : Nat) : Balances s (s.begin c w) := by
  unfold begin
  dsimp only
  cases s.brokenState (s.parentAsInputGate c) with
  | some exception => exact (setBroken_balances queued c exception).1.trans (settle_balances _ w _)
  | none =>
    dsimp only
    by_cases free : s.lockCount (s.parentAsInputGate c) = 0
    · rw [if_pos free]
      exact (newLock_balances s _ false).trans (enter_balances _ c s.locks w false)
    · rw [if_neg free]
      exact newWaiterPromise_balances s _ (some c) w

theorem start_balances (queued : Queued s.toInputGates) (c w : Nat) : Balances s (s.start c w) := by
  have same : Queued (s.set (·.withState c .initialWait)).toInputGates := { queued with }
  rw [start_eq]
  exact (begin_balances same c w).after rfl .rfl rfl

theorem waitOn_balances (queued : Queued s.toInputGates) (fuel gate w : Nat) (aborted : Bool) :
    Balances s (s.waitOn fuel gate w aborted) := by
  induction fuel generalizing gate with
  | zero =>
    unfold waitOn
    split
    · exact gateWait_balances s 0 w aborted
    · split
      · exact settle_balances s w _
      · cases s.state gate with
        | notStarted => exact start_balances queued gate w
        | initialWait => exact settle_balances s w _
        | running => exact gateWait_balances s gate w aborted
        | reparented => exact .refl s
  | succ fuel ih =>
    unfold waitOn
    split
    · exact gateWait_balances s 0 w aborted
    · split
      · exact settle_balances s w _
      · cases s.state gate with
        | notStarted => exact start_balances queued gate w
        | initialWait => exact settle_balances s w _
        | running => exact gateWait_balances s gate w aborted
        | reparented => exact ih (s.parent gate)

theorem call_balances (accounted : Accounted s.toInputGates) (gate : Nat) (aborted : Bool) :
    Balances s (s.call gate aborted) := by
  unfold call
  dsimp only
  refine (waitOn_balances ?_ gate gate s.waits aborted).after rfl .rfl rfl
  obtain ⟨waiter, child, waitersNodup, childrenNodup, later⟩ := accounted.queued
  refine ⟨waiter, child, waitersNodup, childrenNodup, fun w beyond => later w ?_⟩
  exact Nat.le_of_succ_le beyond

theorem resume_balances (queued : Queued s.toInputGates) (w : Nat) : Balances s (s.resume w) := by
  unfold resume
  cases s.wait w with
  | granted c lock => exact enter_balances s c lock w (s.aborted w)
  | refused c exception =>
    cases exception with
    | canceled => exact settle_balances s w _
    | error message =>
      have same : Queued (s.set fun s => { s with state := Function.update s.state c .running }).toInputGates :=
        { queued with }
      exact ((setBroken_balances same c (.error message)).1.trans (settle_balances _ w _)).after rfl .rfl rfl
  | linked => exact .refl s
  | resolved => exact .refl s
  | rejected => exact .refl s

theorem abort_balances (queued : Queued s.toInputGates) (w : Nat) : Balances s (s.abort w) := by
  have same : Queued (s.set fun s => { s with aborted := Function.update s.aborted w true }).toInputGates :=
    { queued with }
  exact (reject_balances same w .canceled).after rfl .rfl rfl

theorem grantNext_balances (queued : Queued s.toInputGates) (gate : Nat) : Balances s (s.grantNext gate) := by
  have locked : ∀ given, Queued (s.newLock gate given).toInputGates := by
    intro given
    rw [newLock_gates]
    exact { queued with }
  unfold grantNext
  cases s.waitingChildren gate with
  | cons child rest => exact (newLock_balances s gate false).trans (fulfill_balances (locked false) child s.locks)
  | nil =>
    cases s.waiters gate with
    | cons waiter rest => exact (newLock_balances s gate true).trans (fulfill_balances (locked true) waiter s.locks)
    | nil => exact .refl s

theorem letGo_balances (queued : Queued s.toInputGates) {gate : Nat} (busy : s.lockCount gate ≠ 0) :
    Balances s (s.letGo gate) := by
  have queued' : Queued ((s.set (·.uncounted gate)).hook gate .inputGateReleased).toInputGates := by
    rw [hook_gates]
    exact { queued with }
  unfold letGo
  by_cases root : gate = 0
  · subst root
    by_cases last : (s.uncounted 0).lockCount 0 = 0
    · have released : Balances s ((s.set (·.uncounted 0)).hook 0 .inputGateReleased) := .released rfl busy last rfl
      rw [if_pos last]
      exact released.trans (grantNext_balances queued' 0)
    · rw [if_neg last]
      exact .silent rfl (iff_of_true last busy) rfl
  · have same : (s.uncounted gate).lockCount 0 = s.lockCount 0 := Function.update_of_ne (Ne.symm root) ..
    have silent : Balances s (s.set (·.uncounted gate)) := .silent rfl (iff_of_eq (congrArg (· ≠ 0) same)) rfl
    split
    · refine silent.trans ?_
      rw [hook_other root] at queued' ⊢
      exact grantNext_balances queued' gate
    · exact silent

theorem releaseOpen_balances (queued : Queued s.toInputGates) (gate : Nat) : Balances s (releaseOpen gate s).2 := by
  by_cases busy : s.lockCount gate = 0
  · have refused : (releaseOpen gate s).2 = s := by
      unfold releaseOpen
      rw [state_bind, if_pos busy, raise_run]
    rw [refused]
    exact .refl s
  · rw [s.releaseOpen_run busy]
    exact letGo_balances queued busy

theorem release_balances (queued : Queued s.toInputGates) (lock : Nat) : Balances s (release lock s).2 := by
  unfold release
  rw [state_bind]
  cases s.gateOf lock with
  | none => exact .refl s
  | some gate =>
    dsimp only
    rw [update_bind]
    have same : Queued (s.set (·.without lock)).toInputGates := { queued with }
    have released : Balances (s.set (·.without lock)) (releaseLock gate (s.set (·.without lock))).2 := by
      unfold releaseLock
      rw [state_bind]
      split
      · split
        · exact .refl _
        · exact releaseOpen_balances same _
      · exact releaseOpen_balances same gate
    exact released.after rfl .rfl rfl

/-- The waits that a section hands over to the root when it is done. -/
def movedToRoot (s : HookedGates) (c : Nat) : Nat :=
  if s.parentAsInputGate c = 0 then (s.waiters c).length + (s.waitingChildren c).length else 0

theorem reparent_pending (s : HookedGates) {c : Nat} (section_ : 0 < c) :
    (s.toInputGates.reparent c).pending = s.pending + s.movedToRoot c := by
  have apart : (0 : Nat) ≠ c := Nat.ne_of_lt section_
  unfold InputGates.reparent InputGates.pending movedToRoot
  dsimp only
  rw [Function.update_of_ne apart, Function.update_of_ne apart]
  by_cases root : s.parentAsInputGate c = 0
  · rw [root, if_pos rfl, Function.update_self, Function.update_self, List.length_append, List.length_append]
    omega
  · rw [if_neg root, Function.update_of_ne (Ne.symm root), Function.update_of_ne (Ne.symm root)]
    rfl

theorem reparent_lockCount (s : HookedGates) {c : Nat} (section_ : 0 < c) : (s.toInputGates.reparent c).lockCount 0 =
    s.lockCount 0 + if s.parentAsInputGate c = 0 then s.lockCount c else 0 := by
  unfold InputGates.reparent
  dsimp only
  rw [Function.update_of_ne (Nat.ne_of_lt section_)]
  by_cases root : s.parentAsInputGate c = 0
  · rw [root, if_pos rfl, Function.update_self]
  · rw [if_neg root, Function.update_of_ne (Ne.symm root)]
    rfl

/-- A section that is done hands over to the root no wait, and no lock where the root has none. -/
def HandsOverNothing (s : HookedGates) : Event → Prop
  | .succeeded c => 0 < c → c < s.gates → s.state c = .running → s.parentAsInputGate c = 0 →
      s.waiters c = [] ∧ s.waitingChildren c = [] ∧ (s.lockCount 0 = 0 → s.lockCount c = 0)
  | _ => True

/-- A section that is done, hooks aside. -/
theorem succeeded_cases {c : Nat} (running : s.state c = .running) : (succeeded c s).2.calls = s.calls ∧
    (succeeded c s).2.lockCount = (s.toInputGates.reparent c).lockCount ∧
    (succeeded c s).2.pending = (s.toInputGates.reparent c).pending := by
  rw [s.succeeded_state running]
  cases s.parentLock c with
  | none => exact ⟨rfl, rfl, rfl⟩
  | some lock => exact ⟨rfl, rfl, rfl⟩

theorem succeeded_balanced_iff {c : Nat} (balanced : s.Balanced) (section_ : 0 < c) (known : c < s.gates) :
    (succeeded c s).2.Balanced ↔ s.HandsOverNothing (.succeeded c) := by
  by_cases running : s.state c = .running
  · obtain ⟨calls, count, pending⟩ := succeeded_cases running
    have locks := s.reparent_lockCount section_
    have waits := s.reparent_pending section_
    rw [← count] at locks
    rw [← pending] at waits
    obtain ⟨n, alternating, held⟩ := balanced.alternate
    constructor
    · intro after _ _ _ root
      have same := after.waiters
      rw [calls, waits, movedToRoot, if_pos root] at same
      have none_moved : (s.waiters c).length + (s.waitingChildren c).length = 0 := by
        have before := balanced.waiters
        omega
      refine ⟨List.eq_nil_of_length_eq_zero (by omega), List.eq_nil_of_length_eq_zero (by omega), fun free => ?_⟩
      obtain ⟨m, again, still⟩ := after.alternate
      rw [calls, alternating] at again
      have length := congrArg List.length again
      unfold alternation at length
      rw [List.length_map, List.length_map, List.length_range, List.length_range] at length
      rw [if_pos root] at locks
      omega
    · intro nothing
      by_cases root : s.parentAsInputGate c = 0
      · obtain ⟨none_waits, no_child, free⟩ := nothing section_ known running root
        rw [movedToRoot, if_pos root, none_waits, no_child] at waits
        rw [if_pos root] at locks
        refine ⟨⟨n, ?_, by omega⟩, ?_⟩
        · rw [calls]
          exact alternating
        · rw [calls, waits]
          exact balanced.waiters
      · rw [movedToRoot, if_neg root] at waits
        rw [if_neg root] at locks
        refine ⟨⟨n, ?_, by omega⟩, ?_⟩
        · rw [calls]
          exact alternating
        · rw [calls, waits]
          exact balanced.waiters
  · rw [s.succeeded_refused running]
    exact iff_of_true balanced fun _ _ goes => absurd goes running

theorem Balances.balanced (balances : Balances s t) (balanced : s.Balanced) : t.Balanced := by
  have same := balances.surplus
  have waiters := balanced.waiters
  unfold HookedGates.surplus at same
  exact ⟨balances.alternate balanced.alternate, by omega⟩

/-- Every step but that of a section that is done keeps the balance. -/
theorem step_balances {event : Event} (accounted : Accounted s.toInputGates) (other : ∀ c, event ≠ .succeeded c)
    (stepped : s.step event = some t) : Balances s t := by
  have queued := accounted.queued
  cases event <;> simp only [step, Option.ite_none_right_eq_some, Option.some.injEq] at stepped <;>
    obtain ⟨admitted, rfl⟩ := stepped
  case wait gate aborted => exact call_balances accounted gate aborted
  case abort w => exact abort_balances queued w
  case resume w => exact resume_balances queued w
  case addRef lock =>
    unfold addRef
    rw [state_bind]
    cases s.gateOf lock with
    | none => exact .refl s
    | some gate => exact newLock_balances s gate true
  case release lock => exact release_balances queued lock
  case startCriticalSection lock =>
    unfold startCriticalSection
    rw [state_bind]
    cases s.gateOf lock with
    | none => exact .refl s
    | some gate => exact .silent rfl .rfl rfl
  case succeeded c => exact absurd rfl (other c)
  case failed c exception => exact (failed_balances queued c c exception).1
  case setBroken gate exception => exact (setBroken_balances queued gate exception).1
  case drop c =>
    have done : Balances s (s.dropped c) ∧ Queued (s.dropped c).toInputGates := by
      unfold dropped
      split
      · exact failed_balances queued c c _
      · exact ⟨.refl s, queued⟩
    rw [s.drop_state]
    cases s.parentLock c with
    | none => exact done.1
    | some lock =>
      have disowned : Queued ((s.dropped c).set (·.disown c)).toInputGates := { done.2 with }
      exact done.1.trans ((release_balances disowned lock).after rfl .rfl rfl)

/-- A step keeps the balance exactly when it hands nothing over to the root. -/
theorem step_balanced_iff {event : Event} (accounted : Accounted s.toInputGates) (balanced : s.Balanced)
    (stepped : s.step event = some t) : t.Balanced ↔ s.HandsOverNothing event := by
  by_cases done : ∃ c, event = .succeeded c
  · obtain ⟨c, rfl⟩ := done
    obtain ⟨⟨section_, known⟩, same⟩ := Option.ite_none_right_eq_some.1 stepped
    rw [← Option.some.inj same]
    exact succeeded_balanced_iff balanced section_ known
  · have other : ∀ c, event ≠ .succeeded c := fun c same => done ⟨c, same⟩
    refine iff_of_true ((step_balances accounted other stepped).balanced balanced) ?_
    cases event with
    | succeeded c => exact absurd rfl (other c)
    | _ => trivial

/-- The lock of a section in its parent keeps the parent locked. -/
theorem parent_locked (sound : Sound s.toInputGates) (exclusive : InputGates.Exclusive s.toInputGates) {c l : Nat}
    (has : s.parentLock c = some l) : s.lockCount (s.parentAsInputGate c) ≠ 0 := by
  have mine : s.lockOf (.inl c) = some (c, l) := by simp [InputGates.lockOf, has]
  obtain ⟨h, held, forwards⟩ := exclusive.target _ c l mine
  rw [← forwards]
  exact sound.accounted.locked held

theorem succeeded_alternate {c : Nat} (section_ : 0 < c) (locked : s.state c = .running →
    s.lockCount (s.parentAsInputGate c) ≠ 0) (alternate : s.Alternate) : (succeeded c s).2.Alternate := by
  by_cases running : s.state c = .running
  · obtain ⟨calls, count, -⟩ := succeeded_cases running
    have locks := s.reparent_lockCount section_
    rw [← count] at locks
    obtain ⟨n, alternating, held⟩ := alternate
    refine ⟨n, calls ▸ alternating, ?_⟩
    by_cases root : s.parentAsInputGate c = 0
    · have busy := locked running
      rw [root] at busy
      rw [if_pos root] at locks
      omega
    · rw [if_neg root] at locks
      omega
  · rw [s.succeeded_refused running]
    exact alternate

end Balance

theorem opened_balanced : opened.Balanced := ⟨⟨0, rfl, by decide⟩, rfl⟩

theorem run_balanced_iff {s : HookedGates} (sound : Sound s.toInputGates) (balanced : s.Balanced) (events : List Event) :
    (∀ before t, before <+: events → run step s before = some t → t.Balanced) ↔
      Admitted step HandsOverNothing s events := by
  induction events generalizing s with
  | nil =>
    refine iff_of_true ?_ trivial
    intro before t started ran
    obtain rfl := List.prefix_nil.1 started
    exact Option.some.inj ran ▸ balanced
  | cons event rest ih =>
    have sound_step : ∀ t, s.step event = some t → Sound t.toInputGates :=
      fun t stepped => InputGates.step_sound sound (step_projects stepped)
    constructor
    · intro all
      have after : ∀ t, s.step event = some t → t.Balanced := by
        intro t stepped
        refine all [event] t ⟨rest, rfl⟩ ?_
        rw [run, stepped]
        rfl
      constructor
      · cases stepped : s.step event with
        | none =>
          cases event with
          | succeeded c =>
            intro section_ known
            simp only [step, section_, known, and_self, if_true] at stepped
            cases stepped
          | _ => trivial
        | some t => exact (step_balanced_iff sound.accounted balanced stepped).1 (after t stepped)
      · intro t stepped
        refine (ih (sound_step t stepped) (after t stepped)).1 fun before u started ran => ?_
        refine all (event :: before) u (List.cons_prefix_cons.2 ⟨rfl, started⟩) ?_
        rw [run, stepped]
        exact ran
    · rintro ⟨nothing, later⟩ before t started ran
      cases before with
      | nil => exact Option.some.inj ran ▸ balanced
      | cons first before =>
        obtain ⟨rfl, begun⟩ := List.cons_prefix_cons.1 started
        obtain ⟨u, stepped, ran⟩ := Option.bind_eq_some_iff.1 ran
        have kept := (step_balanced_iff sound.accounted balanced stepped).2 nothing
        exact (ih (sound_step u stepped) kept).2 (later u stepped) before t begun ran

/-- The lock hooks alternate in every run in which `succeeded` finds no running section without its
    parent's lock. -/
theorem lock_hooks_alternate {s : HookedGates}
    (reached : Reaches step (fun s event => InputGates.Orderly s.toInputGates event) opened s) : s.Alternate := by
  have kept := reached.invariant
    (P := fun s => Sound s.toInputGates ∧ InputGates.Exclusive s.toInputGates ∧ s.Alternate)
    ⟨InputGates.opened_sound, InputGates.opened_exclusive, opened_balanced.alternate⟩
  refine (kept fun s event t ⟨sound, exclusive, alternate⟩ orderly stepped => ?_).2.2
  have gates := step_projects stepped
  refine ⟨InputGates.step_sound sound gates, InputGates.step_exclusive sound exclusive orderly gates, ?_⟩
  by_cases done : ∃ c, event = .succeeded c
  · obtain ⟨c, rfl⟩ := done
    obtain ⟨⟨section_, -⟩, same⟩ := Option.ite_none_right_eq_some.1 stepped
    rw [← Option.some.inj same]
    refine succeeded_alternate section_ (fun running => ?_) alternate
    obtain ⟨l, has⟩ := Option.ne_none_iff_exists'.1 (orderly running)
    exact parent_locked sound exclusive has
  · exact (step_balances sound.accounted (fun c same => done ⟨c, same⟩) stepped).alternate alternate

/-- The root goes from an event to a section. -/
theorem lock_hooks_alternate_section : ∃ s, Reaches step (fun s event => InputGates.Orderly s.toInputGates event) opened s ∧
    s.lockCount 0 = 1 ∧ s.Alternate := by
  have ran : (Transition.run step opened [.wait 0 false, .startCriticalSection 0, .wait 1 false, .release 0,
      .resume 1]).map (fun s => (s.lockCount 0, s.state 1, s.parentLock 1)) = some (1, .running, some 1) := by
    decide +kernel
  obtain ⟨s, ran, fields⟩ := Option.map_eq_some_iff.1 ran
  obtain ⟨count, _⟩ := Prod.mk.inj fields
  have reached : Reaches step (fun s event => InputGates.Orderly s.toInputGates event) opened s :=
    run_reaches_admitted _ (by
      intro u event among
      simp only [List.mem_cons, List.not_mem_nil, or_false] at among
      rcases among with rfl | rfl | rfl | rfl | rfl <;> trivial) ran
  exact ⟨s, reached, count, lock_hooks_alternate reached⟩

/-- In every run the hooks of the root balance at every moment exactly as long as no section that is
    done hands over to it a wait, or a lock where it has none. -/
theorem hooks_balance_iff (events : List Event) :
    (∀ before s, before <+: events → run step opened before = some s → s.Balanced) ↔
      Admitted step HandsOverNothing opened events :=
  run_balanced_iff InputGates.opened_sound opened_balanced events

/-- A wait of a section that is done before the wait is granted. -/
theorem moved_wait_unbalanced : ¬ ∀ events before s, before <+: events → run step opened before = some s →
    s.Balanced := by
  intro all
  have balanced := all
    [.wait 0 false, .startCriticalSection 0, .wait 1 false, .release 0, .resume 1, .wait 1 false, .succeeded 1] _ _
    (List.prefix_refl _) rfl
  have counts := balanced.waiters
  revert counts
  decide

end HookedGates

end DoRuntime.Io
