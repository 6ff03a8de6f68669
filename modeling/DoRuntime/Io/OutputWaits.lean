import DoRuntime.Io.OutputGate
import DoRuntime.Lib.Transition

namespace DoRuntime.Io

open Transition

inductive HookCall
  | outputGateLocked (lock : Nat)
  | outputGateReleased (lock : Nat)
  | outputGateWaiterAdded (wait : Nat)
  | outputGateWaiterRemoved (wait : Nat)
deriving DecidableEq

inductive BrokenState
  | none
  | fulfiller
  | exception (exception : String)

/-- One call of `lockWhile`. -/
structure OutputLock where
  signal : Option Nat
  /-- The listener on the signal is installed. -/
  listening : Bool
  /-- The race of the promise with the timeout. -/
  raced : Settlement
  /-- The callback of the race has run. -/
  completed : Bool
  /-- The promise of the fulfiller; it is waiting while this is pending. -/
  promise : Settlement
  returned : Settlement

/-- An `OutputGate` with every promise that it made. -/
structure GateState where
  lock : Nat → OutputLock
  locks : Nat
  /-- The values of `#pastLocksPromise`, by the number of locks taken. -/
  past : Nat → Settlement
  wait : Nat → Settlement
  /-- The `#pastLocksPromise` that a wait is chained to. -/
  bound : Nat → Nat
  waits : Nat
  brokenState : BrokenState
  brokenPromise : Option Settlement
  aborted : Nat → Bool
  hooks : List HookCall

inductive GateEvent
  | lockWhile (signal : Option Nat)
  | wait
  | onBroken
  | abort (signal : Nat)
  /-- The promise of a lock settles, or its timeout does. -/
  | settle (lock : Nat) (outcome : Settlement)
  /-- The callback of the race runs. -/
  | complete (lock : Nat)
  /-- The callback of `allSettled` runs. -/
  | join (lock : Nat)
  /-- The callback of a wait runs. -/
  | resume (wait : Nat)

namespace OutputGate

inductive Operation
  | lockWhile
  | settleLock (lock : Nat) (outcome : Settlement)
  | beginWait
  | settleWait (wait : Nat)

def operate (g : OutputGate) : Operation → Option OutputGate
  | .lockWhile => some g.lockWhile
  | .settleLock lock outcome => some (g.settleLock lock outcome)
  | .beginWait => some g.beginWait
  | .settleWait wait => some (g.settleWait wait)

/-- What a wait is for does not change, nor does its outcome once it has one. -/
structure KeepsWait (w : Nat) (g g' : OutputGate) : Prop where
  made : g.waits ≤ g'.waits
  bound : g'.bound w = g.bound w
  wait : g.wait w ≠ .pending → g'.wait w = g.wait w

theorem operate_keepsWait {g g' : OutputGate} {w : Nat} (made : w < g.waits) (op : Operation)
    (operated : g.operate op = some g') : KeepsWait w g g' := by
  cases op with
  | lockWhile =>
    cases operated
    exact ⟨le_rfl, rfl, fun _ => rfl⟩
  | settleLock lock outcome =>
    cases operated
    obtain ⟨waits, wait, bound, -⟩ := settleLock_same g lock outcome
    exact ⟨waits.ge, congrFun bound w, fun _ => congrFun wait w⟩
  | beginWait =>
    cases operated
    have old : w ≠ g.waits := Nat.ne_of_lt made
    exact ⟨Nat.le_succ _, Function.update_of_ne old .., fun _ => Function.update_of_ne old ..⟩
  | settleWait wait =>
    cases operated
    obtain ⟨waits, -, bound, -⟩ := settleWait_same g wait
    refine ⟨waits.ge, congrFun bound w, fun settled => ?_⟩
    unfold settleWait
    split
    case isTrue unsettled =>
      have other : w ≠ wait := by
        rintro rfl
        exact settled unsettled.2
      exact Function.update_of_ne other ..
    case isFalse => rfl

theorem reaches_keepsWait {g g' : OutputGate} {w : Nat} (made : w < g.waits)
    (reached : Reaches operate (fun _ _ => True) g g') : KeepsWait w g g' := by
  apply reached.invariant ⟨le_rfl, rfl, fun _ => rfl⟩
  intro h op h' kept _ operated
  have next := operate_keepsWait (made.trans_le kept.made) op operated
  refine ⟨kept.made.trans next.made, next.bound.trans kept.bound, fun settled => ?_⟩
  have same := kept.wait settled
  rw [← same] at settled ⊢
  exact next.wait settled

end OutputGate

namespace GateState

def unfulfilled : String := "output lock was canceled before completion"

def firstRejected : List Settlement → Settlement
  | [] => .fulfilled
  | .rejected exception :: _ => .rejected exception
  | _ :: rest => firstRejected rest

def opened : GateState where
  lock := fun _ => ⟨none, false, .pending, false, .pending, .pending⟩
  locks := 0
  past := fun n => if n = 0 then .fulfilled else .pending
  wait := fun _ => .pending
  bound := fun _ => 0
  waits := 0
  brokenState := .none
  brokenPromise := none
  aborted := fun _ => false
  hooks := []

section Operations

variable (s : GateState)

def setLock (l : Nat) (lock : OutputLock) : GateState := { s with lock := Function.update s.lock l lock }

def call (hook : HookCall) : GateState := { s with hooks := s.hooks ++ [hook] }

def setBroken (exception : String) : GateState :=
  { s with
    brokenState := .exception exception
    brokenPromise :=
      match s.brokenState with
      | .fulfiller => some (.rejected exception)
      | .none | .exception _ => s.brokenPromise }

/-- The fulfiller of a lock, its release and the promise it returned take an outcome together. -/
def release (l : Nat) (outcome : Settlement) : GateState :=
  let settled := s.setLock l { s.lock l with promise := outcome, returned := outcome }
  (match outcome with
    | .rejected exception => settled.setBroken exception
    | .pending | .fulfilled => settled).call (.outputGateReleased l)

/-- The listener of `lockWhile`. -/
def cancel (l : Nat) : GateState :=
  let fired := s.setLock l { s.lock l with listening := false }
  if (s.lock l).promise = .pending then fired.release l (.rejected unfulfilled) else fired

def lockWhile (signal : Option Nat) : GateState :=
  let taken := { s.setLock s.locks ⟨signal, false, .pending, false, .pending, .pending⟩ with
    locks := s.locks + 1
    past := Function.update s.past (s.locks + 1) .pending }
  let locked := taken.call (.outputGateLocked s.locks)
  match signal with
  | none => locked
  | some signal =>
    if s.aborted signal then locked.cancel s.locks
    else locked.setLock s.locks { locked.lock s.locks with listening := true }

def hears (signal l : Nat) : Bool := (s.lock l).listening && (s.lock l).signal == some signal

def abort (signal : Nat) : GateState :=
  if s.aborted signal then s
  else
    ((List.range s.locks).filter (s.hears signal)).foldl cancel
      { s with aborted := Function.update s.aborted signal true }

def onBroken : GateState :=
  match s.brokenState, s.brokenPromise with
  | .exception _, _ => s
  | _, some _ => s
  | _, none => { s with brokenState := .fulfiller, brokenPromise := some .pending }

def complete (l : Nat) : GateState :=
  let done := s.setLock l { s.lock l with completed := true, listening := false }
  if (s.lock l).promise = .pending then done.release l (s.lock l).raced else done

def step : GateEvent → Option GateState
  | .lockWhile signal => some (s.lockWhile signal)
  | .wait =>
    some { s.call (.outputGateWaiterAdded s.waits) with
      wait := Function.update s.wait s.waits .pending
      bound := Function.update s.bound s.waits s.locks
      waits := s.waits + 1 }
  | .onBroken => some s.onBroken
  | .abort signal => some (s.abort signal)
  | .settle l outcome =>
    if l < s.locks ∧ (s.lock l).raced = .pending ∧ outcome ≠ .pending then
      some (s.setLock l { s.lock l with raced := outcome })
    else none
  | .complete l =>
    if l < s.locks ∧ (s.lock l).raced ≠ .pending ∧ (s.lock l).completed = false then some (s.complete l) else none
  | .join l =>
    if l < s.locks ∧ s.past l ≠ .pending ∧ (s.lock l).promise ≠ .pending ∧ s.past (l + 1) = .pending then
      some { s with past := Function.update s.past (l + 1) (firstRejected [s.past l, (s.lock l).promise]) }
    else none
  | .resume w =>
    if w < s.waits ∧ s.wait w = .pending ∧ s.past (s.bound w) ≠ .pending then
      some { s.call (.outputGateWaiterRemoved w) with
        wait := Function.update s.wait w (s.past (s.bound w)) }
    else none

/-- What the gate is as an `OutputGate`. -/
def view : OutputGate where
  lock l := (s.lock l).promise
  locks := s.locks
  wait := s.wait
  bound := s.bound
  waits := s.waits

end Operations

/-- The calls made to the hooks for one lock. -/
structure Called (hooks : List HookCall) (l : Nat) (taken : Prop) [Decidable taken] (promise : Settlement) : Prop where
  locked : hooks.count (.outputGateLocked l) = if taken then 1 else 0
  released : hooks.count (.outputGateReleased l) = if promise = .pending then 0 else 1
  order : promise ≠ .pending → [.outputGateLocked l, .outputGateReleased l].Sublist hooks

structure Lawful (s : GateState) : Prop where
  origin : s.past 0 = .fulfilled
  past : ∀ n, n ≤ s.locks → s.past n ≠ .pending → s.past n = s.view.pastLocks n
  bound : ∀ w, w < s.waits → s.bound w ≤ s.locks
  wait : ∀ w, w < s.waits → s.wait w ≠ .pending → s.wait w = s.view.pastLocks (s.bound w)
  fresh : ∀ l, s.locks ≤ l → (s.lock l).promise = .pending
  called : ∀ l, Called s.hooks l (l < s.locks) (s.lock l).promise
  completed : ∀ l, (s.lock l).completed = true → (s.lock l).promise ≠ .pending

section Invariant

variable {s t : GateState} {l : Nat}

theorem opened_lawful : Lawful opened := by
  constructor
  · rfl
  · intro n within settled
    obtain rfl : n = 0 := Nat.le_zero.1 within
    rfl
  · intro w made
    exact absurd made (Nat.not_lt_zero w)
  · intro w made
    exact absurd made (Nat.not_lt_zero w)
  · intro l _
    rfl
  · intro l
    refine ⟨?_, rfl, fun settled => absurd rfl settled⟩
    show 0 = if l < 0 then 1 else 0
    rw [if_neg (Nat.not_lt_zero l)]
  · intro l completed
    cases completed

theorem setLock_lock (s : GateState) (l : Nat) (lock : OutputLock) :
    (s.setLock l lock).lock = Function.update s.lock l lock := rfl

theorem promise_setLock (s : GateState) (l k : Nat) (lock : OutputLock) :
    ((s.setLock l lock).lock k).promise = if k = l then lock.promise else (s.lock k).promise := by
  rw [setLock_lock, Function.update_apply]
  split <;> rfl

theorem view_setLock (s : GateState) (lock : OutputLock) (same : lock.promise = (s.lock l).promise) :
    (s.setLock l lock).view = s.view := by
  have locks : (s.setLock l lock).view.lock = s.view.lock := by
    funext k
    show ((s.setLock l lock).lock k).promise = (s.lock k).promise
    rw [promise_setLock]
    split
    case isTrue here => rw [same, here]
    case isFalse => rfl
  exact congrArg (fun lock => { s.view with lock }) locks

/-- A lock's other fields may change as they like, but it is completed only once it has settled. -/
theorem Lawful.setLock (lawful : Lawful s) (lock : OutputLock) (same : lock.promise = (s.lock l).promise)
    (completed : lock.completed = true → lock.promise ≠ .pending) : Lawful (s.setLock l lock) := by
  have view := view_setLock s lock same
  have promise : ∀ k, ((s.setLock l lock).lock k).promise = (s.lock k).promise := by
    intro k
    rw [promise_setLock]
    split
    case isTrue here => rw [same, here]
    case isFalse => rfl
  constructor
  · exact lawful.origin
  · intro n within settled
    rw [view]
    exact lawful.past n within settled
  · exact lawful.bound
  · intro w made settled
    rw [view]
    exact lawful.wait w made settled
  · intro k beyond
    rw [promise]
    exact lawful.fresh k beyond
  · intro k
    rw [promise]
    exact lawful.called k
  · intro k
    rw [setLock_lock, Function.update_apply]
    split
    · exact completed
    · exact lawful.completed k

theorem pastLocks_final {g g' : OutputGate} {n : Nat} (settled : g.pastLocks n ≠ .pending)
    (final : ∀ k, g.lock k ≠ .pending → g'.lock k = g.lock k) : g'.pastLocks n = g.pastLocks n := by
  apply OutputGate.pastLocks_congr
  intro k below
  exact final k (OutputGate.pastLocks_settled.1 settled k below)

theorem Called.other {hooks : List HookCall} {taken : Prop} [Decidable taken] {promise : Settlement} {hook : HookCall}
    (called : Called hooks l taken promise) (notLocked : hook ≠ .outputGateLocked l)
    (notReleased : hook ≠ .outputGateReleased l) : Called (hooks ++ [hook]) l taken promise := by
  constructor
  · rw [List.count_append, List.count_singleton, if_neg (by simpa using notLocked)]
    exact called.locked
  · rw [List.count_append, List.count_singleton, if_neg (by simpa using notReleased)]
    exact called.released
  · intro settled
    exact (called.order settled).trans (List.sublist_append_left ..)

theorem Called.release {hooks : List HookCall} {taken : Prop} [Decidable taken] {promise outcome : Settlement}
    (called : Called hooks l taken promise) (held : taken) (waiting : promise = .pending) (settled : outcome ≠ .pending) :
    Called (hooks ++ [.outputGateReleased l]) l taken outcome := by
  have locked := called.locked
  have released := called.released
  rw [if_pos held] at locked
  rw [if_pos waiting] at released
  constructor
  · rw [List.count_append, locked, if_pos held]
    rfl
  · rw [List.count_append, released, if_neg settled, List.count_singleton_self]
  · intro _
    have before : HookCall.outputGateLocked l ∈ hooks := List.count_pos_iff.1 (by omega)
    exact (List.singleton_sublist.2 before).append (List.Sublist.refl [HookCall.outputGateReleased l])

theorem release_eq (s : GateState) (l : Nat) (outcome : Settlement) :
    ∃ brokenState brokenPromise, s.release l outcome =
      { s.setLock l { s.lock l with promise := outcome, returned := outcome } with
        brokenState
        brokenPromise
        hooks := s.hooks ++ [.outputGateReleased l] } := by
  unfold GateState.release
  cases outcome with
  | pending => exact ⟨_, _, rfl⟩
  | fulfilled => exact ⟨_, _, rfl⟩
  | rejected exception => exact ⟨_, _, rfl⟩

theorem Lawful.release (lawful : Lawful s) (taken : l < s.locks) (waiting : (s.lock l).promise = .pending)
    {outcome : Settlement} (settled : outcome ≠ .pending) : Lawful (s.release l outcome) := by
  obtain ⟨brokenState, brokenPromise, same⟩ := release_eq s l outcome
  rw [same]
  have promise := fun k => promise_setLock s l k { s.lock l with promise := outcome, returned := outcome }
  have final : ∀ k, s.view.lock k ≠ .pending →
      ((s.setLock l { s.lock l with promise := outcome, returned := outcome }).lock k).promise = s.view.lock k := by
    intro k done
    rw [promise, if_neg]
    · rfl
    · rintro rfl
      exact done waiting
  constructor
  · exact lawful.origin
  · intro n within done
    have past := lawful.past n within done
    exact past.trans (pastLocks_final (past ▸ done) final).symm
  · exact lawful.bound
  · intro w made done
    have past := lawful.wait w made done
    exact past.trans (pastLocks_final (past ▸ done) final).symm
  · intro k beyond
    show ((s.setLock l _).lock k).promise = _
    rw [promise, if_neg]
    · exact lawful.fresh k beyond
    · rintro rfl
      exact absurd taken (Nat.not_lt.2 beyond)
  · intro k
    show Called (s.hooks ++ [.outputGateReleased l]) k (k < s.locks) ((s.setLock l _).lock k).promise
    rw [promise]
    split
    case isTrue here =>
      subst here
      exact (lawful.called k).release taken waiting settled
    case isFalse other =>
      apply (lawful.called k).other
      · simp
      · simpa using Ne.symm other
  · intro k completed
    show ((s.setLock l _).lock k).promise ≠ .pending
    change (((s.setLock l _).lock k).completed = true) at completed
    rw [setLock_lock, Function.update_apply] at completed ⊢
    split at completed
    case isTrue here =>
      rw [if_pos here]
      exact settled
    case isFalse other =>
      rw [if_neg other]
      exact lawful.completed k completed

theorem release_locks (s : GateState) (l : Nat) (outcome : Settlement) : (s.release l outcome).locks = s.locks := by
  obtain ⟨_, _, same⟩ := release_eq s l outcome
  rw [same]
  rfl

theorem release_promise (s : GateState) (l : Nat) (outcome : Settlement) :
    ((s.release l outcome).lock l).promise = outcome := by
  obtain ⟨_, _, same⟩ := release_eq s l outcome
  rw [same]
  exact (promise_setLock ..).trans (if_pos rfl)

theorem cancel_locks (s : GateState) (l : Nat) : (s.cancel l).locks = s.locks := by
  unfold GateState.cancel
  dsimp only
  split
  · exact release_locks ..
  · rfl

theorem Lawful.cancel (lawful : Lawful s) (taken : l < s.locks) : Lawful (s.cancel l) := by
  have fired : Lawful (s.setLock l { s.lock l with listening := false }) :=
    lawful.setLock _ rfl fun completed => lawful.completed l completed
  unfold GateState.cancel
  dsimp only
  split
  case isTrue waiting =>
    apply fired.release taken
    · rw [promise_setLock, if_pos rfl]
      exact waiting
    · intro impossible
      cases impossible
  case isFalse => exact fired

theorem complete_eq (s : GateState) (l : Nat) (waiting : (s.lock l).promise = .pending) :
    s.complete l = (s.release l (s.lock l).raced).setLock l
      { (s.release l (s.lock l).raced).lock l with completed := true, listening := false } := by
  unfold GateState.complete
  dsimp only
  rw [if_pos waiting]
  cases raced : (s.lock l).raced <;>
    simp [GateState.release, GateState.setLock, GateState.call, GateState.setBroken, raced]

theorem Lawful.complete (lawful : Lawful s) (taken : l < s.locks) (settled : (s.lock l).raced ≠ .pending) :
    Lawful (s.complete l) := by
  by_cases waiting : (s.lock l).promise = .pending
  · rw [complete_eq s l waiting]
    apply (lawful.release taken waiting settled).setLock
    · rfl
    · intro _
      show ((s.release l (s.lock l).raced).lock l).promise ≠ .pending
      rw [release_promise]
      exact settled
  · unfold GateState.complete
    dsimp only
    rw [if_neg waiting]
    exact lawful.setLock _ rfl fun _ => waiting

/-- The next lock is taken. -/
theorem Lawful.take (lawful : Lawful s) :
    Lawful { s with
      locks := s.locks + 1
      past := Function.update s.past (s.locks + 1) .pending
      hooks := s.hooks ++ [.outputGateLocked s.locks] } := by
  have pending := lawful.fresh s.locks le_rfl
  constructor
  · show Function.update s.past (s.locks + 1) .pending 0 = .fulfilled
    rw [Function.update_of_ne (Nat.succ_ne_zero s.locks).symm]
    exact lawful.origin
  · intro n within settled
    by_cases last : n = s.locks + 1
    · subst last
      exact absurd (Function.update_self ..) settled
    · have within : n ≤ s.locks := by
        change n ≤ s.locks + 1 at within
        omega
      have same : Function.update s.past (s.locks + 1) .pending n = s.past n := Function.update_of_ne last ..
      change Function.update s.past (s.locks + 1) .pending n ≠ .pending at settled
      rw [same] at settled
      have past := same.trans (lawful.past n within settled)
      exact past.trans (OutputGate.pastLocks_congr fun _ _ => rfl)
  · intro w made
    exact (lawful.bound w made).trans (Nat.le_succ _)
  · intro w made settled
    exact (lawful.wait w made settled).trans (OutputGate.pastLocks_congr fun _ _ => rfl)
  · intro k beyond
    exact lawful.fresh k (Nat.le_of_succ_le beyond)
  · intro k
    have called := lawful.called k
    by_cases new : k = s.locks
    · subst new
      have locked := called.locked
      rw [if_neg (Nat.lt_irrefl _)] at locked
      constructor
      · show (s.hooks ++ [HookCall.outputGateLocked s.locks]).count (HookCall.outputGateLocked s.locks) =
          if s.locks < s.locks + 1 then 1 else 0
        rw [List.count_append, locked, List.count_singleton_self, if_pos (Nat.lt_succ_self _)]
      · show (s.hooks ++ [HookCall.outputGateLocked s.locks]).count (HookCall.outputGateReleased s.locks) = _
        rw [List.count_append, called.released]
        rfl
      · intro settled
        exact absurd pending settled
    · have other : Called (s.hooks ++ [.outputGateLocked s.locks]) k (k < s.locks) (s.lock k).promise := by
        apply called.other
        · simpa using Ne.symm new
        · simp
      refine ⟨?_, other.released, other.order⟩
      show (s.hooks ++ [HookCall.outputGateLocked s.locks]).count (HookCall.outputGateLocked k) = if k < s.locks + 1 then 1 else 0
      rw [other.locked]
      congr 1
      simp only [eq_iff_iff]
      omega
  · exact lawful.completed

theorem Lawful.lockWhile (lawful : Lawful s) (signal : Option Nat) : Lawful (s.lockWhile signal) := by
  have pending := lawful.fresh s.locks le_rfl
  have fresh : Lawful (s.setLock s.locks ⟨signal, false, .pending, false, .pending, .pending⟩) := by
    apply lawful.setLock
    · exact pending.symm
    · intro impossible
      cases impossible
  have taken := fresh.take
  unfold GateState.lockWhile
  dsimp only
  cases signal with
  | none => exact taken
  | some signal =>
    dsimp only
    split
    · exact taken.cancel (Nat.lt_succ_self _)
    · apply taken.setLock
      · rfl
      · exact taken.completed _

theorem Lawful.cancels (ls : List Nat) : ∀ {s : GateState}, Lawful s → (∀ l ∈ ls, l < s.locks) →
    Lawful (ls.foldl GateState.cancel s) := by
  induction ls with
  | nil =>
    intro s lawful _
    exact lawful
  | cons l ls ih =>
    intro s lawful taken
    apply ih (lawful.cancel (taken l (List.mem_cons_self ..)))
    intro k member
    rw [cancel_locks]
    exact taken k (List.mem_cons_of_mem _ member)

/-- The parts of a gate that no promise and no hook depends on. -/
theorem Lawful.framed (lawful : Lawful s) (brokenState : BrokenState) (brokenPromise : Option Settlement)
    (aborted : Nat → Bool) : Lawful { s with brokenState, brokenPromise, aborted } :=
  ⟨lawful.origin, lawful.past, lawful.bound, lawful.wait, lawful.fresh, lawful.called, lawful.completed⟩

theorem Lawful.abort (lawful : Lawful s) (signal : Nat) : Lawful (s.abort signal) := by
  unfold GateState.abort
  split
  · exact lawful
  · apply Lawful.cancels
    · exact lawful.framed ..
    · intro l member
      exact List.mem_range.1 (List.mem_filter.1 member).1

theorem Lawful.onBroken (lawful : Lawful s) : Lawful s.onBroken := by
  unfold GateState.onBroken
  split
  · exact lawful
  · exact lawful
  · exact lawful.framed ..

theorem Lawful.beginWait (lawful : Lawful s) :
    Lawful { s.call (.outputGateWaiterAdded s.waits) with
      wait := Function.update s.wait s.waits .pending
      bound := Function.update s.bound s.waits s.locks
      waits := s.waits + 1 } := by
  have old : ∀ w, w < s.waits + 1 → w ≠ s.waits → w < s.waits := by omega
  constructor
  · exact lawful.origin
  · intro n within settled
    exact (lawful.past n within settled).trans (OutputGate.pastLocks_congr fun _ _ => rfl)
  · intro w made
    by_cases new : w = s.waits
    · rw [new]
      exact (Function.update_self ..).le
    · exact (Function.update_of_ne new ..).le.trans (lawful.bound w (old w made new))
  · intro w made settled
    by_cases new : w = s.waits
    · subst new
      exact absurd (Function.update_self ..) settled
    · have wait : Function.update s.wait s.waits .pending w = s.wait w := Function.update_of_ne new ..
      have bound : Function.update s.bound s.waits s.locks w = s.bound w := Function.update_of_ne new ..
      change Function.update s.wait s.waits .pending w ≠ .pending at settled
      rw [wait] at settled
      have past := lawful.wait w (old w made new) settled
      exact wait.trans (past.trans (bound ▸ OutputGate.pastLocks_congr fun _ _ => rfl))
  · exact lawful.fresh
  · intro l
    exact (lawful.called l).other (by simp) (by simp)
  · exact lawful.completed

theorem firstRejected_pair {past promise : Settlement} {g : OutputGate} {n : Nat} (before : past = g.pastLocks n)
    (last : promise = g.lock n) (settled : past ≠ .pending) (done : promise ≠ .pending) :
    firstRejected [past, promise] = g.pastLocks (n + 1) := by
  rw [OutputGate.pastLocks, ← before, ← last]
  cases past with
  | pending => exact absurd rfl settled
  | rejected exception =>
    cases promise with
    | pending => exact absurd rfl done
    | fulfilled => rfl
    | rejected => rfl
  | fulfilled =>
    cases promise with
    | pending => exact absurd rfl done
    | fulfilled => rfl
    | rejected => rfl

theorem Lawful.join (lawful : Lawful s) (taken : l < s.locks) (before : s.past l ≠ .pending)
    (settled : (s.lock l).promise ≠ .pending) :
    Lawful { s with past := Function.update s.past (l + 1) (firstRejected [s.past l, (s.lock l).promise]) } := by
  constructor
  · show Function.update s.past (l + 1) (firstRejected [s.past l, (s.lock l).promise]) 0 = .fulfilled
    rw [Function.update_of_ne (Nat.succ_ne_zero l).symm]
    exact lawful.origin
  · intro n within done
    by_cases here : n = l + 1
    · subst here
      have joined := firstRejected_pair (lawful.past l taken.le before) (show _ = s.view.lock l from rfl) before settled
      exact (Function.update_self ..).trans (joined.trans (OutputGate.pastLocks_congr fun _ _ => rfl))
    · have same : Function.update s.past (l + 1) (firstRejected [s.past l, (s.lock l).promise]) n = s.past n :=
        Function.update_of_ne here ..
      change Function.update s.past (l + 1) _ n ≠ .pending at done
      rw [same] at done
      exact same.trans ((lawful.past n within done).trans (OutputGate.pastLocks_congr fun _ _ => rfl))
  · exact lawful.bound
  · intro w made done
    exact (lawful.wait w made done).trans (OutputGate.pastLocks_congr fun _ _ => rfl)
  · exact lawful.fresh
  · exact lawful.called
  · exact lawful.completed

theorem Lawful.resume {w : Nat} (lawful : Lawful s) (made : w < s.waits) (settled : s.past (s.bound w) ≠ .pending) :
    Lawful { s.call (.outputGateWaiterRemoved w) with
      wait := Function.update s.wait w (s.past (s.bound w)) } := by
  constructor
  · exact lawful.origin
  · intro n within done
    exact (lawful.past n within done).trans (OutputGate.pastLocks_congr fun _ _ => rfl)
  · exact lawful.bound
  · intro x madeX done
    by_cases here : x = w
    · subst here
      exact (Function.update_self ..).trans ((lawful.past _ (lawful.bound x made) settled).trans (OutputGate.pastLocks_congr fun _ _ => rfl))
    · have same : Function.update s.wait w (s.past (s.bound w)) x = s.wait x := Function.update_of_ne here ..
      change Function.update s.wait w (s.past (s.bound w)) x ≠ .pending at done
      rw [same] at done
      exact same.trans ((lawful.wait x madeX done).trans (OutputGate.pastLocks_congr fun _ _ => rfl))
  · exact lawful.fresh
  · intro l
    exact (lawful.called l).other (by simp) (by simp)
  · exact lawful.completed

theorem Lawful.step (lawful : Lawful s) {e : GateEvent} (stepped : s.step e = some t) : Lawful t := by
  cases e with
  | lockWhile signal =>
    cases stepped
    exact lawful.lockWhile signal
  | wait =>
    cases stepped
    exact lawful.beginWait
  | onBroken =>
    cases stepped
    exact lawful.onBroken
  | abort signal =>
    cases stepped
    exact lawful.abort signal
  | settle l outcome =>
    simp only [GateState.step] at stepped
    split at stepped
    case isTrue =>
      cases stepped
      exact lawful.setLock _ rfl fun completed => lawful.completed l completed
    case isFalse => cases stepped
  | complete l =>
    simp only [GateState.step] at stepped
    split at stepped
    case isTrue enabled =>
      cases stepped
      exact lawful.complete enabled.1 enabled.2.1
    case isFalse => cases stepped
  | join l =>
    simp only [GateState.step] at stepped
    split at stepped
    case isTrue enabled =>
      cases stepped
      exact lawful.join enabled.1 enabled.2.1 enabled.2.2.1
    case isFalse => cases stepped
  | resume w =>
    simp only [GateState.step] at stepped
    split at stepped
    case isTrue enabled =>
      cases stepped
      exact lawful.resume enabled.1 enabled.2.2
    case isFalse => cases stepped

end Invariant

/-- `s` turns into `t` by operations of the gate alone. -/
def Refines (s t : GateState) : Prop := Reaches OutputGate.operate (fun _ _ => True) s.view t.view

section Refinement

variable {s t u : GateState} {l : Nat}

theorem Refines.of_eq (same : t.view = s.view) : Refines s t := by
  unfold Refines
  rw [same]
  exact .refl

theorem Refines.trans (first : Refines s t) (second : Refines t u) : Refines s u :=
  Relation.ReflTransGen.trans first second

theorem Refines.operation {op : OutputGate.Operation} (operated : s.view.operate op = some t.view) : Refines s t :=
  Reaches.then .refl op trivial operated

theorem release_refines (taken : l < s.locks) (waiting : (s.lock l).promise = .pending) (outcome : Settlement) :
    Refines s (s.release l outcome) := by
  apply @Refines.operation s _ (.settleLock l outcome)
  obtain ⟨_, _, same⟩ := release_eq s l outcome
  rw [same]
  show some (s.view.settleLock l outcome) = _
  rw [OutputGate.settleLock, if_pos ⟨taken, waiting⟩]
  have lock : Function.update s.view.lock l outcome =
      fun k => ((s.setLock l { s.lock l with promise := outcome, returned := outcome }).lock k).promise := by
    funext k
    rw [promise_setLock, Function.update_apply]
    rfl
  exact congrArg (fun lock => some { s.view with lock }) lock

theorem cancel_refines (taken : l < s.locks) : Refines s (s.cancel l) := by
  have fired : Refines s (s.setLock l { s.lock l with listening := false }) := .of_eq (view_setLock s _ rfl)
  unfold GateState.cancel
  dsimp only
  split
  case isTrue waiting =>
    apply fired.trans
    apply release_refines
    · exact taken
    · rw [promise_setLock, if_pos rfl]
      exact waiting
  case isFalse => exact fired

theorem complete_refines (taken : l < s.locks) : Refines s (s.complete l) := by
  have done : Refines s (s.setLock l { s.lock l with completed := true, listening := false }) :=
    .of_eq (view_setLock s _ rfl)
  unfold GateState.complete
  dsimp only
  split
  case isTrue waiting =>
    apply done.trans
    apply release_refines
    · exact taken
    · rw [promise_setLock, if_pos rfl]
      exact waiting
  case isFalse => exact done

theorem cancels_refine (ls : List Nat) : ∀ {s : GateState}, (∀ l ∈ ls, l < s.locks) →
    Refines s (ls.foldl GateState.cancel s) := by
  induction ls with
  | nil =>
    intro s _
    exact .of_eq rfl
  | cons l ls ih =>
    intro s taken
    apply (cancel_refines (taken l (List.mem_cons_self ..))).trans
    apply ih
    intro k member
    rw [cancel_locks]
    exact taken k (List.mem_cons_of_mem _ member)

theorem lockWhile_refines (signal : Option Nat) : Refines s (s.lockWhile signal) := by
  have locked : Refines s (({ s.setLock s.locks ⟨signal, false, .pending, false, .pending, .pending⟩ with
      locks := s.locks + 1
      past := Function.update s.past (s.locks + 1) .pending } : GateState).call (.outputGateLocked s.locks)) := by
    apply @Refines.operation s _ .lockWhile
    have lock : Function.update s.view.lock s.locks .pending =
        fun k => ((s.setLock s.locks ⟨signal, false, .pending, false, .pending, .pending⟩).lock k).promise := by
      funext k
      rw [promise_setLock, Function.update_apply]
      rfl
    exact congrArg (fun lock => some { s.view with lock, locks := s.locks + 1 }) lock
  unfold GateState.lockWhile
  dsimp only
  cases signal with
  | none => exact locked
  | some signal =>
    dsimp only
    split
    · exact locked.trans (cancel_refines (Nat.lt_succ_self _))
    · exact locked.trans (.of_eq (view_setLock _ _ rfl))

/-- Every step of the gate's code is a step of the gate, or several, or none. -/
theorem step_refines (lawful : Lawful s) {e : GateEvent} (stepped : s.step e = some t) : Refines s t := by
  cases e with
  | lockWhile signal =>
    cases stepped
    exact lockWhile_refines signal
  | wait =>
    cases stepped
    exact @Refines.operation s _ .beginWait rfl
  | onBroken =>
    cases stepped
    unfold GateState.onBroken
    split
    · exact .of_eq rfl
    · exact .of_eq rfl
    · exact .of_eq rfl
  | abort signal =>
    cases stepped
    unfold GateState.abort
    split
    · exact .of_eq rfl
    · have marked : Refines s { s with aborted := Function.update s.aborted signal true } := .of_eq rfl
      apply marked.trans
      apply cancels_refine
      intro l member
      exact List.mem_range.1 (List.mem_filter.1 member).1
  | settle l outcome =>
    simp only [GateState.step] at stepped
    split at stepped
    case isTrue =>
      cases stepped
      exact .of_eq (view_setLock s _ rfl)
    case isFalse => cases stepped
  | complete l =>
    simp only [GateState.step] at stepped
    split at stepped
    case isTrue enabled =>
      cases stepped
      exact complete_refines enabled.1
    case isFalse => cases stepped
  | join l =>
    simp only [GateState.step] at stepped
    split at stepped
    case isTrue =>
      cases stepped
      exact .of_eq rfl
    case isFalse => cases stepped
  | resume w =>
    simp only [GateState.step] at stepped
    split at stepped
    case isTrue enabled =>
      cases stepped
      obtain ⟨made, waiting, settled⟩ := enabled
      apply @Refines.operation s _ (.settleWait w)
      have past := lawful.past _ (lawful.bound w made) settled
      show some (s.view.settleWait w) = _
      rw [OutputGate.settleWait, if_pos ⟨made, waiting⟩]
      exact congrArg (fun outcome => some { s.view with wait := Function.update s.view.wait w outcome }) past.symm
    case isFalse => cases stepped

end Refinement

/-- No callback of a promise is left to run. -/
structure Quiet (s : GateState) : Prop where
  complete : ∀ l, s.step (.complete l) = none
  join : ∀ l, s.step (.join l) = none
  resume : ∀ w, s.step (.resume w) = none

def Callback (_ : GateState) : GateEvent → Prop
  | .complete _ | .join _ | .resume _ => True
  | _ => False

/-- What is promised of a wait: it settles no sooner than the locks taken before it, with the exception of the earliest
of them that failed, and as soon as they all have, whatever locks there are after it. -/
structure WaitsWell (s : GateState) (w : Nat) : Prop where
  held : s.wait w ≠ .pending → ∀ l, l < s.bound w → (s.lock l).promise ≠ .pending
  resolved : s.wait w = .fulfilled → ∀ l, l < s.bound w → (s.lock l).promise = .fulfilled
  rejected : ∀ exception, s.wait w = .rejected exception →
    ∃ l, l < s.bound w ∧ (s.lock l).promise = .rejected exception ∧ ∀ k, k < l → (s.lock k).promise = .fulfilled
  prompt : s.Quiet → (∀ l, l < s.bound w → (s.lock l).promise ≠ .pending) → s.wait w ≠ .pending
  reaches : (∀ l, l < s.bound w → (s.lock l).promise ≠ .pending) →
    ∃ t, Reaches step Callback s t ∧ t.wait w ≠ .pending
  kept : ∀ e t, s.step e = some t → t.bound w = s.bound w ∧ (s.wait w ≠ .pending → t.wait w = s.wait w)

/-- What is promised of a lock: it is announced once, and released once after that when it settles. -/
structure ReleasesOnce (s : GateState) (l : Nat) : Prop where
  locked : s.hooks.count (.outputGateLocked l) = 1
  released : s.hooks.count (.outputGateReleased l) = if (s.lock l).promise = .pending then 0 else 1
  order : (s.lock l).promise ≠ .pending → [.outputGateLocked l, .outputGateReleased l].Sublist s.hooks
  prompt : s.Quiet → (s.lock l).raced ≠ .pending → (s.lock l).promise ≠ .pending

section Promises

variable {s : GateState}

theorem Quiet.past (quiet : s.Quiet) (lawful : Lawful s) {n : Nat} (within : n ≤ s.locks)
    (settled : ∀ l, l < n → (s.lock l).promise ≠ .pending) : s.past n ≠ .pending := by
  induction n with
  | zero =>
    rw [lawful.origin]
    intro impossible
    cases impossible
  | succ n ih =>
    have before := ih (Nat.le_of_succ_le within) fun l below => settled l (Nat.lt_succ_of_lt below)
    intro waiting
    have idle := quiet.join n
    simp only [GateState.step] at idle
    rw [if_pos ⟨within, before, settled n (Nat.lt_succ_self n), waiting⟩] at idle
    cases idle

/-- The callbacks of the locks before the `n`th settle the chain up to it, and change nothing else. -/
theorem Lawful.joins (lawful : Lawful s) {n : Nat} (within : n ≤ s.locks)
    (settled : ∀ l, l < n → (s.lock l).promise ≠ .pending) :
    ∃ past, Reaches GateState.step Callback s { s with past } ∧ Lawful { s with past } ∧ past n ≠ .pending := by
  induction n with
  | zero =>
    refine ⟨s.past, .refl, lawful, ?_⟩
    rw [lawful.origin]
    intro impossible
    cases impossible
  | succ n ih =>
    obtain ⟨past, reached, lawful, before⟩ :=
      ih (Nat.le_of_succ_le within) fun l below => settled l (Nat.lt_succ_of_lt below)
    by_cases waiting : past (n + 1) = .pending
    · have last := settled n (Nat.lt_succ_self n)
      have joined := lawful.join within before last
      have chain := firstRejected_pair (lawful.past n (Nat.le_of_succ_le within) before)
        (show (s.lock n).promise = s.view.lock n from rfl) before last
      refine ⟨_, reached.then (.join n) trivial (if_pos ⟨within, before, last, waiting⟩), joined, ?_⟩
      rw [Function.update_self]
      exact chain.trans_ne (OutputGate.pastLocks_settled.2 settled)
    · exact ⟨past, reached, lawful, waiting⟩

theorem Lawful.reaches (lawful : Lawful s) {w : Nat} (made : w < s.waits)
    (settled : ∀ l, l < s.bound w → (s.lock l).promise ≠ .pending) :
    ∃ t, Reaches GateState.step Callback s t ∧ t.wait w ≠ .pending := by
  by_cases waiting : s.wait w = .pending
  · obtain ⟨past, reached, -, done⟩ := lawful.joins (lawful.bound w made) settled
    refine ⟨_, reached.then (.resume w) trivial (if_pos ⟨made, waiting, done⟩), ?_⟩
    exact (Function.update_self ..).trans_ne done
  · exact ⟨s, .refl, waiting⟩

theorem Lawful.waitsWell (lawful : Lawful s) {w : Nat} (made : w < s.waits) : WaitsWell s w := by
  have bound := lawful.bound w made
  constructor
  · intro settled
    rw [lawful.wait w made settled] at settled
    exact OutputGate.pastLocks_settled.1 settled
  · intro resolved
    have chain := lawful.wait w made (by rw [resolved]; simp)
    rw [resolved] at chain
    exact OutputGate.pastLocks_fulfilled.1 chain.symm
  · intro exception rejected
    have chain := lawful.wait w made (by rw [rejected]; simp)
    rw [rejected] at chain
    exact OutputGate.pastLocks_earliest chain.symm
  · intro quiet settled waiting
    have idle := quiet.resume w
    simp only [GateState.step] at idle
    rw [if_pos ⟨made, waiting, quiet.past lawful bound settled⟩] at idle
    cases idle
  · exact lawful.reaches made
  · intro e t stepped
    have kept := OutputGate.reaches_keepsWait made (step_refines lawful stepped)
    exact ⟨kept.bound, kept.wait⟩

theorem Lawful.releasesOnce (lawful : Lawful s) {l : Nat} (taken : l < s.locks) : ReleasesOnce s l := by
  have called := lawful.called l
  refine ⟨called.locked.trans (if_pos taken), called.released, called.order, ?_⟩
  intro quiet raced waiting
  have idle := quiet.complete l
  simp only [GateState.step] at idle
  have running : (s.lock l).completed = false := by
    cases done : (s.lock l).completed with
    | false => rfl
    | true => exact absurd waiting (lawful.completed l done)
  rw [if_pos ⟨taken, raced, running⟩] at idle
  cases idle

end Promises

end GateState

end DoRuntime.Io
