import Mathlib

namespace DoRuntime.Io

inductive Settlement
  | pending
  | fulfilled
  | rejected (exception : String)
deriving DecidableEq

/-- An `OutputGate`: what has become of the locks, in the order they were taken, and of the promises
    that `wait` gave. -/
structure OutputGate where
  lock : Nat → Settlement
  locks : Nat
  wait : Nat → Settlement
  /-- The locks that a wait is for are those taken before it. -/
  bound : Nat → Nat
  waits : Nat

namespace OutputGate

section Operations

variable (g : OutputGate)

/-- `lockWhile`, up to the settlement of its promise. -/
def lockWhile : OutputGate :=
  { g with
    lock := Function.update g.lock g.locks .pending
    locks := g.locks + 1 }

/-- A lock settles with its promise, with its timeout or with its signal, whichever is first. -/
def settleLock (l : Nat) (outcome : Settlement) : OutputGate :=
  if l < g.locks ∧ g.lock l = .pending then { g with lock := Function.update g.lock l outcome } else g

/-- `#pastLocksPromise` once `n` locks were taken: it waits for all of them, and the first that was
    rejected decides. -/
def pastLocks : Nat → Settlement
  | 0 => .fulfilled
  | n + 1 =>
    match pastLocks n, g.lock n with
    | .pending, _ => .pending
    | _, .pending => .pending
    | .rejected exception, _ => .rejected exception
    | .fulfilled, outcome => outcome

def beginWait : OutputGate :=
  { g with
    wait := Function.update g.wait g.waits .pending
    bound := Function.update g.bound g.waits g.locks
    waits := g.waits + 1 }

/-- A wait settles as the chain of locks it is bound to does. -/
def settleWait (w : Nat) : OutputGate :=
  if w < g.waits ∧ g.wait w = .pending then { g with wait := Function.update g.wait w (g.pastLocks (g.bound w)) }
  else g

end Operations

def opened : OutputGate where
  lock := fun _ => .pending
  locks := 0
  wait := fun _ => .pending
  bound := fun _ => 0
  waits := 0

section Chain

variable {g : OutputGate} {n : Nat}

theorem pastLocks_fulfilled : g.pastLocks n = .fulfilled ↔ ∀ l, l < n → g.lock l = .fulfilled := by
  induction n with
  | zero => simp [pastLocks]
  | succ n ih =>
    have upto : (∀ l, l < n + 1 → g.lock l = .fulfilled) ↔ g.pastLocks n = .fulfilled ∧ g.lock n = .fulfilled := by
      rw [ih]
      constructor
      · exact fun all => ⟨fun l below => all l (Nat.lt_succ_of_lt below), all n (Nat.lt_succ_self n)⟩
      · intro both l below
        rcases Nat.lt_succ_iff_lt_or_eq.1 below with before | rfl
        · exact both.1 l before
        · exact both.2
    rw [upto, pastLocks]
    cases past : g.pastLocks n <;> cases last : g.lock n <;> simp

theorem pastLocks_settled : g.pastLocks n ≠ .pending ↔ ∀ l, l < n → g.lock l ≠ .pending := by
  induction n with
  | zero => simp [pastLocks]
  | succ n ih =>
    have upto : (∀ l, l < n + 1 → g.lock l ≠ .pending) ↔ g.pastLocks n ≠ .pending ∧ g.lock n ≠ .pending := by
      rw [ih]
      constructor
      · exact fun all => ⟨fun l below => all l (Nat.lt_succ_of_lt below), all n (Nat.lt_succ_self n)⟩
      · intro both l below
        rcases Nat.lt_succ_iff_lt_or_eq.1 below with before | rfl
        · exact both.1 l before
        · exact both.2
    rw [upto, pastLocks]
    cases past : g.pastLocks n <;> cases last : g.lock n <;> simp

/-- A wait bound to a lock that was rejected is rejected as soon as the locks it is bound to have settled. -/
theorem pastLocks_rejected {l : Nat} {exception : String} (below : l < n) (failed : g.lock l = .rejected exception)
    (settled : ∀ l, l < n → g.lock l ≠ .pending) : ∃ exception, g.pastLocks n = .rejected exception := by
  cases past : g.pastLocks n with
  | pending => exact absurd past (pastLocks_settled.2 settled)
  | fulfilled =>
    have all := pastLocks_fulfilled.1 past l below
    rw [failed] at all
    cases all
  | rejected exception => exact ⟨exception, rfl⟩

/-- The exception of the chain is that of the earliest lock that failed. -/
theorem pastLocks_earliest {exception : String} (failed : g.pastLocks n = .rejected exception) :
    ∃ l, l < n ∧ g.lock l = .rejected exception ∧ ∀ k, k < l → g.lock k = .fulfilled := by
  induction n with
  | zero => cases failed
  | succ n ih =>
    rw [pastLocks] at failed
    cases past : g.pastLocks n with
    | pending =>
      rw [past] at failed
      cases failed
    | rejected earlier =>
      rw [past] at failed
      cases last : g.lock n with
      | pending =>
        rw [last] at failed
        cases failed
      | fulfilled =>
        rw [last] at failed
        cases failed
        obtain ⟨l, below, this⟩ := ih past
        exact ⟨l, Nat.lt_succ_of_lt below, this⟩
      | rejected later =>
        rw [last] at failed
        cases failed
        obtain ⟨l, below, this⟩ := ih past
        exact ⟨l, Nat.lt_succ_of_lt below, this⟩
    | fulfilled =>
      rw [past] at failed
      refine ⟨n, Nat.lt_succ_self n, ?_, pastLocks_fulfilled.1 past⟩
      cases last : g.lock n with
      | pending =>
        rw [last] at failed
        cases failed
      | fulfilled =>
        rw [last] at failed
        cases failed
      | rejected exception =>
        rw [last] at failed
        exact failed

theorem pastLocks_congr {g' : OutputGate} (same : ∀ l, l < n → g'.lock l = g.lock l) : g'.pastLocks n = g.pastLocks n := by
  induction n with
  | zero => rfl
  | succ n ih =>
    rw [pastLocks, pastLocks, ih fun l below => same l (Nat.lt_succ_of_lt below), same n (Nat.lt_succ_self n)]

end Chain

/-- A lock was rejected, which broke the gate. -/
def Broken (g : OutputGate) : Prop := ∃ l, l < g.locks ∧ ∃ exception, g.lock l = .rejected exception

/-- A wait that was fulfilled saw every lock released that was taken before it. -/
structure Confirming (g : OutputGate) : Prop where
  bound : ∀ w, w < g.waits → g.bound w ≤ g.locks
  confirmed : ∀ w, w < g.waits → g.wait w = .fulfilled → ∀ l, l < g.bound w → g.lock l = .fulfilled

section Confirmation

variable {g : OutputGate}

theorem opened_confirming : Confirming opened where
  bound w made := absurd made (Nat.not_lt_zero w)
  confirmed w made := absurd made (Nat.not_lt_zero w)

theorem Confirming.lockWhile (confirming : Confirming g) : Confirming g.lockWhile where
  bound w made := Nat.le_succ_of_le (confirming.bound w made)
  confirmed w made fulfilled l below := by
    have old : l ≠ g.locks := by
      have bound := confirming.bound w made
      change l < g.bound w at below
      omega
    exact (Function.update_of_ne old ..).trans (confirming.confirmed w made fulfilled l below)

theorem settleLock_fulfilled {l : Nat} (lock : Nat) (outcome : Settlement) (fulfilled : g.lock l = .fulfilled) :
    (g.settleLock lock outcome).lock l = .fulfilled := by
  unfold OutputGate.settleLock
  split
  · rename_i unsettled
    have other : l ≠ lock := by
      intro same
      rw [same, unsettled.2] at fulfilled
      cases fulfilled
    exact (Function.update_of_ne other ..).trans fulfilled
  · exact fulfilled

theorem settleLock_same (g : OutputGate) (lock : Nat) (outcome : Settlement) :
    (g.settleLock lock outcome).waits = g.waits ∧ (g.settleLock lock outcome).wait = g.wait ∧
      (g.settleLock lock outcome).bound = g.bound ∧ (g.settleLock lock outcome).locks = g.locks := by
  unfold OutputGate.settleLock
  split <;> exact ⟨rfl, rfl, rfl, rfl⟩

theorem Confirming.settleLock (confirming : Confirming g) (lock : Nat) (outcome : Settlement) :
    Confirming (g.settleLock lock outcome) := by
  obtain ⟨waits, wait, bound, locks⟩ := settleLock_same g lock outcome
  constructor
  · rw [waits, bound, locks]
    exact confirming.bound
  · rw [waits, wait, bound]
    intro w made fulfilled l below
    exact settleLock_fulfilled lock outcome (confirming.confirmed w made fulfilled l below)

theorem Confirming.beginWait (confirming : Confirming g) : Confirming g.beginWait := by
  constructor
  · intro w made
    by_cases new : w = g.waits
    · rw [new]
      exact (Function.update_self ..).le
    · have before : w < g.waits := by
        change w < g.waits + 1 at made
        omega
      exact (Function.update_of_ne new ..).le.trans (confirming.bound w before)
  · intro w made fulfilled
    by_cases new : w = g.waits
    · rw [new] at fulfilled
      have pending : (g.beginWait).wait g.waits = .pending := Function.update_self ..
      rw [pending] at fulfilled
      cases fulfilled
    · have before : w < g.waits := by
        change w < g.waits + 1 at made
        omega
      have old : g.wait w = .fulfilled := (Function.update_of_ne new ..).symm.trans fulfilled
      intro l below
      have below : l < g.bound w := below.trans_le (Function.update_of_ne new ..).le
      exact confirming.confirmed w before old l below

theorem settleWait_same (g : OutputGate) (w : Nat) :
    (g.settleWait w).waits = g.waits ∧ (g.settleWait w).lock = g.lock ∧ (g.settleWait w).bound = g.bound ∧
      (g.settleWait w).locks = g.locks := by
  unfold OutputGate.settleWait
  split <;> exact ⟨rfl, rfl, rfl, rfl⟩

theorem Confirming.settleWait (confirming : Confirming g) (w : Nat) : Confirming (g.settleWait w) := by
  obtain ⟨waits, lock, bound, locks⟩ := settleWait_same g w
  constructor
  · rw [waits, bound, locks]
    exact confirming.bound
  · rw [waits, lock, bound]
    intro w' made fulfilled
    unfold OutputGate.settleWait at fulfilled
    split at fulfilled
    · by_cases same : w' = w
      · rw [same] at fulfilled ⊢
        exact pastLocks_fulfilled.1 ((Function.update_self ..).symm.trans fulfilled)
      · exact confirming.confirmed w' made ((Function.update_of_ne same ..).symm.trans fulfilled)
    · exact confirming.confirmed w' made fulfilled

end Confirmation

end OutputGate

end DoRuntime.Io
