import DoRuntime.Lib.Transition

namespace DoRuntime.Io.Timers

open Transition

/-- A JavaScript number. -/
inductive Number
  | notANumber
  | infinite (negative : Bool)
  | finite (value : ℚ)

/-- `Math.trunc` -/
def trunc (value : ℚ) : Int := value.num.tdiv value.den

/-- The conversion of a delay, in milliseconds, to HTML's `long`; infinity becomes 0. -/
def toInt32 : WithTop ℚ → Int
  | none => 0
  | some value => (trunc value).bmod (2 ^ 32)

/-- How long the platform's `setTimeout` waits at least. -/
def setTimeoutWait (delay : WithTop ℚ) : ℚ := (max 0 (toInt32 delay) : Int)

/-- How long `platformTimer.afterDelay` waits at least. -/
def afterDelayWait (ms : WithTop ℚ) : ℚ := setTimeoutWait (max 0 ms)

/-- It resolves no earlier than `ms` after the call. -/
def Waits (ms : WithTop ℚ) : Prop := ∀ elapsed : ℚ, afterDelayWait ms ≤ elapsed → ms ≤ elapsed

/-- A delay that HTML's `setTimeout` can carry. -/
def Punctual (ms : WithTop ℚ) : Prop := ms ≤ 0 ∨ ∃ n : ℕ, n < 2 ^ 31 ∧ ms = ((n : ℚ) : WithTop ℚ)

section Delays

theorem trunc_natCast (n : ℕ) : trunc (n : ℚ) = n := by
  unfold trunc
  rw [Rat.num_natCast, Rat.den_natCast]
  exact Int.tdiv_one _

theorem trunc_le {value : ℚ} (positive : 0 ≤ value) : (trunc value : ℚ) ≤ value := by
  have floor : trunc value = ⌊value⌋ := by
    rw [Rat.floor_def', trunc]
    exact Int.tdiv_eq_ediv_of_nonneg (Rat.num_nonneg.2 positive)
  rw [floor]
  exact Int.floor_le value

theorem trunc_nonneg {value : ℚ} (positive : 0 ≤ value) : 0 ≤ trunc value :=
  Int.tdiv_nonneg (Rat.num_nonneg.2 positive) (Int.natCast_nonneg _)

theorem toInt32_coe (value : ℚ) : toInt32 (value : WithTop ℚ) = (trunc value).bmod (2 ^ 32) := rfl

theorem wrapped_small {n : Int} (low : 0 ≤ n) (high : n < 2 ^ 31) : n.bmod (2 ^ 32) = n := by
  rw [Int.bmod_def]
  omega

theorem wrapped_le {n : Int} (low : 0 ≤ n) : n.bmod (2 ^ 32) ≤ n ∧ n.bmod (2 ^ 32) < 2 ^ 31 := by
  rw [Int.bmod_def]
  omega

theorem setTimeoutWait_natCast (n : ℕ) (kept : toInt32 ((n : ℚ) : WithTop ℚ) = n) :
    setTimeoutWait ((n : ℚ) : WithTop ℚ) = n := by
  have same : max (0 : Int) (n : Int) = n := max_eq_right (Int.natCast_nonneg n)
  rw [setTimeoutWait, kept, same]
  exact Int.cast_natCast n

theorem toInt32_natCast {n : ℕ} (small : n < 2 ^ 31) : toInt32 ((n : ℚ) : WithTop ℚ) = n := by
  have bound : (n : Int) < 2 ^ 31 := by exact_mod_cast small
  rw [toInt32_coe, trunc_natCast, wrapped_small (Int.natCast_nonneg n) bound]

theorem afterDelayWait_natCast {n : ℕ} (small : n < 2 ^ 31) : afterDelayWait ((n : ℚ) : WithTop ℚ) = n := by
  have positive : max (0 : WithTop ℚ) ((n : ℚ) : WithTop ℚ) = ((n : ℚ) : WithTop ℚ) := by
    apply max_eq_right
    exact_mod_cast Nat.zero_le n
  rw [afterDelayWait, positive, setTimeoutWait_natCast n (toInt32_natCast small)]

theorem afterDelayWait_nonneg (ms : WithTop ℚ) : 0 ≤ afterDelayWait ms := by
  have positive : 0 ≤ max 0 (toInt32 (max 0 ms)) := le_max_left ..
  unfold afterDelayWait setTimeoutWait
  exact_mod_cast positive

theorem waits_iff_le {ms : WithTop ℚ} : Waits ms ↔ ms ≤ ((afterDelayWait ms : ℚ) : WithTop ℚ) := by
  constructor
  · intro waits
    exact waits _ le_rfl
  · intro within elapsed passed
    apply within.trans
    exact_mod_cast passed

theorem waits_iff (ms : WithTop ℚ) : Waits ms ↔ Punctual ms := by
  rw [waits_iff_le]
  constructor
  · intro within
    by_cases past : ms ≤ 0
    · exact .inl past
    rw [not_le] at past
    right
    cases ms with
    | top => exact absurd (top_le_iff.1 within) (WithTop.coe_ne_top)
    | coe value =>
      have positive : 0 < value := by exact_mod_cast past
      have within : value ≤ afterDelayWait value := by exact_mod_cast within
      have wait : afterDelayWait value = (max 0 ((trunc value).bmod (2 ^ 32)) : Int) := by
        rw [afterDelayWait, max_eq_right past.le]
        rfl
      rw [wait] at within
      have low := trunc_nonneg positive.le
      have below := trunc_le positive.le
      obtain ⟨n, whole⟩ : ∃ n, trunc value = n := ⟨_, rfl⟩
      rw [whole] at within low below
      obtain ⟨wrapped, bound⟩ := wrapped_le low
      have kept : max 0 (n.bmod (2 ^ 32)) ≤ n := max_le low wrapped
      have same : value = n := by
        apply le_antisymm _ below
        apply within.trans
        exact_mod_cast kept
      rw [same] at within
      have full : n ≤ max 0 (n.bmod (2 ^ 32)) := by exact_mod_cast within
      refine ⟨n.toNat, by omega, ?_⟩
      rw [same]
      have back : (n.toNat : Int) = n := Int.toNat_of_nonneg low
      exact_mod_cast congrArg (fun i : Int => ((i : ℚ) : WithTop ℚ)) back.symm
  · rintro (past | ⟨n, small, rfl⟩)
    · apply past.trans
      exact_mod_cast afterDelayWait_nonneg ms
    · rw [afterDelayWait_natCast small]

theorem punctual_natCast (n : ℕ) : Punctual ((n : ℚ) : WithTop ℚ) ↔ n < 2 ^ 31 := by
  constructor
  · rintro (none | ⟨k, small, same⟩)
    · have none : (n : ℚ) ≤ 0 := by exact_mod_cast none
      have zero : n = 0 := by exact_mod_cast le_antisymm none (Nat.cast_nonneg n)
      rw [zero]
      decide
    · have same : n = k := by exact_mod_cast same
      rwa [same]
  · intro small
    exact .inr ⟨n, small, rfl⟩

theorem early_of_large {n : ℕ} (large : 2 ^ 31 ≤ n) : afterDelayWait ((n : ℚ) : WithTop ℚ) < n := by
  have early : ¬Waits ((n : ℚ) : WithTop ℚ) := by
    rw [waits_iff, punctual_natCast]
    exact Nat.not_lt.2 large
  rw [waits_iff_le, not_le] at early
  exact_mod_cast early

theorem punctual_le {ms shorter : WithTop ℚ} (punctual : Punctual ms) (less : shorter ≤ ms)
    (whole : ∀ n : ℕ, ms = ((n : ℚ) : WithTop ℚ) → ∃ k : Int, shorter = ((k : ℚ) : WithTop ℚ)) :
    Punctual shorter := by
  obtain past | ⟨n, small, rfl⟩ := punctual
  · exact .inl (less.trans past)
  · obtain ⟨k, rfl⟩ := whole n rfl
    have less : k ≤ n := by exact_mod_cast less
    by_cases past : k ≤ 0
    · left
      exact_mod_cast past
    · right
      refine ⟨k.toNat, by omega, ?_⟩
      have back : (k.toNat : Int) = k := Int.toNat_of_nonneg (by omega)
      exact_mod_cast congrArg (fun i : Int => ((i : ℚ) : WithTop ℚ)) back.symm

end Delays

def maxTimeoutMs : ℕ := 3153600000000

/-- `IoContext.setTimeoutImpl`'s clamp. -/
def clampDelay : Number → ℕ
  | .notANumber => 0
  | .infinite negative => if negative then 0 else maxTimeoutMs
  | .finite value =>
    if value ≤ 0 then 0
    else if maxTimeoutMs ≤ value then maxTimeoutMs
    else (trunc value).toNat

/-- Where a timeout stands: its delay is running, its delay has resolved and `run` has not reached the callback
yet, or its callback is running. -/
inductive Stage
  | armed (since : ℚ)
  | woken (since : ℚ)
  | running

structure TimeoutState where
  id : ℕ
  repeats : Bool
  msDelay : ℕ
  stage : Stage

structure Callback where
  deadline : ℚ
  ranAt : ℚ

structure TimeoutManager where
  now : ℚ
  nextId : ℕ
  timeouts : List TimeoutState
  callbacks : List Callback

inductive Event
  | setTimeoutImpl (repeats : Bool) (msDelay : Number)
  | clearTimeoutImpl (id : ℕ)
  | cancelAll
  | pass (elapsed : ℚ)
  | resolve (id : ℕ)
  | fire (id : ℕ)
  | finish (id : ℕ)

namespace TimeoutManager

def start : TimeoutManager := ⟨0, 1, [], []⟩

def find (s : TimeoutManager) (id : ℕ) : Option TimeoutState := s.timeouts.find? (·.id = id)

def cancel (s : TimeoutManager) (id : ℕ) : TimeoutManager :=
  { s with timeouts := s.timeouts.filter (·.id ≠ id) }

def put (s : TimeoutManager) (state : TimeoutState) : TimeoutManager :=
  { s with timeouts := state :: (s.cancel state.id).timeouts }

def setTimeout (s : TimeoutManager) (repeats : Bool) (msDelay : ℕ) : TimeoutManager :=
  { s.put ⟨s.nextId, repeats, msDelay, .armed s.now⟩ with nextId := s.nextId + 1 }

/-- The delay of an armed timeout resolves. -/
def resolve (s : TimeoutManager) (state : TimeoutState) : Option TimeoutManager :=
  match state.stage with
  | .armed since =>
    if since + afterDelayWait ((state.msDelay : ℚ) : WithTop ℚ) ≤ s.now then
      some (s.put { state with stage := .woken since })
    else none
  | .woken _ | .running => none

def fire (s : TimeoutManager) (state : TimeoutState) : Option TimeoutManager :=
  match state.stage with
  | .woken since =>
    let kept := if state.repeats then s.put { state with stage := .running } else s.cancel state.id
    some { kept with callbacks := s.callbacks ++ [⟨since + state.msDelay, s.now⟩] }
  | .armed _ | .running => none

/-- The callback of an interval has returned, which arms it again. -/
def finish (s : TimeoutManager) (state : TimeoutState) : Option TimeoutManager :=
  match state.stage with
  | .running => some (s.put { state with stage := .armed s.now })
  | .armed _ | .woken _ => none

def step (s : TimeoutManager) : Event → Option TimeoutManager
  | .setTimeoutImpl repeats msDelay => some (s.setTimeout repeats (clampDelay msDelay))
  | .clearTimeoutImpl id => some (s.cancel id)
  | .cancelAll => some { s with timeouts := [] }
  | .pass elapsed => if 0 ≤ elapsed then some { s with now := s.now + elapsed } else none
  | .resolve id => (s.find id).bind s.resolve
  | .fire id => (s.find id).bind s.fire
  | .finish id => (s.find id).bind s.finish

end TimeoutManager

def Event.UsesOnly (used : Set Number) : Event → Prop
  | .setTimeoutImpl _ msDelay => msDelay ∈ used
  | _ => True

/-- No timeout or interval whose delay is one of these ever runs its callback before its deadline. -/
def OnTime (used : Set Number) : Prop :=
  ∀ s, Reaches TimeoutManager.step (fun _ e => e.UsesOnly used) .start s →
    ∀ callback ∈ s.callbacks, callback.deadline ≤ callback.ranAt

section Timeouts

open TimeoutManager

/-- A woken timeout's deadline has passed. -/
def TimeoutState.Due (now : ℚ) (state : TimeoutState) : Prop :=
  ∀ since, state.stage = .woken since → since + state.msDelay ≤ now

structure Kept (used : Set Number) (s : TimeoutManager) : Prop where
  uses : ∀ state ∈ s.timeouts, ∃ msDelay ∈ used, state.msDelay = clampDelay msDelay
  due : ∀ state ∈ s.timeouts, state.Due s.now
  onTime : ∀ callback ∈ s.callbacks, callback.deadline ≤ callback.ranAt

variable {used : Set Number} {s : TimeoutManager}

theorem find_mem {id : ℕ} {state : TimeoutState} (found : s.find id = some state) : state ∈ s.timeouts :=
  List.mem_of_find?_eq_some found

theorem Kept.cancel (kept : Kept used s) (id : ℕ) : Kept used (s.cancel id) := by
  constructor
  · intro state member
    exact kept.uses state (List.mem_filter.1 member).1
  · intro state member
    exact kept.due state (List.mem_filter.1 member).1
  · exact kept.onTime

theorem Kept.put (kept : Kept used s) {state : TimeoutState} (due : state.Due s.now)
    (uses : ∃ msDelay ∈ used, state.msDelay = clampDelay msDelay) : Kept used (s.put state) := by
  constructor
  · intro other member
    obtain rfl | member := List.mem_cons.1 member
    · exact uses
    · exact (kept.cancel state.id).uses other member
  · intro other member
    obtain rfl | member := List.mem_cons.1 member
    · exact due
    · exact (kept.cancel state.id).due other member
  · exact kept.onTime

theorem Kept.pass (kept : Kept used s) {elapsed : ℚ} (forward : 0 ≤ elapsed) :
    Kept used { s with now := s.now + elapsed } := by
  constructor
  · exact kept.uses
  · intro state member since woken
    have due := kept.due state member since woken
    show since + state.msDelay ≤ s.now + elapsed
    linarith
  · exact kept.onTime

theorem Kept.resolve (kept : Kept used s) (short : ∀ msDelay ∈ used, clampDelay msDelay < 2 ^ 31)
    {state : TimeoutState} {t : TimeoutManager} (member : state ∈ s.timeouts)
    (resolved : s.resolve state = some t) : Kept used t := by
  unfold TimeoutManager.resolve at resolved
  split at resolved
  case h_1 since _ =>
    split at resolved
    case isTrue passed =>
      cases resolved
      obtain ⟨msDelay, among, same⟩ := kept.uses state member
      rw [afterDelayWait_natCast (same ▸ short msDelay among)] at passed
      apply kept.put
      · intro start woken
        cases woken
        exact passed
      · exact ⟨msDelay, among, same⟩
    case isFalse => cases resolved
  all_goals cases resolved

theorem Kept.fire (kept : Kept used s) {state : TimeoutState} {t : TimeoutManager}
    (member : state ∈ s.timeouts) (fired : s.fire state = some t) : Kept used t := by
  unfold TimeoutManager.fire at fired
  split at fired
  case h_1 since woken =>
    cases fired
    have due := kept.due state member since woken
    have left : Kept used (if state.repeats then s.put { state with stage := .running } else s.cancel state.id) := by
      split
      · apply kept.put
        · intro start woken
          cases woken
        · exact kept.uses state member
      · exact kept.cancel state.id
    have same : (if state.repeats then s.put { state with stage := .running }
        else s.cancel state.id).now = s.now := by
      split <;> rfl
    constructor
    · exact left.uses
    · exact left.due
    · intro callback ran
      obtain ran | rfl := List.mem_append.1 ran |>.imp_right List.mem_singleton.1
      · exact kept.onTime callback ran
      · exact due
  all_goals cases fired

theorem Kept.finish (kept : Kept used s) {state : TimeoutState} {t : TimeoutManager}
    (member : state ∈ s.timeouts) (finished : s.finish state = some t) : Kept used t := by
  unfold TimeoutManager.finish at finished
  split at finished
  case h_1 =>
    cases finished
    apply kept.put
    · intro start woken
      cases woken
    · exact kept.uses state member
  all_goals cases finished

theorem Kept.step (kept : Kept used s) (short : ∀ msDelay ∈ used, clampDelay msDelay < 2 ^ 31)
    {t : TimeoutManager} {e : Event} (admitted : e.UsesOnly used) (stepped : s.step e = some t) : Kept used t := by
  cases e with
  | setTimeoutImpl repeats msDelay =>
    cases stepped
    have put : Kept used (s.put ⟨s.nextId, repeats, clampDelay msDelay, .armed s.now⟩) := by
      apply kept.put
      · intro since woken
        cases woken
      · exact ⟨msDelay, admitted, rfl⟩
    exact ⟨put.uses, put.due, put.onTime⟩
  | clearTimeoutImpl id =>
    cases stepped
    exact kept.cancel id
  | cancelAll =>
    cases stepped
    constructor
    · intro state member
      cases member
    · intro state member
      cases member
    · exact kept.onTime
  | pass elapsed =>
    simp only [TimeoutManager.step] at stepped
    split at stepped
    case isTrue forward =>
      cases stepped
      exact kept.pass forward
    case isFalse => cases stepped
  | resolve id =>
    obtain ⟨state, found, resolved⟩ := Option.bind_eq_some_iff.1 stepped
    exact kept.resolve short (find_mem found) resolved
  | fire id =>
    obtain ⟨state, found, fired⟩ := Option.bind_eq_some_iff.1 stepped
    exact kept.fire (find_mem found) fired
  | finish id =>
    obtain ⟨state, found, finished⟩ := Option.bind_eq_some_iff.1 stepped
    exact kept.finish (find_mem found) finished

theorem kept_start : Kept used .start := by
  constructor <;> intro x member <;> cases member

theorem resolve_passed {state : TimeoutState} {since : ℚ} (armed : state.stage = .armed since)
    (passed : since + afterDelayWait ((state.msDelay : ℚ) : WithTop ℚ) ≤ s.now) :
    s.resolve state = some (s.put { state with stage := .woken since }) := by
  unfold TimeoutManager.resolve
  rw [armed]
  exact if_pos passed

/-- What one timeout does when it fires as soon as the platform lets it. -/
theorem runs_after {msDelay : Number} {wait : ℚ} (waits : afterDelayWait ((clampDelay msDelay : ℚ) : WithTop ℚ) = wait) :
    run TimeoutManager.step .start [.setTimeoutImpl false msDelay, .pass wait, .resolve 1, .fire 1] =
      some ⟨0 + wait, 2, [], [⟨0 + clampDelay msDelay, 0 + wait⟩]⟩ := by
  have forward : 0 ≤ wait := waits ▸ afterDelayWait_nonneg _
  have passed : (0 : ℚ) + afterDelayWait ((clampDelay msDelay : ℚ) : WithTop ℚ) ≤ 0 + wait := by rw [waits]
  have resolved : resolve ⟨0 + wait, 2, [⟨1, false, clampDelay msDelay, .armed 0⟩], []⟩
      ⟨1, false, clampDelay msDelay, .armed 0⟩ =
        some ⟨0 + wait, 2, [⟨1, false, clampDelay msDelay, .woken 0⟩], []⟩ := resolve_passed rfl passed
  have waited : step ⟨0, 2, [⟨1, false, clampDelay msDelay, .armed 0⟩], []⟩ (.pass wait) =
      some ⟨0 + wait, 2, [⟨1, false, clampDelay msDelay, .armed 0⟩], []⟩ := if_pos forward
  calc run TimeoutManager.step .start [.setTimeoutImpl false msDelay, .pass wait, .resolve 1, .fire 1]
    _ = (step ⟨0, 2, [⟨1, false, clampDelay msDelay, .armed 0⟩], []⟩ (.pass wait)).bind
          (run TimeoutManager.step · [.resolve 1, .fire 1]) := rfl
    _ = run TimeoutManager.step ⟨0 + wait, 2, [⟨1, false, clampDelay msDelay, .armed 0⟩], []⟩
          [.resolve 1, .fire 1] := by rw [waited]; rfl
    _ = (resolve ⟨0 + wait, 2, [⟨1, false, clampDelay msDelay, .armed 0⟩], []⟩
          ⟨1, false, clampDelay msDelay, .armed 0⟩).bind (run TimeoutManager.step · [.fire 1]) := rfl
    _ = run TimeoutManager.step ⟨0 + wait, 2, [⟨1, false, clampDelay msDelay, .woken 0⟩], []⟩ [.fire 1] := by
      rw [resolved]; rfl
    _ = some ⟨0 + wait, 2, [], [⟨0 + clampDelay msDelay, 0 + wait⟩]⟩ := rfl

theorem onTime_iff (used : Set Number) : OnTime used ↔ ∀ msDelay ∈ used, clampDelay msDelay < 2 ^ 31 := by
  constructor
  · intro onTime msDelay among
    by_contra large
    have early := early_of_large (Nat.not_lt.1 large)
    generalize waits : afterDelayWait ((clampDelay msDelay : ℚ) : WithTop ℚ) = wait at early
    have reached : Reaches TimeoutManager.step (fun _ e => e.UsesOnly used) .start
        ⟨0 + wait, 2, [], [⟨0 + clampDelay msDelay, 0 + wait⟩]⟩ := by
      apply run_reaches_admitted _ _ (runs_after waits)
      intro _ e member
      simp only [List.mem_cons, List.not_mem_nil, or_false] at member
      obtain rfl | rfl | rfl | rfl := member
      · exact among
      all_goals trivial
    have waited := onTime _ reached _ (List.mem_singleton_self _)
    rw [zero_add, zero_add] at waited
    exact absurd waited (not_le.2 early)
  · intro short s reached
    have kept : Kept used s := reached.invariant kept_start fun _ _ _ kept admitted stepped =>
      kept.step short admitted stepped
    exact kept.onTime

end Timeouts

/-- One turn of the loop: the delay asked for, how long it took to resolve, and what the clock then read. -/
structure Turn where
  requested : WithTop ℚ
  slept : ℚ
  reading : Int

/-- The time from `now` until then. -/
def remaining (scheduledTime : WithTop ℚ) (now : Int) : WithTop ℚ := scheduledTime.map (· - (now : ℚ))

/-- `AlarmScheduler.#checkTimestamp`, over what each of its delays and clock readings gives. -/
def checkTimestamp (delay scheduledTime : WithTop ℚ) : List (ℚ × Int) → List Turn
  | [] => []
  | (slept, now) :: rest =>
    ⟨delay, slept, now⟩ ::
      if scheduledTime ≤ ((now : ℚ) : WithTop ℚ) then []
      else checkTimestamp (remaining scheduledTime now) scheduledTime rest

/-- Every turn's delay resolves when the platform's timer lets it or later, and the clock does not go back. -/
def Timely (now : Int) (turns : List Turn) : Prop :=
  (∀ turn ∈ turns, afterDelayWait turn.requested ≤ turn.slept) ∧
    List.IsChain (· ≤ ·) (now :: turns.map (·.reading))

def Turn.Waited (scheduledTime : WithTop ℚ) (turn : Turn) : Prop :=
  scheduledTime ≤ ((turn.reading : ℚ) : WithTop ℚ) ∨ turn.requested ≤ ((turn.slept : ℚ) : WithTop ℚ)

/-- No turn of the loop ends before both the time and its own delay. -/
def NeverSpins (delay scheduledTime : WithTop ℚ) (now : Int) : Prop :=
  ∀ timeline, Timely now (checkTimestamp delay scheduledTime timeline) →
    ∀ turn ∈ checkTimestamp delay scheduledTime timeline, turn.Waited scheduledTime

section Alarm

variable {delay scheduledTime : WithTop ℚ} {now : Int}

theorem remaining_later {later : Int} (forward : now ≤ later) (punctual : Punctual (remaining scheduledTime now)) :
    Punctual (remaining scheduledTime later) := by
  cases scheduledTime with
  | top => exact punctual
  | coe time =>
    apply punctual_le punctual
    · show ((time - later : ℚ) : WithTop ℚ) ≤ ((time - now : ℚ) : WithTop ℚ)
      have forward : (now : ℚ) ≤ later := by exact_mod_cast forward
      exact_mod_cast sub_le_sub_left forward time
    · intro n same
      have same : ((time - now : ℚ) : WithTop ℚ) = ((n : ℚ) : WithTop ℚ) := same
      have same : time - now = n := by exact_mod_cast same
      have whole : time - later = ((n + now - later : Int) : ℚ) := by
        push_cast
        linarith
      exact ⟨n + now - later, congrArg _ whole⟩

theorem waited_of_punctual {turn : Turn} (punctual : Punctual turn.requested)
    (slept : afterDelayWait turn.requested ≤ turn.slept) : turn.Waited scheduledTime :=
  .inr ((waits_iff turn.requested).2 punctual turn.slept slept)

theorem turns_waited (timeline : List (ℚ × Int)) (punctual : Punctual delay)
    (left : Punctual (remaining scheduledTime now))
    (timely : Timely now (checkTimestamp delay scheduledTime timeline)) :
    ∀ turn ∈ checkTimestamp delay scheduledTime timeline, turn.Waited scheduledTime := by
  induction timeline generalizing delay now with
  | nil =>
    intro turn member
    cases member
  | cons reply rest ih =>
    obtain ⟨slept, reading⟩ := reply
    obtain ⟨kept, forward⟩ := timely
    simp only [checkTimestamp] at kept forward ⊢
    rw [List.map_cons, List.isChain_cons_cons] at forward
    obtain ⟨forward, later⟩ := forward
    intro turn member
    obtain rfl | member := List.mem_cons.1 member
    · exact waited_of_punctual punctual (kept _ (List.mem_cons_self ..))
    · split at member
      case isTrue => cases member
      case isFalse early =>
        rw [if_neg early] at kept later
        have next := remaining_later forward left
        exact ih next next ⟨fun turn member => kept turn (List.mem_cons_of_mem _ member), later⟩ turn member

theorem neverSpins_of_past (past : scheduledTime ≤ ((now : ℚ) : WithTop ℚ)) :
    NeverSpins delay scheduledTime now := by
  intro timeline timely turn member
  cases timeline with
  | nil => cases member
  | cons reply rest =>
    obtain ⟨slept, reading⟩ := reply
    obtain ⟨-, forward⟩ := timely
    simp only [checkTimestamp] at forward member
    rw [List.map_cons, List.isChain_cons_cons] at forward
    have reached : scheduledTime ≤ ((reading : ℚ) : WithTop ℚ) := by
      apply past.trans
      exact_mod_cast forward.1
    rw [if_pos reached] at member
    rw [List.mem_singleton.1 member]
    exact .inl reached

/-- The timeline in which each delay resolves as soon as the platform lets it, and the clock stands still. -/
theorem punctual_of_neverSpins (future : ¬scheduledTime ≤ ((now : ℚ) : WithTop ℚ))
    (never : NeverSpins delay scheduledTime now) :
    Punctual delay ∧ Punctual (remaining scheduledTime now) := by
  have turns : checkTimestamp delay scheduledTime
      [(afterDelayWait delay, now), (afterDelayWait (remaining scheduledTime now), now)] =
        [⟨delay, afterDelayWait delay, now⟩,
          ⟨remaining scheduledTime now, afterDelayWait (remaining scheduledTime now), now⟩] := by
    simp only [checkTimestamp, if_neg future]
  have waited := never [(afterDelayWait delay, now), (afterDelayWait (remaining scheduledTime now), now)]
  rw [turns] at waited
  have timely : Timely now [⟨delay, afterDelayWait delay, now⟩,
      ⟨remaining scheduledTime now, afterDelayWait (remaining scheduledTime now), now⟩] := by
    constructor
    · intro turn member
      simp only [List.mem_cons, List.not_mem_nil, or_false] at member
      obtain rfl | rfl := member
      · exact le_rfl
      · exact le_rfl
    · simp
  have waited := waited timely
  constructor
  · rw [← waits_iff, waits_iff_le]
    exact (waited _ (List.mem_cons_self ..)).resolve_left future
  · rw [← waits_iff, waits_iff_le]
    exact (waited _ (List.mem_cons_of_mem _ (List.mem_cons_self ..))).resolve_left future

theorem neverSpins_iff (delay scheduledTime : WithTop ℚ) (now : Int) :
    NeverSpins delay scheduledTime now ↔
      scheduledTime ≤ ((now : ℚ) : WithTop ℚ) ∨ (Punctual delay ∧ Punctual (remaining scheduledTime now)) := by
  constructor
  · intro never
    by_cases past : scheduledTime ≤ ((now : ℚ) : WithTop ℚ)
    · exact .inl past
    · exact .inr (punctual_of_neverSpins past never)
  · rintro (past | ⟨punctual, left⟩)
    · exact neverSpins_of_past past
    · exact fun timeline timely => turns_waited timeline punctual left timely

end Alarm

/-- Which delays are waited out: by `afterDelay`, by the timeouts and intervals that use only some delays, and by
the loop that waits for an alarm. -/
theorem delays_waited_iff (ms delay scheduledTime : WithTop ℚ) (used : Set Number) (now : Int) :
    (Waits ms ↔ Punctual ms) ∧
    (OnTime used ↔ ∀ msDelay ∈ used, clampDelay msDelay < 2 ^ 31) ∧
    (NeverSpins delay scheduledTime now ↔
      scheduledTime ≤ ((now : ℚ) : WithTop ℚ) ∨ (Punctual delay ∧ Punctual (remaining scheduledTime now))) :=
  ⟨waits_iff ms, onTime_iff used, neverSpins_iff delay scheduledTime now⟩

theorem clampDelay_natCast {n : ℕ} (positive : 0 < n) (small : n < maxTimeoutMs) : clampDelay (.finite n) = n := by
  have low : ¬(n : ℚ) ≤ 0 := by
    rw [not_le]
    exact_mod_cast positive
  have high : ¬(maxTimeoutMs : ℚ) ≤ n := by
    rw [not_le]
    exact_mod_cast small
  simp only [clampDelay, if_neg low, if_neg high, trunc_natCast, Int.toNat_natCast]

/-- A timeout of 2³¹ milliseconds runs at once, and the wait for an alarm that far ahead spins. -/
theorem long_delays_end_early :
    ¬Waits (((2147483648 : ℕ) : ℚ) : WithTop ℚ) ∧ ¬OnTime {.finite ((2147483648 : ℕ) : ℚ)} ∧
      ¬NeverSpins (((2147483648 : ℕ) : ℚ) : WithTop ℚ) (((2147483648 : ℕ) : ℚ) : WithTop ℚ) 0 := by
  have large : ¬Punctual (((2147483648 : ℕ) : ℚ) : WithTop ℚ) := by
    rw [punctual_natCast]
    decide
  refine ⟨?_, ?_, ?_⟩
  · rwa [waits_iff]
  · rw [onTime_iff]
    intro short
    have clamped := short _ (Set.mem_singleton _)
    rw [clampDelay_natCast (by decide) (by decide)] at clamped
    exact absurd clamped (by decide)
  · rw [neverSpins_iff]
    rintro (past | ⟨punctual, -⟩)
    · have past : ((2147483648 : ℕ) : ℚ) ≤ ((0 : Int) : ℚ) := by exact_mod_cast past
      norm_num at past
    · exact large punctual

end DoRuntime.Io.Timers
