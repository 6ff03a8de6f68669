import DoRuntime.Alarms.LiveScheduler
import DoRuntime.Js.Except

namespace DoRuntime.Alarms.LiveScheduler

open DoRuntime.Js Prog

def Event.env : Event → Env
  | setAlarm _ _ env | deleteAlarm _ env | deleteAll env | reconcile _ _ env | wake _ _ env
  | deliverySettled _ _ env | abandonSettled _ _ env => env

/-- The entry whose task the event resumes. -/
def Event.entry : Event → Option Nat
  | wake e _ _ | deliverySettled e _ _ | abandonSettled e _ _ => some e
  | _ => none

section Outcomes

variable (s : LiveScheduler)

/-- An entry of the actor is due at or before the stored time. -/
def Covers (actorId : String) (stored : Float) : Bool :=
  match s.alarms actorId with
  | none => false
  | some e => decide ((s.entry e).queuedAlarm.getD (s.entry e).scheduledTime ≤ stored)

/-- What `setAlarm` leaves once its row is written. -/
def set (actorId : String) (scheduledTime : Float) : LiveScheduler :=
  let s := { s with rows := AlarmScheduler.upsertAlarm s.rows actorId scheduledTime }
  match s.alarms actorId with
  | none => s.schedule actorId scheduledTime false
  | some e =>
    if (s.entry e).status ≠ .waiting then
      (s.setEntry e fun a => { a with queuedAlarm := some scheduledTime }).setUnrecorded e false
    else s.schedule actorId scheduledTime false

/-- What `deleteAlarm` leaves once its row is gone. -/
def cancel (actorId : String) : LiveScheduler :=
  let s := { s with rows := deleteRow s.rows actorId }
  match s.alarms actorId with
  | none => s
  | some e =>
    match (s.entry e).queuedAlarm with
    | some queued =>
      if (s.entry e).status = .started then
        (s.setEntry e fun a => { a with queuedAlarm := none }).setUnrecorded e true
      else s.schedule actorId queued true
    | none =>
      if (s.entry e).status ≠ .started then { s with alarms := fun a => if a = actorId then none else s.alarms a }
      else s.setUnrecorded e true

def cleared : LiveScheduler :=
  { s with rows := [], alarms := fun _ => none, dropped := fun e => s.dropped e || s.isLive e }

def marked (e : Nat) : LiveScheduler :=
  { s with rows := updateRow s.rows (s.entry e).actorId fun row => row.setRunning 1 }

def markedUnwoken (e : Nat) : LiveScheduler :=
  (s.marked e).setEntry e fun a => { a with status := .started, wakeTime := none }

def started (e bookkeepingBackoff : Nat) : LiveScheduler :=
  { s.markedUnwoken e with
    delivered := s.delivered ++
      [((s.entry e).actorId, (s.entry e).scheduledTime, (s.entry e).countedRetry)] }.setTask e
    (.delivering bookkeepingBackoff)

def startFailed (e bookkeepingBackoff : Nat) : LiveScheduler :=
  (s.setEntry e fun a => { a with status := .waiting }).setTask e
    (.sleeping none (min retryBackoffMax bookkeepingBackoff + 1))

def postponed (e : Nat) (completed : AlarmResult) (bookkeepingBackoff : Nat) : LiveScheduler :=
  (s.setEntry e fun a => { a with status := .finished }).setTask e
    (.sleeping (some completed) (min retryBackoffMax bookkeepingBackoff + 1))

def promoted (e : Nat) (queued : Float) : LiveScheduler :=
  let s := { s with rows := updateRow s.rows (s.entry e).actorId fun row => row.setRunning 0 }
  (s.schedule (s.entry e).actorId queued false).setTask e .done

def finished (e : Nat) : LiveScheduler := s.setEntry e fun a => { a with status := .finished }

def givenUp (e : Nat) (completed : AlarmResult) (bookkeepingBackoff : Nat) : LiveScheduler :=
  (s.finished e).setTask e (.abandoning completed bookkeepingBackoff)

def retryCount (e : Nat) (retryInfo : AlarmResult) : Nat :=
  (s.entry e).countedRetry + retryInfo.retryCountsAgainstLimit.toNat

def retryBackoff (e : Nat) (retryInfo : AlarmResult) : Nat :=
  min retryBackoffMax
    (if retryInfo.retryCountsAgainstLimit ∧ ¬ (s.entry e).previousRetryCountedAgainstLimit then 0
    else (s.entry e).backoff)

def retryTime (env : Env) (backoff : Nat) : Float :=
  env.now + Float.ofNat (alarmRetryDelayMs backoff + env.jitter (alarmRetryDelayMs backoff))

def retried (env : Env) (e : Nat) (retryInfo : AlarmResult) : LiveScheduler :=
  let backoff := s.retryBackoff e retryInfo
  let countedRetry := s.retryCount e retryInfo
  let s := s.finished e
  let s := { s with
    rows := updateRow s.rows (s.entry e).actorId fun row =>
      row.saveRetry (retryTime env backoff) (backoff + 1) countedRetry retryInfo.retryCountsAgainstLimit }
  (s.setEntry e fun a =>
    { a with
      backoff := backoff + 1, countedRetry
      previousRetryCountedAgainstLimit := retryInfo.retryCountsAgainstLimit
      wakeTime := some (retryTime env backoff) }).setTask e (.sleeping none 0)

def forgotten (e : Nat) : LiveScheduler := (s.cancel (s.entry e).actorId).setTask e .done

end Outcomes

/-- What the bookkeeping of a delivery that ended comes to, for the entry on the map. -/
inductive Settled (s : LiveScheduler) (env : Env) (e : Nat) (r : AlarmResult) (b : Nat) : LiveScheduler → Prop
  | promote (queued : Float) (behind : (s.entry e).queuedAlarm = some queued) :
      Settled s env e r b (s.promoted e queued)
  | retry (alone : (s.entry e).queuedAlarm = none) (again : r.retry = true)
      (more : (s.entry e).countedRetry < alarmRetryMaxTries) : Settled s env e r b (s.retried env e r)
  | giveUp (alone : (s.entry e).queuedAlarm = none) : Settled s env e r b (s.givenUp e r b)
  | finish (alone : (s.entry e).queuedAlarm = none) : Settled s env e r b ((s.finished e).forgotten e)
  | postpone (call : Fallible) (failed : env.fails call = true) : Settled s env e r b (s.postponed e r b)

/-- What the report of an `abandonAlarm` comes to, for the entry on the map. -/
inductive Reported (s : LiveScheduler) (env : Env) (e : Nat) (answer : Option (Option Float)) (r : AlarmResult)
    (b : Nat) : LiveScheduler → Prop
  | promote (queued : Float) (behind : (s.entry e).queuedAlarm = some queued) :
      Reported s env e answer r b (s.promoted e queued)
  | newer (newer : Float) (alone : (s.entry e).queuedAlarm = none) (told : answer = some (some newer)) :
      Reported s env e answer r b ((s.set (s.entry e).actorId newer).promoted e newer)
  | forget (alone : (s.entry e).queuedAlarm = none) : Reported s env e answer r b (s.forgotten e)
  | postpone (failed : answer = none ∨ ∃ call, env.fails call = true) :
      Reported s env e answer r b (s.postponed e r b)
  | newerPostponed (newer : Float) (alone : (s.entry e).queuedAlarm = none) (told : answer = some (some newer))
      (written : env.fails .setAlarm = false)
      (failed : env.fails .clearRunning = true ∨ env.fails .projectSet = true) :
      Reported s env e answer r b ((s.set (s.entry e).actorId newer).postponed e r b)

inductive Move (s : LiveScheduler) : Event → LiveScheduler → Prop
  | idle (event : Event) : Move s event s
  | setAlarm (actorId : String) (scheduledTime : Float) (env : Env) (written : env.fails .setAlarm = false) :
      Move s (.setAlarm actorId scheduledTime env) (s.set actorId scheduledTime)
  | reconcile (actorId : String) (stored : Float) (env : Env) (written : env.fails .setAlarm = false)
      (late : s.Covers actorId stored = false) : Move s (.reconcile actorId stored env) (s.set actorId stored)
  | deleteAlarm (actorId : String) (env : Env) : Move s (.deleteAlarm actorId env) (s.cancel actorId)
  | deleteAll (env : Env) : Move s (.deleteAll env) s.cleared
  | ended (event : Event) (e : Nat) (on : event.entry = some e) (gone : s.isLive e = false) :
      Move s event (s.setTask e .done)
  | start (e : Nat) (woken : Float) (env : Env) (b : Nat) (live : s.isLive e = true)
      (due : s.task e = .sleeping none b) : Move s (.wake e woken env) (s.started e b)
  | startFailed (e : Nat) (woken : Float) (env : Env) (b : Nat) (live : s.isLive e = true)
      (due : s.task e = .sleeping none b) (failed : env.fails .markRunning = true) :
      Move s (.wake e woken env) (s.startFailed e b)
  | markedFailed (e : Nat) (woken : Float) (env : Env) (b : Nat) (live : s.isLive e = true)
      (due : s.task e = .sleeping none b) (failed : env.fails .projectStart = true) :
      Move s (.wake e woken env) ((s.markedUnwoken e).startFailed e b)
  | settle (event : Event) (e : Nat) (on : event.entry = some e) (r : AlarmResult) (b : Nat) {t : LiveScheduler}
      (live : s.isLive e = true)
      (due : s.task e = .sleeping (some r) b ∨ s.task e = .delivering b)
      (outcome : Settled s event.env e r b t) : Move s event t
  | report (e : Nat) (answer : Option (Option Float)) (env : Env) (r : AlarmResult) (b : Nat) {t : LiveScheduler}
      (live : s.isLive e = true) (due : s.task e = .abandoning r b) (outcome : Reported s env e answer r b t) :
      Move s (.abandonSettled e answer env) t

section Runs

variable (env : Env) (s : LiveScheduler)

theorem statement_run (kind : Fallible) (f : List AlarmRow → List AlarmRow) : statement env kind f s =
    if env.fails kind then (.error "metadata write refused", s) else (.ok (), { s with rows := f s.rows }) := by
  unfold statement
  split <;> rfl

theorem projectNextWake_run (call : Fallible) : projectNextWake env call s =
    if env.fails call then (.error "projectWake failed", s) else (.ok (), s) := by
  unfold projectNextWake
  split <;> rfl

theorem setAlarm_run (actorId : String) (scheduledTime : Float) : setAlarm env actorId scheduledTime s =
    if env.fails .setAlarm then (.error "metadata write refused", s)
    else projectNextWake env .projectSet (s.set actorId scheduledTime) := by
  rw [setAlarm, bind_run, statement_run]
  by_cases refused : env.fails .setAlarm
  · simp only [refused, if_true]
  · simp only [refused, Bool.false_eq_true, if_false, state_bind, set]
    cases s.alarms actorId with
    | none => rfl
    | some e => by_cases waiting : (s.entry e).status = .waiting <;> simp [waiting]

theorem reconcile_run (actorId : String) (stored : Float) : reconcile env actorId stored s =
    if s.Covers actorId stored then (.ok (), s) else setAlarm env actorId stored s := by
  rw [reconcile, state_bind, Covers]
  cases s.alarms actorId with
  | none => simp
  | some e => by_cases due : (s.entry e).queuedAlarm.getD (s.entry e).scheduledTime ≤ stored <;> simp [due]

theorem deleteAlarm_run (actorId : String) : deleteAlarm env actorId s =
    if env.fails .deleteAlarm then (.error "metadata write refused", s)
    else projectNextWake env .projectDelete (s.cancel actorId) := by
  rw [deleteAlarm, bind_run, statement_run]
  by_cases refused : env.fails .deleteAlarm
  · simp only [refused, if_true]
  · simp only [refused, Bool.false_eq_true, if_false, state_bind, cancel]
    cases s.alarms actorId with
    | none => rfl
    | some e =>
      cases queued : (s.entry e).queuedAlarm <;>
        by_cases running : (s.entry e).status = .started <;> simp [running, queued]

theorem deleteAll_run : deleteAll env s =
    if env.fails .deleteAll then (.error "metadata write refused", s)
    else projectNextWake env .projectDeleteAll s.cleared := by
  rw [deleteAll, bind_run, statement_run]
  by_cases refused : env.fails .deleteAll
  · simp only [refused, if_true]
  · simp only [refused, Bool.false_eq_true, if_false, update_bind]
    rfl

theorem promote_run (e : Nat) (queued : Float) : promote env e queued s =
    if env.fails .clearRunning then (.error "metadata write refused", s) else (.ok (), s.promoted e queued) := by
  rw [promote, state_bind, bind_run, statement_run]
  by_cases refused : env.fails .clearRunning
  · simp only [refused, if_true]
  · simp only [refused, Bool.false_eq_true, if_false]
    rfl

theorem markedUnwoken_entry_self (e : Nat) :
    (s.markedUnwoken e).entry e = { s.entry e with status := .started, wakeTime := none } := by
  simp [markedUnwoken, setEntry, marked]

theorem startDelivery_run (e b : Nat) : startDelivery env e b s =
    if env.fails .markRunning then (.error "metadata write refused", s)
    else if env.fails .projectStart then (.error "projectWake failed", s.markedUnwoken e)
    else (.ok (), s.started e b) := by
  rw [startDelivery, state_bind, bind_run, statement_run]
  by_cases refused : env.fails .markRunning
  · simp only [refused, if_true]
  · simp only [refused, Bool.false_eq_true, if_false, update_bind, bind_run, projectNextWake_run]
    by_cases projected : env.fails .projectStart
    · simp only [projected, if_true]
      rfl
    · simp only [projected, Bool.false_eq_true, if_false, update_run]
      rfl

theorem bookkeepingFailed_some (e : Nat) (r : AlarmResult) (b : Nat) : bookkeepingFailed e (some r) b s =
    (.ok (), if s.isLive e then s.postponed e r b else s.setTask e .done) := by
  rw [bookkeepingFailed, state_bind]
  split <;> rfl

theorem bookkeepingFailed_none (e b : Nat) : bookkeepingFailed e none b s =
    (.ok (), if s.isLive e then s.startFailed e b else s.setTask e .done) := by
  rw [bookkeepingFailed, state_bind]
  split <;> rfl

theorem isLive_iff (e : Nat) : s.isLive e = true ↔ s.alarms (s.entry e).actorId = some e := by
  simp [isLive]

@[simp]
theorem finished_actorId (e i : Nat) : ((s.finished e).entry i).actorId = (s.entry i).actorId := by
  simp only [finished, setEntry]
  split <;> rfl

@[simp]
theorem finished_isLive (e i : Nat) : (s.finished e).isLive i = s.isLive i := by
  rw [isLive, finished_actorId]
  rfl

theorem finished_entry_self (e : Nat) : (s.finished e).entry e = { s.entry e with status := .finished } := by
  simp [finished, setEntry]

theorem finished_postponed (e : Nat) (r : AlarmResult) (b : Nat) :
    (s.finished e).postponed e r b = s.postponed e r b := by
  simp only [finished, postponed, setEntry, setTask]
  congr 1
  funext i
  split <;> rfl

/-- Deleting the alarm of an entry that has no delivery in flight and no alarm queued takes it off the map. -/
theorem cancel_isLive {e : Nat} (live : s.isLive e = true) (alone : (s.entry e).queuedAlarm = none)
    (ended : (s.entry e).status ≠ .started) : (s.cancel (s.entry e).actorId).isLive e = false := by
  rw [isLive_iff] at live
  simp [cancel, live, alone, ended, isLive]

/-- Deleting the alarm, when what follows is left to the `catch` in case it throws. -/
theorem forget_run {e : Nat} (live : s.isLive e = true) (alone : (s.entry e).queuedAlarm = none)
    (ended : (s.entry e).status ≠ .started) (r : AlarmResult) (b : Nat) :
    let t := (attempt
      (do
        deleteAlarm env (s.entry e).actorId
        update fun s => s.setTask e .done)
      (fun _ => bookkeepingFailed e (some r) b) s).2
    t = s.forgotten e ∨ (env.fails .deleteAlarm = true ∧ t = s.postponed e r b) := by
  dsimp only
  by_cases refused : env.fails .deleteAlarm
  · right
    refine ⟨refused, ?_⟩
    have failed := deleteAlarm_run env s (s.entry e).actorId
    simp only [refused, if_true] at failed
    rw [attempt_run_error (bind_run_error failed), bookkeepingFailed_some]
    simp [live]
  · left
    have ran := deleteAlarm_run env s (s.entry e).actorId
    simp only [refused, Bool.false_eq_true, if_false, projectNextWake_run] at ran
    by_cases projected : env.fails .projectDelete
    · simp only [projected, if_true] at ran
      rw [attempt_run_error (bind_run_error ran), bookkeepingFailed_some]
      simp [cancel_isLive s live alone ended, forgotten]
    · simp only [projected, Bool.false_eq_true, if_false] at ran
      have done : (do
          deleteAlarm env (s.entry e).actorId
          update fun s => s.setTask e .done : Act Unit) s = (.ok (), s.forgotten e) := by
        rw [bind_run_ok ran]
        rfl
      rw [attempt_run_ok done]

/-- What becomes of a delivery that is to be retried. -/
theorem settle_retry {e : Nat} (live : s.isLive e = true) (alone : (s.entry e).queuedAlarm = none) {r : AlarmResult}
    (again : r.retry = true) (b : Nat) :
    (attempt (settle env e r b) (fun _ => bookkeepingFailed e (some r) b) s).2 =
      if alarmRetryMaxTries ≤ (s.entry e).countedRetry then s.givenUp e r b
      else if env.fails .saveRetry then s.postponed e r b
      else s.retried env e r := by
  by_cases spent : alarmRetryMaxTries ≤ (s.entry e).countedRetry
  · have ran : settle env e r b s = (.ok (), s.givenUp e r b) := by
      rw [settle, state_bind]
      simp only [live, if_true, alone, update_bind, again, spent, update_run]
      rfl
    rw [attempt_run_ok ran, if_pos spent]
  · rw [if_neg spent]
    by_cases refused : env.fails .saveRetry
    · have ran : settle env e r b s = (.error "metadata write refused", s.finished e) := by
        rw [settle, state_bind]
        simp only [live, if_true, alone, update_bind, again, spent, if_false, bind_run, statement_run, refused]
        rfl
      rw [attempt_run_error ran, bookkeepingFailed_some, finished_isLive, live, finished_postponed, if_pos refused]
      rfl
    · have ran : settle env e r b s = (.ok (), s.retried env e r) := by
        rw [settle, state_bind]
        simp only [live, if_true, alone, update_bind, again, spent, if_false, bind_run, statement_run, refused,
          Bool.false_eq_true, update_run, retried, finished_entry_self]
        rfl
      rw [attempt_run_ok ran, if_neg refused]

theorem settle_cases {e : Nat} (live : s.isLive e = true) (r : AlarmResult) (b : Nat) :
    Settled s env e r b (attempt (settle env e r b) (fun _ => bookkeepingFailed e (some r) b) s).2 := by
  cases behind : (s.entry e).queuedAlarm with
  | some queued =>
    have ran : settle env e r b s = promote env e queued s := by
      rw [settle, state_bind]
      simp only [live, if_true, behind]
    rw [promote_run] at ran
    by_cases refused : env.fails .clearRunning
    · simp only [refused, if_true] at ran
      rw [attempt_run_error ran, bookkeepingFailed_some]
      simp only [live, if_true]
      exact .postpone _ refused
    · simp only [refused, Bool.false_eq_true, if_false] at ran
      rw [attempt_run_ok ran]
      exact .promote queued behind
  | none =>
    have alone : ((s.finished e).entry e).queuedAlarm = none := by
      rw [finished_entry_self]
      exact behind
    by_cases again : r.retry
    · rw [settle_retry env s live behind again]
      by_cases spent : alarmRetryMaxTries ≤ (s.entry e).countedRetry
      · rw [if_pos spent]
        exact .giveUp behind
      · rw [if_neg spent]
        by_cases refused : env.fails .saveRetry
        · rw [if_pos refused]
          exact .postpone _ refused
        · rw [if_neg refused]
          exact .retry behind again (Nat.lt_of_not_le spent)
    · by_cases terminal : r.outcome = .aborted
      · have ran : settle env e r b s = (.ok (), s.givenUp e r b) := by
          rw [settle, state_bind]
          simp only [live, if_true, behind, update_bind, again, Bool.false_eq_true, if_false, terminal, update_run]
          rfl
        rw [attempt_run_ok ran]
        exact .giveUp behind
      · have ended : ((s.finished e).entry e).status ≠ .started := by simp [finished_entry_self]
        have ran : settle env e r b s = (do
            deleteAlarm env ((s.finished e).entry e).actorId
            update fun s => s.setTask e .done : Act Unit) (s.finished e) := by
          rw [settle, state_bind]
          simp only [live, if_true, behind, update_bind, again, Bool.false_eq_true, if_false, terminal,
            finished_actorId]
          rfl
        have settled := forget_run env (s.finished e) (by rw [finished_isLive, live]) alone ended r b
        rw [finished_postponed] at settled
        rw [attempt_run_eq ran]
        obtain done | ⟨refused, done⟩ := settled
        · rw [done]
          exact .finish behind
        · rw [done]
          exact .postpone _ refused

/-- An alarm set for an entry past its wake is queued behind it. -/
theorem set_queues {e : Nat} (live : s.isLive e = true) (begun : (s.entry e).status ≠ .waiting) (scheduledTime : Float) :
    s.set (s.entry e).actorId scheduledTime =
      ({ s with rows := AlarmScheduler.upsertAlarm s.rows (s.entry e).actorId scheduledTime }.setEntry e
        fun a => { a with queuedAlarm := some scheduledTime }).setUnrecorded e false := by
  rw [isLive_iff] at live
  simp [set, live, begun]

theorem report_cases {e : Nat} (live : s.isLive e = true) (ended : (s.entry e).status = .finished)
    (answer : Option (Option Float)) (r : AlarmResult) (b : Nat) :
    Reported s env e answer r b (abandonSettled env e answer r b s).2 := by
  have begun : (s.entry e).status ≠ .waiting := by simp [ended]
  cases answer with
  | none =>
    have ran : abandon env e none s = (.error "abandonAlarm failed", s) := rfl
    rw [abandonSettled, attempt_run_error ran, bookkeepingFailed_some]
    simp only [live, if_true]
    exact .postpone (.inl rfl)
  | some newerAlarm =>
    cases behind : (s.entry e).queuedAlarm with
    | some queued =>
      have ran : abandon env e (some newerAlarm) s = promote env e queued s := by
        simp only [abandon, state_bind, live, if_true, behind]
      rw [promote_run] at ran
      by_cases refused : env.fails .clearRunning
      · simp only [refused, if_true] at ran
        rw [abandonSettled, attempt_run_error ran, bookkeepingFailed_some]
        simp only [live, if_true]
        exact .postpone (.inr ⟨_, refused⟩)
      · simp only [refused, Bool.false_eq_true, if_false] at ran
        rw [abandonSettled, attempt_run_ok ran]
        exact .promote queued behind
    | none =>
      cases newerAlarm with
      | none =>
        have ran : abandon env e (some none) s = (do
            deleteAlarm env (s.entry e).actorId
            update fun s => s.setTask e .done : Act Unit) s := by
          simp only [abandon, state_bind, live, if_true, behind]
        rw [abandonSettled, attempt_run_eq ran]
        obtain done | ⟨refused, done⟩ := forget_run env s live behind (by simp [ended]) r b
        · rw [done]
          exact .forget behind
        · rw [done]
          exact .postpone (.inr ⟨_, refused⟩)
      | some newer =>
        have queues := set_queues s live begun newer
        have still : (s.set (s.entry e).actorId newer).isLive e = true := by
          rw [queues, isLive_iff]
          rw [isLive_iff] at live
          simp [setUnrecorded, setEntry, live]
        have queued : ((s.set (s.entry e).actorId newer).entry e).queuedAlarm = some newer := by
          rw [queues]
          simp [setUnrecorded, setEntry]
        have ran : abandon env e (some (some newer)) s = (do
            setAlarm env (s.entry e).actorId newer
            let s ← state
            match (s.entry e).queuedAlarm with
            | some queued => promote env e queued
            | none => do
              deleteAlarm env (s.entry e).actorId
              update fun s => s.setTask e .done : Act Unit) s := by
          simp only [abandon, state_bind, live, if_true, behind] <;> rfl
        have write := setAlarm_run env s (s.entry e).actorId newer
        by_cases refused : env.fails .setAlarm
        · simp only [refused, if_true] at write
          rw [bind_run_error write] at ran
          rw [abandonSettled, attempt_run_error ran, bookkeepingFailed_some]
          simp only [live, if_true]
          exact .postpone (.inr ⟨_, refused⟩)
        · simp only [refused, Bool.false_eq_true, if_false, projectNextWake_run] at write
          by_cases projected : env.fails .projectSet
          · simp only [projected, if_true] at write
            rw [bind_run_error write] at ran
            rw [abandonSettled, attempt_run_error ran, bookkeepingFailed_some]
            simp only [still, if_true]
            exact .newerPostponed newer behind rfl (by simpa using refused) (.inr projected)
          · simp only [projected, Bool.false_eq_true, if_false] at write
            rw [bind_run_ok write, state_bind] at ran
            simp only [queued] at ran
            rw [promote_run] at ran
            by_cases kept : env.fails .clearRunning
            · simp only [kept, if_true] at ran
              rw [abandonSettled, attempt_run_error ran, bookkeepingFailed_some]
              simp only [still, if_true]
              exact .newerPostponed newer behind rfl (by simpa using refused) (.inl kept)
            · simp only [kept, Bool.false_eq_true, if_false] at ran
              rw [abandonSettled, attempt_run_ok ran]
              exact .newer newer behind rfl

theorem setAlarm_state (actorId : String) (scheduledTime : Float) :
    (setAlarm env actorId scheduledTime s).2 = s ∨ env.fails .setAlarm = false ∧
      (setAlarm env actorId scheduledTime s).2 = s.set actorId scheduledTime := by
  rw [setAlarm_run]
  by_cases refused : env.fails .setAlarm
  · simp [refused]
  · simp only [refused, Bool.false_eq_true, if_false, projectNextWake_run]
    split <;> exact .inr ⟨by simpa using refused, rfl⟩

end Runs

/-- What the task of a live entry says of its status. -/
def Consistent : Task → AlarmStatus → Prop
  | .sleeping none _, status => status ≠ .started
  | .sleeping (some _) _, status => status = .finished
  | .delivering _, status => status = .started
  | .abandoning _ _, status => status = .finished
  | .done, _ => False

structure Shaped (s : LiveScheduler) : Prop where
  mapped : ∀ a e, s.alarms a = some e → e < s.next ∧ (s.entry e).actorId = a
  consistent : ∀ e, s.isLive e = true → Consistent (s.task e) (s.entry e).status
  later : ∀ e, s.next ≤ e → s.task e = .done
  gone : ∀ b e, s.task e = .delivering b → s.isLive e = false → s.dropped e = true

/-- What a step can do. -/
theorem step_moves {s t : LiveScheduler} (shaped : Shaped s) (event : Event) (stepped : step s event = some t) :
    Move s event t := by
  cases event with
  | setAlarm actorId scheduledTime env =>
    simp only [step, Option.some.injEq] at stepped
    obtain same | ⟨written, same⟩ := setAlarm_state env s actorId scheduledTime <;> rw [← stepped, same]
    · exact .idle _
    · exact .setAlarm actorId scheduledTime env written
  | deleteAlarm actorId env =>
    simp only [step, Option.some.injEq, deleteAlarm_run] at stepped
    split at stepped
    · rw [← stepped]
      exact .idle _
    · rw [projectNextWake_run] at stepped
      split at stepped <;> rw [← stepped] <;> exact .deleteAlarm actorId env
  | deleteAll env =>
    simp only [step, Option.some.injEq, deleteAll_run] at stepped
    split at stepped
    · rw [← stepped]
      exact .idle _
    · rw [projectNextWake_run] at stepped
      split at stepped <;> rw [← stepped] <;> exact .deleteAll env
  | reconcile actorId stored env =>
    simp only [step, Option.some.injEq, reconcile_run] at stepped
    by_cases covered : s.Covers actorId stored
    · simp only [covered, if_true] at stepped
      rw [← stepped]
      exact .idle _
    · simp only [covered, Bool.false_eq_true, if_false] at stepped
      obtain same | ⟨written, same⟩ := setAlarm_state env s actorId stored <;> rw [← stepped, same]
      · exact .idle _
      · exact .reconcile actorId stored env written (by simpa using covered)
  | wake e woken env =>
    simp only [step] at stepped
    cases due : s.task e with
    | sleeping completed b =>
      simp only [due, Option.ite_none_right_eq_some, Option.some.injEq] at stepped
      obtain ⟨_, stepped⟩ := stepped
      unfold wake at stepped
      rw [state_bind] at stepped
      by_cases live : s.isLive e
      · simp only [live, if_true] at stepped
        cases completed with
        | none =>
          dsimp only at stepped
          have ran := startDelivery_run env s e b
          by_cases refused : env.fails .markRunning
          · simp only [refused, if_true] at ran
            rw [attempt_run_error ran, bookkeepingFailed_none] at stepped
            simp only [live, if_true] at stepped
            rw [← stepped]
            exact .startFailed e woken env b live due refused
          · simp only [refused, Bool.false_eq_true, if_false] at ran
            by_cases projected : env.fails .projectStart
            · simp only [projected, if_true] at ran
              have still : (s.markedUnwoken e).isLive e = true := by
                rw [isLive_iff] at live ⊢
                rw [markedUnwoken_entry_self]
                exact live
              rw [attempt_run_error ran, bookkeepingFailed_none] at stepped
              simp only [still, if_true] at stepped
              rw [← stepped]
              exact .markedFailed e woken env b live due projected
            · simp only [projected, Bool.false_eq_true, if_false] at ran
              rw [attempt_run_ok ran] at stepped
              rw [← stepped]
              exact .start e woken env b live due
        | some r =>
          dsimp only at stepped
          rw [← stepped]
          refine .settle _ e rfl r b live (.inl due) ?_
          by_cases projected : env.fails .projectStart
          · rw [attempt_run_error (bind_run_error (by rw [projectNextWake_run]; simp only [projected, if_true]; rfl)),
              bookkeepingFailed_some]
            simp only [live, if_true]
            exact .postpone _ projected
          · have ran : (projectNextWake env .projectStart >>= fun _ => settle env e r b) s = settle env e r b s := by
              rw [bind_run, projectNextWake_run]
              simp only [projected, Bool.false_eq_true, if_false]
            rw [attempt_run_eq ran]
            exact settle_cases env s live r b
      · simp only [live, Bool.false_eq_true, if_false, update_run] at stepped
        rw [← stepped]
        exact .ended _ e rfl (by simpa using live)
    | delivering b => simp [due] at stepped
    | abandoning r b => simp [due] at stepped
    | done => simp [due] at stepped
  | deliverySettled e result env =>
    simp only [step] at stepped
    cases due : s.task e with
    | delivering b =>
      simp only [due, Option.some.injEq] at stepped
      rw [← stepped, deliverySettled]
      by_cases live : s.isLive e
      · exact .settle _ e rfl _ b live (.inr due) (settle_cases env s live _ b)
      · have ran : settle env e (runAlarmGuarded result) b s = (.ok (), s.setTask e .done) := by
          rw [settle, state_bind]
          simp only [live, Bool.false_eq_true, if_false, update_run]
        rw [attempt_run_ok ran]
        exact .ended _ e rfl (by simpa using live)
    | sleeping completed b => simp [due] at stepped
    | abandoning r b => simp [due] at stepped
    | done => simp [due] at stepped
  | abandonSettled e answer env =>
    simp only [step] at stepped
    cases due : s.task e with
    | abandoning r b =>
      simp only [due, Option.some.injEq] at stepped
      rw [← stepped]
      by_cases live : s.isLive e
      · have ended := shaped.consistent e live
        rw [due] at ended
        exact .report e answer env r b live due (report_cases env s live ended answer r b)
      · have ran : (abandonSettled env e answer r b s).2 = s.setTask e .done := by
          cases answer with
          | none =>
            have threw : abandon env e none s = (.error "abandonAlarm failed", s) := rfl
            rw [abandonSettled, attempt_run_error threw, bookkeepingFailed_some]
            simp [live]
          | some newer =>
            have returned : abandon env e (some newer) s = (.ok (), s.setTask e .done) := by
              simp only [abandon, state_bind, live, Bool.false_eq_true, if_false, update_run]
            rw [abandonSettled, attempt_run_ok returned]
        rw [ran]
        exact .ended _ e rfl (by simpa using live)
    | sleeping completed b => simp [due] at stepped
    | delivering b => simp [due] at stepped
    | done => simp [due] at stepped

end DoRuntime.Alarms.LiveScheduler
