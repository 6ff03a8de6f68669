import DoRuntime.Alarms.TableAgreement
import DoRuntime.Js.Arithmetic

namespace DoRuntime.Alarms

open DoRuntime.Js DoRuntime.Sql Prog Transition

/-- A clock that reads whole milliseconds of a time value, and a jitter as `#jitterMsForDelay` draws it. -/
structure Reading (now : Float) (jitter : Nat → Nat) (n : Int) : Prop where
  whole : integralValue now = some n
  range : n.natAbs ≤ 8640000000000000
  drawn : ∀ delay, jitter delay ≤ delay / 4

/-- What a ladder of retries comes to from the failures processed on it. -/
structure Ladder where
  counted : Nat
  backoff : Nat
  previousCounted : Bool
  due : Option Int

def Ladder.fresh : Ladder where
  counted := 0
  backoff := 0
  previousCounted := false
  due := none

def Ladder.retries (l : Ladder) (backoff : Nat) (counts : Bool) (now : Int) : Ladder where
  counted := l.counted + counts.toNat
  backoff := min retryBackoffMax backoff + 1
  previousCounted := counts
  due := some (now + alarmRetryDelayMs (min retryBackoffMax backoff))

/-- A failed delivery, whose user error after an internal one starts the backoff anew. -/
def Ladder.failed (l : Ladder) (counts : Bool) (now : Int) : Ladder :=
  l.retries (if counts ∧ ¬ l.previousCounted then 0 else l.backoff) counts now

def Ladder.interrupted (l : Ladder) (now : Int) : Ladder := l.retries l.backoff false now

section Readings

variable {now : Float} {jitter : Nat → Nat} {n : Int}

theorem alarmRetryDelayMs_le {backoff : Nat} (rung : backoff ≤ retryBackoffMax) :
    alarmRetryDelayMs backoff ≤ 1024000 := by
  have power : 2 ^ backoff ≤ 2 ^ 9 := Nat.pow_le_pow_right (by decide) rung
  unfold alarmRetryDelayMs alarmRetryStartSeconds
  omega

theorem Reading.retryTime (reading : Reading now jitter n) {backoff : Nat} (rung : backoff ≤ retryBackoffMax)
    :
    ∃ t, integralValue (now + Float.ofNat (alarmRetryDelayMs backoff + jitter (alarmRetryDelayMs backoff)))
      = some t ∧
      n + alarmRetryDelayMs backoff ≤ t ∧ t.natAbs ≤ maxSafeInteger := by
  have delay := alarmRetryDelayMs_le rung
  have drawn := reading.drawn (alarmRetryDelayMs backoff)
  have range := reading.range
  have safe : maxSafeInteger = 9007199254740991 := rfl
  have total : alarmRetryDelayMs backoff + jitter (alarmRetryDelayMs backoff) < 2 ^ 53 := by omega
  refine ⟨_, integralValue_add reading.whole (integralValue_ofNat total) ?_, ?_, ?_⟩
  · omega
  · omega
  · omega

theorem Reading.clockSafe (reading : Reading now jitter n) : LiveScheduler.ClockSafe now jitter := by
  intro backoff rung
  obtain ⟨t, value, _, safe⟩ := reading.retryTime rung
  exact (isSafeInteger_iff _).2 ⟨t, value, safe⟩

end Readings

section Accepted

variable {rows : List AlarmRow}

/-- Every row is accepted by `readPersistedAlarm`. -/
def Accepted (rows : List AlarmRow) : Prop := ∀ row ∈ rows, ∃ persisted,
    readPersistedAlarm row = .ok persisted

theorem readRunning_of_persisted {row : AlarmRow} {persisted : PersistedAlarm}
    (read : readPersistedAlarm row = .ok persisted) : ∃ running, readRunning row = .ok running := by
  unfold readPersistedAlarm at read
  simp only [except_bind_ok] at read
  obtain ⟨_, _, _, _, _, _, _, _, _, _, _, _, _, _, value, held, running, range, _⟩ := read
  exact ⟨running, (except_bind_ok _ _ _).mpr ⟨value, held, range⟩⟩

theorem Accepted.upsert (accepted : Accepted rows) (a : String) (time : Float) :
    Accepted (AlarmScheduler.upsertAlarm rows a time) := by
  intro row member
  rcases AlarmScheduler.mem_upsertAlarm member with rfl | ⟨held, -⟩ | ⟨old, held, rfl, rfl⟩
  · exact ⟨_, readPersistedAlarm_fresh a time _ (readRunning_fresh a time)⟩
  · exact accepted row held
  · obtain ⟨persisted, read⟩ := accepted old held
    obtain ⟨flag, running⟩ := readRunning_of_persisted read
    exact (AlarmScheduler.readPersistedAlarm_upserted old.actorId time old.running).2
      ⟨flag, (AlarmScheduler.readRunning_upserted old time).trans running⟩

theorem Accepted.update (accepted : Accepted rows) (a : String) {f : AlarmRow → AlarmRow}
    (kept : ∀ row persisted, readPersistedAlarm row = .ok persisted → ∃ after, readPersistedAlarm (f row)
      = .ok after) :
    Accepted (updateRow rows a f) := by
  intro row member
  obtain ⟨old, held, rfl⟩ := List.mem_map.1 member
  obtain ⟨persisted, read⟩ := accepted old held
  split
  · exact kept old persisted read
  · exact ⟨persisted, read⟩

theorem Accepted.mark (accepted : Accepted rows) (a : String) {running : Nat} (flag : running ≤ 1) :
    Accepted (updateRow rows a fun row => row.setRunning running) :=
  accepted.update a fun _ _ read => ⟨_, readPersistedAlarm_setRunning flag read⟩

theorem Accepted.delete (accepted : Accepted rows) (a : String) : Accepted (deleteRow rows a) :=
  fun row member => accepted row (List.mem_filter.1 member).1

end Accepted

namespace LiveScheduler

variable {s t : LiveScheduler} {event : Event}

theorem Accepted.set (accepted : Accepted s.rows) (a : String) (time : Float) : Accepted
    (s.set a time).rows := by
  rw [set_rows]
  exact accepted.upsert a time

theorem Accepted.cancel (accepted : Accepted s.rows) (a : String) : Accepted (s.cancel a).rows := by
  rw [cancel_rows]
  exact accepted.delete a

theorem Move.accepted (accepted : Accepted s.rows) (move : Move s event t)
    (clock : ClockSafe event.env.now event.env.jitter) : Accepted t.rows := by
  cases move with
  | idle => exact accepted
  | setAlarm x time => exact Accepted.set accepted x time
  | reconcile x time => exact Accepted.set accepted x time
  | deleteAlarm x => exact Accepted.cancel accepted x
  | deleteAll => exact fun row member => by cases member
  | ended => exact accepted
  | start e => exact accepted.mark _ (by decide)
  | startFailed => exact accepted
  | markedFailed e => exact accepted.mark _ (by decide)
  | settle _ e on r b live due outcome =>
    cases outcome with
    | promote queued behind => exact accepted.mark _ (by decide)
    | retry alone again more =>
      rw [retried_eq]
      refine accepted.update _ fun row _ _ => ⟨_, readPersistedAlarm_saveRetry row _ ?_ ?_ ?_⟩
      · exact clock _ (Nat.min_le_left _ _)
      · exact Nat.succ_le_succ (Nat.min_le_left _ _)
      · exact (Nat.add_le_add_left (Bool.toNat_le _) _).trans more
    | giveUp => exact accepted
    | finish => exact Accepted.cancel (s := s.finished e) accepted _
    | postpone => exact accepted
  | report e answer env r b live due outcome =>
    cases outcome with
    | promote queued behind => exact accepted.mark _ (by decide)
    | newer newer => exact (Accepted.set accepted _ newer).mark _ (by decide)
    | forget => exact Accepted.cancel accepted _
    | postpone => exact accepted
    | newerPostponed newer => exact Accepted.set accepted _ newer

/-- A stretch of the scheduler, or its restart over the table. -/
inductive Turn
  | live (event : Event)
  | restart (now : Float) (jitter : Nat → Nat)

def Turn.now : Turn → Float
  | live event => event.env.now
  | restart now _ => now

def Turn.jitter : Turn → Nat → Nat
  | live event => event.env.jitter
  | restart _ jitter => jitter

def turn (s : LiveScheduler) : Turn → Option LiveScheduler
  | .live event => step s event
  | .restart now jitter =>
    match AlarmScheduler.construct now jitter s.rows with
    | .ok built => some (loaded built)
    | .error _ => none

/-- The alarm of the actor is the one the entry stands for, and not one queued behind it. -/
def Current (s : LiveScheduler) (a : String) (e : Nat) : Prop :=
  s.alarms a = some e ∧ (s.entry e).queuedAlarm = none

instance (s : LiveScheduler) (a : String) (e : Nat) : Decidable (s.Current a e) :=
  inferInstanceAs (Decidable (_ ∧ _))

/-- The result of a delivery of the actor's alarm that the event does the bookkeeping of. -/
def settles (s : LiveScheduler) (a : String) : Event → Option AlarmResult
  | .deliverySettled e result _ =>
    match s.task e with
    | .delivering _ => if s.Current a e then some (runAlarmGuarded result) else none
    | _ => none
  | .wake e _ env =>
    match s.task e with
    | .sleeping (some r) _ => if s.Current a e ∧ env.fails .projectStart = false then some r else none
    | _ => none
  | _ => none

/-- A delivery of the actor was under way, as the table has it. -/
def interrupts (s : LiveScheduler) (a : String) : Bool :=
  match rowOf s.rows a with
  | some row =>
    match readPersistedAlarm row with
    | .ok persisted => persisted.running
    | .error _ => false
  | none => false

/-- A scheduler with the ladder of one actor. -/
structure Followed where
  scheduler : LiveScheduler
  ladder : Ladder

/-- What becomes of the ladder: a failure counts once it is recorded, and is not retried when the tries are used up. -/
def Followed.climb (f : Followed) (a : String) (next : Turn) : Ladder :=
  match next with
  | .live event =>
    match f.scheduler.settles a event with
    | some r =>
      if f.ladder.counted < alarmRetryMaxTries ∧ event.env.fails .saveRetry = false then
        f.ladder.failed r.retryCountsAgainstLimit ((integralValue event.env.now).getD 0)
      else f.ladder
    | none => f.ladder
  | .restart now _ =>
    if f.scheduler.interrupts a then f.ladder.interrupted ((integralValue now).getD 0) else f.ladder

def follow (a : String) (f : Followed) (next : Turn) : Option Followed :=
  (turn f.scheduler next).map fun t => ⟨t, f.climb a next⟩

/-- Each delivery of the actor's alarm fails or is interrupted, and the alarm is neither set anew nor deleted. -/
def Failing (a : String) (f : Followed) (next : Turn) : Prop :=
  (∃ n, Reading next.now next.jitter n) ∧
  match next with
  | .live (.setAlarm x _ _) | .live (.deleteAlarm x _) => x ≠ a
  | .live (.reconcile x stored _) => x = a → f.scheduler.Covers a stored = true
  | .live (.deleteAll _) => False
  | .live (.deliverySettled e result _) => f.scheduler.Current a e → (runAlarmGuarded result).retry = true
  | .live (.abandonSettled e answer _) => f.scheduler.Current a e → answer = none
  | _ => True

/-- The entry of an alarm stands where the ladder does. -/
structure Stands (l : Ladder) (alarm : ScheduledAlarm) : Prop where
  counted : alarm.countedRetry = l.counted
  backoff : alarm.backoff = l.backoff
  previous : alarm.previousRetryCountedAgainstLimit = l.previousCounted
  alone : alarm.queuedAlarm = none
  wake : ∀ w due, alarm.wakeTime = some w → l.due = some due → ∃ t, integralValue w = some t ∧ due ≤ t

/-- The row of an alarm records where the ladder stands. -/
structure Records (l : Ladder) (alarm : ScheduledAlarm) (row : AlarmRow) : Prop where
  time : getInt64 1 row.scheduledTime.read = .ok alarm.scheduledTime
  state : ∃ persisted, readPersistedAlarm row = .ok persisted ∧ persisted.backoff = l.backoff ∧
    persisted.countedRetry = l.counted ∧ persisted.previousRetryCountedAgainstLimit = l.previousCounted ∧
    (∀ retry, persisted.retryTime = some retry → ∃ t, integralValue retry = some t) ∧
    ∀ due, l.due = some due → ∃ retry t, persisted.retryTime = some retry ∧ integralValue retry = some t ∧
      due ≤ t

/-- The alarm of the actor, in the map and in the table. -/
structure Climbs (a : String) (f : Followed) : Prop where
  shaped : Shaped f.scheduler
  keyed : f.scheduler.Keyed
  accepted : Accepted f.scheduler.rows
  tries : f.ladder.counted ≤ alarmRetryMaxTries
  rung : f.ladder.backoff ≤ retryBackoffMax + 1
  entry : ∃ e row, f.scheduler.alarms a = some e ∧ rowOf f.scheduler.rows a = some row ∧
    Stands f.ladder (f.scheduler.entry e) ∧ Records f.ladder (f.scheduler.entry e) row
  carried : ∀ e r b, f.scheduler.alarms a = some e →
    f.scheduler.task e = .sleeping (some r) b ∨ f.scheduler.task e = .abandoning r b → r.retry = true

section Stretches

variable {a : String} {e b : Nat} {r : AlarmResult}

theorem settles_current (settled : s.settles a event = some r) : ∃ e, event.entry = some e ∧ s.Current a e :=
    by
  cases event with
  | wake e woken env =>
    refine ⟨e, rfl, ?_⟩
    simp only [settles] at settled
    split at settled
    · split at settled
      case isTrue mapped => exact mapped.1
      case isFalse => cases settled
    · cases settled
  | deliverySettled e result env =>
    refine ⟨e, rfl, ?_⟩
    simp only [settles] at settled
    split at settled
    · split at settled
      case isTrue mapped => exact mapped
      case isFalse => cases settled
    · cases settled
  | _ => cases settled

/-- The event goes through the bookkeeping of the delivery. -/
theorem step_settles (settled : s.settles a event = some r) (mapped : s.alarms a = some e)
    (live : s.isLive e = true)
    (stepped : step s event = some t) :
    ∃ b, t = (attempt (settle event.env e r b) (fun _ => bookkeepingFailed e (some r) b) s).2 := by
  obtain ⟨i, on, mapped', -⟩ := settles_current settled
  obtain rfl : e = i := Option.some.inj (mapped.symm.trans mapped')
  cases event with
  | wake i woken env =>
    cases on
    simp only [settles, step] at settled stepped
    cases due : s.task e with
    | sleeping completed b =>
      rw [due] at settled stepped
      cases completed with
      | none => cases settled
      | some carried =>
        simp only [Option.ite_none_right_eq_some, Option.some.injEq] at settled stepped
        obtain ⟨⟨-, projects⟩, rfl⟩ := settled
        obtain ⟨-, rfl⟩ := stepped
        refine ⟨b, ?_⟩
        have ran : (projectNextWake env .projectStart >>= fun _ => settle env e carried b)
          s = settle env e carried b s := by
          rw [bind_run, projectNextWake_run]
          simp only [projects, Bool.false_eq_true, if_false]
        unfold wake
        rw [state_bind]
        simp only [live, if_true]
        rw [attempt_run_eq ran]
        rfl
    | _ => rw [due] at settled; cases settled
  | deliverySettled i result env =>
    cases on
    simp only [settles, step] at settled stepped
    cases due : s.task e with
    | delivering b =>
      rw [due] at settled stepped
      simp only [Option.ite_none_right_eq_some, Option.some.injEq] at settled stepped
      obtain ⟨-, rfl⟩ := settled
      exact ⟨b, stepped.symm⟩
    | _ => rw [due] at settled; cases settled
  | _ => cases settled

theorem settles_task (settled : s.settles a event = some r) (mapped : s.alarms a = some e) :
    (∃ b, s.task e = .sleeping (some r) b) ∨
      ∃ b result env, event = .deliverySettled e result env ∧ s.task e = .delivering b ∧
        r = runAlarmGuarded result := by
  obtain ⟨i, on, mapped', -⟩ := settles_current settled
  obtain rfl : e = i := Option.some.inj (mapped.symm.trans mapped')
  cases event with
  | wake i woken env =>
    cases on
    simp only [settles] at settled
    cases due : s.task e with
    | sleeping completed b =>
      rw [due] at settled
      cases completed with
      | none => cases settled
      | some carried =>
        simp only [Option.ite_none_right_eq_some, Option.some.injEq] at settled
        exact .inl ⟨b, by rw [settled.2]⟩
    | _ => rw [due] at settled; cases settled
  | deliverySettled i result env =>
    cases on
    simp only [settles] at settled
    cases due : s.task e with
    | delivering b =>
      rw [due] at settled
      simp only [Option.ite_none_right_eq_some, Option.some.injEq] at settled
      exact .inr ⟨b, result, env, rfl, rfl, settled.2.symm⟩
    | _ => rw [due] at settled; cases settled
  | _ => cases settled

theorem step_wake_postponed {woken : Float} {env : Env} (due : s.task e = .sleeping (some r) b)
    (live : s.isLive e = true) (failed : env.fails .projectStart = true)
    (stepped : step s (.wake e woken env) = some t) : t = s.postponed e r b := by
  simp only [step, due, Option.ite_none_right_eq_some, Option.some.injEq] at stepped
  obtain ⟨-, rfl⟩ := stepped
  unfold wake
  rw [state_bind]
  simp only [live, if_true]
  rw [attempt_run_error (bind_run_error (by rw [projectNextWake_run]; simp only [failed, if_true]; rfl)),
    bookkeepingFailed_some]
  simp only [live, if_true]

theorem step_abandon_failed {env : Env} (due : s.task e = .abandoning r b) (live : s.isLive e = true)
    (stepped : step s (.abandonSettled e none env) = some t) : t = s.postponed e r b := by
  simp only [step, due, Option.some.injEq] at stepped
  have threw : abandon env e none s = (.error "abandonAlarm failed", s) := rfl
  rw [← stepped, abandonSettled, attempt_run_error threw, bookkeepingFailed_some]
  simp only [live, if_true]

theorem step_reconcile_covered {stored : Float} {env : Env} (covered : s.Covers a stored = true)
    (stepped : step s (.reconcile a stored env) = some t) : t = s := by
  simp only [step, Option.some.injEq, reconcile_run, covered, if_true] at stepped
  exact stepped.symm

end Stretches

section Climbing

variable {a : String} {f : Followed} {l : Ladder}

theorem Stands.ended {alarm : ScheduledAlarm} (stands : Stands l alarm) (status : AlarmStatus) :
    Stands l { alarm with status } :=
  ⟨stands.counted, stands.backoff, stands.previous, stands.alone, stands.wake⟩

theorem Stands.unwoken {alarm : ScheduledAlarm} (stands : Stands l alarm) (status : AlarmStatus) :
    Stands l { alarm with status, wakeTime := none } :=
  ⟨stands.counted, stands.backoff, stands.previous, stands.alone, fun w due none _ => by cases none⟩

theorem Records.timed {alarm after : ScheduledAlarm} {row : AlarmRow} (records : Records l alarm row)
    (time : after.scheduledTime = alarm.scheduledTime) : Records l after row :=
  ⟨by rw [time]; exact records.time, records.state⟩

theorem Records.mark {alarm : ScheduledAlarm} {row : AlarmRow} (records : Records l alarm row) {running : Nat}
    (flag : running ≤ 1) : Records l alarm (row.setRunning running) := by
  obtain ⟨persisted, read, backoff, counted, previous, retries, due⟩ := records.state
  exact ⟨records.time, _, readPersistedAlarm_setRunning flag read, backoff, counted, previous, retries, due⟩

theorem Climbs.frame (climbs : Climbs a f) (same : SameFor a f.scheduler t) (shaped : Shaped t)
    (keyed : t.Keyed)
    (accepted : Accepted t.rows) : Climbs a ⟨t, f.ladder⟩ := by
  obtain ⟨e, row, mapped, held, stands, records⟩ := climbs.entry
  obtain ⟨made, mine⟩ := climbs.shaped.mapped a e mapped
  obtain ⟨entry, task, -, -⟩ := same.entries e made mine
  refine ⟨shaped, keyed, accepted, climbs.tries, climbs.rung, ?_, ?_⟩
  · exact ⟨e, row, same.alarms.trans mapped, same.row.trans held, by rw [entry]; exact stands,
      by rw [entry]; exact records⟩
  · intro i r b mapped' carries
    obtain rfl : e = i := Option.some.inj (mapped.symm.trans (same.alarms.symm.trans mapped'))
    rw [task] at carries
    exact climbs.carried e r b mapped carries

/-- A step on the entry of the alarm. -/
theorem Climbs.update (climbs : Climbs a f) {e : Nat} (mapped : f.scheduler.alarms a = some e)
    (shaped : Shaped t)
    (keyed : t.Keyed) (accepted : Accepted t.rows) (tries : l.counted ≤ alarmRetryMaxTries)
    (rung : l.backoff ≤ retryBackoffMax + 1) (alarms : t.alarms a = f.scheduler.alarms a)
    (stands : Stands f.ladder (f.scheduler.entry e) → Stands l (t.entry e))
    (records : ∀ row, rowOf f.scheduler.rows a = some row → Records f.ladder (f.scheduler.entry e) row →
      ∃ after, rowOf t.rows a = some after ∧ Records l (t.entry e) after)
    (carried : ∀ r b, t.task e = .sleeping (some r) b ∨ t.task e = .abandoning r b → r.retry = true) :
    Climbs a ⟨t, l⟩ := by
  obtain ⟨i, row, mapped', held, stood, recorded⟩ := climbs.entry
  obtain rfl : e = i := Option.some.inj (mapped.symm.trans mapped')
  obtain ⟨after, left, records⟩ := records row held recorded
  refine ⟨shaped, keyed, accepted, tries, rung, ⟨e, after, alarms.trans mapped, left, stands stood, records⟩,
    ?_⟩
  intro j r b mapped'' carries
  obtain rfl : e = j := Option.some.inj (mapped.symm.trans (alarms.symm.trans mapped''))
  exact carried r b carries

/-- The step gives the alarm of the actor up. -/
def Abandons (a : String) (s t : LiveScheduler) : Prop :=
  ∃ e, s.alarms a = some e ∧ (∃ r b, t.task e = .abandoning r b) ∧ ¬ ∃ r b, s.task e = .abandoning r b

theorem not_abandons {e : Nat} (mapped : s.alarms a = some e) (task : ∀ r b, t.task e ≠ .abandoning r b) :
    ¬ Abandons a s t := by
  rintro ⟨i, mapped', ⟨r, b, gone⟩, -⟩
  obtain rfl : e = i := Option.some.inj (mapped.symm.trans mapped')
  exact task r b gone

theorem not_abandons_same (task : ∀ e, s.alarms a = some e → t.task e = s.task e) : ¬ Abandons a s t := by
  rintro ⟨e, mapped, ⟨r, b, gone⟩, before⟩
  exact before ⟨r, b, (task e mapped).symm.trans gone⟩

theorem Climbs.live (climbs : Climbs a f) : ∃ e, f.scheduler.alarms a = some e ∧
    f.scheduler.isLive e = true := by
  obtain ⟨e, row, mapped, -⟩ := climbs.entry
  have mine := (climbs.shaped.mapped a e mapped).2
  refine ⟨e, mapped, ?_⟩
  rw [isLive_iff, mine]
  exact mapped

theorem Climbs.alone (climbs : Climbs a f) {e : Nat} (mapped : f.scheduler.alarms a = some e) :
    (f.scheduler.entry e).queuedAlarm = none := by
  obtain ⟨i, row, mapped', -, stands, -⟩ := climbs.entry
  obtain rfl : e = i := Option.some.inj (mapped.symm.trans mapped')
  exact stands.alone

theorem Climbs.postponed (climbs : Climbs a f) {e b : Nat} {r : AlarmResult}
    (mapped : f.scheduler.alarms a = some e)
    (live : f.scheduler.isLive e = true) (again : r.retry = true) : Climbs a ⟨f.scheduler.postponed e r b,
      f.ladder⟩ ∧
      ¬ Abandons a f.scheduler (f.scheduler.postponed e r b) := by
  have task : (f.scheduler.postponed e r b).task e = .sleeping (some r) (min retryBackoffMax b + 1) :=
    setTask_self ..
  have entry : (f.scheduler.postponed e r b).entry e = { f.scheduler.entry e with status := .finished } :=
    setEntry_entry_self (s := f.scheduler) e fun x => { x with status := .finished }
  constructor
  · refine climbs.update mapped (climbs.shaped.postponed live r b)
      climbs.keyed climbs.accepted climbs.tries climbs.rung
      rfl ?_ ?_ ?_
    · intro stands
      rw [entry]
      exact stands.ended .finished
    · intro row held records
      rw [entry]
      exact ⟨row, held, records.timed rfl⟩
    · intro r' b' carries
      rw [task] at carries
      rcases carries with same | same
      · cases same
        exact again
      · cases same
  · apply not_abandons mapped
    intro r' b' gone
    rw [task] at gone
    cases gone

/-- The entry whose task the event resumes is not on the map any more. -/
theorem Climbs.dead (climbs : Climbs a f) {e : Nat} (move : Move f.scheduler event t)
    (on : event.entry = some e)
    (dead : f.scheduler.isLive e = false) : Climbs a ⟨t, f.ladder⟩ ∧ ¬ Abandons a f.scheduler t := by
  have resumed : ∀ i, event.entry = some i → f.scheduler.isLive i = true → False := by
    intro i on' live
    obtain rfl : e = i := Option.some.inj (on.symm.trans on')
    rw [dead] at live
    cases live
  have shaped := move.shaped climbs.shaped
  cases move with
  | idle => exact ⟨climbs, not_abandons_same fun _ _ => rfl⟩
  | ended _ i on' gone =>
    obtain ⟨k, mapped, live⟩ := climbs.live
    have apart : k ≠ i := by
      rintro rfl
      rw [gone] at live
      cases live
    have task := setTask_other (s := f.scheduler) apart .done
    refine ⟨climbs.update mapped shaped climbs.keyed climbs.accepted climbs.tries climbs.rung rfl
      (fun stands => stands)
      (fun row held records => ⟨row, held, records⟩) ?_, not_abandons_same fun i mapped' => ?_⟩
    · intro r b carries
      rw [task] at carries
      exact climbs.carried k r b mapped carries
    · obtain rfl : k = i := Option.some.inj (mapped.symm.trans mapped')
      exact task
  | start i _ _ _ live => exact (resumed i rfl live).elim
  | startFailed i _ _ _ live => exact (resumed i rfl live).elim
  | markedFailed i _ _ _ live => exact (resumed i rfl live).elim
  | settle _ i on' _ _ live => exact (resumed i on' live).elim
  | report i _ _ _ _ live => exact (resumed i rfl live).elim
  | _ => cases on

/-- A timer that fires for an entry without a result to follow up. -/
theorem Climbs.started (climbs : Climbs a f) {e b : Nat} {woken : Float} {env : Env}
    (mapped : f.scheduler.alarms a = some e) (live : f.scheduler.isLive e = true)
    (due : f.scheduler.task e = .sleeping none b) (move : Move f.scheduler (.wake e woken env) t)
    (accepted : Accepted t.rows) : Climbs a ⟨t, f.ladder⟩ ∧ ¬ Abandons a f.scheduler t := by
  have shaped := move.shaped climbs.shaped
  have keyed := move.keyed climbs.keyed
  have mine := (climbs.shaped.mapped a e mapped).2
  have marks : ∀ {alarm : ScheduledAlarm} row, rowOf f.scheduler.rows a = some row →
      Records f.ladder alarm row → ∃ after, rowOf (f.scheduler.marked e).rows a = some after ∧
        Records f.ladder alarm after := by
    intro alarm row held records
    refine ⟨row.setRunning 1, ?_, records.mark (by decide)⟩
    change rowOf (updateRow f.scheduler.rows (f.scheduler.entry e).actorId fun row => row.setRunning 1) a = _
    rw [rowOf_setRunning, if_pos mine.symm, mine, held]
    rfl
  cases move with
  | idle => exact ⟨climbs, not_abandons_same fun _ _ => rfl⟩
  | ended _ i on gone =>
    cases on
    rw [gone] at live
    cases live
  | start _ _ _ b' =>
    have task : (f.scheduler.started e b').task e = .delivering b' := setTask_self ..
    have entry := markedUnwoken_entry_self f.scheduler e
    refine ⟨climbs.update mapped shaped keyed accepted climbs.tries climbs.rung rfl ?_ ?_ ?_,
      not_abandons mapped fun r' b'' gone => ?_⟩
    · intro stands
      change Stands _ ((f.scheduler.markedUnwoken e).entry e)
      rw [entry]
      exact stands.unwoken .started
    · intro row held records
      obtain ⟨after, left, recorded⟩ := marks row held records
      refine ⟨after, left, ?_⟩
      change Records _ ((f.scheduler.markedUnwoken e).entry e) after
      rw [entry]
      exact recorded.timed rfl
    · intro r' b'' carries
      rw [task] at carries
      rcases carries with same | same <;> cases same
    · rw [task] at gone
      cases gone
  | startFailed _ _ _ b' =>
    have task : (f.scheduler.startFailed e b').task e = .sleeping none (min retryBackoffMax b' + 1) :=
      setTask_self ..
    have entry : (f.scheduler.startFailed e b').entry e = { f.scheduler.entry e with status := .waiting } :=
      setEntry_entry_self (s := f.scheduler) e fun x => { x with status := .waiting }
    refine ⟨climbs.update mapped shaped keyed accepted climbs.tries climbs.rung rfl ?_ ?_ ?_,
      not_abandons mapped fun r' b'' gone => ?_⟩
    · intro stands
      rw [entry]
      exact stands.ended .waiting
    · intro row held records
      rw [entry]
      exact ⟨row, held, records.timed rfl⟩
    · intro r' b'' carries
      rw [task] at carries
      rcases carries with same | same <;> cases same
    · rw [task] at gone
      cases gone
  | markedFailed _ _ _ b' =>
    have task : ((f.scheduler.markedUnwoken e).startFailed e b').task e =
        .sleeping none (min retryBackoffMax b' + 1) := setTask_self ..
    have entry : ((f.scheduler.markedUnwoken e).startFailed e b').entry e =
        { f.scheduler.entry e with status := .waiting, wakeTime := none } := by
      rw [markedFailed_eq]
      exact setEntry_entry_self (s := f.scheduler.marked e) e fun x =>
        { x with status := .waiting, wakeTime := none }
    refine ⟨climbs.update mapped shaped keyed accepted climbs.tries climbs.rung rfl ?_ ?_ ?_,
      not_abandons mapped fun r' b'' gone => ?_⟩
    · intro stands
      rw [entry]
      exact stands.unwoken .waiting
    · intro row held records
      obtain ⟨after, left, recorded⟩ := marks row held records
      rw [entry]
      exact ⟨after, left, recorded.timed rfl⟩
    · intro r' b'' carries
      rw [task] at carries
      rcases carries with same | same <;> cases same
    · rw [task] at gone
      cases gone
  | settle _ i on r' b' _ carries =>
    cases on
    rw [due] at carries
    rcases carries with same | same <;> cases same

/-- A step that does the bookkeeping of no delivery of the alarm. -/
theorem Climbs.quiet (climbs : Climbs a f) (failing : Failing a f (.live event))
    (stepped : step f.scheduler event = some t) (quiet : f.scheduler.settles a event = none) :
    Climbs a ⟨t, f.ladder⟩ ∧ ¬ Abandons a f.scheduler t := by
  obtain ⟨⟨n, reading⟩, failing⟩ := failing
  have move := step_moves climbs.shaped event stepped
  have shaped := move.shaped climbs.shaped
  have keyed := move.keyed climbs.keyed
  have accepted := move.accepted climbs.accepted reading.clockSafe
  by_cases touched : event.Touches f.scheduler a
  · have on_map : ∀ {e}, (f.scheduler.entry e).actorId = a → f.scheduler.isLive e = true →
        f.scheduler.alarms a = some e := by
      rintro e rfl live
      exact (isLive_iff _ e).1 live
    have alone : ∀ {e}, f.scheduler.alarms a = some e → f.scheduler.Current a e := fun mapped =>
      ⟨mapped, climbs.alone mapped⟩
    cases event with
    | setAlarm x time env => exact absurd touched failing
    | deleteAlarm x env => exact absurd touched failing
    | reconcile x time env =>
      obtain rfl : x = a := touched
      rw [step_reconcile_covered (failing rfl) stepped]
      exact ⟨climbs, not_abandons_same fun _ _ => rfl⟩
    | deleteAll env => exact failing.elim
    | wake e woken env =>
      by_cases live : f.scheduler.isLive e = true
      · have mapped := on_map touched live
        cases due : f.scheduler.task e with
        | sleeping completed b =>
          cases completed with
          | none => exact climbs.started mapped live due move accepted
          | some r =>
            have failed : env.fails .projectStart = true := by
              by_contra works
              simp only [settles, due, alone mapped, true_and] at quiet
              rw [if_pos (Bool.eq_false_iff.2 works)] at quiet
              cases quiet
            rw [step_wake_postponed due live failed stepped]
            exact climbs.postponed mapped live (climbs.carried e r b mapped (.inl due))
        | _ =>
          simp only [step, due] at stepped
          cases stepped
      · exact climbs.dead move rfl (Bool.eq_false_iff.2 live)
    | deliverySettled e result env =>
      by_cases live : f.scheduler.isLive e = true
      · have mapped := on_map touched live
        cases due : f.scheduler.task e with
        | delivering b =>
          simp only [settles, due, alone mapped, if_true] at quiet
          cases quiet
        | _ =>
          simp only [step, due] at stepped
          cases stepped
      · exact climbs.dead move rfl (Bool.eq_false_iff.2 live)
    | abandonSettled e answer env =>
      by_cases live : f.scheduler.isLive e = true
      · have mapped := on_map touched live
        obtain rfl : answer = none := failing (alone mapped)
        cases due : f.scheduler.task e with
        | abandoning r b =>
          rw [step_abandon_failed due live stepped]
          exact climbs.postponed mapped live (climbs.carried e r b mapped (.inr due))
        | _ =>
          simp only [step, due] at stepped
          cases stepped
      · exact climbs.dead move rfl (Bool.eq_false_iff.2 live)
  · have same := move.frame climbs.shaped touched
    refine ⟨climbs.frame same shaped keyed accepted, not_abandons_same fun e mapped => ?_⟩
    obtain ⟨made, mine⟩ := climbs.shaped.mapped a e mapped
    exact (same.entries e made mine).2.1

theorem Climbs.givenUp (climbs : Climbs a f) {e b : Nat} {r : AlarmResult}
    (mapped : f.scheduler.alarms a = some e)
    (again : r.retry = true) (shaped : Shaped (f.scheduler.givenUp e r b)) :
    Climbs a ⟨f.scheduler.givenUp e r b, f.ladder⟩ := by
  have task : (f.scheduler.givenUp e r b).task e = .abandoning r b := setTask_self ..
  have entry : (f.scheduler.givenUp e r b).entry e = { f.scheduler.entry e with status := .finished } :=
    finished_entry_self f.scheduler e
  refine climbs.update mapped shaped climbs.keyed climbs.accepted climbs.tries climbs.rung rfl ?_ ?_ ?_
  · intro stands
    rw [entry]
    exact stands.ended .finished
  · intro row held records
    rw [entry]
    exact ⟨row, held, records.timed rfl⟩
  · intro r' b' carries
    rw [task] at carries
    rcases carries with same | same
    · cases same
    · cases same
      exact again

/-- The failure is recorded, and its retry waits. -/
theorem Climbs.retried (climbs : Climbs a f) {e : Nat} {r : AlarmResult} {env : Env} {n : Int}
    (mapped : f.scheduler.alarms a = some e) (more : f.ladder.counted < alarmRetryMaxTries)
    (reading : Reading env.now env.jitter n) (shaped : Shaped (f.scheduler.retried env e r))
    (keyed : (f.scheduler.retried env e r).Keyed) (accepted : Accepted (f.scheduler.retried env e r).rows) :
    Climbs a ⟨f.scheduler.retried env e r, f.ladder.failed r.retryCountsAgainstLimit n⟩ := by
  have mine := (climbs.shaped.mapped a e mapped).2
  have entry : (f.scheduler.retried env e r).entry e =
      { f.scheduler.entry e with
        status := .finished
        backoff := f.scheduler.retryBackoff e r + 1
        countedRetry := f.scheduler.retryCount e r
        previousRetryCountedAgainstLimit := r.retryCountsAgainstLimit
        wakeTime := some (retryTime env (f.scheduler.retryBackoff e r)) } := by
    rw [retried_eq]
    simp [LiveScheduler.setEntry, setTask]
  have task : (f.scheduler.retried env e r).task e = .sleeping none 0 := by
    rw [retried_eq]
    exact setTask_self ..
  have rung : f.scheduler.retryBackoff e r ≤ retryBackoffMax := Nat.min_le_left _ _
  obtain ⟨time, value, late, safe⟩ := reading.retryTime rung
  have next : Stands f.ladder (f.scheduler.entry e) →
      f.scheduler.retryBackoff e r + 1 = (f.ladder.failed r.retryCountsAgainstLimit n).backoff ∧
      f.scheduler.retryCount e r = (f.ladder.failed r.retryCountsAgainstLimit n).counted ∧
      (f.ladder.failed r.retryCountsAgainstLimit n).due =
        some (n + alarmRetryDelayMs (f.scheduler.retryBackoff e r)) := by
    intro stands
    unfold retryBackoff retryCount Ladder.failed Ladder.retries
    rw [stands.counted, stands.backoff, stands.previous]
    simp
  refine climbs.update mapped shaped keyed accepted ?_ ?_ ?_ ?_ ?_ ?_
  · exact (Nat.add_le_add_left (Bool.toNat_le _) _).trans more
  · exact Nat.succ_le_succ (Nat.min_le_left _ _)
  · rw [retried_eq]
    rfl
  · intro stands
    obtain ⟨backoff, counted, due⟩ := next stands
    rw [entry]
    refine ⟨counted, backoff, rfl, stands.alone, ?_⟩
    intro w due' woken same
    cases woken
    rw [due] at same
    cases same
    exact ⟨time, value, late⟩
  · intro row held records
    obtain ⟨i, _, mapped', -, stands, -⟩ := climbs.entry
    obtain rfl : e = i := Option.some.inj (mapped.symm.trans mapped')
    obtain ⟨backoff, counted, due⟩ := next stands
    refine ⟨_, ?_, ?_, _, readPersistedAlarm_saveRetry row r.retryCountsAgainstLimit
      (reading.clockSafe _ rung)
      (Nat.succ_le_succ rung) ?_, backoff, counted, rfl, ?_, ?_⟩
    · rw [retried_eq]
      change rowOf (updateRow f.scheduler.rows (f.scheduler.entry e).actorId _) a = _
      rw [rowOf_saveRetry, if_pos mine.symm, mine, held]
      rfl
    · rw [entry]
      exact records.time
    · rw [stands.counted]
      exact (Nat.add_le_add_left (Bool.toNat_le _) _).trans more
    · intro retry same
      cases same
      exact ⟨time, value⟩
    · intro due' same
      rw [due] at same
      cases same
      exact ⟨_, time, rfl, value, late⟩
  · intro r' b' carries
    rw [task] at carries
    rcases carries with same | same <;> cases same

/-- A step that does the bookkeeping of a failed delivery of the alarm. -/
theorem Climbs.settled (climbs : Climbs a f) (failing : Failing a f (.live event))
    (stepped : step f.scheduler event = some t) {r : AlarmResult}
      (settled : f.scheduler.settles a event = some r) :
    r.retry = true ∧ Climbs a ⟨t, f.climb a (.live event)⟩ ∧
      (Abandons a f.scheduler t ↔ f.ladder.counted = alarmRetryMaxTries) := by
  obtain ⟨⟨n, reading⟩, failing⟩ := failing
  have move := step_moves climbs.shaped event stepped
  have shaped := move.shaped climbs.shaped
  have keyed := move.keyed climbs.keyed
  have accepted := move.accepted climbs.accepted reading.clockSafe
  obtain ⟨e, mapped, live⟩ := climbs.live
  obtain ⟨b, same⟩ := step_settles settled mapped live stepped
  have origin := settles_task settled mapped
  have again : r.retry = true := by
    rcases origin with ⟨b', due⟩ | ⟨b', result, env, rfl, due, rfl⟩
    · exact climbs.carried e r b' mapped (.inl due)
    · exact failing ⟨mapped, climbs.alone mapped⟩
  have before : ¬ ∃ r b, f.scheduler.task e = .abandoning r b := by
    rintro ⟨r', b', gone⟩
    rcases origin with ⟨_, due⟩ | ⟨_, _, _, -, due, -⟩
    · rw [due] at gone
      cases gone
    · rw [due] at gone
      cases gone
  obtain ⟨i, row, mapped', -, stands, -⟩ := climbs.entry
  obtain rfl : e = i := Option.some.inj (mapped.symm.trans mapped')
  rw [settle_retry event.env f.scheduler live stands.alone again b, stands.counted] at same
  have climb : f.climb a (.live event) =
      if f.ladder.counted < alarmRetryMaxTries ∧ event.env.fails .saveRetry = false then
        f.ladder.failed r.retryCountsAgainstLimit n
      else f.ladder := by
    have whole : integralValue event.env.now = some n := reading.whole
    unfold Followed.climb
    simp only [settled, whole, Option.getD_some]
  have tries := climbs.tries
  refine ⟨again, ?_⟩
  rw [climb]
  by_cases spent : alarmRetryMaxTries ≤ f.ladder.counted
  · rw [if_pos spent] at same
    subst same
    rw [if_neg fun more => absurd more.1 (Nat.not_lt.2 spent)]
    refine ⟨climbs.givenUp mapped again shaped, fun _ => Nat.le_antisymm tries spent, fun _ => ?_⟩
    exact ⟨e, mapped, ⟨r, b, setTask_self ..⟩, before⟩
  · rw [if_neg spent] at same
    have fewer : f.ladder.counted ≠ alarmRetryMaxTries := fun all => spent (Nat.le_of_eq all.symm)
    by_cases refused : event.env.fails .saveRetry = true
    · rw [if_pos refused] at same
      subst same
      rw [if_neg fun more => by rw [refused] at more; cases more.2]
      obtain ⟨climbs, kept⟩ := climbs.postponed (b := b) mapped live again
      exact ⟨climbs, fun gone => absurd gone kept, fun all => absurd all fewer⟩
    · rw [if_neg refused] at same
      subst same
      rw [if_pos ⟨Nat.lt_of_not_le spent, Bool.eq_false_iff.2 refused⟩]
      refine ⟨climbs.retried mapped (Nat.lt_of_not_le spent) reading shaped keyed accepted, fun gone => ?_,
        fun all => absurd all fewer⟩
      refine absurd gone (not_abandons mapped fun r' b' waits => ?_)
      rw [retried_eq] at waits
      have task := (setTask_self (s := _) e (.sleeping none 0)).symm.trans waits
      cases task

end Climbing

end LiveScheduler

end DoRuntime.Alarms
