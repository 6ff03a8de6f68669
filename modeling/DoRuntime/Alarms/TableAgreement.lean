import DoRuntime.Alarms.AlarmReload
import DoRuntime.Alarms.Cancellation

namespace DoRuntime.Alarms

open DoRuntime.Js DoRuntime.Sql Transition

/-- What the row says of an alarm; a delivery it still marks is under way or to be followed up. -/
structure AlarmRow.Describes (row : AlarmRow) (alarm : ScheduledAlarm) (busy : Bool) : Prop where
  time : getInt64 1 row.scheduledTime.read = .ok alarm.scheduledTime
  state : ∃ persisted, readPersistedAlarm row = .ok persisted ∧ persisted.backoff = alarm.backoff ∧
    persisted.countedRetry = alarm.countedRetry ∧
    persisted.previousRetryCountedAgainstLimit = alarm.previousRetryCountedAgainstLimit ∧
    (persisted.running = true → busy = true)

section Rows

theorem ofNat_small {n : Nat} (small : n ≤ 10) :
    isSafeInteger (Float.ofNat n) = true ∧ integralValue (Float.ofNat n) = some (n : Int) := by
  have all : ∀ n : Fin 11, isSafeInteger (Float.ofNat n) = true ∧ integralValue (Float.ofNat n) = some (n : Int) := by
    decide +kernel
  exact all ⟨n, Nat.lt_succ_of_le small⟩

theorem ofNat_getInt64 (column : Nat) {n : Nat} (small : n ≤ 10) :
    getInt64 column (bindNumber .integer (some (Float.ofNat n))).read = .ok (Float.ofNat n) :=
  (getInt64_bound .integer column (not_nan_of_safe (ofNat_small small).1)).1 (ofNat_small small).1

theorem ofNat_requireRange (actorId column : String) {n max : Nat} (small : n ≤ 10) (within : n ≤ max) :
    requireRange actorId column (Float.ofNat n) max = .ok n := by
  have inside : ¬ ((max : Int) < n) := by omega
  simp [requireRange, (ofNat_small small).2, inside]

theorem readPersistedAlarm_setRunning {row : AlarmRow} {persisted : PersistedAlarm} {n : Nat} (flag : n ≤ 1)
    (read : readPersistedAlarm row = .ok persisted) :
    readPersistedAlarm (row.setRunning n) = .ok { persisted with running := n = 1 } := by
  have small : n ≤ 10 := by omega
  unfold readPersistedAlarm at read ⊢
  simp only [except_bind_ok] at read ⊢
  obtain ⟨retry, retryRead, b, bRead, b', bRange, c, cRead, c', cRange, p, pRead, p', pRange, _, _, _, _, same⟩ := read
  cases same
  exact ⟨retry, retryRead, b, bRead, b', bRange, c, cRead, c', cRange, p, pRead, p', pRange, _,
    ofNat_getInt64 6 small, n, ofNat_requireRange _ _ small flag, rfl⟩

theorem readPersistedAlarm_fresh (a : String) (time : Float) (running : Cell) {flag : Nat}
    (read : readRunning { AlarmScheduler.freshRow a time with running } = .ok flag) :
    readPersistedAlarm { AlarmScheduler.freshRow a time with running } =
      .ok ⟨none, 0, 0, false, flag = 1⟩ := by
  simp only [readRunning, except_bind_ok] at read
  obtain ⟨value, read, range⟩ := read
  change getInt64 6 running.read = _ at read
  change requireRange a _ _ _ = _ at range
  simp only [readPersistedAlarm, readRetryTime, AlarmScheduler.freshRow, bindNumber_none, null_read, isNull,
    AlarmScheduler.zero_getInt64, AlarmScheduler.zero_requireRange, if_true, bind, Except.bind, pure, Except.pure,
    read, range]
  rfl

theorem readPersistedAlarm_saveRetry (row : AlarmRow) {retryTime : Float} {backoff countedRetry : Nat} (counted : Bool)
    (safe : isSafeInteger retryTime = true) (ladder : backoff ≤ 10) (budget : countedRetry ≤ alarmRetryMaxTries) :
    readPersistedAlarm (row.saveRetry retryTime backoff countedRetry counted) =
      .ok ⟨some retryTime, backoff, countedRetry, counted, false⟩ := by
  have number := not_nan_of_safe safe
  have retry : readRetryTime (row.saveRetry retryTime backoff countedRetry counted) = .ok (some retryTime) := by
    simp [readRetryTime, AlarmRow.saveRetry, bindNumber_not_null .integer number,
      (getInt64_bound .integer 2 number).1 safe, Except.map]
  have tries : countedRetry ≤ 10 := Nat.le_trans budget (by decide)
  have one : counted.toNat ≤ 1 := Bool.toNat_le counted
  unfold readPersistedAlarm
  simp only [except_bind_ok]
  refine ⟨_, retry, _, ofNat_getInt64 3 ladder, _, ofNat_requireRange _ _ ladder ladder, _, ofNat_getInt64 4 tries, _,
    ofNat_requireRange _ _ tries budget, _, ofNat_getInt64 5 (Nat.le_trans one (by decide)), _,
    ofNat_requireRange _ _ (Nat.le_trans one (by decide)) one, _, ofNat_getInt64 6 (n := 0) (by decide), 0,
    ofNat_requireRange _ _ (by decide) (by decide), ?_⟩
  cases counted <;> rfl

theorem AlarmRow.Describes.loads {row : AlarmRow} {alarm : ScheduledAlarm} {busy : Bool}
    (described : row.Describes alarm busy) : row.Loads :=
  ⟨⟨_, described.time⟩, described.state.imp fun _ state => state.1⟩

theorem AlarmRow.Describes.setRunning {row : AlarmRow} {alarm : ScheduledAlarm} {busy : Bool}
    (described : row.Describes alarm busy) {n : Nat} (flag : n ≤ 1) {busy' : Bool} (marks : n = 1 → busy' = true) :
    (row.setRunning n).Describes alarm busy' := by
  obtain ⟨persisted, read, backoff, counted, previous, _⟩ := described.state
  refine ⟨described.time, _, readPersistedAlarm_setRunning flag read, backoff, counted, previous, ?_⟩
  intro running
  exact marks (of_decide_eq_true running)

theorem AlarmRow.Describes.flag {row : AlarmRow} {alarm : ScheduledAlarm} {busy : Bool}
    (described : row.Describes alarm busy) : ∃ flag, readRunning row = .ok flag ∧ (flag = 1 → busy = true) := by
  obtain ⟨persisted, read, _, _, _, marks⟩ := described.state
  unfold readPersistedAlarm at read
  simp only [except_bind_ok] at read
  obtain ⟨_, _, _, _, _, _, _, _, _, _, _, _, _, _, value, running, flag, range, same⟩ := read
  cases same
  exact ⟨flag, (except_bind_ok _ _ _).mpr ⟨value, running, range⟩, fun one => marks (decide_eq_true one)⟩

/-- The row an upsert leaves, whatever it replaced. -/
theorem readRunning_fresh (a : String) (time : Float) : readRunning (AlarmScheduler.freshRow a time) = .ok 0 := by
  simp only [readRunning, AlarmScheduler.freshRow, AlarmScheduler.zero_getInt64, bind, Except.bind,
    AlarmScheduler.zero_requireRange]

theorem describes_upserted {old : Option AlarmRow} {a : String} {time : Float} {busy : Bool}
    (safe : isSafeInteger time = true)
    (was : ∀ row, old = some row → row.actorId = a ∧ ∃ flag, readRunning row = .ok flag ∧ (flag = 1 → busy = true)) :
    (upserted old a time).Describes (scheduleAlarm a time none) busy := by
  have time_read := (getInt64_bound .integer 1 (not_nan_of_safe safe)).1 safe
  cases old with
  | none =>
    refine ⟨time_read, _, readPersistedAlarm_fresh a time _ (readRunning_fresh a time), rfl, rfl, rfl, ?_⟩
    intro running
    cases running
  | some row =>
    obtain ⟨rfl, flag, read, marks⟩ := was row rfl
    refine ⟨time_read, _, readPersistedAlarm_fresh row.actorId time row.running read, rfl, rfl, rfl, ?_⟩
    intro running
    exact marks (of_decide_eq_true running)

theorem AlarmRow.Describes.saveRetry {row : AlarmRow} {alarm : ScheduledAlarm} {busy : Bool}
    (described : row.Describes alarm busy) {retryTime : Float} {backoff countedRetry : Nat} {counted : Bool}
    (safe : isSafeInteger retryTime = true) (ladder : backoff ≤ 10) (budget : countedRetry ≤ alarmRetryMaxTries)
    {retried : ScheduledAlarm} (time : retried.scheduledTime = alarm.scheduledTime) (backoff_eq : retried.backoff = backoff)
    (counted_eq : retried.countedRetry = countedRetry)
    (previous : retried.previousRetryCountedAgainstLimit = counted) (busy' : Bool) :
    (row.saveRetry retryTime backoff countedRetry counted).Describes retried busy' := by
  refine ⟨by rw [time]; exact described.time, _, readPersistedAlarm_saveRetry row counted safe ladder budget,
    backoff_eq.symm, counted_eq.symm, previous.symm, ?_⟩
  intro running
  cases running

end Rows

namespace LiveScheduler

/-- The alarm an entry stands for: the one queued behind it, if there is one. -/
def current (s : LiveScheduler) (e : Nat) : ScheduledAlarm :=
  match (s.entry e).queuedAlarm with
  | some queued => scheduleAlarm (s.entry e).actorId queued none
  | none => s.entry e

/-- Every retry that the clock and the jitter can come to is a time that a column can hold. -/
def ClockSafe (now : Float) (jitter : Nat → Nat) : Prop :=
  ∀ backoff ≤ retryBackoffMax,
    isSafeInteger (now + Float.ofNat (alarmRetryDelayMs backoff + jitter (alarmRetryDelayMs backoff))) = true

/-- The times the event brings are safe integers, and a timer that fires finds a projection that works. -/
def Timely (_ : LiveScheduler) (event : Event) : Prop :=
  ClockSafe event.env.now event.env.jitter ∧
  match event with
  | .setAlarm _ time _ | .reconcile _ time _ | .abandonSettled _ (some (some time)) _ => isSafeInteger time = true
  | .wake _ _ env => env.fails .projectStart = false
  | _ => True

/-- The row of the actor, against its entry. -/
structure Tabled (a : String) (s : LiveScheduler) : Prop where
  unmapped : s.alarms a = none → rowOf s.rows a = none
  recorded : ∀ e, s.alarms a = some e → (rowOf s.rows a = none ↔ s.unrecorded e = true)
  queued : ∀ e q, s.alarms a = some e → (s.entry e).queuedAlarm = some q → s.unrecorded e = false
  ladder : ∀ e, s.alarms a = some e → (s.entry e).backoff ≤ 10 ∧ (s.entry e).countedRetry ≤ alarmRetryMaxTries
  row : ∀ e row, s.alarms a = some e → rowOf s.rows a = some row → row.Describes (s.current e) (s.task e).isBusy

section Steps

variable {s t : LiveScheduler} {event : Event} {a : String}

/-- An entry that stays on the map, with the same alarm to stand for. -/
theorem Tabled.kept (tabled : Tabled a s) {e : Nat} (mapped : s.alarms a = some e) (alarms : t.alarms = s.alarms)
    (unrecorded : t.unrecorded = s.unrecorded) (present : rowOf t.rows a = none ↔ rowOf s.rows a = none)
    (behind : (t.entry e).queuedAlarm = (s.entry e).queuedAlarm)
    (ladder : (t.entry e).backoff ≤ 10 ∧ (t.entry e).countedRetry ≤ alarmRetryMaxTries)
    (row : ∀ row, rowOf t.rows a = some row → row.Describes (t.current e) (t.task e).isBusy) : Tabled a t := by
  have only : ∀ i, t.alarms a = some i → i = e := by
    intro i on
    rw [alarms, mapped] at on
    exact (Option.some.inj on).symm
  refine ⟨?_, ?_, ?_, ?_, ?_⟩
  · intro off
    simp [alarms, mapped] at off
  · rintro i on
    obtain rfl := only i on
    rw [present, unrecorded]
    exact tabled.recorded i mapped
  · rintro i q on held
    obtain rfl := only i on
    rw [unrecorded]
    exact tabled.queued i q mapped (behind ▸ held)
  · rintro i on
    obtain rfl := only i on
    exact ladder
  · rintro i found on held
    obtain rfl := only i on
    exact row found held

theorem Tabled.gone (off : t.alarms a = none) (row : rowOf t.rows a = none) : Tabled a t :=
  ⟨fun _ => row, fun _ on => by simp [off] at on, fun _ _ on => by simp [off] at on,
    fun _ on => by simp [off] at on, fun _ _ on => by simp [off] at on⟩

theorem Tabled.frame (shaped : Shaped s) (tabled : Tabled a s) (same : SameFor a s t) : Tabled a t := by
  cases mapped : s.alarms a with
  | none => exact .gone (same.alarms.trans mapped) (same.row.trans (tabled.unmapped mapped))
  | some e =>
    obtain ⟨made, named⟩ := shaped.mapped a e mapped
    obtain ⟨entry, task, _, unrecorded⟩ := same.entries e made named
    have only : ∀ i, t.alarms a = some i → i = e := by
      intro i on
      rw [same.alarms, mapped] at on
      exact (Option.some.inj on).symm
    refine ⟨?_, ?_, ?_, ?_, ?_⟩
    · intro off
      simp [same.alarms, mapped] at off
    · rintro i on
      obtain rfl := only i on
      rw [same.row, unrecorded]
      exact tabled.recorded i mapped
    · rintro i q on held
      obtain rfl := only i on
      rw [unrecorded]
      exact tabled.queued i q mapped (entry ▸ held)
    · rintro i on
      obtain rfl := only i on
      rw [entry]
      exact tabled.ladder i mapped
    · rintro i found on held
      obtain rfl := only i on
      rw [current, entry, task]
      exact tabled.row i found mapped (same.row ▸ held)

/-- A fresh entry for the actor, with its row or without one. -/
theorem Tabled.schedule {time : Float} {unrecorded : Bool}
    (recorded : rowOf s.rows a = none ↔ unrecorded = true)
    (row : ∀ row, rowOf s.rows a = some row → row.Describes (scheduleAlarm a time none) false) :
    Tabled a (s.schedule a time unrecorded) := by
  have only : ∀ i, (s.schedule a time unrecorded).alarms a = some i → i = s.next := by
    intro i on
    simp only [LiveScheduler.schedule, if_true, Option.some.injEq] at on
    exact on.symm
  refine ⟨?_, ?_, ?_, ?_, ?_⟩
  · intro off
    simp [LiveScheduler.schedule] at off
  · intro i on
    obtain rfl := only i on
    simpa [LiveScheduler.schedule] using recorded
  · intro i q on held
    obtain rfl := only i on
    simp [LiveScheduler.schedule, scheduleAlarm] at held
  · intro i on
    obtain rfl := only i on
    simp [LiveScheduler.schedule, scheduleAlarm]
  · intro i found on held
    obtain rfl := only i on
    have described := row found held
    simpa [current, LiveScheduler.schedule, scheduleAlarm, Task.isBusy] using described

theorem Tabled.setTask_done (tabled : Tabled a s) {e : Nat} (off : s.alarms a ≠ some e) : Tabled a (s.setTask e .done) := by
  refine ⟨tabled.unmapped, tabled.recorded, tabled.queued, tabled.ladder, ?_⟩
  intro i row on held
  have other : i ≠ e := by
    rintro rfl
    exact off on
  rw [setTask_other other]
  exact tabled.row i row on held

theorem Tabled.set (shaped : Shaped s) (tabled : Tabled a s) {time : Float} (safe : isSafeInteger time = true) :
    Tabled a (s.set a time) := by
  have written : rowOf (AlarmScheduler.upsertAlarm s.rows a time) a = some (upserted (rowOf s.rows a) a time) := by
    rw [rowOf_upsertAlarm, if_pos rfl]
  rw [LiveScheduler.set]
  cases mapped : s.alarms a with
  | none =>
    refine Tabled.schedule (s := { s with rows := _ }) (by simp [written]) fun row held => ?_
    rw [← Option.some.inj (written.symm.trans held), tabled.unmapped mapped]
    exact describes_upserted safe fun row found => by cases found
  | some e =>
    have was : ∀ row, rowOf s.rows a = some row → row.actorId = a ∧
        ∃ flag, readRunning row = .ok flag ∧ (flag = 1 → (s.task e).isBusy = true) :=
      fun row found => ⟨rowOf_actorId found, (tabled.row e row mapped found).flag⟩
    have named := (shaped.mapped a e mapped).2
    by_cases waiting : (s.entry e).status = .waiting
    · simp only [mapped, waiting, ne_eq, not_true_eq_false, if_false]
      have consistent := shaped.consistent e (by rw [isLive_iff, named, mapped])
      have idle : (s.task e).isBusy = false := by
        rw [waiting] at consistent
        cases task : s.task e with
        | sleeping completed b => cases completed <;> simp [task, Consistent] at consistent ⊢ <;> rfl
        | delivering b => simp [task, Consistent] at consistent
        | abandoning r b => simp [task, Consistent] at consistent
        | done => simp [task, Consistent] at consistent
      refine Tabled.schedule (s := { s with rows := _ }) (by simp [written]) fun row held => ?_
      rw [← Option.some.inj (written.symm.trans held)]
      rw [idle] at was
      exact describes_upserted safe was
    · simp only [mapped, ne_eq, waiting, not_false_eq_true, if_true]
      have only : ∀ i, s.alarms a = some i → i = e := fun i on => (Option.some.inj (mapped.symm.trans on)).symm
      have ladder := tabled.ladder e mapped
      refine ⟨?_, ?_, ?_, ?_, ?_⟩
      · intro off
        simp [setUnrecorded, LiveScheduler.setEntry, mapped] at off
      · rintro i on
        obtain rfl := only i on
        simp [setUnrecorded, LiveScheduler.setEntry, written]
      · rintro i q on _
        obtain rfl := only i on
        simp [setUnrecorded]
      · rintro i on
        obtain rfl := only i on
        simpa [setUnrecorded, LiveScheduler.setEntry] using ladder
      · rintro i row on held
        obtain rfl := only i on
        rw [← Option.some.inj (written.symm.trans held)]
        have described := describes_upserted safe was
        simpa [current, setUnrecorded, LiveScheduler.setEntry, named] using described

theorem Tabled.cancel (tabled : Tabled a s) : Tabled a (s.cancel a) := by
  have deleted : rowOf (deleteRow s.rows a) a = none := by rw [rowOf_deleteRow, if_pos rfl]
  have unrecorded_left : ∀ e, s.alarms a = some e → ∀ f : ScheduledAlarm → ScheduledAlarm,
      (∀ x, (f x).queuedAlarm = none ∧ (f x).backoff = x.backoff ∧ (f x).countedRetry = x.countedRetry) →
      Tabled a (({ s with rows := deleteRow s.rows a }.setEntry e f).setUnrecorded e true) := by
    intro e mapped f kept
    have only : ∀ i, s.alarms a = some i → i = e := fun i on => (Option.some.inj (mapped.symm.trans on)).symm
    have ladder := tabled.ladder e mapped
    refine ⟨fun _ => deleted, ?_, ?_, ?_, ?_⟩
    · rintro i on
      obtain rfl := only i on
      simp [setUnrecorded, LiveScheduler.setEntry, deleted]
    · rintro i q on held
      obtain rfl := only i on
      simp [setUnrecorded, LiveScheduler.setEntry, (kept _).1] at held
    · rintro i on
      obtain rfl := only i on
      simpa [setUnrecorded, LiveScheduler.setEntry, (kept _).2.1, (kept _).2.2] using ladder
    · rintro i row on held
      exact absurd (deleted.symm.trans held) (by simp)
  rw [LiveScheduler.cancel]
  cases mapped : s.alarms a with
  | none => exact .gone mapped deleted
  | some e =>
    cases behind : (s.entry e).queuedAlarm with
    | some queued =>
      simp only [mapped, behind]
      split
      · exact unrecorded_left e mapped _ fun _ => ⟨rfl, rfl, rfl⟩
      · refine Tabled.schedule (s := { s with rows := _ }) (by simp [deleted]) fun row held => ?_
        exact absurd (deleted.symm.trans held) (by simp)
    | none =>
      simp only [mapped, behind]
      split
      · exact .gone (by simp) deleted
      · have same : { s with rows := deleteRow s.rows a }.setEntry e (fun x => { x with queuedAlarm := none }) =
            { s with rows := deleteRow s.rows a } := by
          simp only [LiveScheduler.setEntry]
          congr 1
          funext i
          split
          · rename_i first
            rw [first, ← behind]
          · rfl
        have left := unrecorded_left e mapped (fun x => { x with queuedAlarm := none }) fun _ => ⟨rfl, rfl, rfl⟩
        rw [same] at left
        exact left

theorem Tabled.promoted (shaped : Shaped s) {e : Nat} {queued : Float} (live : s.isLive e = true)
    (tabled : Tabled (s.entry e).actorId s) (behind : (s.entry e).queuedAlarm = some queued) :
    Tabled (s.entry e).actorId (s.promoted e queued) := by
  have mapped := (isLive_iff s e).1 live
  have made := shaped.live_lt live
  have cleared : ∀ x, rowOf (updateRow s.rows (s.entry e).actorId fun row => row.setRunning 0) x =
      if x = (s.entry e).actorId then (rowOf s.rows (s.entry e).actorId).map fun row => row.setRunning 0
      else rowOf s.rows x := fun x => rowOf_setRunning _ _ 0
  have present : rowOf s.rows (s.entry e).actorId ≠ none := by
    intro absent
    have unrecorded := (tabled.recorded e mapped).1 absent
    simp [tabled.queued e queued mapped behind] at unrecorded
  refine Tabled.setTask_done (Tabled.schedule (s := { s with rows := _ }) ?_ ?_) ?_
  · rw [cleared, if_pos rfl]
    simpa using present
  · intro row held
    rw [cleared, if_pos rfl, Option.map_eq_some_iff] at held
    obtain ⟨old, found, rfl⟩ := held
    have described := tabled.row e old mapped found
    simp only [current, behind] at described
    exact described.setRunning (by decide) fun one => by cases one
  · simp only [LiveScheduler.schedule, if_true, ne_eq, Option.some.injEq]
    exact Nat.ne_of_gt made

/-- The entry on the map starts or ends, and stands for the same alarm. -/
theorem Tabled.update (tabled : Tabled a s) {e : Nat} (mapped : s.alarms a = some e)
    {f : ScheduledAlarm → ScheduledAlarm} (same : ∀ x, { f x with status := x.status, wakeTime := x.wakeTime } = x)
    {task : Task} (busy : (s.task e).isBusy = true → task.isBusy = true) :
    Tabled a ((s.setEntry e f).setTask e task) := by
  have entry : ((s.setEntry e f).setTask e task).entry e = f (s.entry e) := by
    simp [LiveScheduler.setEntry, setTask]
  have named : (f (s.entry e)).actorId = (s.entry e).actorId := congrArg (·.actorId) (same (s.entry e))
  have time : (f (s.entry e)).scheduledTime = (s.entry e).scheduledTime := congrArg (·.scheduledTime) (same (s.entry e))
  have queue : (f (s.entry e)).queuedAlarm = (s.entry e).queuedAlarm := congrArg (·.queuedAlarm) (same (s.entry e))
  have backoff : (f (s.entry e)).backoff = (s.entry e).backoff := congrArg (·.backoff) (same (s.entry e))
  have counted : (f (s.entry e)).countedRetry = (s.entry e).countedRetry :=
    congrArg (·.countedRetry) (same (s.entry e))
  have previous : (f (s.entry e)).previousRetryCountedAgainstLimit =
      (s.entry e).previousRetryCountedAgainstLimit :=
    congrArg (·.previousRetryCountedAgainstLimit) (same (s.entry e))
  refine tabled.kept mapped rfl rfl Iff.rfl (by rw [entry, queue]) ?_ ?_
  · rw [entry, backoff, counted]
    exact tabled.ladder e mapped
  · intro row held
    obtain ⟨read_time, persisted, read, rest⟩ := tabled.row e row mapped held
    rw [current, entry, queue, named, setTask_self]
    have described : row.Describes (s.current e) task.isBusy :=
      ⟨read_time, persisted, read, rest.1, rest.2.1, rest.2.2.1, fun running => busy (rest.2.2.2 running)⟩
    rw [current] at described
    cases behind : (s.entry e).queuedAlarm with
    | none =>
      simp only [behind] at described
      refine ⟨by rw [time]; exact described.time, ?_⟩
      rw [backoff, counted, previous]
      exact described.state
    | some q => simpa only [behind] using described

theorem Tabled.postponed (tabled : Tabled a s) {e b : Nat} {r : AlarmResult} (mapped : s.alarms a = some e) :
    Tabled a (s.postponed e r b) :=
  tabled.update (f := fun x => { x with status := .finished }) mapped (fun _ => rfl) fun _ => rfl

theorem Tabled.retried (tabled : Tabled a s) {env : Env} {e : Nat} {r : AlarmResult} (mapped : s.alarms a = some e)
    (mine : (s.entry e).actorId = a) (alone : (s.entry e).queuedAlarm = none)
    (more : (s.entry e).countedRetry < alarmRetryMaxTries) (clock : ClockSafe env.now env.jitter) :
    Tabled a (s.retried env e r) := by
  subst mine
  have rows : ∀ x, rowOf (s.retried env e r).rows x =
      if x = (s.entry e).actorId then (rowOf s.rows (s.entry e).actorId).map fun row =>
        row.saveRetry (retryTime env (s.retryBackoff e r)) (s.retryBackoff e r + 1) (s.retryCount e r)
          r.retryCountsAgainstLimit
      else rowOf s.rows x := by
    intro x
    rw [retried_eq]
    exact rowOf_saveRetry _ _ _ _ _ _
  have entry : (s.retried env e r).entry e =
      { s.entry e with
        status := .finished
        backoff := s.retryBackoff e r + 1
        countedRetry := s.retryCount e r
        previousRetryCountedAgainstLimit := r.retryCountsAgainstLimit
        wakeTime := some (retryTime env (s.retryBackoff e r)) } := by
    rw [retried_eq]
    simp [LiveScheduler.setEntry, setTask]
  have rung : s.retryBackoff e r ≤ retryBackoffMax := Nat.min_le_left _ _
  have ladder : s.retryBackoff e r + 1 ≤ 10 := Nat.succ_le_succ rung
  have budget : s.retryCount e r ≤ alarmRetryMaxTries :=
    Nat.le_trans (Nat.add_le_add_left (Bool.toNat_le _) _) (Nat.succ_le_of_lt more)
  refine tabled.kept mapped ?_ ?_ ?_ ?_ ?_ ?_
  · rw [retried_eq]
    rfl
  · rw [retried_eq]
    rfl
  · rw [rows, if_pos rfl]
    simp
  · rw [entry]
  · rw [entry]
    exact ⟨ladder, budget⟩
  · intro row held
    rw [rows, if_pos rfl, Option.map_eq_some_iff] at held
    obtain ⟨old, found, rfl⟩ := held
    have described := tabled.row e old mapped found
    simp only [current, alone] at described
    have after : (s.retried env e r).current e = (s.retried env e r).entry e := by
      simp only [current, entry, alone]
    rw [after, entry]
    refine described.saveRetry (clock _ rung) ladder budget ?_ ?_ ?_ ?_ _ <;> rfl

theorem Tabled.started (tabled : Tabled a s) {e b : Nat} (mapped : s.alarms a = some e)
    (mine : (s.entry e).actorId = a) : Tabled a (s.started e b) := by
  subst mine
  have rows : ∀ x, rowOf (s.started e b).rows x =
      if x = (s.entry e).actorId then (rowOf s.rows (s.entry e).actorId).map fun row => row.setRunning 1
      else rowOf s.rows x := fun x => rowOf_setRunning _ _ 1
  have entry : (s.started e b).entry e = { s.entry e with status := .started, wakeTime := none } :=
    markedUnwoken_entry_self s e
  refine tabled.kept mapped rfl rfl ?_ (by rw [entry]) (by rw [entry]; exact tabled.ladder e mapped) ?_
  · rw [rows, if_pos rfl]
    simp
  · intro row held
    rw [rows, if_pos rfl, Option.map_eq_some_iff] at held
    obtain ⟨old, found, rfl⟩ := held
    have described := tabled.row e old mapped found
    rw [LiveScheduler.started, setTask_self]
    have same : (old.setRunning 1).Describes (s.current e) true := described.setRunning (by decide) fun _ => rfl
    rw [current] at same
    change (old.setRunning 1).Describes ((s.started e b).current e) true
    rw [current, entry]
    cases behind : (s.entry e).queuedAlarm with
    | none =>
      simp only [behind] at same
      exact ⟨same.time, same.state⟩
    | some q => simpa only [behind] using same

theorem Tabled.settled (shaped : Shaped s) {env : Env} {e b : Nat} {r : AlarmResult} (live : s.isLive e = true)
    (tabled : Tabled (s.entry e).actorId s) (outcome : Settled s env e r b t) (clock : ClockSafe env.now env.jitter)
    (busy : (s.task e).isBusy = true) : Tabled (s.entry e).actorId t := by
  have mapped := (isLive_iff s e).1 live
  cases outcome with
  | promote queued behind => exact tabled.promoted shaped live behind
  | retry alone _ more => exact tabled.retried mapped rfl alone more clock
  | giveUp => exact tabled.update (f := fun x => { x with status := .finished }) mapped (fun _ => rfl) fun _ => rfl
  | finish alone =>
    have gone := cancel_ended (s := s.finished e) (by rw [finished_isLive, live])
      (by rw [finished_entry_self]; exact alone) (by rw [finished_entry_self]; simp)
    rw [forgotten, gone]
    refine .gone (by simp [setTask]) ?_
    change rowOf (deleteRow s.rows _) _ = none
    rw [rowOf_deleteRow, finished_actorId, if_pos rfl]
  | postpone => exact tabled.postponed mapped

theorem Move.tabled (shaped : Shaped s) (tabled : Tabled a s) (move : Move s event t) (timely : s.Timely event) :
    Tabled a t := by
  obtain ⟨clock, timely⟩ := timely
  by_cases touched : event.Touches s a
  · cases move with
    | idle => exact tabled
    | setAlarm x time env =>
      obtain rfl : x = a := touched
      exact tabled.set shaped timely
    | reconcile x time env =>
      obtain rfl : x = a := touched
      exact tabled.set shaped timely
    | deleteAlarm x =>
      obtain rfl : x = a := touched
      exact tabled.cancel
    | deleteAll => exact .gone rfl rfl
    | ended _ e on gone =>
      refine tabled.setTask_done fun mapped => ?_
      have named := (shaped.mapped a e mapped).2
      simp [isLive, named, mapped] at gone
    | start e _ _ b live =>
      subst touched
      exact tabled.started ((isLive_iff s e).1 live) rfl
    | startFailed e _ _ b live due =>
      subst touched
      refine tabled.update (f := fun x => { x with status := .waiting }) ((isLive_iff s e).1 live) (fun _ => rfl) ?_
      intro busy
      simp [due, Task.isBusy] at busy
    | markedFailed _ _ env _ _ _ failed => simp [timely] at failed
    | settle _ e on r b live due outcome =>
      obtain rfl : (s.entry e).actorId = a := by
        cases event <;> cases on <;> exact touched
      exact tabled.settled shaped live outcome clock (by rcases due with due | due <;> rw [due] <;> rfl)
    | report e answer env r b live due outcome =>
      subst touched
      have ended := shaped.consistent e live
      rw [due] at ended
      have begun : (s.entry e).status ≠ .waiting := by simp [show (s.entry e).status = .finished from ended]
      cases outcome with
      | promote queued behind => exact tabled.promoted shaped live behind
      | newer newer _ told =>
        subst told
        have named := set_actorId (s.entry e).actorId newer (shaped.live_lt live)
        have set : Tabled ((s.set (s.entry e).actorId newer).entry e).actorId (s.set (s.entry e).actorId newer) := by
          rw [named]
          exact tabled.set shaped timely
        have behind : ((s.set (s.entry e).actorId newer).entry e).queuedAlarm = some newer := by
          rw [set_queues s live begun]
          simp [setUnrecorded, LiveScheduler.setEntry]
        have promoted := set.promoted (shaped.set _ newer) (set_live live begun newer) behind
        rwa [named] at promoted
      | forget alone =>
        rw [forgotten, cancel_ended live alone (by simp [show (s.entry e).status = .finished from ended])]
        refine .gone (by simp [setTask]) ?_
        change rowOf (deleteRow s.rows _) _ = none
        rw [rowOf_deleteRow, if_pos rfl]
      | postpone => exact tabled.postponed ((isLive_iff s e).1 live)
      | newerPostponed newer _ told =>
        subst told
        have set := tabled.set shaped timely
        have mapped := (isLive_iff _ e).1 (set_live live begun newer)
        rw [set_actorId (s.entry e).actorId newer (shaped.live_lt live)] at mapped
        exact set.postponed mapped
  · exact tabled.frame shaped (move.frame shaped touched)

/-- The key of the table is the actor. -/
def Keyed (s : LiveScheduler) : Prop := (s.rows.map AlarmRow.actorId).Nodup

theorem keyed_upsertAlarm {rows : List AlarmRow} (keyed : (rows.map AlarmRow.actorId).Nodup) (time : Float) :
    ((AlarmScheduler.upsertAlarm rows a time).map AlarmRow.actorId).Nodup := by
  unfold AlarmScheduler.upsertAlarm
  split
  · rename_i absent
    rw [List.map_append, List.nodup_append]
    refine ⟨keyed, by simp, ?_⟩
    rintro x held y new rfl
    obtain ⟨row, member, rfl⟩ := List.mem_map.1 held
    have other := List.find?_eq_none.mp absent row member
    simp only [List.map_cons, List.map_nil, List.mem_singleton, AlarmScheduler.freshRow] at new
    simp [new] at other
  · have same : (rows.map fun row =>
        if row.actorId = a then { AlarmScheduler.freshRow a time with running := row.running } else row).map
        AlarmRow.actorId = rows.map AlarmRow.actorId := by
      rw [List.map_map]
      refine List.map_congr_left fun row _ => ?_
      by_cases mine : row.actorId = a <;> simp [mine, AlarmScheduler.freshRow]
    rw [same]
    exact keyed

theorem keyed_updateRow {rows : List AlarmRow} (keyed : (rows.map AlarmRow.actorId).Nodup) {f : AlarmRow → AlarmRow}
    (same : ∀ row, (f row).actorId = row.actorId) : ((updateRow rows a f).map AlarmRow.actorId).Nodup := by
  have kept : (updateRow rows a f).map AlarmRow.actorId = rows.map AlarmRow.actorId := by
    rw [updateRow, List.map_map]
    refine List.map_congr_left fun row _ => ?_
    by_cases mine : row.actorId = a <;> simp [mine, same]
  rw [kept]
  exact keyed

theorem keyed_deleteRow {rows : List AlarmRow} (keyed : (rows.map AlarmRow.actorId).Nodup) :
    ((deleteRow rows a).map AlarmRow.actorId).Nodup :=
  keyed.sublist (List.filter_sublist.map _)

theorem Move.keyed (keyed : s.Keyed) (move : Move s event t) : t.Keyed := by
  have set : ∀ x time, (s.set x time).Keyed := by
    intro x time
    rw [Keyed, set_rows]
    exact keyed_upsertAlarm keyed time
  have promoted : ∀ u : LiveScheduler, u.Keyed → ∀ e q, (u.promoted e q).Keyed :=
    fun u keyed e q => keyed_updateRow keyed fun _ => rfl
  cases move with
  | idle => exact keyed
  | setAlarm x time => exact set x time
  | reconcile x time => exact set x time
  | deleteAlarm x =>
    rw [Keyed, cancel_rows]
    exact keyed_deleteRow keyed
  | deleteAll => exact List.nodup_nil
  | ended => exact keyed
  | start => exact keyed_updateRow keyed fun _ => rfl
  | startFailed => exact keyed
  | markedFailed => exact keyed_updateRow keyed fun _ => rfl
  | settle _ e _ r b _ _ outcome =>
    cases outcome with
    | promote queued => exact promoted s keyed e queued
    | retry => exact keyed_updateRow keyed fun _ => rfl
    | giveUp => exact keyed
    | finish =>
      change ((((s.finished e).cancel _).rows).map AlarmRow.actorId).Nodup
      rw [cancel_rows]
      exact keyed_deleteRow keyed
    | postpone => exact keyed
  | report e _ _ r b _ _ outcome =>
    cases outcome with
    | promote queued => exact promoted s keyed e queued
    | newer newer => exact promoted _ (set _ newer) e newer
    | forget =>
      change (((s.cancel _).rows).map AlarmRow.actorId).Nodup
      rw [cancel_rows]
      exact keyed_deleteRow keyed
    | postpone => exact keyed
    | newerPostponed newer => exact set _ newer

theorem rowOf_of_keyed {rows : List AlarmRow} (keyed : (rows.map AlarmRow.actorId).Nodup) {row : AlarmRow}
    (member : row ∈ rows) : rowOf rows row.actorId = some row := by
  induction rows with
  | nil => cases member
  | cons first rest ih =>
    rw [List.map_cons, List.nodup_cons] at keyed
    rcases List.mem_cons.1 member with rfl | later
    · simp [rowOf]
    · have other : first.actorId ≠ row.actorId := by
        intro same
        exact keyed.1 (same ▸ List.mem_map_of_mem later)
      have found := ih keyed.2 later
      rw [rowOf] at found ⊢
      rw [List.find?_cons]
      simpa [other] using found

end Steps

section Loads

variable {now : Float} {jitter : Nat → Nat} {rows : List AlarmRow} {built : AlarmScheduler}

/-- What a scheduler just built has for an actor comes from the row of that actor. -/
theorem construct_find (constructed : AlarmScheduler.construct now jitter rows = .ok built) (a : String) :
    (rowOf rows a = none → built.findAlarm a = none ∧ rowOf built.rows a = none) ∧
    ∀ row, rowOf rows a = some row → ∃ out, AlarmScheduler.loadRow now jitter row = .ok out ∧
      built.findAlarm a = some out.2 ∧ rowOf built.rows a = some out.1 := by
  simp only [AlarmScheduler.construct, except_bind_ok] at constructed
  obtain ⟨loaded, ok, same⟩ := constructed
  cases same
  have turns := mapM_output ok
  clear ok
  induction turns with
  | nil => simp [rowOf, AlarmScheduler.findAlarm]
  | @cons row out rest outs turn _ ih =>
    have name := (AlarmScheduler.loadRow_ok turn).2.1
    have key : out.1.actorId = row.actorId := by
      unfold AlarmScheduler.loadRow at turn
      simp only [except_bind_ok] at turn
      obtain ⟨_, _, _, _, turn⟩ := turn
      split at turn <;> cases turn <;> rfl
    by_cases mine : row.actorId = a
    · refine ⟨fun absent => ?_, fun found held => ?_⟩
      · simp [rowOf, mine] at absent
      · obtain rfl : row = found := by simpa [rowOf, mine] using held
        exact ⟨out, turn, by simp [AlarmScheduler.findAlarm, name, mine], by simp [rowOf, key, mine]⟩
    · have skip : rowOf (row :: rest) a = rowOf rest a := by simp [rowOf, mine]
      rw [skip]
      simpa [AlarmScheduler.findAlarm, rowOf, name, key, mine] using ih

theorem loaded_find (built : AlarmScheduler) (a : String) :
    built.findAlarm a = ((loaded built).alarms a).map fun e => (loaded built).entry e := by
  cases mapped : (loaded built).alarms a with
  | none =>
    have absent := List.findIdx?_eq_none_iff.1 mapped
    simp only [AlarmScheduler.findAlarm, Option.map_none, Option.map_eq_none_iff, List.find?_eq_none]
    intro pair member
    simpa using absent pair member
  | some e =>
    obtain ⟨made, named, first⟩ := List.findIdx?_eq_some_iff_getElem.1 mapped
    have found : built.alarms.find? (·.1 = a) = some built.alarms[e] :=
      List.find?_eq_some_iff_getElem.2 ⟨named, e, made, rfl, fun j before => by simpa using first j before⟩
    simp [AlarmScheduler.findAlarm, found, loaded, List.getElem?_eq_getElem made]

theorem requireRange_le {a column : String} {value : Float} {max n : Nat}
    (read : requireRange a column value max = .ok n) : n ≤ max := by
  unfold requireRange at read
  split at read
  · split at read
    · cases read
    · rename_i m _ inside
      cases read
      omega
  · cases read

theorem readPersistedAlarm_bounds {row : AlarmRow} {persisted : PersistedAlarm}
    (read : readPersistedAlarm row = .ok persisted) :
    persisted.backoff ≤ 10 ∧ persisted.countedRetry ≤ alarmRetryMaxTries := by
  unfold readPersistedAlarm at read
  simp only [except_bind_ok] at read
  obtain ⟨_, _, _, _, backoff, range, _, _, counted, range', _, _, _, _, _, _, _, _, same⟩ := read
  cases same
  exact ⟨requireRange_le range, requireRange_le range'⟩

/-- The row and the entry that a load makes of a row agree. -/
theorem loadRow_describes {row : AlarmRow} {out : AlarmRow × ScheduledAlarm}
    (turn : AlarmScheduler.loadRow now jitter row = .ok out) (clock : ClockSafe now jitter) :
    out.1.Describes out.2 false ∧ out.2.queuedAlarm = none ∧ out.2.backoff ≤ 10 ∧
      out.2.countedRetry ≤ alarmRetryMaxTries := by
  unfold AlarmScheduler.loadRow at turn
  simp only [except_bind_ok] at turn
  obtain ⟨time, time_read, persisted, read, turn⟩ := turn
  obtain ⟨ladder, budget⟩ := readPersistedAlarm_bounds read
  split at turn
  · cases turn
    have rung : min retryBackoffMax persisted.backoff ≤ retryBackoffMax := Nat.min_le_left _ _
    have up : min retryBackoffMax persisted.backoff + 1 ≤ 10 := Nat.succ_le_succ rung
    refine ⟨⟨time_read, _, readPersistedAlarm_saveRetry row false (clock _ rung) up budget, rfl, rfl, rfl, ?_⟩,
      rfl, up, budget⟩
    intro running
    cases running
  · rename_i unmarked
    cases turn
    refine ⟨⟨time_read, persisted, read, rfl, rfl, rfl, ?_⟩, rfl, ladder, budget⟩
    intro running
    exact absurd running unmarked

theorem loaded_tabled (constructed : AlarmScheduler.construct now jitter rows = .ok built)
    (clock : ClockSafe now jitter) (a : String) : Tabled a (loaded built) := by
  obtain ⟨absent, present⟩ := construct_find constructed a
  have found := loaded_find built a
  cases held : rowOf rows a with
  | none =>
    obtain ⟨missing, gone⟩ := absent held
    rw [missing] at found
    exact .gone (by simpa using found.symm) gone
  | some row =>
    obtain ⟨out, turn, has, row_left⟩ := present row held
    obtain ⟨described, alone, ladder⟩ := loadRow_describes turn clock
    rw [has] at found
    obtain ⟨e, mapped, entry⟩ := Option.map_eq_some_iff.1 found.symm
    have only : ∀ i, (loaded built).alarms a = some i → i = e :=
      fun i on => (Option.some.inj (mapped.symm.trans on)).symm
    change rowOf (loaded built).rows a = _ at row_left
    refine ⟨?_, ?_, ?_, ?_, ?_⟩
    · intro off
      simp [mapped] at off
    · rintro i on
      rw [row_left]
      simp [loaded]
    · rintro i q on _
      rfl
    · rintro i on
      obtain rfl := only i on
      rw [entry]
      exact ladder
    · rintro i other on other_held
      obtain rfl := only i on
      rw [← Option.some.inj (row_left.symm.trans other_held)]
      have idle : ((loaded built).task i).isBusy = false := by
        simp only [loaded]
        split <;> rfl
      rw [current, entry, alone, idle]
      exact described

theorem loaded_keyed (constructed : AlarmScheduler.construct now jitter rows = .ok built)
    (keyed : (rows.map AlarmRow.actorId).Nodup) : (loaded built).Keyed := by
  have same : built.rows.map AlarmRow.actorId = rows.map AlarmRow.actorId := by
    simp only [AlarmScheduler.construct, except_bind_ok] at constructed
    obtain ⟨outs, ok, same⟩ := constructed
    cases same
    have turns := mapM_output ok
    clear ok
    induction turns with
    | nil => rfl
    | @cons row out rest outs turn _ ih =>
      have key : out.1.actorId = row.actorId := by
        unfold AlarmScheduler.loadRow at turn
        simp only [except_bind_ok] at turn
        obtain ⟨_, _, _, _, turn⟩ := turn
        split at turn <;> cases turn <;> rfl
      have later := ih (List.nodup_cons.1 keyed).2
      simpa [key] using later
  change (built.rows.map AlarmRow.actorId).Nodup
  rw [same]
  exact keyed

end Loads

/-- What a scheduler rebuilt from the table has for an actor, against the alarm its entry stands for. -/
def Rebuilds (s : LiveScheduler) (a : String) (alarm : ScheduledAlarm) : Prop :=
  ∀ now jitter, ∃ rebuilt found, AlarmScheduler.construct now jitter s.rows = .ok rebuilt ∧
    rebuilt.findAlarm a = some found ∧ found.scheduledTime = alarm.scheduledTime ∧ found.backoff = alarm.backoff ∧
    found.countedRetry = alarm.countedRetry ∧
    found.previousRetryCountedAgainstLimit = alarm.previousRetryCountedAgainstLimit

/-- The map and the table agree on an actor, whose entry is without a row where a `deleteAlarm` left it so. -/
structure Agrees (s : LiveScheduler) (a : String) : Prop where
  unmapped : s.alarms a = none → rowOf s.rows a = none
  recorded : ∀ e, s.alarms a = some e → (rowOf s.rows a = none ↔ s.unrecorded e = true)
  row : ∀ e row, s.alarms a = some e → rowOf s.rows a = some row →
    readRunning row = .ok 0 ∧ s.Rebuilds a (s.current e)

theorem loads_of_tabled {s : LiveScheduler} (keyed : s.Keyed) (tabled : ∀ a, Tabled a s) :
    ∀ row ∈ s.rows, row.Loads := by
  intro row member
  have found := rowOf_of_keyed keyed member
  cases mapped : s.alarms row.actorId with
  | none => simp [(tabled row.actorId).unmapped mapped] at found
  | some e => exact ((tabled row.actorId).row e row mapped found).loads

theorem Tabled.rebuilds {s : LiveScheduler} {a : String} (keyed : s.Keyed) (tabled : ∀ a, Tabled a s) {e : Nat}
    {row : AlarmRow} (mapped : s.alarms a = some e) (found : rowOf s.rows a = some row)
    (idle : (s.task e).isBusy = false) : s.Rebuilds a (s.current e) := by
  intro now jitter
  obtain ⟨rebuilt, constructed⟩ :=
    (AlarmScheduler.construct_ok_iff now jitter s.rows).2 (loads_of_tabled keyed tabled)
  obtain ⟨out, turn, has, _⟩ := (construct_find constructed a).2 row found
  obtain ⟨time, persisted, read, backoff, counted, previous, marks⟩ := (tabled a).row e row mapped found
  refine ⟨rebuilt, out.2, constructed, has, ?_⟩
  have unmarked : persisted.running = false := by
    rw [idle] at marks
    simpa using marks
  unfold AlarmScheduler.loadRow at turn
  simp only [time, read, unmarked, bind, Except.bind, Bool.false_eq_true, if_false] at turn
  cases turn
  exact ⟨rfl, backoff, counted, previous⟩

/-- Where an actor has no delivery and no abandonment under way or to be retried, the map and the
    table agree on it. -/
theorem table_agrees {now : Float} {jitter : Nat → Nat} {rows : List AlarmRow} {built : AlarmScheduler}
    (keyed : (rows.map AlarmRow.actorId).Nodup) (constructed : AlarmScheduler.construct now jitter rows = .ok built)
    (clock : ClockSafe now jitter) {s : LiveScheduler} (reached : Reaches step Timely (loaded built) s) {a : String}
    (idle : ∀ e, s.alarms a = some e → (s.task e).isBusy = false) : s.Agrees a := by
  have opened : Opened (loaded built) := ⟨now, jitter, rows, built, keyed, constructed, rfl⟩
  have kept := reached.invariant (P := fun s => Shaped s ∧ s.Keyed ∧ ∀ a, Tabled a s)
    ⟨opened.shaped, loaded_keyed constructed keyed, loaded_tabled constructed clock⟩ ?_
  · obtain ⟨_, keyed, tabled⟩ := kept
    refine ⟨(tabled a).unmapped, (tabled a).recorded, fun e row mapped found => ?_⟩
    refine ⟨?_, Tabled.rebuilds keyed tabled mapped found (idle e mapped)⟩
    obtain ⟨flag, read, marks⟩ := ((tabled a).row e row mapped found).flag
    rw [idle e mapped] at marks
    have small : flag ≤ 1 := by
      simp only [readRunning, except_bind_ok] at read
      obtain ⟨_, _, range⟩ := read
      exact requireRange_le range
    obtain rfl : flag = 0 := by
      rcases Nat.le_one_iff_eq_zero_or_eq_one.1 small with zero | one
      · exact zero
      · cases marks one
    exact read
  · intro s event t kept timely stepped
    have move := step_moves kept.1 event stepped
    exact ⟨move.shaped kept.1, move.keyed kept.2.1, fun a => move.tabled kept.1 (kept.2.2 a) timely⟩

theorem calm_clock : ClockSafe calm.now calm.jitter := by
  have all : ∀ backoff : Fin 10, isSafeInteger (calm.now + Float.ofNat
      (alarmRetryDelayMs backoff + calm.jitter (alarmRetryDelayMs backoff))) = true := by
    decide +kernel
  exact fun backoff rung => all ⟨backoff, Nat.lt_succ_of_le rung⟩

theorem zero_safe : isSafeInteger 0 = true := by decide +kernel

/-- A failed delivery that waits for its retry. -/
theorem table_agrees_retrying : ∃ s : LiveScheduler, s.alarms "a" = some 0 ∧ (s.entry 0).countedRetry = 1 ∧
    rowOf s.rows "a" ≠ none ∧ s.Agrees "a" := by
  have start : Reaches step Timely empty empty := .refl
  have set := start.then (.setAlarm "a" 0 calm) ⟨calm_clock, zero_safe⟩ rfl
  have woken := set.then (.wake 0 0 calm) ⟨calm_clock, rfl⟩ (step_wake (b := 0) calm rfl zero_due)
  have failed := woken.then (.deliverySettled 0 (some ⟨true, true, .exception⟩) calm) ⟨calm_clock, trivial⟩ rfl
  have agrees := @table_agrees 0 (fun _ => 0) [] _ List.nodup_nil rfl calm_clock _ failed "a" fun e mapped => ?_
  · exact ⟨_, rfl, rfl, by decide, agrees⟩
  · cases mapped
    rfl

/-- A retry of a delivery that was cancelled while it went on. -/
def cancelledRetry : LiveScheduler :=
  let set := (setAlarm calm "a" 0 empty).2
  let woken := (wake calm 0 none 0 set).2
  let cancelled := (deleteAlarm calm "a" woken).2
  (deliverySettled calm 0 (some ⟨true, true, .exception⟩) 0 cancelled).2

theorem cancelledRetry_quiet : cancelledRetry.Quiet "a" := by
  intro e _
  by_cases first : e = 0
  · subst first
    exact ⟨fun b delivering => (by cases delivering), fun r b abandoning => (by cases abandoning)⟩
  · have ended : cancelledRetry.task e = .done := by
      change (if e = 0 then Task.sleeping none 0 else if e = 0 then .delivering 0
        else if e = 0 then .sleeping none 0 else if e < 0 then .sleeping none 0 else .done) = .done
      simp [first]
    exact ⟨fun b => (by simp [ended]), fun r b => (by simp [ended])⟩

/-- An entry whose row a cancellation removed during its delivery stays on the map to be retried. -/
theorem cancelled_retry_unrecorded : ¬ ∀ s₀ s : LiveScheduler, Opened s₀ →
    Reaches step (fun _ event => ∀ call, event.env.fails call = false) s₀ s → ∀ a, s.Quiet a →
      (s.alarms a ≠ none ↔ rowOf s.rows a ≠ none) := by
  intro agree
  have lost := agree empty cancelledRetry empty_opened
    (.head (.setAlarm "a" 0 calm) (fun _ => rfl) rfl <|
    .head (.wake 0 0 calm) (fun _ => rfl) (step_wake (b := 0) calm rfl zero_due) <|
    .head (.deleteAlarm "a" calm) (fun _ => rfl) rfl <|
    .head (.deliverySettled 0 (some ⟨true, true, .exception⟩) calm) (fun _ => rfl) rfl .refl) "a"
    cancelledRetry_quiet
  exact lost.1 (by decide) rfl

end LiveScheduler

end DoRuntime.Alarms
