import DoRuntime.Alarms.AlarmReload
import DoRuntime.Storage.Metadata

namespace DoRuntime.Storage

open DoRuntime.Js DoRuntime.Sql DoRuntime.Alarms

def maxTimeValue : Nat := 8640000000000000

/-- A `Date`: its time value is NaN or a whole number of milliseconds in range. -/
structure Date where
  timeValue : Float
  valid : isNaN timeValue = true ∨ ∃ n, integralValue timeValue = some n ∧ n.natAbs ≤ maxTimeValue

inductive ScheduledTime
  | number (value : Float)
  | date (value : Date)

def ScheduledTime.when : ScheduledTime → Float
  | .number value => value
  | .date value => value.timeValue

/-- `DurableObjectStorageOperations.setAlarm` down to the time it hands the cache. -/
def acceptAlarm (scheduledTime : ScheduledTime) (now : Float) : Except StorageError Float :=
  if scheduledTime.when > 0 then .ok (mathMax scheduledTime.when now)
  else .error .alarmTimeNotPositive

/-- Opens the metadata of a database again and reads the alarm. -/
def reopenMetadata (table : MetadataTable) : Except StorageError (Option Float) := do
  let m ← SqliteMetadata.construct table
  let (alarmTime, _) ← m.getAlarm
  return alarmTime

/-- Opens the scheduler over a table again and reads one actor's alarm. -/
def reopenScheduler (now : Float) (jitter : Nat → Nat) (rows : List AlarmRow) (actorId : String) :
    Except StorageError (Option Float) :=
  (AlarmScheduler.construct now jitter rows).map (·.getAlarm actorId)

def Reports (read : Except StorageError (Option Float)) (alarmTime : Float) : Prop :=
  ∃ reported, read = .ok reported ∧ sameAlarm reported (some alarmTime) = true

theorem sameAlarm_some (a b : Float) :
    sameAlarm (some a) (some b) = true ↔ order a b = some .eq := by
  change (a == b) = true ↔ _
  change (a.toModel.unpack.compare b.toModel.unpack == some .eq) = true ↔ _
  simp [order]

theorem acceptAlarm_ok {scheduledTime : ScheduledTime} {now alarmTime : Float}
    (accepted : acceptAlarm scheduledTime now = .ok alarmTime) :
    isNaN scheduledTime.when = false ∧ alarmTime = mathMax scheduledTime.when now := by
  unfold acceptAlarm at accepted
  split at accepted
  · rename_i positive
    refine ⟨?_, (Except.ok.inj accepted).symm⟩
    by_contra notNumber
    have unordered := (order_none_iff (0 : Float) scheduledTime.when).mpr (.inr (by simpa using notNumber))
    rw [(lt_iff_order _ _).mp positive] at unordered
    contradiction
  · contradiction

theorem acceptAlarm_future {now value : Float} (positive : 0 < value) (future : now < value) :
    acceptAlarm (.number value) now = .ok value := by
  have accepted : (ScheduledTime.number value).when > 0 := positive
  simp only [acceptAlarm, accepted, if_true]
  exact congrArg Except.ok (mathMax_of_lt future)

theorem isNaN_mathMax {a b : Float} (ha : isNaN a = false) (hb : isNaN b = false) :
    isNaN (mathMax a b) = false := by
  rcases mathMax_cases ha hb with ⟨_, same⟩ | ⟨_, same⟩ | ⟨_, same | same⟩ <;> rw [same] <;> assumption

namespace SqliteMetadata

theorem getAlarmUncached_safe {m : SqliteMetadata} {alarmTime : Float}
    (read : m.getAlarmUncached = .ok (some alarmTime)) : isSafeInteger alarmTime = true := by
  unfold getAlarmUncached at read
  split at read
  · split at read
    · simp at read
    · split at read
      · simp at read
      · obtain ⟨value, fetched, same⟩ := (except_map_ok _ _ _).mp read
        cases same
        exact getInt64_ok_safe fetched
  · simp at read

/-- A cell bound to a number is read back by the alarm query exactly when it is a safe integer. -/
theorem getAlarmUncached_bound {m : SqliteMetadata} {alarmTime : Float}
    (number : isNaN alarmTime = false) (created : m.tableCreated = true)
    (stored : lookupKey (m.table.getD []) alarmKey = some (bindNumber .blob (some alarmTime))) :
    (isSafeInteger alarmTime = true → m.getAlarmUncached = .ok (some alarmTime)) ∧
    (isSafeInteger alarmTime = false → ∀ reported, m.getAlarmUncached ≠ .ok reported) := by
  have present := bindNumber_not_null .blob number
  have bound := getInt64_bound .blob 0 number
  simp only [getAlarmUncached, created, if_true, stored, present, Bool.false_eq_true, if_false]
  refine ⟨fun safe => by rw [bound.1 safe]; rfl, fun notSafe reported read => ?_⟩
  obtain ⟨value, refused⟩ := bound.2 notSafe
  rw [refused] at read
  cases read

/-- Reopening a live object's database reads what the object itself would read uncached. -/
theorem Coherent.reopen {m : SqliteMetadata} (coherent : m.Coherent) :
    reopenMetadata m.table = m.getAlarmUncached := by
  have same : SqliteMetadata.getAlarmUncached
      { table := m.table, tableCreated := m.table.isSome, cache := none } = m.getAlarmUncached := by
    simp only [getAlarmUncached, coherent.created]
  unfold reopenMetadata
  rw [construct_of_keys coherent.keys]
  simp only [bind, Except.bind, SqliteMetadata.getAlarm, same]
  cases m.getAlarmUncached <;> rfl

theorem lookup_created {m : SqliteMetadata} (coherent : m.Coherent) {cell : Cell}
    (stored : lookupKey (m.table.getD []) alarmKey = some cell) : m.tableCreated = true := by
  rw [coherent.created]
  cases table : m.table with
  | none => simp [table, lookupKey] at stored
  | some _ => rfl

/-- After `setAlarm` the cache holds the new time and stands for the stored one. -/
theorem setAlarm_cached (m : SqliteMetadata) (alarmTime : Float) :
    ∃ cached, (m.setAlarm (some alarmTime)).2.cache = some (some cached) ∧
      (cached = alarmTime ∨ order cached alarmTime = some .eq) := by
  rcases m.setAlarm_cases (some alarmTime) with ⟨cached, hit, same, unchanged⟩ | written
  · rw [unchanged]
    cases cached with
    | none => simp [sameAlarm] at same
    | some cached => exact ⟨cached, hit, .inr ((sameAlarm_some _ _).mp same)⟩
  · rw [written]
    exact ⟨alarmTime, rfl, .inl rfl⟩

/-- Reopened after `setAlarm`, the metadata report the new time exactly when it is a safe integer. -/
theorem reopen_after_setAlarm {m : SqliteMetadata} (live : m.Live) {alarmTime : Float}
    (number : isNaN alarmTime = false) :
    Reports (reopenMetadata (m.setAlarm (some alarmTime)).2.table) alarmTime ↔
      isSafeInteger alarmTime = true := by
  have coherent := live.coherent.setAlarm (some alarmTime)
  obtain ⟨cached, hit, same⟩ := m.setAlarm_cached alarmTime
  generalize (m.setAlarm (some alarmTime)).2 = after at coherent hit
  have safe_iff : isSafeInteger cached = true ↔ isSafeInteger alarmTime = true := by
    rcases same with rfl | same
    · exact Iff.rfl
    · have swapped : order alarmTime cached = some .eq := by rw [order_swap, same]; rfl
      exact ⟨isSafeInteger_of_order_eq swapped, isSafeInteger_of_order_eq same⟩
  have cached_number : isNaN cached = false := by
    rcases same with rfl | same
    · exact number
    · by_contra notNumber
      rw [(order_none_iff cached alarmTime).mpr (.inl (by simpa using notNumber))] at same
      contradiction
  have reported : sameAlarm (some cached) (some alarmTime) = true := by
    refine (sameAlarm_some _ _).mpr ?_
    rcases same with rfl | same
    · exact order_self number
    · exact same
  rw [coherent.reopen]
  rcases coherent.cached _ hit with stored | read
  · have bound := getAlarmUncached_bound cached_number (lookup_created coherent stored) stored
    constructor
    · rintro ⟨value, read, _⟩
      by_contra notSafe
      exact bound.2 (by simpa using mt safe_iff.mp notSafe) value read
    · intro safe
      exact ⟨some cached, bound.1 (safe_iff.mpr safe), reported⟩
  · exact ⟨fun _ => safe_iff.mp (getAlarmUncached_safe read), fun _ => ⟨some cached, read, reported⟩⟩

end SqliteMetadata

/-- Reopened after `setAlarm`, the scheduler reports the new time exactly when that time is a safe
    integer and the rest of the table can still be read. -/
theorem reopen_scheduler_after_setAlarm (s : AlarmScheduler) (actorId : String) {alarmTime : Float}
    (number : isNaN alarmTime = false) (now : Float) (jitter : Nat → Nat) :
    Reports (reopenScheduler now jitter (s.setAlarm actorId alarmTime).rows actorId) alarmTime ↔
      isSafeInteger alarmTime = true ∧ ∀ row ∈ s.rows, row.LoadsAround actorId := by
  have loads := AlarmScheduler.upsertAlarm_loads_iff s.rows actorId number
  have opens := AlarmScheduler.construct_ok_iff now jitter (s.setAlarm actorId alarmTime).rows
  constructor
  · rintro ⟨reported, read, _⟩
    obtain ⟨reopened, opened, _⟩ := (except_map_ok _ _ _).mp read
    exact loads.mp (opens.mp ⟨reopened, opened⟩)
  · intro readable
    obtain ⟨reopened, opened⟩ := opens.mpr (loads.mpr readable)
    have reported := AlarmScheduler.getAlarm_after_setAlarm s readable.1 opened
    refine ⟨some alarmTime, (except_map_ok _ _ _).mpr ⟨reopened, opened, reported⟩, ?_⟩
    exact (sameAlarm_some _ _).mpr (order_self number)

/-- One `setAlarm` call of some actor, with the clock it reads. -/
structure AlarmCall where
  actorId : String
  scheduledTime : ScheduledTime
  now : Float

/-- The call's effect on the shared table; a refused call has none. -/
def AlarmCall.apply (s : AlarmScheduler) (call : AlarmCall) : AlarmScheduler :=
  match acceptAlarm call.scheduledTime call.now with
  | .ok alarmTime => s.setAlarm call.actorId alarmTime
  | .error _ => s

def AlarmCall.Reloadable (call : AlarmCall) : Prop :=
  isSafeInteger call.now = true ∧
    (call.scheduledTime.when ≤ call.now ∨ isSafeInteger call.scheduledTime.when = true)

theorem AlarmCall.apply_loads {s : AlarmScheduler} (loads : ∀ row ∈ s.rows, row.Loads)
    {call : AlarmCall} (reloadable : call.Reloadable) :
    ∀ row ∈ (call.apply s).rows, row.Loads := by
  unfold AlarmCall.apply
  split
  · rename_i alarmTime accepted
    obtain ⟨number, rfl⟩ := acceptAlarm_ok accepted
    have safe := (isSafeInteger_mathMax number reloadable.1).mpr reloadable.2
    exact (AlarmScheduler.upsertAlarm_loads_iff s.rows call.actorId (not_nan_of_safe safe)).mpr
      ⟨safe, fun row member => AlarmScheduler.loadsAround_of_loads (loads row member) call.actorId⟩
  · exact loads

/-- A shared table stays readable through any run of calls whose times reload. -/
theorem calls_keep_loading (calls : List AlarmCall) {s : AlarmScheduler}
    (loads : ∀ row ∈ s.rows, row.Loads) (reloadable : ∀ call ∈ calls, call.Reloadable) :
    ∀ row ∈ (calls.foldl AlarmCall.apply s).rows, row.Loads := by
  induction calls generalizing s with
  | nil => exact loads
  | cons call calls ih =>
    have step := AlarmCall.apply_loads loads (reloadable call (by simp))
    exact ih step fun later member => reloadable later (by simp [member])

/-- An accepted time survives a restart, in the metadata and in the scheduler's table, exactly when
    it lies in the past or is a safe integer, and no other row of the shared table is bad. -/
theorem accepted_alarm_reloads_iff {m : SqliteMetadata} (live : m.Live) (s : AlarmScheduler)
    (actorId : String) {now : Float} (clock : isSafeInteger now = true)
    {scheduledTime : ScheduledTime} {alarmTime : Float}
    (accepted : acceptAlarm scheduledTime now = .ok alarmTime)
    (reopenedAt : Float) (jitter : Nat → Nat) :
    (Reports (reopenMetadata (m.setAlarm (some alarmTime)).2.table) alarmTime ∧
      Reports (reopenScheduler reopenedAt jitter (s.setAlarm actorId alarmTime).rows actorId)
        alarmTime) ↔
    (scheduledTime.when ≤ now ∨ isSafeInteger scheduledTime.when = true) ∧
      ∀ row ∈ s.rows, row.LoadsAround actorId := by
  obtain ⟨number, rfl⟩ := acceptAlarm_ok accepted
  have result_number := isNaN_mathMax number (not_nan_of_safe clock)
  rw [SqliteMetadata.reopen_after_setAlarm live result_number,
    reopen_scheduler_after_setAlarm s actorId result_number, isSafeInteger_mathMax number clock]
  constructor
  · rintro ⟨safe, _, around⟩
    exact ⟨safe, around⟩
  · rintro ⟨safe, around⟩
    exact ⟨safe, safe, around⟩

/-- A clock reading in 2023. -/
def sampleNow : Float := 1700000000000.0

theorem live_fresh : SqliteMetadata.Live (SqliteMetadata.mk none false none) := by
  have opened : SqliteMetadata.construct none = .ok (SqliteMetadata.mk none false none) := rfl
  exact .constructed opened

theorem accepted_alarm_reloads_tomorrow :
    (Reports (reopenMetadata
        ((SqliteMetadata.mk none false none).setAlarm (some 1700086400000.0)).2.table)
        1700086400000.0 ∧
      Reports (reopenScheduler sampleNow (fun _ => 0)
        ((AlarmScheduler.mk [] []).setAlarm "actor" 1700086400000.0).rows "actor")
        1700086400000.0) ↔
    ((ScheduledTime.number 1700086400000.0).when ≤ sampleNow ∨
      isSafeInteger (ScheduledTime.number 1700086400000.0).when = true) ∧
      ∀ row ∈ (AlarmScheduler.mk [] []).rows, row.LoadsAround "actor" :=
  accepted_alarm_reloads_iff live_fresh _ _ (by decide +kernel)
    (acceptAlarm_future (by decide +kernel) (by decide +kernel)) _ _

/-- Half a millisecond after the clock: the time is accepted and neither side reads it back. -/
theorem fractional_alarm_lost :
    acceptAlarm (.number 1700000000000.5) sampleNow = .ok 1700000000000.5 ∧
    ¬ (Reports (reopenMetadata
        ((SqliteMetadata.mk none false none).setAlarm (some 1700000000000.5)).2.table)
        1700000000000.5 ∧
      Reports (reopenScheduler sampleNow (fun _ => 0)
        ((AlarmScheduler.mk [] []).setAlarm "actor" 1700000000000.5).rows "actor")
        1700000000000.5) := by
  have number : isNaN 1700000000000.5 = false := by decide +kernel
  refine ⟨acceptAlarm_future (by decide +kernel) (by decide +kernel), fun both => ?_⟩
  have safe := (SqliteMetadata.reopen_after_setAlarm live_fresh number).mp both.1
  revert safe
  decide +kernel

end DoRuntime.Storage
