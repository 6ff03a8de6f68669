import DoRuntime.Alarms.AlarmTable
import DoRuntime.Js.Except

namespace DoRuntime.Alarms

open DoRuntime.Js DoRuntime.Sql

/-- The row can be read back: its time, and the state that outlives the process. -/
def AlarmRow.Loads (row : AlarmRow) : Prop :=
  (∃ scheduledTime, getInt64 1 row.scheduledTime.read = .ok scheduledTime) ∧
    ∃ persisted, readPersistedAlarm row = .ok persisted

def readRunning (row : AlarmRow) : Except StorageError Nat := do
  requireRange row.actorId "running" (← getInt64 6 row.running.read) 1

/-- What an upsert for an actor leaves of a row can be read back, its scheduled time aside. -/
def AlarmRow.LoadsAround (actorId : String) (row : AlarmRow) : Prop :=
  if row.actorId = actorId then ∃ running, readRunning row = .ok running else row.Loads

namespace AlarmScheduler

theorem loadRow_ok {now : Float} {jitter : Nat → Nat} {row : AlarmRow}
    {loaded : AlarmRow × ScheduledAlarm} (ok : loadRow now jitter row = .ok loaded) :
    row.Loads ∧ loaded.2.actorId = row.actorId ∧ loaded.2.status = .waiting ∧
      getInt64 1 row.scheduledTime.read = .ok loaded.2.scheduledTime := by
  unfold loadRow at ok
  simp only [except_bind_ok] at ok
  obtain ⟨scheduledTime, time, persisted, state, ok⟩ := ok
  refine ⟨⟨⟨scheduledTime, time⟩, persisted, state⟩, ?_⟩
  split at ok <;> cases ok <;> exact ⟨rfl, rfl, time⟩

theorem loadRow_of_loads (now : Float) (jitter : Nat → Nat) {row : AlarmRow} (loads : row.Loads) :
    ∃ loaded, loadRow now jitter row = .ok loaded := by
  obtain ⟨⟨scheduledTime, time⟩, persisted, state⟩ := loads
  unfold loadRow
  simp only [time, state, bind, Except.bind]
  split <;> exact ⟨_, rfl⟩

/-- The scheduler opens over a table exactly when every row in it can be read back. -/
theorem construct_ok_iff (now : Float) (jitter : Nat → Nat) (rows : List AlarmRow) :
    (∃ s, construct now jitter rows = .ok s) ↔ ∀ row ∈ rows, row.Loads := by
  constructor
  · rintro ⟨s, opened⟩ row member
    simp only [construct, except_bind_ok] at opened
    obtain ⟨loaded, ok, _⟩ := opened
    obtain ⟨output, turn⟩ := (mapM_ok_iff _ _).mp ⟨loaded, ok⟩ row member
    exact (loadRow_ok turn).1
  · intro loads
    obtain ⟨loaded, ok⟩ := (mapM_ok_iff (loadRow now jitter) rows).mpr
      fun row member => loadRow_of_loads now jitter (loads row member)
    exact ⟨_, (except_bind_ok _ _ _).mpr ⟨loaded, ok, rfl⟩⟩

/-- A freshly opened scheduler reports, for an actor with a row, the time in one of its rows. -/
theorem getAlarm_of_construct {now : Float} {jitter : Nat → Nat} {rows : List AlarmRow}
    {s : AlarmScheduler} (opened : construct now jitter rows = .ok s) {actorId : String}
    (present : ∃ row ∈ rows, row.actorId = actorId) :
    ∃ row ∈ rows, row.actorId = actorId ∧
      ∃ time, getInt64 1 row.scheduledTime.read = .ok time ∧ s.getAlarm actorId = some time := by
  simp only [construct, except_bind_ok] at opened
  obtain ⟨loaded, ok, same⟩ := opened
  cases same
  have turns := mapM_output ok
  clear ok
  induction turns with
  | nil => simp at present
  | @cons row entry rows loaded turn _ ih =>
    obtain ⟨_, name, waiting, time⟩ := loadRow_ok turn
    by_cases mine : row.actorId = actorId
    · refine ⟨row, by simp, mine, entry.2.scheduledTime, time, ?_⟩
      simp [AlarmScheduler.getAlarm, findAlarm, name, mine, waiting]
    · have later : ∃ row ∈ rows, row.actorId = actorId := by
        obtain ⟨other, member, other_mine⟩ := present
        rcases List.mem_cons.mp member with rfl | member
        · exact absurd other_mine mine
        · exact ⟨other, member, other_mine⟩
      obtain ⟨found, member, found_mine, time, read, reported⟩ := ih later
      refine ⟨found, by simp [member], found_mine, time, read, ?_⟩
      rw [← reported]
      simp [AlarmScheduler.getAlarm, findAlarm, name, mine]

theorem mem_upsertAlarm {rows : List AlarmRow} {actorId : String} {scheduledTime : Float}
    {row : AlarmRow} (member : row ∈ upsertAlarm rows actorId scheduledTime) :
    row = freshRow actorId scheduledTime ∨
      (row ∈ rows ∧ row.actorId ≠ actorId) ∨
      ∃ old ∈ rows, old.actorId = actorId ∧
        row = { freshRow actorId scheduledTime with running := old.running } := by
  unfold upsertAlarm at member
  split at member
  · rename_i absent
    rcases List.mem_append.mp member with member | member
    · have other := List.find?_eq_none.mp absent row member
      simp only [decide_eq_true_eq] at other
      exact .inr (.inl ⟨member, other⟩)
    · exact .inl (List.mem_singleton.mp member)
  · obtain ⟨old, member, same⟩ := List.mem_map.mp member
    by_cases mine : old.actorId = actorId
    · simp only [mine, if_true] at same
      exact .inr (.inr ⟨old, member, mine, same.symm⟩)
    · simp only [mine, if_false] at same
      exact .inr (.inl ⟨same ▸ member, same ▸ mine⟩)

theorem upsertAlarm_has_row (rows : List AlarmRow) (actorId : String) (scheduledTime : Float) :
    ∃ row ∈ upsertAlarm rows actorId scheduledTime, row.actorId = actorId := by
  unfold upsertAlarm
  split
  · exact ⟨freshRow actorId scheduledTime, by simp, rfl⟩
  · rename_i old found
    have mine := List.find?_some found
    simp only [decide_eq_true_eq] at mine
    refine ⟨{ freshRow actorId scheduledTime with running := old.running },
      List.mem_map.mpr ⟨old, List.mem_of_find?_eq_some found, by simp [mine]⟩, rfl⟩

theorem other_mem_upsertAlarm {rows : List AlarmRow} {actorId : String} (scheduledTime : Float)
    {row : AlarmRow} (member : row ∈ rows) (other : row.actorId ≠ actorId) :
    row ∈ upsertAlarm rows actorId scheduledTime := by
  unfold upsertAlarm
  split
  · exact List.mem_append_left _ member
  · exact List.mem_map.mpr ⟨row, member, by simp [other]⟩

theorem own_mem_upsertAlarm {rows : List AlarmRow} {actorId : String} (scheduledTime : Float)
    {row : AlarmRow} (member : row ∈ rows) (mine : row.actorId = actorId) :
    { freshRow actorId scheduledTime with running := row.running } ∈
      upsertAlarm rows actorId scheduledTime := by
  unfold upsertAlarm
  split
  · rename_i absent
    have other := List.find?_eq_none.mp absent row member
    simp [mine] at other
  · exact List.mem_map.mpr ⟨row, member, by simp [mine]⟩

theorem readRunning_of_loads {row : AlarmRow} (loads : row.Loads) :
    ∃ running, readRunning row = .ok running := by
  obtain ⟨_, persisted, state⟩ := loads
  unfold readPersistedAlarm at state
  simp only [except_bind_ok] at state
  obtain ⟨_, _, _, _, _, _, _, _, _, _, _, _, _, _, value, read, running, range, _⟩ := state
  exact ⟨running, (except_bind_ok _ _ _).mpr ⟨value, read, range⟩⟩

theorem loadsAround_of_loads {row : AlarmRow} (loads : row.Loads) (actorId : String) :
    row.LoadsAround actorId := by
  unfold AlarmRow.LoadsAround
  split
  · exact readRunning_of_loads loads
  · exact loads

theorem zero_getInt64 (column : Nat) :
    getInt64 column (bindNumber .integer (some (Float.ofNat 0))).read = .ok (Float.ofNat 0) := by
  have safe : isSafeInteger (Float.ofNat 0) = true := by decide +kernel
  exact (getInt64_bound .integer column (not_nan_of_safe safe)).1 safe

theorem zero_requireRange (actorId column : String) (max : Nat) :
    requireRange actorId column (Float.ofNat 0) max = .ok 0 := by
  have value : integralValue (Float.ofNat 0) = some 0 := by decide +kernel
  have small : ¬ ((max : Int) < 0) := by omega
  simp [requireRange, value, small]

/-- An upsert's row carries the retry budget back to zero, so only its `running` flag can fail. -/
theorem readPersistedAlarm_upserted (actorId : String) (scheduledTime : Float) (running : Cell) :
    (∃ persisted, readPersistedAlarm { freshRow actorId scheduledTime with running } = .ok persisted) ↔
      ∃ flag, readRunning { freshRow actorId scheduledTime with running } = .ok flag := by
  simp only [readPersistedAlarm, readRetryTime, readRunning, freshRow, bindNumber_none, null_read, isNull, zero_getInt64,
    zero_requireRange, if_true, bind, Except.bind, pure, Except.pure]
  cases getInt64 6 running.read with
  | error _ => simp
  | ok value =>
    cases flag : requireRange actorId "running" value 1 <;> simp [flag]

theorem readRunning_upserted (row : AlarmRow) (scheduledTime : Float) :
    readRunning { freshRow row.actorId scheduledTime with running := row.running } =
      readRunning row := rfl

/-- After an upsert the whole table can be read back exactly when the new time can, and every row
    around it. -/
theorem upsertAlarm_loads_iff (rows : List AlarmRow) (actorId : String) {scheduledTime : Float}
    (number : isNaN scheduledTime = false) :
    (∀ row ∈ upsertAlarm rows actorId scheduledTime, row.Loads) ↔
      isSafeInteger scheduledTime = true ∧ ∀ row ∈ rows, row.LoadsAround actorId := by
  have bound := getInt64_bound .integer 1 number
  constructor
  · intro loads
    refine ⟨?_, fun row member => ?_⟩
    · by_contra unsafeTime
      obtain ⟨value, refused⟩ := bound.2 (by simpa using unsafeTime)
      obtain ⟨row, member, mine⟩ := upsertAlarm_has_row rows actorId scheduledTime
      obtain ⟨⟨time, read⟩, _⟩ := loads row member
      have cell : row.scheduledTime = bindNumber .integer (some scheduledTime) := by
        rcases mem_upsertAlarm member with rfl | ⟨_, other⟩ | ⟨_, _, _, rfl⟩
        · rfl
        · exact absurd mine other
        · rfl
      rw [cell, refused] at read
      contradiction
    · unfold AlarmRow.LoadsAround
      by_cases mine : row.actorId = actorId
      · subst mine
        simp only [if_true]
        have own := (loads _ (own_mem_upsertAlarm scheduledTime member rfl)).2
        exact (readPersistedAlarm_upserted _ _ _).mp own
      · simp only [mine, if_false]
        exact loads row (other_mem_upsertAlarm scheduledTime member mine)
  · rintro ⟨safe, around⟩ row member
    have time := bound.1 safe
    rcases mem_upsertAlarm member with rfl | ⟨member, other⟩ | ⟨old, held, rfl, rfl⟩
    · refine ⟨⟨scheduledTime, time⟩, (readPersistedAlarm_upserted actorId scheduledTime _).mpr ?_⟩
      exact ⟨0, by simp only [readRunning, freshRow, zero_getInt64, bind, Except.bind, zero_requireRange]⟩
    · have loads := around row member
      simpa [AlarmRow.LoadsAround, other] using loads
    · have running := around old held
      simp only [AlarmRow.LoadsAround, if_true] at running
      exact ⟨⟨scheduledTime, time⟩, (readPersistedAlarm_upserted _ _ _).mpr running⟩

/-- What a freshly opened scheduler reports for the actor whose alarm was just written. -/
theorem getAlarm_after_setAlarm (s : AlarmScheduler) {now : Float} {jitter : Nat → Nat}
    {reopened : AlarmScheduler} {actorId : String} {scheduledTime : Float}
    (safe : isSafeInteger scheduledTime = true)
    (opened : construct now jitter (s.setAlarm actorId scheduledTime).rows = .ok reopened) :
    reopened.getAlarm actorId = some scheduledTime := by
  obtain ⟨row, member, mine, time, read, reported⟩ :=
    getAlarm_of_construct opened (upsertAlarm_has_row s.rows actorId scheduledTime)
  have bound := (getInt64_bound .integer 1 (not_nan_of_safe safe)).1 safe
  have cell : row.scheduledTime = bindNumber .integer (some scheduledTime) := by
    rcases mem_upsertAlarm member with rfl | ⟨_, other⟩ | ⟨_, _, _, rfl⟩
    · rfl
    · exact absurd mine other
    · rfl
  rw [cell, bound] at read
  cases read
  exact reported

end AlarmScheduler

end DoRuntime.Alarms
