import DoRuntime.Sql.Cell

namespace DoRuntime.Storage

open DoRuntime.Js DoRuntime.Sql

/-- The `_cf_METADATA` table of a database file; `none` before it is created. -/
abbrev MetadataTable := Option (List (Int × Cell))

def lookupKey (rows : List (Int × Cell)) (key : Int) : Option Cell :=
  (rows.find? (·.1 = key)).map (·.2)

def upsertKey (rows : List (Int × Cell)) (key : Int) (value : Cell) : List (Int × Cell) :=
  (key, value) :: rows.filter (·.1 ≠ key)

def alarmKey : Int := 1
def bookmarkKey : Int := 2

structure SqliteMetadata where
  table : MetadataTable
  tableCreated : Bool
  /-- `Cache.alarmTime`, `none` when nothing is cached. -/
  cache : Option (Option Float)

/-- JavaScript's `===` on alarm times. -/
def sameAlarm : Option Float → Option Float → Bool
  | none, none => true
  | some a, some b => a == b
  | _, _ => false

namespace SqliteMetadata

/-- The constructor: refuses a table holding a key this release does not write. -/
def construct (table : MetadataTable) : Except StorageError SqliteMetadata :=
  match (table.getD []).find? (fun row => row.1 ≠ alarmKey ∧ row.1 ≠ bookmarkKey) with
  | some row => .error (.unsupportedMetadataKey row.1)
  | none => .ok { table, tableCreated := table.isSome, cache := none }

def getAlarmUncached (m : SqliteMetadata) : Except StorageError (Option Float) :=
  if m.tableCreated then
    match lookupKey (m.table.getD []) alarmKey with
    | none => .ok none
    | some cell => if isNull cell.read then .ok none else (getInt64 0 cell.read).map some
  else .ok none

def getAlarm (m : SqliteMetadata) : Except StorageError (Option Float × SqliteMetadata) :=
  match m.cache with
  | some alarmTime => .ok (alarmTime, m)
  | none => m.getAlarmUncached.map fun alarmTime => (alarmTime, { m with cache := some alarmTime })

def ensureInitialized (m : SqliteMetadata) : SqliteMetadata :=
  if m.tableCreated then m
  else { m with table := some (m.table.getD []), tableCreated := true }

def setAlarmUncached (m : SqliteMetadata) (currentTime : Option Float) : SqliteMetadata :=
  let ready := m.ensureInitialized
  { ready with
    table := some (upsertKey (ready.table.getD []) alarmKey (bindNumber .blob currentTime)) }

/-- Returns whether the value changed. -/
def setAlarm (m : SqliteMetadata) (currentTime : Option Float) : Bool × SqliteMetadata :=
  match m.cache with
  | some alarmTime =>
    if sameAlarm alarmTime currentTime then (false, m)
    else (true, { m.setAlarmUncached currentTime with cache := some currentTime })
  | none => (true, { m.setAlarmUncached currentTime with cache := some currentTime })

def beforeSqliteReset (m : SqliteMetadata) : SqliteMetadata :=
  { m with tableCreated := false, cache := none }

/-- `reset()`: the listener runs, then the file is replaced by an empty one. -/
def reset (m : SqliteMetadata) : SqliteMetadata :=
  { m.beforeSqliteReset with table := none }

/-- The metadata objects a run of the runtime can hold. -/
inductive Live : SqliteMetadata → Prop
  | constructed {table m} : construct table = .ok m → Live m
  | read {m alarmTime m'} : Live m → m.getAlarm = .ok (alarmTime, m') → Live m'
  | written {m} (currentTime : Option Float) : Live m → Live (m.setAlarm currentTime).2
  | wasReset {m} : Live m → Live m.reset

/-- What the in-memory fields say about the table behind them. -/
structure Coherent (m : SqliteMetadata) : Prop where
  created : m.tableCreated = m.table.isSome
  keys : ∀ row ∈ m.table.getD [], row.1 = alarmKey ∨ row.1 = bookmarkKey
  cached : ∀ alarmTime, m.cache = some alarmTime →
    lookupKey (m.table.getD []) alarmKey = some (bindNumber .blob alarmTime) ∨
    m.getAlarmUncached = .ok alarmTime

end SqliteMetadata

theorem lookupKey_upsertKey (rows : List (Int × Cell)) (key : Int) (value : Cell) :
    lookupKey (upsertKey rows key value) key = some value := by
  simp [lookupKey, upsertKey]

theorem mem_upsertKey {rows : List (Int × Cell)} {key : Int} {value : Cell} {row : Int × Cell}
    (member : row ∈ upsertKey rows key value) : row.1 = key ∨ row ∈ rows := by
  rcases List.mem_cons.mp member with rfl | member
  · exact .inl rfl
  · exact .inr (List.mem_filter.mp member).1

namespace SqliteMetadata

theorem construct_ok {table : MetadataTable} {m : SqliteMetadata} (opened : construct table = .ok m) :
    m = { table, tableCreated := table.isSome, cache := none } ∧
      ∀ row ∈ table.getD [], row.1 = alarmKey ∨ row.1 = bookmarkKey := by
  unfold construct at opened
  split at opened
  · contradiction
  · rename_i absent
    refine ⟨(Except.ok.inj opened).symm, fun row member => ?_⟩
    have supported := List.find?_eq_none.mp absent row member
    simp only [decide_eq_true_eq, not_and_or, not_not] at supported
    exact supported

theorem construct_of_keys {table : MetadataTable}
    (keys : ∀ row ∈ table.getD [], row.1 = alarmKey ∨ row.1 = bookmarkKey) :
    construct table = .ok { table, tableCreated := table.isSome, cache := none } := by
  unfold construct
  split
  · rename_i row found
    have unsupported := List.find?_some found
    simp only [decide_eq_true_eq] at unsupported
    rcases keys row (List.mem_of_find?_eq_some found) with same | same
    · exact absurd same unsupported.1
    · exact absurd same unsupported.2
  · rfl

theorem ensureInitialized_table (m : SqliteMetadata) :
    m.ensureInitialized.table.getD [] = m.table.getD [] ∧
      m.ensureInitialized.tableCreated = true := by
  unfold ensureInitialized
  split <;> simp_all

theorem setAlarmUncached_table (m : SqliteMetadata) (currentTime : Option Float) :
    (m.setAlarmUncached currentTime).table =
      some (upsertKey (m.table.getD []) alarmKey (bindNumber .blob currentTime)) ∧
    (m.setAlarmUncached currentTime).tableCreated = true := by
  have ready := m.ensureInitialized_table
  simp [setAlarmUncached, ready]

theorem setAlarm_cases (m : SqliteMetadata) (currentTime : Option Float) :
    (∃ alarmTime, m.cache = some alarmTime ∧ sameAlarm alarmTime currentTime = true ∧
      m.setAlarm currentTime = (false, m)) ∨
    m.setAlarm currentTime =
      (true, { m.setAlarmUncached currentTime with cache := some currentTime }) := by
  unfold setAlarm
  cases hit : m.cache with
  | none => exact .inr rfl
  | some alarmTime =>
    by_cases same : sameAlarm alarmTime currentTime = true
    · exact .inl ⟨alarmTime, rfl, same, by simp [same]⟩
    · exact .inr (by simp [same])

theorem Coherent.setAlarm {m : SqliteMetadata} (coherent : m.Coherent) (currentTime : Option Float) :
    (m.setAlarm currentTime).2.Coherent := by
  rcases m.setAlarm_cases currentTime with ⟨_, _, _, unchanged⟩ | written
  · rw [unchanged]
    exact coherent
  · rw [written]
    obtain ⟨table, created⟩ := m.setAlarmUncached_table currentTime
    refine ⟨by simp [table, created], ?_, ?_⟩
    · intro row member
      simp only [table, Option.getD_some] at member
      rcases mem_upsertKey member with same | member
      · exact .inl same
      · exact coherent.keys row member
    · intro alarmTime hit
      cases hit
      exact .inl (by simp [table, lookupKey_upsertKey])

theorem Coherent.getAlarm {m m' : SqliteMetadata} {alarmTime : Option Float}
    (coherent : m.Coherent) (read : m.getAlarm = .ok (alarmTime, m')) : m'.Coherent := by
  unfold SqliteMetadata.getAlarm at read
  cases hit : m.cache with
  | some cached =>
    simp only [hit, Except.ok.injEq, Prod.mk.injEq] at read
    rw [← read.2]
    exact coherent
  | none =>
    rw [hit] at read
    cases fetched : m.getAlarmUncached with
    | error _ => simp [fetched, Except.map] at read
    | ok found =>
      simp only [fetched, Except.map, Except.ok.injEq, Prod.mk.injEq] at read
      obtain ⟨rfl, rfl⟩ := read
      refine ⟨coherent.created, coherent.keys, ?_⟩
      intro alarmTime same
      cases same
      exact .inr fetched

theorem Live.coherent {m : SqliteMetadata} (live : Live m) : m.Coherent := by
  induction live with
  | constructed opened =>
    obtain ⟨rfl, keys⟩ := construct_ok opened
    exact ⟨rfl, keys, by simp⟩
  | read _ got ih => exact ih.getAlarm got
  | written currentTime _ ih => exact ih.setAlarm currentTime
  | wasReset _ ih => exact ⟨rfl, by simp [reset], by simp [reset, beforeSqliteReset]⟩

end SqliteMetadata

end DoRuntime.Storage
