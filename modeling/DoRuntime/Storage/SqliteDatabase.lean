import DoRuntime.Js.Text

namespace DoRuntime.Storage.CachedSqlite

open DoRuntime.Js

section Names

/-- The delimiter that ends a quoted name, where the unit begins one. -/
def closingQuote (c : CodeUnit) : Option CodeUnit :=
  if c = 34 ∨ c = 39 ∨ c = 96 then some c else if c = 91 then some 93 else none

/-- The texts of the pattern `NAME`: a quoted name without its delimiter inside, or a bare word. -/
def IsName (raw : JsString) : Prop :=
  (∃ opening closing content, closingQuote opening = some closing ∧ closing ∉ content ∧
    raw = opening :: (content ++ [closing])) ∨
  ∃ first rest, raw = first :: rest ∧ (isLetter first ∨ first = 95) ∧ ∀ c ∈ rest, isWordUnit c ∨ c = 36

structure NameToken where
  raw : JsString
  isName : IsName raw

def startsWith (raw : JsString) (c : CodeUnit) : Bool := raw.head? = some c
def endsWith (raw : JsString) (c : CodeUnit) : Bool := raw.getLast? = some c

/-- `slice(1, -1)` -/
def sliceInner (raw : JsString) : JsString := (raw.drop 1).dropLast

def savepointName (raw : JsString) : JsString :=
  let unquoted :=
    if (startsWith raw 34 ∧ endsWith raw 34) ∨ (startsWith raw 39 ∧ endsWith raw 39) ∨
        (startsWith raw 96 ∧ endsWith raw 96) then sliceInner raw
    else if startsWith raw 91 ∧ endsWith raw 93 then sliceInner raw
    else raw
  unquoted.map lowerUnit

/-- SQLite's own dequoting: up to the delimiter, a doubled one standing for itself. -/
def dequoteFrom (closing : CodeUnit) : JsString → JsString
  | [] => []
  | [c] => if c = closing then [] else [c]
  | c :: d :: rest =>
    if c = closing then
      if d = closing then closing :: dequoteFrom closing rest else []
    else c :: dequoteFrom closing (d :: rest)

def dequote (raw : JsString) : JsString :=
  match raw with
  | [] => []
  | c :: rest =>
    match closingQuote c with
    | some closing => dequoteFrom closing rest
    | none => raw

/-- Names that `sqlite3_stricmp` does not tell apart. -/
def sameName (a b : JsString) : Bool := toLowerCase a = toLowerCase b

end Names

section Engine

variable (Time Key Value : Type)

/-- What the file holds: `none` for a table that does not exist. -/
structure Contents where
  /-- The value at key 1 of `_cf_METADATA`, `none` for a missing row. -/
  metadata : Option (Option (Option Time))
  kv : Option (List (Key × Value))

inductive Fault
  | fails
  /-- The statement fails, and SQLite rolls the open transaction back with it. -/
  | rollsBack

inductive Statement
  | begin
  | savepoint (name : NameToken)
  | release (name : NameToken)
  | rollbackTo (name : NameToken)
  | commit
  | rollback
  | createMetadata
  | setAlarm (time : Option Time)
  | createKv
  | put (key : Key) (value : Value)
  | delete (key : Key)
  | select

/-- SQLite's connection: what is in the file, and what each open level would restore. -/
structure Backend where
  contents : Contents Time Key Value
  begun : Option (Contents Time Key Value)
  /-- Innermost first. -/
  savepoints : List (JsString × Contents Time Key Value)
  /-- What befalls the statements to come. -/
  faults : List (Option Fault)

end Engine

variable {Time Key Value : Type}

namespace Backend

variable [LinearOrder Key]

def inTransaction (b : Backend Time Key Value) : Bool := b.begun.isSome || !b.savepoints.isEmpty

/-- The savepoints from the innermost of a name outwards. -/
def downTo (name : JsString) : List (JsString × Contents Time Key Value) → Option (List (JsString × Contents Time Key Value))
  | [] => none
  | (other, before) :: rest => if sameName other name then some ((other, before) :: rest) else downTo name rest

/-- What a complete rollback restores. -/
def outermost (b : Backend Time Key Value) : Contents Time Key Value :=
  match b.begun, b.savepoints.getLast? with
  | some before, _ => before
  | none, some (_, before) => before
  | none, none => b.contents

def rollBack (b : Backend Time Key Value) : Backend Time Key Value :=
  { b with contents := b.outermost, begun := none, savepoints := [] }

def effect (b : Backend Time Key Value) : Statement Time Key Value → Option (Backend Time Key Value)
  | .begin => if b.inTransaction then none else some { b with begun := some b.contents }
  | .savepoint name => some { b with savepoints := (dequote name.raw, b.contents) :: b.savepoints }
  | .release name => (downTo (dequote name.raw) b.savepoints).map fun found => { b with savepoints := found.tail }
  | .rollbackTo name =>
    match downTo (dequote name.raw) b.savepoints with
    | some ((other, before) :: rest) => some { b with contents := before, savepoints := (other, before) :: rest }
    | _ => none
  | .commit => if b.inTransaction then some { b with begun := none, savepoints := [] } else none
  | .rollback => if b.inTransaction then some b.rollBack else none
  | .createMetadata =>
    some { b with contents := { b.contents with metadata := some (b.contents.metadata.getD none) } }
  | .setAlarm time =>
    b.contents.metadata.map fun _ => { b with contents := { b.contents with metadata := some (some time) } }
  | .createKv => some { b with contents := { b.contents with kv := some (b.contents.kv.getD []) } }
  | .put key value =>
    b.contents.kv.map fun rows =>
      { b with contents := { b.contents with kv := some ((key, value) :: rows.filter (·.1 ≠ key)) } }
  | .delete key =>
    b.contents.kv.map fun rows => { b with contents := { b.contents with kv := some (rows.filter (·.1 ≠ key)) } }
  | .select => some b

/-- Runs one statement, and whether it went through. -/
def execute (b : Backend Time Key Value) (statement : Statement Time Key Value) : Bool × Backend Time Key Value :=
  let rest := { b with faults := b.faults.tail }
  match b.faults.head? with
  | some (some .fails) => (false, rest)
  | some (some .rollsBack) => (false, rest.rollBack)
  | _ =>
    match rest.effect statement with
    | some b => (true, b)
    | none => (false, rest)

/-- `reset()`: an empty file. -/
def reset (b : Backend Time Key Value) : Backend Time Key Value := { b with contents := ⟨none, none⟩ }

end Backend

inductive StateChange
  | none
  | begin (savepointName : Option JsString)
  | commit (savepointName : Option JsString)
  | rollback (savepointName : Option JsString)

def classify : Statement Time Key Value → StateChange
  | .rollbackTo name => .rollback (some (savepointName name.raw))
  | .rollback => .rollback none
  | .savepoint name => .begin (some (savepointName name.raw))
  | .begin => .begin none
  | .release name => .commit (some (savepointName name.raw))
  | .commit => .commit none
  | .createMetadata | .setAlarm _ | .createKv | .put _ _ | .delete _ | .select => .none

/-- What the two classes over the database keep in memory. -/
structure Flags (Time : Type) where
  /-- `SqliteMetadata.#tableCreated` -/
  metadataCreated : Bool
  /-- `SqliteMetadata.#cache`, `none` when nothing is cached. -/
  cache : Option (Option Time)
  /-- `SqliteKv.#tableCreated` -/
  kvCreated : Bool

/-- What those classes register with `onRollback`. -/
inductive Callback (Time : Type)
  | restoreCache (cached : Option (Option Time))
  | forgetMetadata
  | forgetKv

def Flags.invoke (flags : Flags Time) : Callback Time → Flags Time
  | .restoreCache cached => { flags with cache := cached }
  | .forgetMetadata => { flags with metadataCreated := false }
  | .forgetKv => { flags with kvCreated := false }

structure Savepoint where
  name : JsString
  rollbackCallbackIndex : Nat

structure SqliteDatabase (Time Key Value : Type) where
  backend : Backend Time Key Value
  /-- Latest first. -/
  rollbackCallbacks : List (Callback Time)
  /-- Innermost first. -/
  savepoints : List Savepoint
  inTransaction : Bool
  criticalError : Bool
  flags : Flags Time

namespace SqliteDatabase

variable [LinearOrder Key]

def isOpen (s : SqliteDatabase Time Key Value) : Bool := s.inTransaction || !s.savepoints.isEmpty

def onRollback (s : SqliteDatabase Time Key Value) (callback : Callback Time) : SqliteDatabase Time Key Value :=
  if s.isOpen then { s with rollbackCallbacks := callback :: s.rollbackCallbacks } else s

/-- The loop of `#runRollbackCallbacksDownTo`. -/
def runCallbacks (index : Nat) : List (Callback Time) → Flags Time → List (Callback Time) × Flags Time
  | [], flags => ([], flags)
  | callback :: rest, flags =>
    if index < rest.length + 1 then runCallbacks index rest (flags.invoke callback) else (callback :: rest, flags)

/-- `none` where its assertion fails. -/
def runRollbackCallbacksDownTo (s : SqliteDatabase Time Key Value) (index : Nat) :
    Bool × SqliteDatabase Time Key Value :=
  if index ≤ s.rollbackCallbacks.length then
    let (callbacks, flags) := runCallbacks index s.rollbackCallbacks s.flags
    (true, { s with rollbackCallbacks := callbacks, flags })
  else (false, s)

/-- The savepoints from the innermost of a name outwards. -/
def popTo (name : JsString) : List Savepoint → List Savepoint
  | [] => []
  | savepoint :: rest => if savepoint.name = name then savepoint :: rest else popTo name rest

def discardCallbacks (s : SqliteDatabase Time Key Value) : SqliteDatabase Time Key Value :=
  if s.isOpen then s else { s with rollbackCallbacks := [] }

/-- `#applyChange`, and whether its assertions held. -/
def applyChange (s : SqliteDatabase Time Key Value) : StateChange → Bool × SqliteDatabase Time Key Value
  | .none => (true, s)
  | .begin (some name) =>
    (true, { s with
      savepoints := { name, rollbackCallbackIndex := s.rollbackCallbacks.length } :: s.savepoints })
  | .begin none =>
    if s.savepoints = [] ∧ s.inTransaction = false ∧ s.rollbackCallbacks.length = 0 then
      (true, { s with inTransaction := true })
    else (false, s)
  | .commit (some name) =>
    match popTo name s.savepoints with
    | [] => (false, { s with savepoints := [] })
    | _ :: rest => (true, discardCallbacks { s with savepoints := rest })
  | .commit none =>
    if s.inTransaction then (true, discardCallbacks { s with savepoints := [], inTransaction := false })
    else (false, s)
  | .rollback (some name) =>
    match popTo name s.savepoints with
    | [] => (false, { s with savepoints := [] })
    | savepoint :: rest =>
      runRollbackCallbacksDownTo { s with savepoints := savepoint :: rest } savepoint.rollbackCallbackIndex
  | .rollback none =>
    if s.inTransaction then runRollbackCallbacksDownTo { s with savepoints := [], inTransaction := false } 0
    else (false, s)

def checkForAutoRollback (s : SqliteDatabase Time Key Value) : SqliteDatabase Time Key Value :=
  if s.isOpen ∧ s.backend.inTransaction = false then
    { s with inTransaction := false, savepoints := [], rollbackCallbacks := [], criticalError := true }
  else s

/-- `run` for one statement, and whether it returned. -/
def run (s : SqliteDatabase Time Key Value) (statement : Statement Time Key Value) :
    Bool × SqliteDatabase Time Key Value :=
  if s.criticalError then (false, s)
  else
    let (ok, backend) := s.backend.execute statement
    if ok then applyChange { s with backend } (classify statement)
    else (false, checkForAutoRollback { s with backend })

def reset (s : SqliteDatabase Time Key Value) : Bool × SqliteDatabase Time Key Value :=
  if s.criticalError ∨ s.isOpen then (false, s)
  else
    (true, { s with
      backend := s.backend.reset
      flags := { metadataCreated := false, cache := none, kvCreated := false } })

section Metadata

variable [DecidableEq Time]

/-- `SqliteMetadata.#ensureInitialized` -/
def ensureMetadata (s : SqliteDatabase Time Key Value) : Bool × SqliteDatabase Time Key Value :=
  if s.flags.metadataCreated then (true, s)
  else
    match s.run .createMetadata with
    | (false, s) => (false, s)
    | (true, s) => (true, onRollback { s with flags := { s.flags with metadataCreated := true } } .forgetMetadata)

/-- Whether the value changed; `none` where it throws. -/
def setAlarm (s : SqliteDatabase Time Key Value) (currentTime : Option Time) :
    Option Bool × SqliteDatabase Time Key Value :=
  let cached := s.flags.cache
  if cached = some currentTime then (some false, s)
  else
    match s.ensureMetadata with
    | (false, s) => (none, s)
    | (true, s) =>
      match s.run (.setAlarm currentTime) with
      | (false, s) => (none, s)
      | (true, s) =>
        let s := s.onRollback (.restoreCache cached)
        (some true, { s with flags := { s.flags with cache := some currentTime } })

/-- The value at key 1, null where there is none. -/
def Contents.alarm (contents : Contents Time Key Value) : Option Time := contents.metadata.join.join

def getAlarmUncached (s : SqliteDatabase Time Key Value) : Option (Option Time) × SqliteDatabase Time Key Value :=
  if s.flags.metadataCreated then
    match s.run .select with
    | (false, s) => (none, s)
    | (true, s) => (some (Contents.alarm s.backend.contents), s)
  else (some none, s)

/-- `none` where it throws. -/
def getAlarm (s : SqliteDatabase Time Key Value) : Option (Option Time) × SqliteDatabase Time Key Value :=
  if s.criticalError then (none, s)
  else
    match s.flags.cache with
    | some cached => (some cached, s)
    | none =>
      match s.getAlarmUncached with
      | (none, s) => (none, s)
      | (some alarmTime, s) => (some alarmTime, { s with flags := { s.flags with cache := some alarmTime } })

end Metadata

section Kv

/-- `SqliteKv.#ensureInitialized` -/
def ensureKv (s : SqliteDatabase Time Key Value) : Bool × SqliteDatabase Time Key Value :=
  if s.flags.kvCreated then (true, s)
  else
    match s.run .createKv with
    | (false, s) => (false, s)
    | (true, s) => (true, onRollback { s with flags := { s.flags with kvCreated := true } } .forgetKv)

def put (s : SqliteDatabase Time Key Value) (key : Key) (value : Value) : Bool × SqliteDatabase Time Key Value :=
  match s.ensureKv with
  | (false, s) => (false, s)
  | (true, s) => s.run (.put key value)

def putAll (s : SqliteDatabase Time Key Value) : List (Key × Value) → Bool × SqliteDatabase Time Key Value
  | [] => (true, s)
  | (key, value) :: rest =>
    match s.put key value with
    | (false, s) => (false, s)
    | (true, s) => s.putAll rest

/-- `_cf_put_multiple_savepoint` -/
def multiPutSavepoint : NameToken where
  raw := js "_cf_put_multiple_savepoint"
  isName := .inr ⟨95, js "cf_put_multiple_savepoint", by decide, .inr rfl, by decide⟩

def rollbackMultiPut (s : SqliteDatabase Time Key Value) : SqliteDatabase Time Key Value :=
  match s.run (.rollbackTo multiPutSavepoint) with
  | (false, s) => s
  | (true, s) => (s.run (.release multiPutSavepoint)).2

/-- `throws` tells an iteration that throws after the listed pairs. -/
def putMultiple (s : SqliteDatabase Time Key Value) (pairs : List (Key × Value)) (throws : Bool) :
    Bool × SqliteDatabase Time Key Value :=
  match s.ensureKv with
  | (false, s) => (false, s)
  | (true, s) =>
    match s.run (.savepoint multiPutSavepoint) with
    | (false, s) => (false, s)
    | (true, s) =>
      match s.putAll pairs with
      | (true, s) => if throws then (false, s.rollbackMultiPut) else s.run (.release multiPutSavepoint)
      | (false, s) => (false, s.rollbackMultiPut)

def rows (s : SqliteDatabase Time Key Value) : List (Key × Value) := s.backend.contents.kv.getD []

/-- Whether the key was matched; `none` where it throws. -/
def delete (s : SqliteDatabase Time Key Value) (key : Key) : Option Bool × SqliteDatabase Time Key Value :=
  match s.ensureKv with
  | (false, s) => (none, s)
  | (true, s) =>
    let matched := s.rows.any (·.1 = key)
    match s.run (.delete key) with
    | (false, s) => (none, s)
    | (true, s) => (some matched, s)

/-- Reads the rows, none of them where the table is not created; `none` where it throws. -/
def select (s : SqliteDatabase Time Key Value) : Option (List (Key × Value)) × SqliteDatabase Time Key Value :=
  if s.criticalError then (none, s)
  else if s.flags.kvCreated then
    match s.run .select with
    | (false, s) => (none, s)
    | (true, s) => (some s.rows, s)
  else (some [], s)

def get (s : SqliteDatabase Time Key Value) (key : Key) : Option (Option Value) × SqliteDatabase Time Key Value :=
  let (found, s) := s.select
  (found.map fun rows => (rows.find? (·.1 = key)).map (·.2), s)

inductive Order
  | forward
  | reverse

/-- The rows from `first` on, in key order. -/
def list (s : SqliteDatabase Time Key Value) (first : Key) (last : Option Key)
    (limit : Option Nat) (order : Order) : Option (List (Key × Value)) × SqliteDatabase Time Key Value :=
  let (found, s) := s.select
  let chosen (rows : List (Key × Value)) : List (Key × Value) :=
    let inRange := rows.filter fun row => first ≤ row.1 ∧ ∀ bound, last = some bound → row.1 < bound
    let sorted := inRange.mergeSort fun a b => a.1 ≤ b.1
    let ordered := match order with
      | .forward => sorted
      | .reverse => sorted.reverse
    match limit with
    | some count => ordered.take count
    | none => ordered
  (found.map chosen, s)

/-- The number of keys; `none` where it throws. -/
def deleteAll (s : SqliteDatabase Time Key Value) : Option Nat × SqliteDatabase Time Key Value :=
  let counted :=
    if s.flags.kvCreated then
      match s.run .select with
      | (false, s) => (none, s)
      | (true, s) => (some s.rows.length, s)
    else (some 0, s)
  match counted with
  | (none, s) => (none, s)
  | (some count, s) =>
    match s.reset with
    | (false, s) => (none, s)
    | (true, s) => (some count, s)

end Kv

/-- A connection that has just been opened, with the classes constructed over it. -/
def opened (contents : Contents Time Key Value) (faults : List (Option Fault)) : SqliteDatabase Time Key Value where
  backend := { contents, begun := none, savepoints := [], faults }
  rollbackCallbacks := []
  savepoints := []
  inTransaction := false
  criticalError := false
  flags := { metadataCreated := contents.metadata.isSome, cache := none, kvCreated := contents.kv.isSome }

inductive Transaction
  | begin
  | savepoint (name : NameToken)
  | release (name : NameToken)
  | rollbackTo (name : NameToken)
  | commit
  | rollback

def Transaction.statement : Transaction → Statement Time Key Value
  | .begin => .begin
  | .savepoint name => .savepoint name
  | .release name => .release name
  | .rollbackTo name => .rollbackTo name
  | .commit => .commit
  | .rollback => .rollback

inductive Op (Time Key Value : Type)
  | setAlarm (time : Option Time)
  | getAlarm
  | put (key : Key) (value : Value)
  | putMultiple (pairs : List (Key × Value)) (throws : Bool)
  | get (key : Key)
  | delete (key : Key)
  | list (first : Key) (last : Option Key) (limit : Option Nat) (order : Order)
  | deleteAll
  | reset
  | transaction (transaction : Transaction)

variable [DecidableEq Time]

def apply (s : SqliteDatabase Time Key Value) : Op Time Key Value → SqliteDatabase Time Key Value
  | .setAlarm time => (s.setAlarm time).2
  | .getAlarm => s.getAlarm.2
  | .put key value => (s.put key value).2
  | .putMultiple pairs throws => (s.putMultiple pairs throws).2
  | .get key => (s.get key).2
  | .delete key => (s.delete key).2
  | .list first last limit order => (s.list first last limit order).2
  | .deleteAll => s.deleteAll.2
  | .reset => s.reset.2
  | .transaction transaction => (s.run transaction.statement).2

end SqliteDatabase

end DoRuntime.Storage.CachedSqlite
