import DoRuntime.Js.Division
import DoRuntime.Js.Hex
import DoRuntime.Storage.ExplicitTxn
import DoRuntime.Storage.Metadata

namespace DoRuntime.Storage

open DoRuntime.Js DoRuntime.Sql

inductive BookmarkError
  | storage (error : StorageError)
  /-- `Local development bookmark is negative` -/
  | negative (bookmark : Float)
  /-- `Local development bookmark is not a non-negative safe integer` -/
  | notSafe (bookmark : Float)
  | broken
  | statementFailed

/-- `SqliteMetadata.getLocalDevelopmentBookmark`, its table created. -/
def getLocalDevelopmentBookmark (table : MetadataTable) : Except BookmarkError (Option Float) :=
  match lookupKey (table.getD []) bookmarkKey with
  | none => .ok none
  | some cell =>
    if isNull cell.read then .ok none
    else match getInt64 0 cell.read with
    | .error error => .error (.storage error)
    | .ok bookmark => if bookmark < 0 then .error (.negative bookmark) else .ok (some bookmark)

/-- `SqliteMetadata.setLocalDevelopmentBookmark`, its table created. -/
def setLocalDevelopmentBookmark (bookmark : Float) (table : MetadataTable) : Except BookmarkError MetadataTable :=
  if isSafeInteger bookmark = false ∨ bookmark < 0 then .error (.notSafe bookmark)
  else .ok (some (upsertKey (table.getD []) bookmarkKey (bindNumber .blob (some bookmark))))

def uint32Max : Nat := 0xffffffff

def paddedHex (value : Int) : JsString := padStart (toString16 value.toNat) 8 48

/-- The bookmark in the format of production. -/
def bookmarkText (bookmark : Float) : JsString :=
  paddedHex ((mathFloor (bookmark / Float.ofNat uint32Max)).getD 0) ++ js "-" ++
    paddedHex ((integralValue bookmark).getD 0 % uint32Max) ++ js "-" ++
    paddedHex 0 ++ js "-" ++ List.replicate 32 48

/-- The bookmark that follows the stored one. -/
def nextBookmark : Option Float → Float
  | none => Float.ofNat 0
  | some stored => stored + Float.ofNat 1

/-- The contents of the database: the `_cf_METADATA` table and the rest. -/
structure StoredData (R : Type) where
  metadata : MetadataTable
  rest : R

/-- An `ActorSqlite` with what its open implicit transaction would roll back to, and the bookmarks
    handed out over its database so far. -/
structure Session (R : Type) where
  actor : ActorSqlite (StoredData R)
  begun : StoredData R
  returned : List JsString

namespace Session

variable {R : Type}

def opened (contents : StoredData R) : Session R where
  actor := .initial contents
  begun := contents
  returned := []

def setContents (s : Session R) (contents : StoredData R) : Session R :=
  { s with actor := { s.actor with contents } }

/-- `onWrite`: a write with no transaction open starts an implicit one. -/
def onWrite (s : Session R) : Session R :=
  { s with
    actor := s.actor.onWrite
    begun := if s.actor.currentTxn = .none then s.actor.contents else s.begun }

/-- A write of the metadata table. -/
def writeMetadata (s : Session R) (table : MetadataTable) : Session R :=
  s.onWrite.setContents { s.actor.contents with metadata := table }

/-- `#ensureInitialized` -/
def ensureInitialized (s : Session R) : Session R :=
  if s.actor.contents.metadata.isSome then s else s.writeMetadata (some [])

/-- `getCurrentBookmark`, whose last statement may fail. -/
def getCurrentBookmark (s : Session R) (stores : Bool) : Except BookmarkError JsString × Session R :=
  if s.actor.broken then (.error .broken, s)
  else
    let s := s.ensureInitialized
    match getLocalDevelopmentBookmark s.actor.contents.metadata with
    | .error error => (.error error, s)
    | .ok stored =>
      let bookmark := nextBookmark stored
      match setLocalDevelopmentBookmark bookmark s.actor.contents.metadata with
      | .error error => (.error error, s)
      | .ok table =>
        if stores then (.ok (bookmarkText bookmark), s.writeMetadata table)
        else (.error .statementFailed, s.onWrite)

/-- A write of another table. -/
def write (s : Session R) (effect : R → Option R) : Session R :=
  if s.actor.broken then s
  else match effect s.actor.contents.rest with
  | none => s.onWrite
  | some rest => s.onWrite.setContents { s.actor.contents with rest }

/-- A write of the alarm's row. -/
def setAlarm (s : Session R) (currentTime : Option Float) : Session R :=
  if s.actor.broken then s
  else
    let s := s.ensureInitialized
    s.writeMetadata (some (upsertKey (s.actor.contents.metadata.getD []) alarmKey (bindNumber .blob currentTime)))

/-- The commit of an implicit transaction at the end of the checkpoint, or the roll back of one that
    fails to commit. -/
def checkpoint (s : Session R) (commits : Bool) : Session R :=
  if s.actor.broken = false ∧ s.actor.currentTxn = .implicit then
    if commits then { s with actor := s.actor.checkpoint }
    else { s with actor := { s.actor.checkpoint with contents := s.begun, broken := true } }
  else s

/-- The alarm that `deleteAll` saves, none where there is none; an error where its row is no time. -/
def savedAlarm (s : Session R) : Except StorageError (Option Float) :=
  SqliteMetadata.getAlarmUncached
    { table := s.actor.contents.metadata, tableCreated := s.actor.contents.metadata.isSome, cache := none }

/-- `deleteAll`. The database is reset to an empty one, whatever an implicit transaction did. -/
def deleteAll (s : Session R) (deleteAlarm : Bool) (empty : R) : Session R :=
  if s.actor.broken then s
  else match s.savedAlarm with
  | .error _ => s
  | .ok localAlarmState =>
    match s.actor.currentTxn with
    | .explicit _ => s
    | _ =>
      let reset : Session R :=
        { s with
          actor := { s.actor with contents := { metadata := none, rest := empty }, savepoints := [], currentTxn := .none } }
      if localAlarmState.isSome ∧ deleteAlarm = false then reset.setAlarm localAlarmState else reset

/-- What is committed. -/
def durable (s : Session R) : StoredData R :=
  match s.actor.savepoints.getLast? with
  | some savepoint => savepoint.contents
  | none => if s.actor.currentTxn = .implicit then s.begun else s.actor.contents

/-- A new `ActorSqlite` over the database that the last one left. -/
def restart (s : Session R) : Session R := { opened s.durable with returned := s.returned }

inductive Event (R : Type)
  | getCurrentBookmark (stores : Bool)
  | write (effect : R → Option R)
  | setAlarm (currentTime : Option Float)
  | checkpoint (commits : Bool)
  | startTransaction
  | commit (id : Nat) (outcome : CommitOutcome)
  | rollback (id : Nat)
  | drop (id : Nat)
  | deleteAll (deleteAlarm : Bool) (empty : R)
  | breaks
  | restart

def step (s : Session R) : Event R → Option (Session R)
  | .getCurrentBookmark stores =>
    match s.getCurrentBookmark stores with
    | (.ok text, s) => some { s with returned := s.returned ++ [text] }
    | (.error _, s) => some s
  | .write effect => some (s.write effect)
  | .setAlarm currentTime => some (s.setAlarm currentTime)
  | .checkpoint commits => some (s.checkpoint commits)
  | .startTransaction => s.actor.startTransaction.map fun started => { s with actor := started.2 }
  | .commit id outcome => if id < s.actor.nextTxn then some { s with actor := (s.actor.commit id outcome).2 } else none
  | .rollback id => if id < s.actor.nextTxn then some { s with actor := (s.actor.rollback id).2 } else none
  | .drop id => if id < s.actor.nextTxn then some { s with actor := (s.actor.drop id).2 } else none
  | .deleteAll deleteAlarm empty => some (s.deleteAll deleteAlarm empty)
  | .breaks => some { s with actor := { s.actor with broken := true } }
  | .restart => some s.restart

end Session

end DoRuntime.Storage
