import DoRuntime.Js.Text
import DoRuntime.Lib.Program
import DoRuntime.Lib.Transition

namespace DoRuntime.Backends

open Js Prog

abbrev Image := List UInt8

/-- The unit set of `SAFE_DATABASE_NAME`. -/
def isSafeUnit (c : CodeUnit) : Bool := isLetter c || isDigit c || c == 95 || c == 45

def isSafeDatabaseName (name : JsString) : Bool := !name.isEmpty && name.all isSafeUnit

def dot : JsString := js "."

def sqlite : JsString := js ".sqlite"

def journal : JsString := js "-journal"

/-- The pool file holding database `name` under `prefix`. -/
def databaseFile (pre name : JsString) : JsString := pre ++ dot ++ name ++ sqlite

def journalFile (pre name : JsString) : JsString := databaseFile pre name ++ journal

inductive Failure
  | unsafeName (name : JsString)
  | sidecar (action : String) (file : JsString)
  | openHandles
  | invalidSnapshot
  | newerStorage
  | notUnlinked (file : JsString)
  | noFile (file : JsString)
  /-- The driver's own error, of the operation's call of this number. -/
  | driver (call : Nat)
  /-- `SqliteWasmRestoreError`, with its `recoverySnapshot`. -/
  | restore (errors : List Failure) (recovery : List (JsString × Image))

/-- What is done to a file of the pool on behalf of a storage. -/
inductive Touch
  | exported (file : JsString)
  | unlinked (file : JsString)
  | imported (file : JsString)

/-- What becomes of a call to the driver. -/
inductive Fate
  | done
  /-- `unlink` answers false. -/
  | refused
  /-- It throws with nothing done. -/
  | failed
  /-- It throws with part of its work done. -/
  | torn (image : Image)

/-- A storage of the pool; several may have one prefix. -/
structure Storage where
  pre : JsString
  absolute : pre.head? = some 47
  instanceId : Nat
deriving DecidableEq

structure Pool where
  files : List (JsString × Image)
  /-- The names of `openDatabases`, for each storage. -/
  opened : Storage → List JsString
  /-- What the operation under way has done to files. -/
  touches : List Touch
  /-- The local variable of `replacePoolFiles`. -/
  touched : List JsString
  calls : Nat
  /-- What the calls of the driver threw, a false answer included. -/
  thrown : List Failure

/-- The driver's answer to each call of an operation. -/
structure Driver where
  fate : Nat → Fate
  importable : Bool

def storeFile (file : JsString) (image : Image) (files : List (JsString × Image)) : List (JsString × Image) :=
  if files.any (·.1 == file) then files.map fun entry => if entry.1 = file then (file, image) else entry
  else files ++ [(file, image)]

def discardFile (file : JsString) (files : List (JsString × Image)) : List (JsString × Image) :=
  files.filter (·.1 ≠ file)

namespace Pool

abbrev Act (α : Type) : Type := Prog Failure Pool α

def contents (pool : Pool) (file : JsString) : Option Image := pool.files.lookup file

def getFileNames (pool : Pool) : List JsString := pool.files.map (·.1)

/-- Every pool file under `prefix`, recovery sidecars included. -/
def prefixFiles (pool : Pool) (pre : JsString) : List JsString :=
  pool.getFileNames.filter fun file => (pre ++ dot).isPrefixOf file

/-- `file.slice(prefix.length + 1, -".sqlite".length)` -/
def slicedName (pre file : JsString) : JsString := (file.take (file.length - sqlite.length)).drop (pre.length + 1)

def databaseName (pre file : JsString) : Except Failure JsString :=
  let name := slicedName pre file
  if isSafeDatabaseName name then .ok name else .error (.unsafeName name)

section Operations

variable (driver : Driver)

/-- The fate of the next call of the driver. -/
def call : Act Fate := do
  let pool ← state
  update fun pool => { pool with calls := pool.calls + 1 }
  pure (driver.fate pool.calls)

def touch (touch : Touch) : Act Unit := update fun pool => { pool with touches := pool.touches ++ [touch] }

def fail (failure : Failure) : Act α := do
  update fun pool => { pool with thrown := pool.thrown ++ [failure] }
  raise failure

/-- The driver throws. -/
def failCall : Act α := do
  let pool ← state
  fail (.driver pool.calls)

def exportFile (file : JsString) : Act Image := do
  touch (.exported file)
  let fate ← call driver
  let pool ← state
  match fate, pool.contents file with
  | .done, some image => pure image
  | .done, none => fail (.noFile file)
  | _, _ => failCall

/-- `unlink`, where an answer other than true is thrown. -/
def unlink (file : JsString) : Act Unit := do
  touch (.unlinked file)
  let fate ← call driver
  match fate with
  | .done => do
    let pool ← state
    update fun pool => { pool with files := discardFile file pool.files }
    if pool.contents file = none then fail (.notUnlinked file) else pure ()
  | .refused => fail (.notUnlinked file)
  | .failed => failCall
  | .torn _ => do
    update fun pool => { pool with files := discardFile file pool.files }
    failCall

def importDb (file : JsString) (image : Image) : Act Unit := do
  touch (.imported file)
  let fate ← call driver
  match fate with
  | .done => update fun pool => { pool with files := storeFile file image pool.files }
  | .refused | .failed => failCall
  | .torn image => do
    update fun pool => { pool with files := storeFile file image pool.files }
    failCall

/-- The reservation of `withHeadroom`. -/
def reserve : Act Unit := do
  let fate ← call driver
  match fate with
  | .done => pure ()
  | _ => failCall

def requireNoOpenHandles (storage : Storage) : Act Unit := do
  let pool ← state
  if (pool.opened storage).isEmpty then pure () else raise .openHandles

def requireNoRecoverySidecars (files : List JsString) (action : String) : Act Unit :=
  match files.find? fun file => !sqlite.isSuffixOf file with
  | some file => raise (.sidecar action file)
  | none => pure ()

def lift (result : Except Failure α) : Act α :=
  match result with
  | .ok a => pure a
  | .error failure => raise failure

/-- Every one of the promises runs, and the first that rejects decides. -/
def promiseAll (each : JsString → Act α) : List JsString → Act (List α)
  | [] => pure []
  | file :: rest => do
    let first ← attempt (each file >>= fun a => pure (Except.ok a)) fun failure => pure (.error failure)
    match first with
    | .ok a => do
      let others ← promiseAll each rest
      pure (a :: others)
    | .error failure => do
      let _ ← attempt (promiseAll each rest >>= fun _ => pure ()) fun _ => pure ()
      raise failure

def exportDatabases (pre : JsString) (files : List JsString) (action : String) : Act (List (JsString × Image)) := do
  requireNoRecoverySidecars files action
  promiseAll (fun file => do
    let name ← lift (databaseName pre file)
    let image ← exportFile driver file
    pure (name, image)) files

def exportFiles (files : List JsString) : Act (List (JsString × Image)) :=
  promiseAll (fun file => do
    let image ← exportFile driver file
    pure (file, image)) files

/-- Tries each of the steps, and returns what they threw. -/
def collect (step : α → Act Unit) : List α → Act (List Failure)
  | [] => pure []
  | a :: rest => do
    let failure ← attempt (step a >>= fun _ => pure none) fun failure => pure (some failure)
    let others ← collect step rest
    pure (failure.toList ++ others)

def touchedBy (file : JsString) : Act Unit := update fun pool => { pool with touched := file :: pool.touched }

def replacePoolFiles (files : List JsString) (replacement : List (JsString × Image))
    (rollbackFailed : List Failure → List (JsString × Image) → Failure) : Act Unit := do
  let original ← exportFiles driver files
  update fun pool => { pool with touched := [] }
  attempt (do
    forEach files fun file => do
      touchedBy file
      unlink driver file
    forEach replacement fun entry => do
      touchedBy entry.1
      importDb driver entry.1 entry.2) fun failure => do
    let pool ← state
    let unlinked ← collect (unlink driver) (pool.getFileNames.filter (· ∈ pool.touched))
    let restored ← collect (fun entry => importDb driver entry.1 entry.2) (original.filter (·.1 ∈ pool.touched))
    if (unlinked ++ restored).isEmpty then raise failure
    else raise (rollbackFailed (failure :: unlinked ++ restored) original)

/-- Replaces every database under `prefix` with `databases`. -/
def replaceDatabases (pre : JsString) (databases : List (JsString × Image)) (action : String) : Act Unit := do
  let pool ← state
  let files := pool.prefixFiles pre
  requireNoRecoverySidecars files action
  forEach files fun file => lift (databaseName pre file) >>= fun _ => pure ()
  replacePoolFiles driver files (databases.map fun database => (databaseFile pre database.1, database.2))
    fun errors original => .restore errors (original.map fun entry => (slicedName pre entry.1, entry.2))

def create (file : JsString) (pool : Pool) : Pool :=
  if pool.contents file = none then { pool with files := storeFile file [] pool.files } else pool

/-- `new OpfsSAHPoolDb(filename)`, which creates the file where there is none. -/
def openHandle (file : JsString) : Act Unit := do
  let fate ← call driver
  match fate with
  | .done => update (create file)
  | .refused | .failed => failCall
  | .torn _ => do
    update (create file)
    failCall

def openDatabase (storage : Storage) (name : JsString) : Act Unit := do
  if isSafeDatabaseName name then do
    reserve driver
    openHandle driver (databaseFile storage.pre name)
    update fun pool =>
      { pool with opened := Function.update pool.opened storage (name :: pool.opened storage) }
  else raise (.unsafeName name)

def close (storage : Storage) : Act Unit :=
  update fun pool => { pool with opened := Function.update pool.opened storage [] }

/-- `SqliteWasmDatabase.reset` -/
def reset (storage : Storage) (name : JsString) : Act Unit := do
  unlink driver (databaseFile storage.pre name)
  openHandle driver (databaseFile storage.pre name)

/-- Close every handle, then physically remove every database under this prefix. -/
def deleteAll (storage : Storage) : Act Unit := do
  close storage
  let pool ← state
  forEach (pool.prefixFiles storage.pre) fun file => unlink driver file

def copyFrom (storage source : Storage) : Act Unit := do
  let pool ← state
  let images ← exportDatabases driver source.pre (pool.prefixFiles source.pre) "clone actor storage"
  reserve driver
  close storage
  replaceDatabases driver storage.pre images "clone actor storage"

/-- `requireSqliteDatabaseImage` -/
def isDatabaseImage (image : Image) : Bool :=
  512 ≤ image.length && image.length % 512 == 0 &&
    ((js "SQLite format 3").isPrefixOf (image.map UInt8.toNat))

/-- `requireValidSqlDatabaseSnapshot` -/
def validSnapshot (databases : List (JsString × Image)) : Bool :=
  databases.all (fun database => isSafeDatabaseName database.1 && isDatabaseImage database.2) &&
    decide (databases.map (·.1)).Nodup

def exportSnapshot (storage : Storage) : Act (List (JsString × Image)) := do
  requireNoOpenHandles storage
  let pool ← state
  let files := (pool.prefixFiles storage.pre).mergeSort fun a b => decide (a ≤ b)
  let databases ← exportDatabases driver storage.pre files "export a snapshot"
  if validSnapshot databases then pure databases else raise .invalidSnapshot

def importSnapshot (storage : Storage) (snapshot : List (JsString × Image)) : Act Unit := do
  requireNoOpenHandles storage
  if validSnapshot snapshot then
    if driver.importable then do
      reserve driver
      requireNoOpenHandles storage
      replaceDatabases driver storage.pre snapshot "restore a snapshot"
    else raise .newerStorage
  else raise .invalidSnapshot

end Operations

inductive Op
  | openDatabase (storage : Storage) (name : JsString)
  | close (storage : Storage)
  /-- A connection writes its database. -/
  | write (storage : Storage) (name : JsString) (image : Image)
  /-- A transaction of a connection creates its journal, or removes it. -/
  | journal (storage : Storage) (name : JsString) (image : Option Image)
  | reset (storage : Storage) (name : JsString)
  | deleteAll (storage : Storage)
  | copyFrom (storage source : Storage)
  | exportSnapshot (storage : Storage)
  | importSnapshot (storage : Storage) (snapshot : List (JsString × Image))

/-- The storage that an operation is called on. -/
def Op.storage : Op → Storage
  | .openDatabase storage _ | .close storage | .write storage _ _ | .journal storage _ _ | .reset storage _
  | .deleteAll storage | .copyFrom storage _ | .exportSnapshot storage | .importSnapshot storage _ => storage

/-- The storage whose databases it exports. -/
def Op.source : Op → Storage
  | .copyFrom _ source => source
  | op => op.storage

structure Event where
  op : Op
  driver : Driver

def connected (pool : Pool) (storage : Storage) (name : JsString) : Prop := name ∈ pool.opened storage

instance (pool : Pool) (storage : Storage) (name : JsString) : Decidable (pool.connected storage name) := by
  unfold connected
  infer_instance

def run (pool : Pool) (e : Event) : Option Pool :=
  match e.op with
  | .openDatabase storage name => some (openDatabase e.driver storage name pool).2
  | .close storage => some (close storage pool).2
  | .write storage name image =>
    if pool.connected storage name then
      some { pool with files := storeFile (databaseFile storage.pre name) image pool.files }
    else none
  | .journal storage name image =>
    if pool.connected storage name then
      some { pool with files :=
        match image with
        | some image => storeFile (journalFile storage.pre name) image pool.files
        | none => discardFile (journalFile storage.pre name) pool.files }
    else none
  | .reset storage name =>
    if pool.connected storage name then some (reset e.driver storage name pool).2 else none
  | .deleteAll storage => some (deleteAll e.driver storage pool).2
  | .copyFrom storage source => some (copyFrom e.driver storage source pool).2
  | .exportSnapshot storage => some (exportSnapshot e.driver storage pool).2
  | .importSnapshot storage snapshot => some (importSnapshot e.driver storage snapshot pool).2

/-- One operation on the pool, with its own record of what it touches. -/
def step (pool : Pool) (e : Event) : Option Pool := run { pool with touches := [], touched := [], calls := 0, thrown := [] } e

def empty : Pool where
  files := []
  opened := fun _ => []
  touches := []
  touched := []
  calls := 0
  thrown := []

end Pool

end DoRuntime.Backends
