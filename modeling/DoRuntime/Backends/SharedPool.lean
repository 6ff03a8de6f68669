import DoRuntime.Backends.SahPool

namespace DoRuntime.Backends

open Js Prog

/-- A `SqliteWasmDatabase`. -/
structure WasmDatabase where
  storage : Storage
  filename : JsString
  /-- Its `#database` is open. -/
  handle : Bool
  closed : Bool
  /-- Its connection has begun to write. -/
  writing : Bool

def WasmDatabase.journalFile (database : WasmDatabase) : JsString := database.filename ++ journal

/-- What `withHeadroom` is given to run, of an import the names alone. -/
inductive PoolStep
  | openDatabase (storage : Storage) (filename : JsString)
  | importSnapshot (storage : Storage) (names : List JsString)
  | copyFrom (storage : Storage) (names : List JsString)
  | importPool (files : List JsString)

def PoolStep.adding (files : List JsString) : PoolStep → Nat
  | .openDatabase _ filename => (if filename ∈ files then 0 else 1) + 1
  | .importSnapshot _ names | .copyFrom _ names | .importPool names => names.length

/-- What the step under way waits for. -/
inductive Turn
  | idle
  | reserving (step : PoolStep) (minimum : Nat)
  | exporting (files replacement : List JsString)
  | importing (original rest : List JsString)
  /-- The call of `importDb` has failed. -/
  | failing (original : List JsString)
  /-- The rollback waits for `importDb`. -/
  | restoring (rest : List JsString)

/-- What becomes of a call to the driver. -/
inductive Answer
  | done
  /-- `unlink` answers false. -/
  | refused
  /-- It throws, with the file there or not. -/
  | throws (there : Bool)

/-- An `OpfsSahPool` with what the module keeps about it. -/
structure SharedPool where
  capacity : Nat
  files : List JsString
  databases : List WasmDatabase
  openConnections : Nat
  openDatabases : Storage → List Nat
  queue : List PoolStep
  turn : Turn
  /-- The calls of `copyFrom` whose exports are under way. -/
  copies : List (Storage × List JsString)
  /-- The local variable of `replacePoolFiles`. -/
  touched : List JsString
  calls : Nat
  /-- The files for which there was no slot. -/
  exhausted : List JsString

namespace SharedPool

abbrev Act (α : Type) : Type := Prog Failure SharedPool α

def remove (file : JsString) (pool : SharedPool) : SharedPool := { pool with files := pool.files.erase file }

def setTurn (turn : Turn) : Act Unit := update fun pool => { pool with turn }

def prefixFiles (pool : SharedPool) (pre : JsString) : List JsString :=
  pool.files.filter fun file => (pre ++ dot).isPrefixOf file

def failCall : Act α := do
  let pool ← state
  raise (.driver pool.calls)

/-- The slot of the file, or a free one. -/
def takeSlot (file : JsString) : Act Unit := do
  let pool ← state
  if file ∈ pool.files then pure ()
  else if pool.files.length < pool.capacity then update fun pool => { pool with files := pool.files ++ [file] }
  else do
    update fun pool => { pool with exhausted := pool.exhausted ++ [file] }
    failCall

section Operations

variable (answer : Nat → Answer)

def call : Act Answer := do
  let pool ← state
  update fun pool => { pool with calls := pool.calls + 1 }
  pure (answer pool.calls)

def unlink (file : JsString) : Act Unit := do
  let result ← call answer
  match result with
  | .done => do
    let pool ← state
    update (remove file)
    if file ∈ pool.files then pure () else raise (.notUnlinked file)
  | .refused => raise (.notUnlinked file)
  | .throws true => failCall
  | .throws false => do
    update (remove file)
    failCall

def importDb (file : JsString) : Act Unit := do
  let result ← call answer
  match result with
  | .done => takeSlot file
  | .refused => failCall
  | .throws true => do
    takeSlot file
    failCall
  | .throws false => do
    takeSlot file
    update (remove file)
    failCall

/-- `#openDatabase`, which closes the handle again where it throws. -/
def openHandle (file : JsString) : Act Unit := do
  let result ← call answer
  match result with
  | .done => takeSlot file
  | .throws true => do
    takeSlot file
    failCall
  | .refused | .throws false => failCall

/-- A connection removes its journal, or leaves it. -/
def endJournal (file : JsString) : Act Unit := do
  let result ← call answer
  match result with
  | .done => update (remove file)
  | _ => pure ()

def setDatabase (i : Nat) (database : WasmDatabase) : Act Unit :=
  update fun pool => { pool with databases := pool.databases.set i database }

def rollBack (database : WasmDatabase) : Act Unit :=
  if database.writing then endJournal answer database.journalFile else pure ()

/-- `#database.close()`, which rolls back what the connection was writing. -/
def closeHandle (i : Nat) (database : WasmDatabase) : Act Unit := do
  rollBack answer database
  setDatabase i { database with handle := false, writing := false }

def forget (i : Nat) (database : WasmDatabase) : Act Unit :=
  update fun pool => { pool with
    databases := pool.databases.set i { database with handle := false, closed := true, writing := false }
    openConnections := pool.openConnections - 1
    openDatabases := Function.update pool.openDatabases database.storage
      ((pool.openDatabases database.storage).erase i) }

/-- `SqliteWasmDatabase.close` -/
def close (i : Nat) : Act Unit := do
  let pool ← state
  match pool.databases[i]? with
  | some database =>
    if database.closed then pure ()
    else do
      closeHandle answer i database
      forget i database
  | none => pure ()

/-- `SqliteWasmDatabase.reset` -/
def reset (i : Nat) : Act Unit := do
  let pool ← state
  match pool.databases[i]? with
  | some database => do
    closeHandle answer i database
    unlink answer database.filename
    openHandle answer database.filename
    setDatabase i { database with handle := true, writing := false }
  | none => pure ()

def closeAll (storage : Storage) : Act Unit := do
  let pool ← state
  forEach (pool.openDatabases storage) (close answer)

/-- Close every handle, then physically remove every database under this prefix. -/
def deleteAll (storage : Storage) : Act Unit := do
  closeAll answer storage
  let pool ← state
  forEach (pool.prefixFiles storage.pre) (unlink answer)

def requireNoOpenHandles (opened : Nat) : Act Unit := if 0 < opened then raise .openHandles else pure ()

def requireNoRecoverySidecars (files : List JsString) (action : String) : Act Unit :=
  match files.find? fun file => !sqlite.isSuffixOf file with
  | some file => raise (.sidecar action file)
  | none => pure ()

def requireDatabaseName (pre file : JsString) : Act Unit :=
  match Pool.databaseName pre file with
  | .ok _ => pure ()
  | .error failure => raise failure

/-- The database of a hot journal is opened, read and closed. -/
def rollBackHotJournal (file : JsString) : Act Unit := do
  openHandle answer (file.take (file.length - journal.length))
  endJournal answer file

def recoveredPoolFiles (action : String) : Act (List JsString) := do
  let pool ← state
  requireNoOpenHandles pool.openConnections
  forEach pool.files fun file =>
    if journal.isSuffixOf file && decide (file.take (file.length - journal.length) ∈ pool.files) then
      rollBackHotJournal answer file
    else pure ()
  let pool ← state
  requireNoRecoverySidecars pool.files action
  pure pool.files

def replacePoolFiles (files replacement : List JsString) : Act Unit := setTurn (.exporting files replacement)

def replaceDatabases (pre : JsString) (names : List JsString) (action : String) : Act Unit := do
  let pool ← state
  requireNoRecoverySidecars (pool.prefixFiles pre) action
  forEach (pool.prefixFiles pre) (requireDatabaseName pre)
  replacePoolFiles (pool.prefixFiles pre) (names.map (databaseFile pre))

/-- `new SqliteWasmDatabase` and its entry in `openDatabases`. -/
def register (storage : Storage) (filename : JsString) : Act Unit :=
  update fun pool => { pool with
    databases := pool.databases ++ [⟨storage, filename, true, false, false⟩]
    openConnections := pool.openConnections + 1
    openDatabases := Function.update pool.openDatabases storage
      (pool.openDatabases storage ++ [pool.databases.length]) }

def runStep : PoolStep → Act Unit
  | .openDatabase storage filename => do
    openHandle answer filename
    register storage filename
  | .importSnapshot storage names => do
    let pool ← state
    requireNoOpenHandles (pool.openDatabases storage).length
    replaceDatabases storage.pre names "restore a snapshot"
  | .copyFrom storage names => do
    closeAll answer storage
    replaceDatabases storage.pre names "clone actor storage"
  | .importPool replacement => do
    let files ← recoveredPoolFiles answer "restore a snapshot"
    replacePoolFiles files replacement

def touch (file : JsString) : Act Unit := update fun pool => { pool with touched := file :: pool.touched }

/-- The next call of `importDb`, which `replacePoolFiles` waits for. -/
def importNext (original : List JsString) : List JsString → Act Unit
  | [] => setTurn .idle
  | file :: rest => do
    touch file
    attempt (do
      importDb answer file
      setTurn (.importing original rest)) fun _ => setTurn (.failing original)

/-- The next call of `importDb` of the rollback. -/
def restoreNext : List JsString → Act Unit
  | [] => setTurn .idle
  | file :: rest => do
    attempt (importDb answer file) fun _ => pure ()
    setTurn (.restoring rest)

def undo (original : List JsString) : Act Unit := do
  let pool ← state
  forEach (pool.files.filter (· ∈ pool.touched)) fun file => attempt (unlink answer file) fun _ => pure ()
  restoreNext answer (original.filter (· ∈ pool.touched))

/-- The originals are exported, and `replacePoolFiles` goes on. -/
def replaceExported (files replacement : List JsString) : Act Unit := do
  update fun pool => { pool with touched := [] }
  attempt (do
    forEach files fun file => do
      touch file
      unlink answer file
    importNext answer files replacement) fun _ => undo answer files

end Operations

inductive Op
  | openDatabase (storage : Storage) (name : JsString)
  | importSnapshot (storage : Storage) (snapshot : List (JsString × Image)) (importable : Bool)
  | importPool (files : List JsString) (valid : Bool)
  | copyFrom (storage source : Storage)
  /-- The exports of a call of `copyFrom` settle. -/
  | exported (i : Nat) (failed : Bool)
  | close (i : Nat)
  | closeAll (storage : Storage)
  | reset (i : Nat)
  | deleteAll (storage : Storage)
  /-- A write transaction of a connection creates its journal. -/
  | createJournal (i : Nat)
  /-- It commits or rolls back. -/
  | endJournal (i : Nat)
  /-- The step first in the queue reserves. -/
  | reserve
  | grow (slots : Nat)
  /-- What the step under way waits for rejects. -/
  | reject
  /-- It settles. -/
  | proceed

structure Event where
  op : Op
  answer : Nat → Answer

def enqueue (step : PoolStep) (pool : SharedPool) : SharedPool := { pool with queue := pool.queue ++ [step] }

def beginJournal (i : Nat) (database : WasmDatabase) : Act Unit := do
  takeSlot database.journalFile
  setDatabase i { database with writing := true }

def endWrite (answer : Nat → Answer) (i : Nat) (database : WasmDatabase) : Act Unit := do
  endJournal answer database.journalFile
  setDatabase i { database with writing := false }

/-- The names that `copyFrom` exports before it is queued. -/
def exportedNames (pool : SharedPool) (pre : JsString) : Option (List JsString) :=
  let files := pool.prefixFiles pre
  if files.all (sqlite.isSuffixOf ·) && files.all (fun file => isSafeDatabaseName (Pool.slicedName pre file)) then
    some (files.map (Pool.slicedName pre))
  else none

/-- The step under way goes on. -/
def proceed (answer : Nat → Answer) (pool : SharedPool) : Option SharedPool :=
  match pool.turn with
  | .idle => none
  | .reserving step minimum =>
    if pool.capacity < minimum then none else some (runStep answer step { pool with turn := .idle }).2
  | .exporting files replacement => some (replaceExported answer files replacement pool).2
  | .importing original rest => some (importNext answer original rest pool).2
  | .failing original => some (undo answer original pool).2
  | .restoring rest => some (restoreNext answer rest pool).2

/-- A reservation that fails, or an export before anything is touched. -/
def reject (pool : SharedPool) : Option SharedPool :=
  match pool.turn with
  | .reserving _ _ | .exporting _ _ => some { pool with turn := .idle }
  | _ => none

def reserve (pool : SharedPool) : Option SharedPool :=
  match pool.turn, pool.queue with
  | .idle, step :: queue => some { pool with
      queue
      turn := .reserving step (pool.files.length + step.adding pool.files + pool.openConnections) }
  | _, _ => none

def run (pool : SharedPool) (e : Event) : Option SharedPool :=
  match e.op with
  | .openDatabase storage name =>
    if isSafeDatabaseName name then some (pool.enqueue (.openDatabase storage (databaseFile storage.pre name)))
    else some pool
  | .importSnapshot storage snapshot importable =>
    if (pool.openDatabases storage).isEmpty && Pool.validSnapshot snapshot && importable then
      some (pool.enqueue (.importSnapshot storage (snapshot.map (·.1))))
    else some pool
  | .importPool files valid =>
    if valid && decide (pool.openConnections = 0) then some (pool.enqueue (.importPool files)) else some pool
  | .copyFrom storage source =>
    match pool.exportedNames source.pre with
    | some names => some { pool with copies := pool.copies ++ [(storage, names)] }
    | none => some pool
  | .exported i failed =>
    match pool.copies[i]? with
    | some (storage, names) =>
      let settled := { pool with copies := pool.copies.eraseIdx i }
      if failed then some settled else some (settled.enqueue (.copyFrom storage names))
    | none => none
  | .close i => some (close e.answer i pool).2
  | .closeAll storage => some (closeAll e.answer storage pool).2
  | .reset i => some (reset e.answer i pool).2
  | .deleteAll storage => some (deleteAll e.answer storage pool).2
  | .createJournal i =>
    match pool.databases[i]? with
    | some database =>
      if database.handle && !database.writing then some (beginJournal i database pool).2 else none
    | none => none
  | .endJournal i =>
    match pool.databases[i]? with
    | some database => if database.writing then some (endWrite e.answer i database pool).2 else none
    | none => none
  | .reserve => pool.reserve
  | .grow slots => some { pool with capacity := pool.capacity + slots }
  | .reject => pool.reject
  | .proceed => pool.proceed e.answer

def step (pool : SharedPool) (e : Event) : Option SharedPool := run { pool with calls := 0 } e

/-- A pool as a worker finds it. -/
def started (capacity : Nat) (files : List JsString) : SharedPool where
  capacity
  files
  databases := []
  openConnections := 0
  openDatabases := fun _ => []
  queue := []
  turn := .idle
  copies := []
  touched := []
  calls := 0
  exhausted := []

end SharedPool

end DoRuntime.Backends
