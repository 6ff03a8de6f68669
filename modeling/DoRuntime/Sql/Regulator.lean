import DoRuntime.Js.Except
import DoRuntime.Js.Text

namespace DoRuntime.Sql

open DoRuntime.Js DoRuntime.Js.Re Pattern

/-- What the untrusted path throws. -/
inductive SqlRefusal
  | reservedPrefix
  | transaction
  | notAuthorized
  | vacuum
deriving DecidableEq

def SqlRefusal.message : SqlRefusal → String
  | reservedPrefix =>
    "not authorized: a SQL statement may not name the reserved _cf_ prefix, which is where this " ++
      "Durable Object keeps its own KV and metadata tables."
  | transaction =>
    "To execute a transaction, please use the state.storage.transaction() or " ++
      "state.storage.transactionSync() APIs instead of the SQL BEGIN TRANSACTION or SAVEPOINT " ++
      "statements. The JavaScript API is safer because it will automatically roll back on " ++
      "exceptions, and because it interacts correctly with Durable Objects' automatic atomic " ++
      "write coalescing."
  | notAuthorized => "not authorized: SQLITE_AUTH"
  | vacuum => "cannot VACUUM from within a transaction: SQLITE_ERROR"

/-- `^[\s;]*`, where every leading keyword is looked for. -/
def leading : RegExp := seq atStart (star true (one fun c => isJsSpace c || c == 59))

def leadingKeyword (keyword : RegExp) : RegExp := seqAll [leading, keyword, wordBoundary]

def transactionControl : RegExp :=
  leadingKeyword (words ["BEGIN", "COMMIT", "END", "ROLLBACK", "SAVEPOINT", "RELEASE"])

def reservedPrefixHint : RegExp := word "_cf_"

def isIdentifierStart (c : Nat) : Bool := isLetter c || c == 95
def isIdentifierPart (c : Nat) : Bool := isLetter c || isDigit c || c == 95 || c == 36

def identifier : RegExp := seq (one isIdentifierStart) (star true (one isIdentifierPart))

/-- `'(?:[^']|'')*'` -/
def stringLiteral : RegExp :=
  seqAll [unit 39, star true (alt (one (· != 39)) (seq (unit 39) (unit 39))), unit 39]

/-- `--[^\n]*` -/
def lineComment : RegExp := seqAll [unit 45, unit 45, star true (one (· != 10))]

/-- `\/\*[\s\S]*?\*\/` -/
def blockComment : RegExp := seqAll [unit 47, unit 42, star false anyUnit, unit 42, unit 47]

def notCode : RegExp := anyOf [stringLiteral, lineComment, blockComment]
def notComment : RegExp := anyOf [lineComment, blockComment]

def blank (p : RegExp) (s : JsString) : JsString := replaceAll p (js " ") s

/-- `SqlStorageRegulator.isAllowedName`. -/
def isAllowedName (name : JsString) : Bool :=
  name.length < 4 || toLowerCase (name.take 4) != js "_cf_"

def requireAllowedNames (query : JsString) : Except SqlRefusal Unit :=
  if !test reservedPrefixHint query then .ok ()
  else if (matchAll identifier (blank notCode query)).all isAllowedName then .ok ()
  else .error .reservedPrefix

def refuseTransactionControl (statement : JsString) : Except SqlRefusal Unit :=
  if test transactionControl (blank notCode statement) then .error .transaction else .ok ()

def databaseAttachment : RegExp := leadingKeyword (words ["ATTACH", "DETACH"])

def tempSchema : RegExp :=
  seqAll [leading, word "CREATE", spaces1, words ["TEMP", "TEMPORARY"], wordBoundary]

def ifNotExists : RegExp :=
  opt (seqAll [word "IF", spaces1, word "NOT", spaces1, word "EXISTS", spaces])

def tempQualified : RegExp :=
  seqAll [leading, word "CREATE", spaces1,
    opt (anyOf [seq (word "UNIQUE") spaces1, seq (word "VIRTUAL") spaces1]),
    words ["TABLE", "VIEW", "TRIGGER", "INDEX"], spaces, ifNotExists,
    words ["\"temp\"", "'temp'", "\x60temp\x60", "[temp]", "temp"], spaces, text "."]

/-- A quoted form whose closing unit is escaped by doubling it. -/
def doubled (delimiter : CodeUnit) : RegExp :=
  seqAll [unit delimiter,
    star true (alt (one (· != delimiter)) (seq (unit delimiter) (unit delimiter))), unit delimiter]

def sqlIdentifier : RegExp :=
  anyOf [doubled 34, doubled 39, doubled 96,
    seqAll [unit 91, star true (one (· != 93)), unit 93],
    seq (one fun c => isLetter c || c == 95 || (128 ≤ c && c ≤ 65535))
      (star true (one fun c => isIdentifierPart c || (128 ≤ c && c ≤ 65535)))]

def virtualTable : RegExp :=
  seqAll [leading, word "CREATE", spaces1, word "VIRTUAL", spaces1, word "TABLE", wordBoundary]

def virtualTableModule : RegExp :=
  seqAll [leading, word "CREATE", spaces1, word "VIRTUAL", spaces1, word "TABLE", spaces, ifNotExists,
    sqlIdentifier, spaces, opt (seqAll [text ".", spaces, sqlIdentifier, spaces]), word "USING", spaces,
    group 1 sqlIdentifier]

def allowedVirtualTableModules : List JsString := ["fts5", "fts5vocab", "rtree", "rtree_i32"].map js

def vacuumStatement : RegExp := leadingKeyword (word "VACUUM")

/-- Strips one layer of quoting. -/
def unquoted (argument : JsString) : JsString :=
  let inner := (argument.drop 1).dropLast
  if argument.length < 2 then argument
  else
    match argument.head?, argument.getLast? with
    | some first, some last =>
      if (first = 39 ∨ first = 34 ∨ first = 96) ∧ last = first then inner
      else if first = 91 ∧ last = 93 then inner
      else argument
    | _, _ => argument

def refuseUnauthorizedForms (statement : JsString) : Except SqlRefusal Unit :=
  let code := blank notComment statement
  if test vacuumStatement code then .error .vacuum
  else if test databaseAttachment code || test tempSchema code || test tempQualified code then
    .error .notAuthorized
  else if test virtualTable code then
    match (exec virtualTableModule code).bind (·.group 1) with
    | none => .error .notAuthorized
    | some moduleName =>
      if toLowerCase (unquoted moduleName) ∈ allowedVirtualTableModules then .ok ()
      else .error .notAuthorized
  else .ok ()

def pragmaHint : RegExp := word "pragma"

/-- `PRAGMA [schema.]name`, then `= value`, `(argument)`, or nothing. -/
def pragmaStatement : RegExp :=
  seqAll [leading, word "PRAGMA", spaces1, opt (seqAll [identifier, spaces, text ".", spaces]),
    group 1 identifier,
    opt (anyOf [
      seqAll [spaces, text "=", spaces, group 2 (plus false anyUnit)],
      seqAll [spaces, text "(", spaces, group 3 (star false anyUnit), spaces, text ")"]]),
    spaces, opt (text ";"), spaces, atEnd]

inductive PragmaSignature
  | noArg
  | boolean
  | objectName
  | optionalObjectName
  | nullOrNumber
  | nullNumberOrObjectName

def allowedPragmas : List (String × PragmaSignature) :=
  [("data_version", .noArg), ("page_size", .noArg), ("case_sensitive_like", .boolean),
    ("foreign_keys", .boolean), ("defer_foreign_keys", .boolean), ("ignore_check_constraints", .boolean),
    ("legacy_alter_table", .boolean), ("recursive_triggers", .boolean),
    ("reverse_unordered_selects", .boolean), ("foreign_key_check", .optionalObjectName),
    ("foreign_key_list", .objectName), ("index_info", .objectName), ("index_list", .objectName),
    ("index_xinfo", .objectName), ("quick_check", .nullNumberOrObjectName), ("optimize", .nullOrNumber)]

def pragmaSignature (pragma : JsString) : Option PragmaSignature :=
  (allowedPragmas.find? (js ·.1 = pragma)).map (·.2)

def booleanPragmaValue : RegExp :=
  seq atStart (words ["true", "false", "yes", "no", "on", "off", "1", "0"])

def sqlitePragmaNames : List String :=
  ["analysis_limit", "application_id", "auto_vacuum", "automatic_index", "busy_timeout", "cache_size",
    "cache_spill", "case_sensitive_like", "cell_size_check", "checkpoint_fullfsync", "collation_list",
    "compile_options", "data_version", "database_list", "defer_foreign_keys", "encoding",
    "foreign_key_check", "foreign_key_list", "foreign_keys", "freelist_count", "full_column_names",
    "fullfsync", "function_list", "hard_heap_limit", "ignore_check_constraints", "incremental_vacuum",
    "index_info", "index_list", "index_xinfo", "integrity_check", "journal_mode", "journal_size_limit",
    "legacy_alter_table", "legacy_file_format", "locking_mode", "max_page_count", "mmap_size",
    "module_list", "optimize", "page_count", "page_size", "pragma_list", "query_only", "quick_check",
    "read_uncommitted", "recursive_triggers", "reverse_unordered_selects", "schema_version",
    "secure_delete", "short_column_names", "shrink_memory", "soft_heap_limit", "synchronous",
    "table_info", "table_list", "table_xinfo", "temp_store", "threads", "trusted_schema",
    "user_version", "wal_autocheckpoint", "wal_checkpoint", "writable_schema"]

/-- `^[+-]?\d+$` -/
def decimal : RegExp :=
  seqAll [atStart, opt (one fun c => c == 43 || c == 45), plus true (one isDigit), atEnd]

def isAllowedPragma (name : JsString) (argument : Option JsString) : Bool :=
  let pragma := toLowerCase name
  if pragma = js "table_list" then true
  else if pragma = js "table_info" ∨ pragma = js "table_xinfo" then
    match argument with
    | none => false
    | some argument => isAllowedName (unquoted argument)
  else
    match pragmaSignature pragma, argument with
    | none, _ => false
    | some .noArg, argument => argument.isNone
    | some .objectName, none => false
    | some _, none => true
    | some .boolean, some argument => test booleanPragmaValue (unquoted argument)
    | some .objectName, some argument => isAllowedName (unquoted argument)
    | some .optionalObjectName, some argument => isAllowedName (unquoted argument)
    | some .nullOrNumber, some argument => test decimal argument
    | some .nullNumberOrObjectName, some argument =>
      test decimal argument || isAllowedName (unquoted argument)

/-- A `pragma_X` identifier is refused where `X` is a pragma SQLite ships and none of the allowed. -/
def isAllowedPragmaFunction (token : JsString) : Bool :=
  if token.length ≤ 7 ∨ toLowerCase (token.take 7) ≠ js "pragma_" then true
  else
    let name := toLowerCase (token.drop 7)
    if name ∉ sqlitePragmaNames.map js then true
    else name = js "table_list" || name = js "table_info" || name = js "table_xinfo" ||
      (pragmaSignature name).isSome

def requireAllowedPragmas (statement : JsString) : Except SqlRefusal Unit :=
  if !test pragmaHint statement then .ok ()
  else
    let code := blank notComment statement
    match exec pragmaStatement code with
    | some direct =>
      let name := (direct.group 1).getD []
      let argument := ((direct.group 2).or (direct.group 3)).map trim
      if isAllowedPragma name (argument.filter (· ≠ [])) then .ok () else .error .notAuthorized
    | none =>
      if test (leadingKeyword (word "PRAGMA")) code then .error .notAuthorized
      else if (matchAll identifier (blank notCode code)).all isAllowedPragmaFunction then .ok ()
      else .error .notAuthorized

def regulateUntrustedStatement (statement : JsString) : Except SqlRefusal Unit := do
  refuseTransactionControl statement
  refuseUnauthorizedForms statement
  requireAllowedPragmas statement

/-- The checks `exec` and `ingest` put a query through; `compiled` is how the backend cuts the text
    into statements. -/
def checkQuery (compiled : JsString → List JsString) (query : JsString) : Except SqlRefusal Unit := do
  requireAllowedNames query
  (compiled query).forM regulateUntrustedStatement

end DoRuntime.Sql
