import DoRuntime.Sql.Lexer
import DoRuntime.Storage.SqliteDatabase

namespace DoRuntime.Sql

open DoRuntime.Js DoRuntime.Js.Re Pattern
open DoRuntime.Storage.CachedSqlite (StateChange savepointName dequote)

/-- What follows the first comment close, or nothing. -/
def afterBlock : JsString → JsString
  | 42 :: 47 :: rest => rest
  | _ :: rest => afterBlock rest
  | [] => []

def stripFrom : Nat → JsString → JsString
  | 0, s => s
  | fuel + 1, s =>
    match s.dropWhile isJsSpace with
    | 45 :: 45 :: line => stripFrom fuel ((line.dropWhile (· != 10)).drop 1)
    | 47 :: 42 :: body => stripFrom fuel (afterBlock body)
    | rest => rest

def stripLeadingTrivia (statement : JsString) : JsString := stripFrom (statement.length + 1) statement

def upperUnit (c : Nat) : Nat := if isLower c then c - 32 else c

/-- The first bare word, skipping whitespace and both comment forms. -/
def leadingWord (sql : JsString) : JsString := ((stripLeadingTrivia sql).takeWhile isLetter).map upperUnit

def nonWriteKeywords : List JsString :=
  ["SELECT", "EXPLAIN", "BEGIN", "COMMIT", "END", "ROLLBACK", "SAVEPOINT", "RELEASE"].map js

def isWrite (sql : JsString) : Bool := leadingWord sql ∉ nonWriteKeywords

def trimEnd (s : JsString) : JsString := (s.reverse.dropWhile isJsSpace).reverse

/-- `replace(/;$/, "")` -/
def dropSemicolon (s : JsString) : JsString := if s.getLast? = some 59 then s.dropLast else s

def namePattern : RegExp :=
  anyOf [seqAll [unit 34, star true (one (· != 34)), unit 34], seqAll [unit 39, star true (one (· != 39)), unit 39],
    seqAll [unit 96, star true (one (· != 96)), unit 96], seqAll [unit 91, star true (one (· != 93)), unit 93],
    seq (one fun c => isLetter c || c == 95)
      (star true (one fun c => isLetter c || isDigit c || c == 95 || c == 36))]

/-- `(\s+WORD)?` -/
def optionally (index : Nat) (keyword : RegExp) : RegExp := opt (group index (seq spaces1 keyword))

def beginPattern : RegExp :=
  seq atStart (seq (seqAll [word "BEGIN",
    opt (group 1 (seq spaces1 (group 2 (Re.words ["DEFERRED", "IMMEDIATE", "EXCLUSIVE"])))),
    optionally 3 (word "TRANSACTION")]) atEnd)

def savepointPattern : RegExp :=
  seq atStart (seq (seq (word "SAVEPOINT") spaces1) (seq (group 1 namePattern) atEnd))

def commitPattern : RegExp :=
  seq atStart (seq (seq (group 1 (Re.words ["COMMIT", "END"])) (optionally 2 (word "TRANSACTION"))) atEnd)

def releasePattern : RegExp :=
  seq atStart (seq (seqAll [word "RELEASE", optionally 1 (word "SAVEPOINT"), spaces1])
    (seq (group 2 namePattern) atEnd))

def rollbackPattern : RegExp :=
  seq atStart (seq (seq (word "ROLLBACK") (optionally 1 (word "TRANSACTION"))) atEnd)

def rollbackToPattern : RegExp :=
  seq atStart (seq (seqAll [word "ROLLBACK", optionally 1 (word "TRANSACTION"), spaces1, word "TO",
    optionally 2 (word "SAVEPOINT"), spaces1]) (seq (group 3 namePattern) atEnd))

def transactionKeywords : List String := ["BEGIN", "COMMIT", "END", "ROLLBACK", "SAVEPOINT", "RELEASE"]

def transactionKeyword : RegExp := seq atStart (seq (Re.words transactionKeywords) wordBoundary)

inductive ClassifyError
  /-- "SQL pattern group … did not match" -/
  | group (index : Nat)
  /-- "Unrecognized transaction-control statement: …" -/
  | unrecognized (statement : JsString)

def groupOf (found : Cursor CodeUnit) (index : Nat) : Except ClassifyError JsString :=
  match found.group index with
  | some value => .ok value
  | none => .error (.group index)

def statementOf (sql : JsString) : JsString := trimEnd (dropSemicolon (trim (stripLeadingTrivia sql)))

def classifyStatement (statement : JsString) : Except ClassifyError StateChange :=
  match exec rollbackToPattern statement with
  | some found => (groupOf found 3).map fun name => .rollback (some (savepointName name))
  | none =>
    if test rollbackPattern statement then .ok (.rollback none)
    else
      match exec savepointPattern statement with
      | some found => (groupOf found 1).map fun name => .begin (some (savepointName name))
      | none =>
        if test beginPattern statement then .ok (.begin none)
        else
          match exec releasePattern statement with
          | some found => (groupOf found 2).map fun name => .commit (some (savepointName name))
          | none =>
            if test commitPattern statement then .ok (.commit none)
            else if test transactionKeyword statement then .error (.unrecognized statement)
            else .ok .none

/-- `classify`, from the text. -/
def classifyText (sql : JsString) : Except ClassifyError StateChange := classifyStatement (statementOf sql)

def Token.isTrivia (t : Token) : Bool := t.kind = .space || t.kind = .comment

def significant (sql : JsString) : List Token := (tokens sql).filter (!·.isTrivia)

def Token.isWord (t : Token) (keyword : String) : Bool := t.kind = .bare && toLowerCase t.text = toLowerCase (js keyword)

/-- The name that SQLite compares, where the token may be one. -/
def Token.savepoint (t : Token) : Option JsString :=
  match t.kind with
  | .bare | .quoted | .string => some (toLowerCase (dequote t.text))
  | _ => none

/-- The tokens of a statement before its semicolon. -/
def statementTokens (sql : JsString) : List Token := (significant sql).takeWhile fun t => t.text != [59]

section Grammar

def skipWord (keyword : String) : List Token → List Token
  | t :: rest => if t.isWord keyword then rest else t :: rest
  | [] => []

/-- SQLite's `transtype`. -/
def skipType : List Token → List Token
  | t :: rest => if t.isWord "DEFERRED" || t.isWord "IMMEDIATE" || t.isWord "EXCLUSIVE" then rest else t :: rest
  | [] => []

/-- SQLite's `trans_opt`, whose name is ignored. -/
def skipTransaction : List Token → List Token
  | t :: n :: rest =>
    if t.isWord "TRANSACTION" then if n.savepoint.isSome && !n.isWord "TO" then rest else n :: rest
    else t :: n :: rest
  | [t] => if t.isWord "TRANSACTION" then [] else [t]
  | [] => []

def nameAlone (change : Option JsString → StateChange) : List Token → Option StateChange
  | [n] => n.savepoint.map fun name => change (some name)
  | _ => none

/-- What SQLite makes of a transaction-control statement. -/
def sqliteChange : List Token → Option StateChange
  | [] => none
  | t :: rest =>
    if t.isWord "BEGIN" then if (skipTransaction (skipType rest)).isEmpty then some (.begin none) else none
    else if t.isWord "COMMIT" || t.isWord "END" then
      if (skipTransaction rest).isEmpty then some (.commit none) else none
    else if t.isWord "ROLLBACK" then
      match skipTransaction rest with
      | [] => some (.rollback none)
      | o :: more => if o.isWord "TO" then nameAlone .rollback (skipWord "SAVEPOINT" more) else none
    else if t.isWord "SAVEPOINT" then nameAlone .begin rest
    else if t.isWord "RELEASE" then nameAlone .commit (skipWord "SAVEPOINT" rest)
    else none

end Grammar

end DoRuntime.Sql
