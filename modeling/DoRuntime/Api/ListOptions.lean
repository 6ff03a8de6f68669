import DoRuntime.Js.CodeOrder
import DoRuntime.Js.Number

namespace DoRuntime.Api

open Js

structure ListOptions where
  start : Option Utf16
  startAfter : Option Utf16
  end_ : Option Utf16
  prefix_ : Option Utf16
  reverse : Option Bool
  limit : Option Float

structure CompiledListOptions where
  start : JsString
  end_ : Option JsString
  reverse : Bool
  limit : Option Float

inductive ListError (ε : Type) where
  | typeError (message : String)
  | mismatch
  | value (error : ε)

def nullCharacter : JsString := [0]
def maxCodeUnit : CodeUnit := 0xFFFF

/-- The prefix without its maximal trailing units. -/
def stripMaximal (prefix_ : JsString) : JsString := (prefix_.reverse.dropWhile (· == maxCodeUnit)).reverse

def firstKeyAfterPrefix (prefix_ : JsString) : Option JsString :=
  match (stripMaximal prefix_).getLast? with
  | none => none
  | some last => some ((stripMaximal prefix_).dropLast ++ [last + 1])

def clampStart (start prefix_ : JsString) : Option JsString :=
  if start < prefix_ then some prefix_
  else if prefix_.isPrefixOf start then some start
  else none

/-- `none` where no key can match. -/
def clampEnd (end_ : Option JsString) (prefix_ : JsString) : Option (Option JsString) :=
  match firstKeyAfterPrefix prefix_, end_ with
  | none, end_ => some end_
  | some keyAfterPrefix, none => some (some keyAfterPrefix)
  | some keyAfterPrefix, some end_ =>
    if end_ ≤ prefix_ then none
    else if prefix_.isPrefixOf end_ then some (some end_)
    else some (some keyAfterPrefix)

def clamp (start : JsString) (end_ : Option JsString) (prefix_ : JsString) : Option (JsString × Option JsString) :=
  if prefix_.isEmpty then some (start, end_)
  else do
    let start ← clampStart start prefix_
    let end_ ← clampEnd end_ prefix_
    return (start, end_)

namespace ListOptions

/-- An exclusive `startAfter` is an inclusive start one null character later. -/
def startKey (options : ListOptions) : JsString :=
  match options.startAfter with
  | some startAfter => startAfter.units ++ nullCharacter
  | none => (options.start.map Utf16.units).getD []

def endKey (options : ListOptions) : Option JsString := options.end_.map Utf16.units

def prefixKey (options : ListOptions) : JsString := (options.prefix_.map Utf16.units).getD []

end ListOptions

def compileListOptions {ε : Type} (options : ListOptions) : Except (ListError ε) (Option CompiledListOptions) :=
  if options.start.isSome ∧ options.startAfter.isSome then
    throw (.typeError "list() cannot be called with both start and startAfter values.")
  else if options.limit.any fun limit => !decide (0 < limit) then
    throw (.typeError "List limit must be positive.")
  else
    match clamp options.startKey options.endKey options.prefixKey with
    | none => return none
    | some (start, end_) =>
      if end_.any (· ≤ start) then return none
      else return some { start, end_, reverse := options.reverse.getD false, limit := options.limit }

/-- The key-value rows of the database; the key is the primary key of the table. -/
structure KvTable (α : Type) where
  rows : List (JsString × α)
  distinct : (rows.map (·.1)).Nodup
  text : ∀ row ∈ rows, WellFormed row.1

/-- `LIMIT` takes a number that is a 64-bit integer, and a negative one is no limit. -/
def limitRows {ε α : Type} (limit : Option Float) (rows : List α) : Except (ListError ε) (List α) :=
  match limit with
  | none => return rows
  | some limit =>
    match integralValue limit with
    | none => throw .mismatch
    | some count =>
      if -2 ^ 63 ≤ count ∧ count < 2 ^ 63 then return if count < 0 then rows else rows.take count.toNat
      else throw .mismatch

/-- `ORDER BY key`, or `ORDER BY key DESC`. -/
def inOrder {α : Type} (reverse : Bool) (a b : JsString × α) : Bool :=
  if reverse then decide (encode b.1 ≤ encode a.1) else decide (encode a.1 ≤ encode b.1)

/-- The eight list statements; `BINARY` collation compares the UTF-8 bytes. -/
def selectList {ε α : Type} (begin_ : JsString) (end_ : Option JsString) (limit : Option Float) (reverse : Bool)
    (table : KvTable α) : Except (ListError ε) (List (JsString × α)) :=
  let inRange := table.rows.filter fun row =>
    decide (encode begin_ ≤ encode row.1) && end_.all fun end_ => decide (encode row.1 < encode end_)
  limitRows limit (inRange.mergeSort (inOrder reverse))

def entryOf {ε α β : Type} (deserializeValue : JsString → α → Except ε β) (row : JsString × α) :
    Except (ListError ε) (JsString × β) :=
  match deserializeValue row.1 row.2 with
  | .ok value => .ok (row.1, value)
  | .error error => .error (.value error)

/-- `list()`; each value is deserialized as its entry is put into the map. -/
def list {ε α β : Type} (deserializeValue : JsString → α → Except ε β) (options : ListOptions) (table : KvTable α) :
    Except (ListError ε) (List (JsString × β)) := do
  match ← compileListOptions options with
  | none => return []
  | some compiled =>
    let rows ← selectList compiled.start compiled.end_ compiled.limit compiled.reverse table
    rows.mapM (entryOf deserializeValue)

end DoRuntime.Api
