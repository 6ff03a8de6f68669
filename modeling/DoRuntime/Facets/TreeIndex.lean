import DoRuntime.Js.Utf8
import DoRuntime.Lib.Transition

namespace DoRuntime.Facets

open Js

/-- `MAGIC_NUMBER` as it is written, little-endian. -/
def magic : Bytes := [0x57, 0xEF, 0xB0, 0xC5, 0x5B, 0xCE, 0xCD, 0xC4]

def magicLength : Nat := 8

def maxId : Nat := 0xFFFF

def entryHeaderLength : Nat := 4

structure Entry where
  parent : Nat
  /-- The decoded name, which is what a reload of this file would produce. -/
  name : JsString
  nameKey : Bytes
deriving DecidableEq

inductive Failure
  | unknownMagic
  | tooMany
  | emptyName
  | nameTooLong
  | invalidParent
deriving DecidableEq

/-- The key of `#byKey`. -/
def entryKey (parent : Nat) (nameKey : Bytes) : JsString := js (toString parent) ++ js ":" ++ nameKey

/-- A `FacetTreeIndex` with the bytes of its file. -/
structure TreeIndex where
  file : Bytes
  offset : Nat
  entries : List Entry
  byKey : JsString → Option Nat

/-- `IndexFile.write`, which fills the gap where it writes past the end. -/
def writeFile (file : Bytes) (offset : Nat) (data : Bytes) : Bytes :=
  (file ++ List.replicate (offset - file.length) 0).take offset ++ data ++ file.drop (offset + data.length)

def setUint16 (n : Nat) : Bytes := [n % 0x100, n / 0x100]

def getUint16 (low high : Nat) : Nat := low + 0x100 * high

def entryData (parent : Nat) (nameKey : Bytes) : Bytes := setUint16 parent ++ setUint16 nameKey.length ++ nameKey

namespace TreeIndex

variable (index : TreeIndex)

def nextId : Nat := index.entries.length + 1

def append (entry : Entry) : TreeIndex :=
  { index with
    entries := index.entries ++ [entry]
    byKey := Function.update index.byKey (entryKey entry.parent entry.nameKey) (some index.entries.length) }

/-- The loop of the constructor, on what of the file is left to read. -/
def readEntries (index : TreeIndex) : Bytes → Except Failure TreeIndex
  | parentLow :: parentHigh :: lengthLow :: lengthHigh :: rest =>
    let parentId := getUint16 parentLow parentHigh
    let nameLength := getUint16 lengthLow lengthHigh
    let nameBytes := rest.take nameLength
    if maxId < index.nextId then .error .tooMany
    else if nameLength = 0 then .ok index
    else if rest.length < nameLength then .ok index
    else if index.nextId ≤ parentId then .ok index
    else if (index.byKey (entryKey parentId nameBytes)).isSome then .ok index
    else
      readEntries
        { index.append { parent := parentId, name := decode nameBytes, nameKey := nameBytes } with
          offset := index.offset + entryHeaderLength + nameLength }
        (rest.drop nameLength)
  | _ => .ok index
termination_by rest => rest.length
decreasing_by simp; omega

/-- The constructor of `FacetTreeIndex`. -/
def openFile (file : Bytes) : Except Failure TreeIndex :=
  let index : TreeIndex := { file, offset := magicLength, entries := [], byKey := fun _ => none }
  if file.length ≤ magicLength then .ok { index with file := writeFile file 0 magic }
  else if file.take magicLength ≠ magic then .error .unknownMagic
  else
    match index.readEntries (file.drop magicLength) with
    | .error failure => .error failure
    | .ok read => .ok { read with file := if read.offset < file.length then file.take read.offset else file }

def getId (parent : Nat) (name : JsString) : Except Failure (Nat × TreeIndex) :=
  let nameBytes := encode name
  if nameBytes.length = 0 then .error .emptyName
  else if maxId < nameBytes.length then .error .nameTooLong
  else if index.entries.length < parent then .error .invalidParent
  else
    match index.byKey (entryKey parent nameBytes) with
    | some found => .ok (found + 1, index)
    | none =>
      if maxId < index.nextId then .error .tooMany
      else
        let data := entryData parent nameBytes
        .ok (index.entries.length + 1,
          { index.append { parent, name := decode nameBytes, nameKey := nameBytes } with
            file := writeFile index.file index.offset data
            offset := index.offset + data.length })

/-- The order of `forEachChild`. -/
def childBefore (a b : Nat × Entry) : Bool := decide (a.2.nameKey < b.2.nameKey)

/-- What `forEachChild` calls back with. -/
def children (parent : Nat) : List (Nat × JsString) :=
  let found := (index.entries.zipIdx.filter fun entry => entry.1.parent = parent).map fun entry => (entry.2 + 1, entry.1)
  (found.mergeSort fun a b => !childBefore b a).map fun child => (child.1, child.2.name)

end TreeIndex

end DoRuntime.Facets
