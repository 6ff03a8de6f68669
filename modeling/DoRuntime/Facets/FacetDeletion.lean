import Mathlib

namespace DoRuntime.Facets

abbrev FacetId := Nat

structure FacetDeletionReceipt where
  id : FacetId
  generation : Nat
deriving DecidableEq

/-- `_cf_FACET_DELETIONS`, by facet id. -/
abbrev ReceiptTable := AList fun _ : FacetId => Nat

namespace ReceiptTable

/-- The upsert of `record`. -/
def record (table : ReceiptTable) (id : FacetId) : FacetDeletionReceipt × ReceiptTable :=
  let generation := match table.lookup id with
    | some generation => generation + 1
    | none => 1
  ({ id, generation }, table.insert id generation)

def read (table : ReceiptTable) (id : FacetId) : Option FacetDeletionReceipt :=
  (table.lookup id).map fun generation => { id, generation }

def list (table : ReceiptTable) : List FacetId := table.keys.mergeSort (· ≤ ·)

def clear (table : ReceiptTable) (receipt : FacetDeletionReceipt) : ReceiptTable :=
  if table.lookup receipt.id = some receipt.generation then table.erase receipt.id else table

end ReceiptTable

/-- Where an attempt's promise stands. `since` counts the delete calls for the facet that were made
    before its `deleteSubtree` call. -/
inductive AttemptPhase
  | waiting
  | deleting (since : Nat)
  /-- `deleteSubtree` has settled, and the receipt is cleared where it succeeded. -/
  | ended (since : Nat) (ok : Bool)
  | settled (since : Nat) (ok : Bool)
deriving DecidableEq

/-- What `#run` sets up: the `#active` entry is one of these. -/
structure DeletionAttempt where
  receipt : FacetDeletionReceipt
  previous : Option Nat
  barrierSettled : Bool
  phase : AttemptPhase

/-- A `delete` call with the attempt whose promise it returned. -/
structure DeleteCall where
  id : FacetId
  number : Nat
  attempt : Nat

structure FlushCall where
  id : FacetId
  attempt : Nat
deriving DecidableEq

structure FacetDeletionController where
  receipts : ReceiptTable
  active : FacetId → Option Nat
  attempts : Nat → DeletionAttempt
  nextAttempt : Nat
  /-- The `flush` calls that await an attempt. -/
  flushes : List FlushCall
  calls : List DeleteCall
  /-- How many delete calls were made for a facet, ever. -/
  requests : FacetId → Nat
  /-- How many of them were followed by a completed deletion. -/
  carriedOut : FacetId → Nat

namespace FacetDeletionController

def isSettled (s : FacetDeletionController) (a : Nat) : Bool :=
  match (s.attempts a).phase with
  | .settled _ _ => true
  | .waiting | .deleting _ | .ended _ _ => false

def setPhase (s : FacetDeletionController) (a : Nat) (phase : AttemptPhase) : FacetDeletionController :=
  { s with attempts := Function.update s.attempts a { s.attempts a with phase } }

/-- `#run`, with the attempt whose promise it returns. -/
def run (s : FacetDeletionController) (receipt : FacetDeletionReceipt) (barrierSettled : Bool) :
    Nat × FacetDeletionController :=
  let start (previous : Option Nat) : Nat × FacetDeletionController :=
    (s.nextAttempt, { s with
      attempts := Function.update s.attempts s.nextAttempt { receipt, previous, barrierSettled, phase := .waiting }
      nextAttempt := s.nextAttempt + 1
      active := Function.update s.active receipt.id (some s.nextAttempt) })
  match s.active receipt.id with
  | some a => if receipt.generation ≤ (s.attempts a).receipt.generation then (a, s) else start (some a)
  | none => start none

def delete (s : FacetDeletionController) (id : FacetId) (barrierSettled : Bool) : FacetDeletionController :=
  let (receipt, receipts) := s.receipts.record id
  let number := s.requests id + 1
  let (attempt, s) := run { s with receipts, requests := Function.update s.requests id number } receipt barrierSettled
  { s with calls := { id, number, attempt } :: s.calls }

/-- One turn of the loop of `flush`. -/
def flush (s : FacetDeletionController) (id : FacetId) : FacetDeletionController :=
  match s.receipts.read id with
  | none => s
  | some receipt =>
    let (attempt, s) := s.run receipt true
    { s with flushes := { id, attempt } :: s.flushes }

def recoverAll (s : FacetDeletionController) : FacetDeletionController := s.receipts.list.foldl flush s

/-- What follows the `deleteSubtree` call of an attempt. -/
def endDeletion (s : FacetDeletionController) (a since : Nat) (ok : Bool) : FacetDeletionController :=
  let receipt := (s.attempts a).receipt
  let ended := s.setPhase a (.ended since ok)
  if ok then
    { ended with
      receipts := s.receipts.clear receipt
      carriedOut := Function.update s.carriedOut receipt.id (max (s.carriedOut receipt.id) since) }
  else ended

inductive DeletionEvent
  | delete (id : FacetId) (barrierSettled : Bool)
  | flush (id : FacetId)
  | recoverAll
  | barrier (a : Nat)
  /-- `ready` has resolved, and `deleteSubtree` is called. -/
  | start (a : Nat)
  | deletionEnds (a : Nat) (ok : Bool)
  | settle (a : Nat)
  | clearActive (a : Nat)
  /-- A `flush` call whose attempt settled goes on, or throws. -/
  | resume (call : FlushCall)
  | crash

def step (s : FacetDeletionController) : DeletionEvent → Option FacetDeletionController
  | .delete id barrierSettled => if id = 0 then none else some (s.delete id barrierSettled)
  | .flush id => if id = 0 then none else some (s.flush id)
  | .recoverAll => some s.recoverAll
  | .barrier a =>
    if a < s.nextAttempt then
      some { s with attempts := Function.update s.attempts a { s.attempts a with barrierSettled := true } }
    else none
  | .start a =>
    if a < s.nextAttempt ∧ (s.attempts a).phase = .waiting ∧ (s.attempts a).barrierSettled ∧
        (s.attempts a).previous.all s.isSettled then
      some (s.setPhase a (.deleting (s.requests (s.attempts a).receipt.id)))
    else none
  | .deletionEnds a ok =>
    match (s.attempts a).phase with
    | .deleting since => if a < s.nextAttempt then some (s.endDeletion a since ok) else none
    | .waiting | .ended _ _ | .settled _ _ => none
  | .settle a =>
    match (s.attempts a).phase with
    | .ended since ok => if a < s.nextAttempt then some (s.setPhase a (.settled since ok)) else none
    | .waiting | .deleting _ | .settled _ _ => none
  | .clearActive a =>
    if a < s.nextAttempt ∧ s.isSettled a then
      let id := (s.attempts a).receipt.id
      some (if s.active id = some a then { s with active := Function.update s.active id none } else s)
    else none
  | .resume call =>
    if call ∈ s.flushes then
      let rest := { s with flushes := s.flushes.erase call }
      match (s.attempts call.attempt).phase with
      | .settled _ true => some (rest.flush call.id)
      | .settled _ false => some rest
      | .waiting | .deleting _ | .ended _ _ => none
    else none
  | .crash => some { s with active := fun _ => none, nextAttempt := 0, flushes := [], calls := [] }

/-- A controller over the receipts that an earlier session left behind. -/
def opened (receipts : ReceiptTable) : FacetDeletionController where
  receipts
  active := fun _ => none
  attempts := fun _ => { receipt := { id := 0, generation := 0 }, previous := none, barrierSettled := false, phase := .waiting }
  nextAttempt := 0
  flushes := []
  calls := []
  requests := fun _ => 0
  carriedOut := fun _ => 0

end FacetDeletionController

end DoRuntime.Facets
