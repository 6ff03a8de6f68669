import DoRuntime.Lib.Transition

namespace DoRuntime.Browser

abbrev FacetId := Nat

/-- Where the asynchronous body of a `start` stands: at its three awaits, in `#live`, or over. Its
    storage is open from the end of `load` on. -/
inductive Phase
  | load
  | createActorContainer
  | containerStart
  | placed
  | ended
deriving DecidableEq

def Phase.inFlight : Phase → Bool
  | load | createActorContainer | containerStart => true
  | placed | ended => false

def Phase.storageOpen : Phase → Bool
  | createActorContainer | containerStart | placed => true
  | load | ended => false

structure Operation where
  id : FacetId
  cancelled : Bool
  phase : Phase

/-- What a `start` call returned: the handle of an operation, or one that starts again once the
    operation has unwound. -/
inductive Handle
  | of (operation : Nat)
  | behind (operation : Nat)
deriving DecidableEq

structure StartCall where
  id : FacetId
  handle : Handle
  /-- Whether `abort` has been called on the id since. -/
  aborted : Bool

/-- A `deleteStorage` call that awaits the pending start of its current target. -/
structure Deletion where
  target : FacetId
  pending : Option Nat
  rest : List FacetId
  /-- The start calls made before it. -/
  since : Nat

/-- One `deleteAll`, with those of the start calls before its `deleteStorage` whose placement was
    live or starting then. -/
structure DeletedAll where
  target : FacetId
  since : Nat
  found : List Nat

structure BrowserActorTree where
  live : FacetId → Option Nat
  starting : FacetId → Option Nat
  operations : Nat → Operation
  nextOperation : Nat
  calls : Nat → StartCall
  nextCall : Nat
  deletions : Nat → Option Deletion
  nextDeletion : Nat
  deletedAll : List DeletedAll

namespace BrowserActorTree

def initial : BrowserActorTree where
  live := fun _ => none
  starting := fun _ => none
  operations := fun _ => { id := 0, cancelled := false, phase := .ended }
  nextOperation := 0
  calls := fun _ => { id := 0, handle := .of 0, aborted := false }
  nextCall := 0
  deletions := fun _ => none
  nextDeletion := 0
  deletedAll := []

/-- Registers the operation in `#starting` before `load` runs. -/
def register (t : BrowserActorTree) (id : FacetId) : BrowserActorTree :=
  { t with
    starting := fun i => if i = id then some t.nextOperation else t.starting i
    operations := fun i =>
      if i = t.nextOperation then { id, cancelled := false, phase := .load } else t.operations i
    nextOperation := t.nextOperation + 1 }

/-- What `start` does, and the handle it returns. -/
def place (t : BrowserActorTree) (id : FacetId) : Handle × BrowserActorTree :=
  match t.live id with
  | some current => (.of current, t)
  | none =>
    match t.starting id with
    | some prior => (if (t.operations prior).cancelled then .behind prior else .of prior, t)
    | none => (.of t.nextOperation, t.register id)

/-- A call to `start`. -/
def start (t : BrowserActorTree) (id : FacetId) : BrowserActorTree :=
  let (handle, t) := t.place id
  { t with
    calls := fun i => if i = t.nextCall then { id, handle, aborted := false } else t.calls i
    nextCall := t.nextCall + 1 }

/-- The `start` that a queued call makes once the operation before it has unwound. -/
def startAgain (t : BrowserActorTree) (call : Nat) : BrowserActorTree :=
  let (handle, t) := t.place (t.calls call).id
  { t with calls := fun i => if i = call then { t.calls i with handle } else t.calls i }

def setPhase (t : BrowserActorTree) (operation : Nat) (phase : Phase) : BrowserActorTree :=
  { t with operations := fun i => if i = operation then { t.operations i with phase } else t.operations i }

/-- The `finally` of `start`. -/
def unregister (t : BrowserActorTree) (operation : Nat) : BrowserActorTree :=
  { t with starting := fun i => if t.starting i = some operation then none else t.starting i }

/-- The `catch` of `start`, which closes the storage, then its `finally`. -/
def unwind (t : BrowserActorTree) (operation : Nat) : BrowserActorTree :=
  (t.setPhase operation .ended).unregister operation

/-- The end of one of the awaits of `start`: `throwIfAborted`, then the next phase. -/
def proceed (t : BrowserActorTree) (operation : Nat) (ok : Bool) (next : Phase) : BrowserActorTree :=
  if ok ∧ (t.operations operation).cancelled = false then t.setPhase operation next
  else t.unwind operation

/-- `this.#live.set`, then the `finally` of `start`. -/
def goLive (t : BrowserActorTree) (operation : Nat) : BrowserActorTree :=
  { t.setPhase operation .placed with
    live := fun i => if i = (t.operations operation).id then some operation else t.live i }.unregister operation

def containerStarted (t : BrowserActorTree) (operation : Nat) (ok : Bool) : BrowserActorTree :=
  if ok ∧ (t.operations operation).cancelled = false then t.goLive operation else t.unwind operation

/-- `abort` of each of the ids, which touches no entry of another id. -/
def abortAll (t : BrowserActorTree) (ids : FacetId → Bool) : BrowserActorTree :=
  { t with
    live := fun i => if ids i then none else t.live i
    operations := fun i =>
      let o := t.operations i
      if ids o.id then
        if t.starting o.id = some i then { o with cancelled := true }
        else if t.live o.id = some i then { o with phase := .ended }
        else o
      else o
    calls := fun i => if ids (t.calls i).id then { t.calls i with aborted := true } else t.calls i }

def abort (t : BrowserActorTree) (id : FacetId) : BrowserActorTree :=
  t.abortAll (· == id)

def closeAll (t : BrowserActorTree) : BrowserActorTree :=
  t.abortAll fun id => (t.live id).isSome || (t.starting id).isSome

def setDeletion (t : BrowserActorTree) (deletion : Nat) (d : Option Deletion) : BrowserActorTree :=
  { t with deletions := fun i => if i = deletion then d else t.deletions i }

/-- The loop of `deleteStorage`, up to its await. -/
def deleteNext (t : BrowserActorTree) (deletion since : Nat) : List FacetId → BrowserActorTree
  | [] => t.setDeletion deletion none
  | target :: rest =>
    (t.abort target).setDeletion deletion (some { target, pending := t.starting target, rest, since })

def deleteStorage (t : BrowserActorTree) (id : FacetId) (subtree : List FacetId) : BrowserActorTree :=
  { t with nextDeletion := t.nextDeletion + 1 }.deleteNext t.nextDeletion t.nextCall (subtree ++ [id])

def settled (t : BrowserActorTree) (operation : Nat) : Bool :=
  !(t.operations operation).phase.inFlight

/-- Whether a start call holds a placement that is live or starting. -/
def holds (t : BrowserActorTree) (target : FacetId) (call : Nat) : Bool :=
  decide ((t.calls call).id = target) &&
    match (t.calls call).handle with
    | .of operation => t.live target = some operation || t.starting target = some operation
    | .behind _ => false

/-- `deleteAll`, as it finds the tree. -/
def logDeleteAll (t : BrowserActorTree) (d : Deletion) : BrowserActorTree :=
  { t with
    deletedAll := { target := d.target, since := d.since, found := (List.range d.since).filter (t.holds d.target) } ::
      t.deletedAll }

inductive Event
  | start (id : FacetId)
  /-- The `then` of a call that queued behind an aborted start. -/
  | startAgain (call : Nat)
  | loaded (operation : Nat) (ok : Bool)
  | created (operation : Nat) (ok : Bool)
  | containerStarted (operation : Nat) (ok : Bool)
  | abort (id : FacetId)
  | deleteStorage (id : FacetId) (subtree : List FacetId)
  /-- `deleteAll`, then the next target unless something of it throws. -/
  | deleteAll (deletion : Nat) (ok : Bool)
  | copyStorage (source target : FacetId)
  | closeAll

/-- One synchronous stretch of the tree; `none` where nothing of the kind is due. -/
def step (t : BrowserActorTree) : Event → Option BrowserActorTree
  | .start id => some (t.start id)
  | .startAgain call =>
    if call < t.nextCall then
      match (t.calls call).handle with
      | .behind prior => if t.settled prior then some (t.startAgain call) else none
      | .of _ => none
    else none
  | .loaded operation ok =>
    if (t.operations operation).phase = .load then
      some (t.proceed operation ok .createActorContainer)
    else none
  | .created operation ok =>
    if (t.operations operation).phase = .createActorContainer then
      some (t.proceed operation ok .containerStart)
    else none
  | .containerStarted operation ok =>
    if (t.operations operation).phase = .containerStart then some (t.containerStarted operation ok) else none
  | .abort id => some (t.abort id)
  | .deleteStorage id subtree => some (t.deleteStorage id subtree)
  | .deleteAll deletion ok =>
    match t.deletions deletion with
    | none => none
    | some d =>
      if d.pending.all t.settled then
        some ((t.logDeleteAll d).deleteNext deletion d.since (if ok then d.rest else []))
      else none
  | .copyStorage _ _ => some t
  | .closeAll => some t.closeAll

/-- At most one placement of an id holds its storage open. -/
def Exclusive (t : BrowserActorTree) : Prop :=
  ∀ i < t.nextOperation, ∀ j < t.nextOperation, (t.operations i).phase.storageOpen = true →
    (t.operations j).phase.storageOpen = true → (t.operations i).id = (t.operations j).id → i = j

/-- No live placement belongs to a start call that was aborted since. -/
def AbortFinal (t : BrowserActorTree) : Prop :=
  ∀ id operation, t.live id = some operation → ∀ call < t.nextCall,
    (t.calls call).handle = .of operation → (t.calls call).aborted = false

/-- No `deleteAll` found a placement of an earlier start call, and none has become live since. -/
def DeletionFinal (t : BrowserActorTree) : Prop :=
  ∀ d ∈ t.deletedAll, d.found = [] ∧ ∀ call < d.since, (t.calls call).id = d.target →
    ∀ operation, (t.calls call).handle = .of operation → t.live d.target ≠ some operation

/-- The ids that an event aborts. -/
def aborts (t : BrowserActorTree) : Event → FacetId → Prop
  | .abort id, target => target = id
  | .deleteStorage id subtree, target => (subtree ++ [id]).head? = some target
  | .deleteAll deletion ok, target =>
    ok = true ∧ ∃ d, t.deletions deletion = some d ∧ d.rest.head? = some target
  | .closeAll, target => (t.live target).isSome ∨ (t.starting target).isSome
  | _, _ => False

/-- No start call waits behind an aborted one of an id that the event aborts. -/
def AbortsNoneQueued (t : BrowserActorTree) (e : Event) : Prop :=
  ∀ id, t.aborts e id → ∀ call < t.nextCall, (t.calls call).id = id →
    ∀ prior, (t.calls call).handle ≠ .behind prior

end BrowserActorTree

end DoRuntime.Browser
