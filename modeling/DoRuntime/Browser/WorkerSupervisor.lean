import DoRuntime.Lib.Program
import DoRuntime.Lib.Transition

namespace DoRuntime.Browser

/-- A `MessagePortWebSocketWireMessage`. -/
inductive Frame
  | message (data : String)
  | close (code : Nat) (reason : String)
deriving DecidableEq

def Frame.isClose : Frame → Bool
  | message _ => false
  | close _ _ => true

/-- A `WorkerHibernationSnapshot`: whether it is one, and the transport ids of its parts in order. -/
structure Snapshot where
  wellFormed : Bool
  ids : List String

structure Placement (Configuration Key : Type) where
  configuration : Configuration
  key : Key
  readyNow : Bool
  /-- `none` while pending, then whether it resolved. -/
  readiness : Option Bool
  /-- The attempt under way, as its `canceled`. -/
  hibernation : Option Bool
  idle : Bool
  idleTimer : Bool
  /-- A `prepareHibernation` still awaited, and whether the idle timer asked for it. -/
  probe : Option Bool
  terminated : Bool

structure Socket (Configuration Key : Type) where
  configuration : Configuration
  id : String
  key : Key
  pending : List Frame
  closed : Bool
  closing : Bool
  port : Bool
  /-- What was posted to its ports so far. -/
  posted : List Frame
  /-- The frames of the `receive` calls that returned. -/
  taken : List Frame

/-- How far the promise of a deletion has come. -/
inductive Removal (Configuration : Type)
  | waiting
  | removing (current : Configuration) (rest : List Configuration)
  | settled

structure WorkerDeletion (Configuration : Type) where
  includes : Configuration → Bool
  targets : List Configuration
  removal : Removal Configuration
  /-- The `removeStorage` calls it made, in order. -/
  removed : List Configuration
  failed : Bool
  /-- The placements made and the configurations known before it. -/
  since : Nat
  known : Nat

structure WorkerReference (Configuration : Type) where
  configuration : Configuration
  epoch : Nat
  /-- Whether a `delete` that covers it has been called since. -/
  revoked : Bool

inductive ResolvePhase
  | waitForDeletion
  | noDeletion
  | ready (placement : Nat)
  | done

structure Resolve (Configuration : Type) where
  configuration : Configuration
  reference : Option Nat
  phase : ResolvePhase

structure WorkerSupervisor (Configuration Key : Type) where
  workers : Key → Option Nat
  placement : Nat → Placement Configuration Key
  nextPlacement : Nat
  hibernated : Key → Option Snapshot
  /-- `#sockets`, in insertion order. -/
  sockets : List Nat
  socket : Nat → Socket Configuration Key
  nextSocket : Nat
  /-- The configurations of `#identities`, in insertion order. -/
  identities : List Configuration
  epoch : Key → Nat
  /-- `#deletions` -/
  deletions : List Nat
  deletion : Nat → WorkerDeletion Configuration
  nextDeletion : Nat
  reference : Nat → WorkerReference Configuration
  nextReference : Nat
  resolve : Nat → Resolve Configuration
  nextResolve : Nat
  /-- The references that yielded a service, each with whether it was revoked by then. -/
  yielded : List (Nat × Bool)
  /-- The callbacks run so far. -/
  invocations : Nat

/-- Where the supervisor calls out: the peers of the sockets it ends in `#discard`, in the teardown
    of `delete` or elsewhere, and the `discarded` option. -/
inductive Site
  | peerOfDiscard
  | peerOfDelete
  | peer
  | discarded
deriving DecidableEq

/-- What befalls a `#spawn`, and the error where it fails: `createWorker`, the host session, or the
    `initialize` message. -/
inductive Spawn
  | ok
  | createFails (error : String)
  | hostFails (error : String)
  | postFails (error : String)

/-- The result of `prepareHibernation`. -/
inductive ProbeAnswer
  | snapshot (snapshot : Option Snapshot)
  | error

namespace WorkerSupervisor

open Prog

variable {Configuration Key : Type} [DecidableEq Key]

def initial [Inhabited Configuration] [Inhabited Key] : WorkerSupervisor Configuration Key where
  workers := fun _ => none
  placement := fun _ => {
    configuration := default, key := default, readyNow := false, readiness := none, hibernation := none
    idle := false, idleTimer := false, probe := none, terminated := true }
  nextPlacement := 0
  hibernated := fun _ => none
  sockets := []
  socket := fun _ => {
    configuration := default, id := "", key := default, pending := [], closed := true, closing := true
    port := false, posted := [], taken := [] }
  nextSocket := 0
  identities := []
  epoch := fun _ => 0
  deletions := []
  deletion := fun _ => {
    includes := fun _ => false, targets := [], removal := .settled, removed := [], failed := false, since := 0
    known := 0 }
  nextDeletion := 0
  reference := fun _ => { configuration := default, epoch := 0, revoked := false }
  nextReference := 0
  resolve := fun _ => { configuration := default, reference := none, phase := .done }
  nextResolve := 0
  yielded := []
  invocations := 0

abbrev Act (Configuration Key α : Type) : Type := Prog String (WorkerSupervisor Configuration Key) α

section Updates

variable (s : WorkerSupervisor Configuration Key)

def setPlacement (p : Nat) (f : Placement Configuration Key → Placement Configuration Key) :
    WorkerSupervisor Configuration Key :=
  { s with placement := fun i => if i = p then f (s.placement i) else s.placement i }

def setSocket (i : Nat) (f : Socket Configuration Key → Socket Configuration Key) :
    WorkerSupervisor Configuration Key :=
  { s with socket := fun j => if j = i then f (s.socket j) else s.socket j }

def setDeletion (d : Nat) (f : WorkerDeletion Configuration → WorkerDeletion Configuration) :
    WorkerSupervisor Configuration Key :=
  { s with deletion := fun i => if i = d then f (s.deletion i) else s.deletion i }

def setResolve (n : Nat) (phase : ResolvePhase) : WorkerSupervisor Configuration Key :=
  { s with resolve := fun i => if i = n then { s.resolve i with phase } else s.resolve i }

def setWorker (k : Key) (p : Option Nat) : WorkerSupervisor Configuration Key :=
  { s with workers := fun k' => if k' = k then p else s.workers k' }

def setHibernated (k : Key) (snapshot : Option Snapshot) : WorkerSupervisor Configuration Key :=
  { s with hibernated := fun k' => if k' = k then snapshot else s.hibernated k' }

def addPlacement (p : Placement Configuration Key) : WorkerSupervisor Configuration Key :=
  { s with
    placement := fun i => if i = s.nextPlacement then p else s.placement i
    nextPlacement := s.nextPlacement + 1 }

def addSocket (c : Socket Configuration Key) : WorkerSupervisor Configuration Key :=
  { s with
    socket := fun i => if i = s.nextSocket then c else s.socket i
    nextSocket := s.nextSocket + 1 }

/-- `#socketsFor` -/
def socketsFor (k : Key) : List Nat :=
  s.sockets.filter fun i => (s.socket i).key = k

/-- `#isCurrent` -/
def isCurrent (p : Nat) : Bool :=
  s.workers (s.placement p).key = some p

/-- `#describesLiveSockets` -/
def describesLiveSockets (k : Key) (snapshot : Snapshot) : Bool :=
  let live := ((s.socketsFor k).map fun i => (s.socket i).id).dedup
  snapshot.wellFormed && decide snapshot.ids.Nodup && decide (snapshot.ids.length = live.length) &&
    snapshot.ids.all fun id => live.contains id

end Updates

section Sockets

variable (call : Site → Act Configuration Key Unit)

/-- `#finish` -/
def finish (site : Site) (i : Nat) : Act Configuration Key Unit := do
  let s ← state
  if (s.socket i).closed then pure ()
  else do
    update fun s => { s with sockets := s.sockets.erase i }.setSocket i fun c =>
      { c with closed := true, port := false }
    call site

/-- `#end` -/
def endSocket (site : Site) (i : Nat) (close : Frame) : Act Configuration Key Unit := do
  update fun s => s.setSocket i fun c =>
    { c with closing := true, posted := if c.port then c.posted ++ [close] else c.posted }
  call site
  finish call site i

def endSockets (site : Site) (k : Key) (code : Nat) (reason : String) : Act Configuration Key Unit := do
  let s ← state
  forEach (s.socketsFor k) fun i => endSocket call site i (.close code reason)

/-- `#discard`, up to the reasons it gives. -/
def discard (p : Nat) (keepSockets : Bool) : Act Configuration Key Unit := do
  let s ← state
  if s.isCurrent p then do
    let k := (s.placement p).key
    update fun s => (s.setPlacement p fun q =>
      { q with idleTimer := false, hibernation := none, readiness := q.readiness <|> some false }).setWorker k none
    if keepSockets then pure () else update fun s => s.setHibernated k none
    forEach (s.socketsFor k) fun i => do
      update fun s => s.setSocket i fun c => { c with port := false }
      if keepSockets then pure () else endSocket call .peerOfDiscard i (.close 1011 "Worker stopped")
    update fun s => s.setPlacement p fun q => { q with terminated := true }
    call .discarded
  else pure ()

/-- `#rehydrate` -/
def rehydrate (k : Key) (snapshot : Snapshot) : Act Configuration Key Unit := do
  let s ← state
  forEach snapshot.ids fun id =>
    match (s.socketsFor k).reverse.find? fun i => (s.socket i).id = id with
    | some i => update fun s => s.setSocket i fun c => { c with port := true }
    | none => raise ("Missing host transport " ++ id)

end Sockets

section Calls

variable (key : Configuration → Key) (call : Site → Act Configuration Key Unit)

/-- `#identity` -/
def identity (configuration : Configuration) : Act Configuration Key Unit :=
  update fun s =>
    if s.identities.any fun c => key c = key configuration then s
    else { s with identities := s.identities ++ [configuration] }

/-- The sockets of a key whose worker comes back, attached again unless its snapshot no longer
    matches them. -/
def restoreSockets (k : Key) : Option Snapshot → Act Configuration Key Unit
  | none => pure ()
  | some snapshot => do
    let s ← state
    if s.describesLiveSockets k snapshot then rehydrate k snapshot
    else endSockets call .peer k 1011 "Worker snapshot no longer matches its transports"

/-- The `try` of `#spawn` after the placement is registered. -/
def sendInitialize (k : Key) (snapshot : Option Snapshot) (outcome : Spawn) : Act Configuration Key Unit := do
  restoreSockets call k snapshot
  match outcome with
  | .postFails error => raise error
  | _ => pure ()

/-- `#spawn` -/
def spawn (configuration : Configuration) (outcome : Spawn) : Act Configuration Key Nat := do
  let s ← state
  let p := s.nextPlacement
  let k := key configuration
  let placement : Placement Configuration Key := {
    configuration, key := k, readyNow := false, readiness := none, hibernation := none, idle := false
    idleTimer := false, probe := none, terminated := false }
  match outcome with
  | .createFails error => raise error
  | .hostFails error => do
    update fun s => s.addPlacement { placement with terminated := true }
    raise error
  | _ => do
    update fun s => (s.addPlacement placement).setWorker k (some p)
    update fun s => s.setHibernated k none
    attempt (sendInitialize call k (s.hibernated k) outcome) fun error => do
      discard call p false
      raise error
    pure p

/-- `#ensure`; restarting the idle grace leaves its timer armed. -/
def ensure (configuration : Configuration) (outcome : Spawn) : Act Configuration Key Nat := do
  let s ← state
  if s.deletions.any fun d => (s.deletion d).includes configuration then
    raise "Worker storage is being deleted"
  else do
    identity key configuration
    match s.workers (key configuration) with
    | none => spawn key call configuration outcome
    | some existing => do
      update fun s => s.setPlacement existing fun q => { q with hibernation := q.hibernation.map fun _ => true }
      pure existing

/-- `#connect` and `#attach` -/
def attach (i : Nat) : Act Configuration Key Unit :=
  update fun s => s.setSocket i fun c => { c with port := true }

/-- `#post` -/
def post (i : Nat) (frame : Frame) : Act Configuration Key Unit := do
  let s ← state
  if (s.socket i).port then do
    update fun s => s.setSocket i fun c => { c with posted := c.posted ++ [frame] }
    if frame.isClose then finish call .peer i else pure ()
  else update fun s => s.setSocket i fun c => { c with pending := c.pending ++ [frame] }

/-- `#receive` -/
def receive (i : Nat) (frame : Frame) (outcome : Spawn) : Act Configuration Key Unit := do
  let s ← state
  if (s.socket i).closed ∨ ((s.socket i).closing ∧ ¬ frame.isClose) then pure ()
  else do
    let p ← ensure key call (s.socket i).configuration outcome
    let s ← state
    if (s.socket i).closed then pure ()
    else do
      if (s.socket i).port then pure () else attach i
      if ¬ (s.placement p).readyNow ∨ (s.placement p).hibernation.isSome then
        update fun s => s.setSocket i fun c => { c with pending := c.pending ++ [frame] }
      else post call i frame

/-- `#close` -/
def close (i code : Nat) (reason : String) (notifyPeer : Bool) (outcome : Spawn) :
    Act Configuration Key Unit := do
  let s ← state
  if (s.socket i).closed ∨ (s.socket i).closing then pure ()
  else do
    update fun s => s.setSocket i fun c => { c with closing := true }
    if notifyPeer then call .peer else pure ()
    receive key call i (.close code reason) outcome

/-- Posts the frames held by a socket, until one closes it. -/
def postAll (i : Nat) : List Frame → Act Configuration Key Unit
  | [] => pure ()
  | frame :: rest => do
    post call i frame
    let s ← state
    if (s.socket i).closed then pure () else postAll i rest

/-- `#flush` -/
def flush (p : Nat) : Act Configuration Key Unit := do
  let s ← state
  if ¬ (s.placement p).readyNow ∨ (s.placement p).hibernation.isSome then pure ()
  else forEach (s.socketsFor (s.placement p).key) fun i => do
    let s ← state
    if (s.socket i).port then do
      update fun s => s.setSocket i fun c => { c with pending := [] }
      postAll call i (s.socket i).pending
    else pure ()

/-- `#resume` -/
def resume (p : Nat) : Act Configuration Key Unit := do
  update fun s => s.setPlacement p fun q => { q with hibernation := none }
  flush call p

/-- `#hibernate`, up to its await. -/
def hibernate (p : Nat) (byTimer : Bool) : Act Configuration Key Unit := do
  let s ← state
  if ¬ s.isCurrent p ∨ (s.placement p).hibernation.isSome then pure ()
  else update fun s => s.setPlacement p fun q => { q with hibernation := some false, probe := some byTimer }

def scheduleIdle (p : Nat) : Act Configuration Key Unit :=
  update fun s => s.setPlacement p fun q => { q with idleTimer := true }

/-- What the idle timer does when its probe throws. -/
def probeFailed (p : Nat) (byTimer : Bool) : Act Configuration Key Unit := do
  let s ← state
  if byTimer ∧ s.isCurrent p ∧ (s.placement p).idle then scheduleIdle p else pure ()

/-- `#hibernate` from its await on, and the timer's `catch`. -/
def probed (p : Nat) (answer : ProbeAnswer) : Act Configuration Key Unit := do
  let s ← state
  let byTimer := (s.placement p).probe = some true
  update fun s => s.setPlacement p fun q => { q with probe := none }
  if s.isCurrent p then
    match answer with
    | .error => do
      attempt (resume call p) fun _ => pure ()
      probeFailed p byTimer
    | .snapshot answer =>
      match answer.filter fun snapshot =>
          (s.placement p).hibernation = some false && s.describesLiveSockets (s.placement p).key snapshot with
      | none =>
        attempt
          (do
            resume call p
            let s ← state
            if (s.placement p).idle then scheduleIdle p else pure ())
          fun _ => probeFailed p byTimer
      | some snapshot => do
        update fun s => s.setHibernated (s.placement p).key (some snapshot)
        discard call p true
  else pure ()

/-- `#reportLifecycle` -/
def reportLifecycle (p : Nat) (idle : Bool) : Act Configuration Key Unit := do
  let s ← state
  if s.isCurrent p then
    update fun s => s.setPlacement p fun q =>
      if idle then { q with idle, idleTimer := true }
      else { q with idle, idleTimer := false, hibernation := q.hibernation.map fun _ => true }
  else pure ()

/-- The `ready` event of a worker. -/
def ready (p : Nat) : Act Configuration Key Unit := do
  let s ← state
  if s.isCurrent p then do
    update fun s => s.setPlacement p fun q =>
      { q with readyNow := true, readiness := q.readiness <|> some true }
    flush call p
  else pure ()

/-- A frame that the worker sent through the socket's port. -/
def workerFrame (i : Nat) (frame : Frame) : Act Configuration Key Unit := do
  let s ← state
  if (s.socket i).port then do
    call .peer
    if frame.isClose then finish call .peer i else pure ()
  else pure ()

def connect (configuration : Configuration) (id : String) (outcome : Spawn) : Act Configuration Key Unit := do
  let s ← state
  let i := s.nextSocket
  let k := key configuration
  update fun s => s.addSocket {
    configuration, id, key := k, pending := [], closed := false, closing := false, port := false
    posted := [], taken := [] }
  match (s.socketsFor k).find? fun j => (s.socket j).id = id with
  | some previous => do
    close key call previous 1008 "Connection superseded" true outcome
    call .peer
    finish call .peer i
  | none =>
    attempt
      (do
        let _ ← ensure key call configuration outcome
        update fun s => { s with sockets := s.sockets ++ [i] }
        attach i)
      fun error => do
        finish call .peer i
        raise error

def closeSockets (site : Site) (configuration : Configuration) (code : Nat) (reason : String) :
    Act Configuration Key Unit := do
  update fun s => s.setHibernated (key configuration) none
  endSockets call site (key configuration) code reason

def stop (configuration : Configuration) (reason : String) : Act Configuration Key Unit := do
  let s ← state
  match s.workers (key configuration) with
  | some p => discard call p false
  | none => do
    update fun s => s.setHibernated (key configuration) none
    endSockets call .peer (key configuration) 1011 reason

/-- The barrier of a `delete`, and the epochs it moves on. -/
def addDeletion (includes : Configuration → Bool) (targets : List Configuration)
    (s : WorkerSupervisor Configuration Key) : WorkerSupervisor Configuration Key :=
  { s with
    deletions := s.deletions ++ [s.nextDeletion]
    deletion := fun d =>
      if d = s.nextDeletion then
        { includes, targets, removal := .waiting, removed := [], failed := false, since := s.nextPlacement
          known := s.identities.length }
      else s.deletion d
    nextDeletion := s.nextDeletion + 1
    epoch := fun k => if targets.any fun c => key c = k then s.epoch k + 1 else s.epoch k
    reference := fun r =>
      { s.reference r with revoked := (s.reference r).revoked || includes (s.reference r).configuration } }

def within (configuration : Configuration) (includes : Configuration → Bool) (candidate : Configuration) : Bool :=
  decide (key candidate = key configuration) || includes candidate

def delete (configuration : Configuration) (includes : Configuration → Bool) : Act Configuration Key Unit := do
  identity key configuration
  let s ← state
  let targets := s.identities.filter (within key configuration includes)
  update (addDeletion key (within key configuration includes) targets)
  forEach targets fun target =>
    attempt
      (do
        closeSockets key call .peerOfDelete target 1001 "Worker deleted"
        stop key call target "Worker deleted")
      fun _ => update fun t => t.setDeletion s.nextDeletion fun d => { d with failed := true }

def makeReference (configuration : Configuration) : Act Configuration Key Unit := do
  identity key configuration
  update fun s =>
    { s with
      reference := fun r =>
        if r = s.nextReference then { configuration, epoch := s.epoch (key configuration), revoked := false }
        else s.reference r
      nextReference := s.nextReference + 1 }

/-- The `assertCurrent` of a `#resolve`. -/
def assertCurrent : Option Nat → Act Configuration Key Unit
  | none => pure ()
  | some r => do
    let s ← state
    if s.epoch (key (s.reference r).configuration) = (s.reference r).epoch then pure ()
    else raise "Worker reference is stale after deletion"

/-- `#resolve`, up to its first await. -/
def startResolve (configuration : Configuration) (reference : Option Nat) : Act Configuration Key Unit := do
  assertCurrent key reference
  update fun s =>
    { s with
      resolve := fun n =>
        if n = s.nextResolve then { configuration, reference, phase := .waitForDeletion } else s.resolve n
      nextResolve := s.nextResolve + 1 }

/-- The next stretch of a `#resolve`; an error in it rejects its promise. -/
def resumeResolve (n : Nat) (outcome : Spawn) : Act Configuration Key Unit := do
  let s ← state
  let r := s.resolve n
  match r.phase with
  | .waitForDeletion =>
    if s.deletions.any fun d => (s.deletion d).includes r.configuration then pure ()
    else update fun s => s.setResolve n .noDeletion
  | .noDeletion => do
    update fun s => s.setResolve n .done
    assertCurrent key r.reference
    let p ← ensure key call r.configuration outcome
    update fun s => s.setResolve n (.ready p)
  | .ready p =>
    match (s.placement p).readiness with
    | none => pure ()
    | some resolved => do
      update fun s => s.setResolve n .done
      if resolved then do
        assertCurrent key r.reference
        match r.reference with
        | none => pure ()
        | some r => update fun s => { s with yielded := s.yielded ++ [(r, (s.reference r).revoked)] }
      else pure ()
  | .done => pure ()

end Calls

/-- The calls that an application or a callback makes. -/
inductive Api (Configuration : Type)
  | ensure (configuration : Configuration) (outcome : Spawn)
  | connect (configuration : Configuration) (id : String) (outcome : Spawn)
  | receive (socket : Nat) (frame : Frame) (outcome : Spawn)
  | close (socket code : Nat) (reason : String) (outcome : Spawn)
  | closeSockets (configuration : Configuration) (code : Nat) (reason : String)
  | hibernate (configuration : Configuration)
  | stop (configuration : Configuration) (reason : String)
  | delete (configuration : Configuration) (includes : Configuration → Bool)
  | reference (configuration : Configuration)
  | resolve (configuration : Configuration)
  | resolveReference (reference : Nat)

section Runs

variable (key : Configuration → Key) (call : Site → Act Configuration Key Unit)

def exec : Api Configuration → Act Configuration Key Unit
  | .ensure configuration outcome => do
    let _ ← ensure key call configuration outcome
    pure ()
  | .connect configuration id outcome => connect key call configuration id outcome
  | .receive i frame outcome => do
    receive key call i frame outcome
    update fun s => s.setSocket i fun c => { c with taken := c.taken ++ [frame] }
  | .close i code reason outcome => close key call i code reason false outcome
  | .closeSockets configuration code reason => closeSockets key call .peer configuration code reason
  | .hibernate configuration => do
    let s ← state
    match s.workers (key configuration) with
    | some p => hibernate p false
    | none => pure ()
  | .stop configuration reason => stop key call configuration reason
  | .delete configuration includes => delete key call configuration includes
  | .reference configuration => makeReference key configuration
  | .resolve configuration => startResolve key configuration none
  | .resolveReference r => do
    let s ← state
    if r < s.nextReference then startResolve key (s.reference r).configuration (some r) else pure ()

/-- What one run of a callback does: calls back into the supervisor, then a return or a throw. -/
structure Script (Configuration : Type) where
  calls : List (Api Configuration)
  returns : Bool

/-- Callbacks that do as `scripts` says of the n-th of them, nested at most `fuel` deep. -/
def callback (scripts : Nat → Site → Script Configuration) : Nat → Site → Act Configuration Key Unit
  | 0, _ => pure ()
  | fuel + 1, site => do
    let s ← state
    update fun s => { s with invocations := s.invocations + 1 }
    let script := scripts s.invocations site
    forEach script.calls fun api => attempt (exec key (callback scripts fuel) api) fun _ => pure ()
    if script.returns then pure () else raise "callback failed"

inductive Event (Configuration : Type)
  | call (api : Api Configuration)
  | ready (placement : Nat)
  | failed (placement : Nat)
  | lifecycle (placement : Nat) (idle : Bool)
  | idleTimer (placement : Nat)
  | probed (placement : Nat) (answer : ProbeAnswer)
  | workerFrame (socket : Nat) (frame : Frame)
  | resumeResolve (resolve : Nat) (outcome : Spawn)
  /-- A deletion that the resolve awaits was rejected. -/
  | rejectResolve (resolve : Nat)
  /-- The deletions before it have settled: the first `removeStorage` call. -/
  | startRemoval (deletion : Nat)
  /-- A `removeStorage` promise settles: the next call, or the end. -/
  | removed (deletion : Nat) (ok : Bool)
  /-- The `then` that takes a settled deletion off `#deletions`. -/
  | clear (deletion : Nat)

/-- The next `removeStorage` call of a deletion, or its end. -/
def WorkerDeletion.next (d : WorkerDeletion Configuration) : List Configuration → WorkerDeletion Configuration
  | [] => { d with removal := .settled }
  | c :: rest => { d with removal := .removing c rest, removed := d.removed ++ [c] }

def WorkerDeletion.isSettled (d : WorkerDeletion Configuration) : Bool :=
  match d.removal with
  | .settled => true
  | _ => false

/-- One synchronous stretch of the supervisor; `none` where nothing of the kind is due. -/
def step (s : WorkerSupervisor Configuration Key) : Event Configuration →
    Option (WorkerSupervisor Configuration Key)
  | .call api => some (exec key call api s).2
  | .ready p => if p < s.nextPlacement then some (ready call p s).2 else none
  | .failed p => if p < s.nextPlacement then some (discard call p false s).2 else none
  | .lifecycle p idle => if p < s.nextPlacement then some (reportLifecycle p idle s).2 else none
  | .idleTimer p =>
    if (s.placement p).idleTimer then
      some (hibernate p true (s.setPlacement p fun q => { q with idleTimer := false })).2
    else none
  | .probed p answer => if (s.placement p).probe.isSome then some (probed call p answer s).2 else none
  | .workerFrame i frame => some (workerFrame call i frame s).2
  | .resumeResolve n outcome => some (resumeResolve key call n outcome s).2
  | .rejectResolve n =>
    match (s.resolve n).phase with
    | .waitForDeletion => some (s.setResolve n .done)
    | _ => none
  | .startRemoval d =>
    if d < s.nextDeletion ∧ ∀ e < d, WorkerDeletion.isSettled (s.deletion e) = true then
      match (s.deletion d).removal with
      | .waiting => some (s.setDeletion d fun r => WorkerDeletion.next r r.targets)
      | _ => none
    else none
  | .removed d ok =>
    match (s.deletion d).removal with
    | .removing _ rest => some (s.setDeletion d fun r => WorkerDeletion.next { r with failed := r.failed || !ok } rest)
    | _ => none
  | .clear d =>
    if WorkerDeletion.isSettled (s.deletion d) then some { s with deletions := s.deletions.erase d } else none

end Runs

end WorkerSupervisor

end DoRuntime.Browser
