import DoRuntime.Js.Except
import DoRuntime.Js.Utf8
import DoRuntime.Lib.Transition

namespace DoRuntime.WebSockets

open Js

structure JsError where
  name : String
  message : JsString
deriving DecidableEq

def typeError (message : String) : JsError := ⟨"TypeError", js message⟩

def plainError (message : String) : JsError := ⟨"Error", js message⟩

structure HibernationAutoResponse where
  request : JsString
  response : JsString
deriving DecidableEq

structure RehydratedWebSocket (Socket : Type) where
  socket : Socket
  tags : Option (List JsString)
  attachment : Option Bytes
  autoResponseTimestamp : Option Int

structure MirroredWebSocket (Socket : Type) where
  socket : Socket
  tags : List JsString
  attachment : Option Bytes
  autoResponseTimestamp : Option Int

def cloneEntry {Socket : Type} (value : RehydratedWebSocket Socket) : MirroredWebSocket Socket where
  socket := value.socket
  tags := value.tags.getD []
  attachment := value.attachment
  autoResponseTimestamp := value.autoResponseTimestamp

namespace MirroredWebSocket

/-- What `snapshot` hands out: every field of a `MirroredWebSocket` is one of a `RehydratedWebSocket`. -/
def clone {Socket : Type} (entry : MirroredWebSocket Socket) : RehydratedWebSocket Socket where
  socket := entry.socket
  tags := some entry.tags
  attachment := entry.attachment
  autoResponseTimestamp := entry.autoResponseTimestamp

end MirroredWebSocket

structure HibernationMirror (Socket : Type) where
  entries : List (MirroredWebSocket Socket)
  autoResponsePair : Option HibernationAutoResponse

namespace HibernationMirror

variable {Socket : Type} [DecidableEq Socket]

/-- `Map.set`: a key that is there already keeps its place. -/
def set (entries : List (MirroredWebSocket Socket)) (entry : MirroredWebSocket Socket) :
    List (MirroredWebSocket Socket) :=
  if entries.any fun e => e.socket = entry.socket then
    entries.map fun e => if e.socket = entry.socket then entry else e
  else entries ++ [entry]

def create (rehydrated : List (RehydratedWebSocket Socket)) (autoResponsePair : Option HibernationAutoResponse) :
    HibernationMirror Socket where
  entries := rehydrated.foldl (fun entries value => set entries (cloneEntry value)) []
  autoResponsePair := autoResponsePair

def has (m : HibernationMirror Socket) (socket : Socket) : Bool := m.entries.any fun e => e.socket = socket

def update (m : HibernationMirror Socket) (socket : Socket)
    (f : MirroredWebSocket Socket → MirroredWebSocket Socket) : HibernationMirror Socket :=
  { m with entries := m.entries.map fun e => if e.socket = socket then f e else e }

def accepted (m : HibernationMirror Socket) (socket : Socket) (tags : List JsString) : HibernationMirror Socket :=
  { m with entries := set m.entries ⟨socket, tags, none, none⟩ }

def attachment (m : HibernationMirror Socket) (socket : Socket) (bytes : Option Bytes) :
    Except JsError (HibernationMirror Socket) :=
  if m.has socket then .ok (m.update socket fun entry => { entry with attachment := bytes })
  else .error (plainError "Hibernation mirror: attachment preceded socket acceptance.")

def autoResponse (m : HibernationMirror Socket) (pair : Option HibernationAutoResponse) : HibernationMirror Socket :=
  { m with autoResponsePair := pair }

def autoResponseTimestamp (m : HibernationMirror Socket) (socket : Socket) (timestamp : Int) :
    Except JsError (HibernationMirror Socket) :=
  if m.has socket then .ok (m.update socket fun entry => { entry with autoResponseTimestamp := some timestamp })
  else .error (plainError "Hibernation mirror: auto-response preceded socket acceptance.")

def closed (m : HibernationMirror Socket) (socket : Socket) : HibernationMirror Socket :=
  { m with entries := m.entries.filter fun e => e.socket ≠ socket }

def snapshot (m : HibernationMirror Socket) : List (RehydratedWebSocket Socket) :=
  m.entries.map MirroredWebSocket.clone

end HibernationMirror

inductive SocketAcceptance
  | classic
  | hibernatable (registry : Nat) (tags : List JsString)
deriving DecidableEq

structure SocketMetadata where
  accepted : Option SocketAcceptance := none
  attachment : Option Bytes := none
  closeDispatched : Bool := false
  ownCloseCompletion : Bool := false
  released : Bool := false

/-- A socket stands for a transport and for the wrapper the actor holds of it: one object of metadata is
theirs, and `#entryFor` finds either. -/
structure RegistryEntry (Socket : Type) where
  raw : Socket
  tags : List JsString
  autoResponseTimestamp : Option Int

/-- What `atCheckpointEnd` is asked to run. -/
inductive CheckpointEnd (Socket : Type)
  | settle (registry : Nat) (raw : Socket) (isClose : Bool)
  | completeOwnClose (socket : Socket)

structure Codec (Value : Type) where
  structuredClone : Value → Except JsError Unit
  serializeValue : Value → Except JsError Bytes
  deserializeValue : Bytes → Except JsError Value
  stringOf : Value → Option JsString
  null : Value

/-- A `HibernatableWebSocketRegistry` with the metadata of its realm's sockets and the mirror it reports to. -/
structure Registry (Socket : Type) where
  serial : Nat
  metadata : Socket → SocketMetadata
  host : HibernationMirror Socket
  entries : List (RegistryEntry Socket)
  autoResponse : Option HibernationAutoResponse
  checkpoint : List (CheckpointEnd Socket)

def maxHibernatableSockets : Nat := 32768
def maxTags : Nat := 10
def maxTagLength : Nat := 256
def maxAttachmentBytes : Nat := 16384
def maxAutoResponseBytes : Nat := 2048

def hibernationAlreadyAccepted : JsError :=
  plainError "Cannot call `acceptWebSocket()` if the WebSocket was already accepted via `accept()`"

def checkTag (tag : JsString) : Except JsError Unit :=
  if maxTagLength < tag.length then
    .error ⟨"Error", js "\"" ++ tag ++ js s!"\" is longer than the max tag length ({maxTagLength} characters)."⟩
  else .ok ()

def normalizeTags : Option (List JsString) → Except JsError (List JsString)
  | none => .ok []
  | some tags =>
    if maxTags < tags.length then
      .error (plainError s!"a Hibernatable WebSocket cannot have more than {maxTags} tags")
    else do
      tags.eraseDups.forM checkTag
      return tags.eraseDups

def validateAutoResponseSize (side lowered : String) (value : JsString) : Except JsError Unit :=
  if maxAutoResponseBytes < (encode value).length then
    .error ⟨"RangeError", js s!"{side} cannot be larger than {maxAutoResponseBytes} bytes. " ++
      js s!"A {lowered} of size {(encode value).length} was provided."⟩
  else .ok ()

def validateAutoResponse (pair : HibernationAutoResponse) : Except JsError Unit := do
  validateAutoResponseSize "Request" "request" pair.request
  validateAutoResponseSize "Response" "response" pair.response

namespace Codec

variable {Value : Type}

/-- The bytes `serializeAttachment` keeps. A string is measured as the reference runtime encodes it. -/
def attachmentBytes (codec : Codec Value) (value : Value) : Except JsError Bytes := do
  codec.structuredClone value
  let bytes ← codec.serializeValue value
  let measured := match codec.stringOf value with
    | some text => (encode text).length + 5
    | none => bytes.length
  if maxAttachmentBytes < measured then
    throw (plainError (s!"A WebSocket 'attachment' cannot be larger than {maxAttachmentBytes} bytes." ++
      s!"'attachment' was {measured} bytes."))
  return bytes

/-- What `deserializeAttachment` reads of the bytes kept. -/
def read (codec : Codec Value) : Option Bytes → Except JsError Value
  | none => .ok codec.null
  | some bytes => codec.deserializeValue bytes

end Codec

namespace Registry

section Operations

variable {Socket Value : Type} [DecidableEq Socket]

def updateMetadata (r : Registry Socket) (socket : Socket) (f : SocketMetadata → SocketMetadata) : Registry Socket :=
  { r with metadata := Function.update r.metadata socket (f (r.metadata socket)) }

def entryFor (r : Registry Socket) (socket : Socket) : Option (RegistryEntry Socket) :=
  r.entries.find? fun entry => entry.raw = socket

def attachmentChanged (r : Registry Socket) (socket : Socket) (bytes : Bytes) :
    Registry Socket × Except JsError Unit :=
  match r.entryFor socket with
  | none => (r, .ok ())
  | some entry =>
    match r.host.attachment entry.raw (some bytes) with
    | .ok host => ({ r with host }, .ok ())
    | .error failure => (r, .error failure)

def serializeAttachment (codec : Codec Value) (r : Registry Socket) (socket : Socket) (value : Value) :
    Registry Socket × Except JsError Unit :=
  match codec.attachmentBytes value with
  | .error failure => (r, .error failure)
  | .ok bytes =>
    let kept := r.updateMetadata socket fun state => { state with attachment := some bytes }
    match (r.metadata socket).accepted with
    | some (.hibernatable registry _) =>
      -- A registry that was replaced lists no socket whose metadata still names it.
      if registry = r.serial then kept.attachmentChanged socket bytes else (kept, .ok ())
    | _ => (kept, .ok ())

def deserializeAttachment (codec : Codec Value) (r : Registry Socket) (socket : Socket) :
    Except JsError Value :=
  codec.read (r.metadata socket).attachment

/-- `refused` is what `acceptHibernation` throws for a pair half that is used already. -/
def acceptWebSocket (r : Registry Socket) (socket : Socket) (tags : Option (List JsString))
    (refused : Option JsError) : Registry Socket × Except JsError Unit :=
  if (r.metadata socket).accepted.isSome then (r, .error hibernationAlreadyAccepted)
  else if maxHibernatableSockets ≤ r.entries.length then
    (r, .error (plainError
      s!"only {maxHibernatableSockets} websockets can be accepted on a single Durable Object instance"))
  else
    match normalizeTags tags with
    | .error failure => (r, .error failure)
    | .ok normalized =>
      match refused with
      | some failure => (r, .error failure)
      | none =>
        let accepted := r.updateMetadata socket fun state =>
          { state with accepted := some (.hibernatable r.serial normalized) }
        ({ accepted with
           entries := r.entries ++ [⟨socket, normalized, none⟩]
           host := r.host.accepted socket normalized }, .ok ())

/-- `accept` of a socket, which puts it in classic mode. -/
def acceptClassic (r : Registry Socket) (socket : Socket) : Registry Socket :=
  if (r.metadata socket).accepted.isSome then r
  else r.updateMetadata socket fun state => { state with accepted := some .classic }

def getWebSockets (r : Registry Socket) : Option JsString → List Socket
  | some tag => (r.entries.filter fun entry => entry.tags.contains tag).map RegistryEntry.raw
  | none => (r.entries.map RegistryEntry.raw).reverse

def getTags (r : Registry Socket) (socket : Socket) : Except JsError (List JsString) :=
  let state := r.metadata socket
  if state.released then
    .error (plainError
      "you must call 'acceptWebSocket()' before attempting to access the tags of a WebSocket.")
  else
    match state.accepted with
    | none => .error (plainError
        "you must call 'acceptWebSocket()' before attempting to access the tags of a WebSocket.")
    | some .classic => .error (plainError "only hibernatable websockets can have tags.")
    | some (.hibernatable _ tags) => .ok tags

def setWebSocketAutoResponse (r : Registry Socket) :
    Option HibernationAutoResponse → Except JsError (Registry Socket)
  | none => .ok { r with autoResponse := none, host := r.host.autoResponse none }
  | some pair => do
    validateAutoResponse pair
    return { r with autoResponse := some pair, host := r.host.autoResponse (some pair) }

def getWebSocketAutoResponse (r : Registry Socket) : Option HibernationAutoResponse := r.autoResponse

def getWebSocketAutoResponseTimestamp (r : Registry Socket) (socket : Socket) : Option Int :=
  (r.entryFor socket).bind RegistryEntry.autoResponseTimestamp

/-- The part of `receive` that answers a ping. -/
def receiveText (r : Registry Socket) (socket : Socket) (data : JsString) (now : Int) :
    Registry Socket × Except JsError Unit :=
  match r.entryFor socket with
  | none => (r, .ok ())
  | some entry =>
    if r.autoResponse.map HibernationAutoResponse.request = some data then
      let stamped : Registry Socket :=
        { r with
          entries := r.entries.map fun e =>
            if e.raw = entry.raw then { e with autoResponseTimestamp := some now } else e }
      match r.host.autoResponseTimestamp entry.raw now with
      | .ok host => ({ stamped with host }, .ok ())
      | .error failure => (stamped, .error failure)
    else (r, .ok ())

def remove (r : Registry Socket) (raw : Socket) : Registry Socket :=
  if r.entries.any fun entry => entry.raw = raw then
    { r with entries := r.entries.filter fun entry => entry.raw ≠ raw, host := r.host.closed raw }
  else r

def completeOwnClose (r : Registry Socket) (socket : Socket) : Registry Socket :=
  r.updateMetadata socket fun state =>
    { state with ownCloseCompletion := false, released := state.released || state.closeDispatched }

def completePending (r : Registry Socket) (socket : Socket) : Registry Socket :=
  if (r.metadata socket).ownCloseCompletion then r.completeOwnClose socket else r

/-- `settle` of a frame that `#schedule` of the registry with that number took. -/
def settle (r : Registry Socket) (registry : Nat) (raw : Socket) (isClose : Bool) : Registry Socket :=
  (if isClose ∧ registry = r.serial then r.remove raw else r).completePending raw

/-- The handler of a scheduled frame runs. -/
def enter (r : Registry Socket) (raw : Socket) (isClose : Bool) : Registry Socket :=
  let entered :=
    if isClose then r.updateMetadata raw fun state => { state with closeDispatched := true } else r
  if isClose || (entered.metadata raw).ownCloseCompletion then
    { entered with checkpoint := entered.checkpoint ++ [.settle r.serial raw isClose] }
  else entered

/-- The own close of a socket was written. `pair` is a half whose peer is in this isolate. -/
def ownCloseWritten (r : Registry Socket) (socket : Socket) (pair : Bool) : Registry Socket :=
  if pair && !(r.metadata socket).closeDispatched then
    r.updateMetadata socket fun state => { state with ownCloseCompletion := true }
  else { r with checkpoint := r.checkpoint ++ [.completeOwnClose socket] }

def runCheckpointEnd (r : Registry Socket) : CheckpointEnd Socket → Registry Socket
  | .settle registry raw isClose => r.settle registry raw isClose
  | .completeOwnClose socket => r.completeOwnClose socket

def drainCheckpoint (r : Registry Socket) : Registry Socket :=
  r.checkpoint.foldl runCheckpointEnd { r with checkpoint := [] }

def rehydrate (r : Registry Socket) (value : RehydratedWebSocket Socket) :
    Except JsError (Registry Socket) := do
  let tags ← normalizeTags value.tags
  return { r.updateMetadata value.socket fun state =>
      { accepted := some (.hibernatable r.serial tags)
        attachment := value.attachment <|> state.attachment } with
    entries := r.entries ++ [⟨value.socket, tags, value.autoResponseTimestamp⟩] }

/-- The constructor of a registry in a realm whose sockets have that metadata. -/
def create (metadata : Socket → SocketMetadata) (serial : Nat)
    (checkpoint : List (CheckpointEnd Socket)) (host : HibernationMirror Socket)
    (rehydrated : List (RehydratedWebSocket Socket)) : Except JsError (Registry Socket) := do
  let bare : Registry Socket := ⟨serial, metadata, host, [], none, checkpoint⟩
  let answering ← match host.autoResponsePair with
    | none => pure bare
    | some pair => bare.setWebSocketAutoResponse (some pair)
  rehydrated.foldlM (rehydrate) answering

/-- A replacement is given a mirror seeded from the one before it. -/
def replacement (r : Registry Socket) (freshRealm : Bool) :
    Except JsError (Registry Socket) :=
  let mirror := HibernationMirror.create r.host.snapshot r.host.autoResponsePair
  if freshRealm then create (fun _ => {}) (r.serial + 1) [] mirror mirror.snapshot
  else create r.metadata (r.serial + 1) r.checkpoint mirror mirror.snapshot

end Operations

inductive Event (Socket Value : Type)
  | acceptWebSocket (socket : Socket) (tags : Option (List JsString)) (refused : Option JsError)
  | acceptClassic (socket : Socket)
  | serializeAttachment (socket : Socket) (value : Value)
  | setWebSocketAutoResponse (pair : Option HibernationAutoResponse)
  | receiveText (socket : Socket) (data : JsString) (now : Int)
  /-- The handler of a scheduled frame of the socket runs; `isClose` for its close. -/
  | enter (raw : Socket) (isClose : Bool)
  /-- A scheduled close that an aborted context refuses. -/
  | refuseClose (raw : Socket)
  | ownCloseWritten (socket : Socket) (pair : Bool)
  | drainCheckpoint
  | replace (freshRealm : Bool)

section Steps

variable {Socket Value : Type} [DecidableEq Socket]

/-- The registry's `#schedule` was given a frame of the socket. -/
def acceptedHere (r : Registry Socket) (raw : Socket) : Bool :=
  match (r.metadata raw).accepted with
  | some (.hibernatable registry _) => registry = r.serial
  | _ => false

def step (codec : Codec Value) (r : Registry Socket) :
    Event Socket Value → Option (Registry Socket)
  | .acceptWebSocket socket tags refused => some (r.acceptWebSocket socket tags refused).1
  | .acceptClassic socket => some (r.acceptClassic socket)
  | .serializeAttachment socket value => some (r.serializeAttachment codec socket value).1
  | .setWebSocketAutoResponse pair => some ((r.setWebSocketAutoResponse pair).toOption.getD r)
  | .receiveText socket data now => some (r.receiveText socket data now).1
  | .enter raw isClose => if r.acceptedHere raw then some (r.enter raw isClose) else none
  | .refuseClose raw => if r.acceptedHere raw then some (r.settle r.serial raw true) else none
  | .ownCloseWritten socket pair => some (r.ownCloseWritten socket pair)
  | .drainCheckpoint => some r.drainCheckpoint
  | .replace freshRealm => some ((r.replacement freshRealm).toOption.getD r)

end Steps

end Registry

end DoRuntime.WebSockets
