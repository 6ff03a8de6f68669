import DoRuntime.Io.InputGate
import DoRuntime.WebSockets.GatedWrites

namespace DoRuntime.WebSockets

open Io Js

/-- What a message event carries. Buffers are in memory, where others can write to them; a Blob is
    immutable. -/
inductive MessageData
  | text (value : JsString)
  | buffer (id : Nat)
  | view (id offset length : Nat)
  | blob (bytes : Bytes)
  /-- Any other value, as what `String` makes of it. -/
  | other (value : JsString)

inductive Payload
  | text (value : JsString)
  | bytes (value : Bytes)
deriving DecidableEq

/-- What `cloneMessageData` returns. -/
inductive ClonedData
  | payload (value : Payload)
  | blob (bytes : Bytes)
deriving DecidableEq

inductive SocketFrame
  | message (data : MessageData)
  | error
  | close (event : CloseEvent)

inductive HandlerCall
  | message (payload : Payload)
  | error
  | close (event : CloseEvent)

def HandlerCall.isClose : HandlerCall → Bool
  | close _ => true
  | _ => false

/-- What the bytes of a message are when it arrives. -/
def MessageData.content (heap : Nat → Bytes) : MessageData → Payload
  | text value => .text value
  | buffer id => .bytes (heap id)
  | view id offset length => .bytes (((heap id).drop offset).take length)
  | blob bytes => .bytes bytes
  | other value => .text value

def SocketFrame.content (heap : Nat → Bytes) : SocketFrame → HandlerCall
  | message data => .message (data.content heap)
  | error => .error
  | close event => .close event

def cloneMessageData (heap : Nat → Bytes) : MessageData → ClonedData
  | .text value => .payload (.text value)
  | .blob bytes => .blob bytes
  | .buffer id => .payload (.bytes (heap id))
  | .view id offset length => .payload (.bytes (((heap id).drop offset).take length))
  | .other value => .payload (.text value)

inductive FramePhase
  | waiting
  | entered
  | ended
  | refused
deriving DecidableEq

/-- A frame of `#schedule`, whose `run` waits for the input gate. -/
structure ScheduledFrame where
  frame : Nat
  call : HandlerCall
  phase : FramePhase

def ScheduledFrame.isLive (scheduled : ScheduledFrame) : Bool :=
  scheduled.phase == .waiting || scheduled.phase == .entered

structure HandlerDispatch where
  frame : Nat
  call : HandlerCall
  /-- `getWebSockets` has the socket at the call of the handler. -/
  listed : Bool

/-- The `HibernatableWebSocketRegistry` of one socket, with the input gate of its context. Frames
    are numbered as they arrive; a scheduled one goes by its call of `wait`. -/
structure FrameQueue where
  gates : InputGates
  heap : Nat → Bytes
  autoResponse : Option HibernationAutoResponse
  aborted : Bool
  listed : Bool
  arrived : List HandlerCall
  answered : List (Nat × HibernationAutoResponse)
  /-- The Blobs whose `arrayBuffer` is pending. -/
  reading : List (Nat × Bytes)
  scheduled : Nat → Option ScheduledFrame
  /-- The calls of `wait` whose continuation is a job of the microtask queue, in its order. -/
  jobs : List Nat
  refused : List Nat
  dispatched : List HandlerDispatch

namespace FrameQueue

section Registry

variable (s : FrameQueue)

def isLinked : WaitStatus → Bool
  | .linked .. => true
  | _ => false

/-- The gate moves on. The calls it settles are those in its line, in the order of the line. -/
def moveGates (gates : InputGates) : FrameQueue :=
  { s with
    gates := gates
    jobs := s.jobs ++ (s.gates.waiters 0).filter fun w => (s.scheduled w).isSome && !isLinked (gates.wait w) }

/-- `run` rejects before it calls the handler. -/
def refuse (frame : Nat) (call : HandlerCall) : FrameQueue :=
  { s with
    refused := s.refused ++ [frame]
    listed := s.listed && !call.isClose }

def schedule (frame : Nat) (call : HandlerCall) : FrameQueue :=
  if s.aborted then s.refuse frame call
  else
    let gates := s.gates.call 0 false
    { s with
      gates := gates
      scheduled := Function.update s.scheduled s.gates.waits (some ⟨frame, call, .waiting⟩)
      jobs := if isLinked (gates.wait s.gates.waits) then s.jobs else s.jobs ++ [s.gates.waits] }

/-- The auto-response that a message is answered with. -/
def autoAnswer : SocketFrame → Option HibernationAutoResponse
  | .message (.text value) => s.autoResponse.filter fun pair => value = pair.request
  | _ => none

def receive (frame : SocketFrame) : FrameQueue :=
  if !s.listed then s
  else
    let i := s.arrived.length
    let s' := { s with arrived := s.arrived ++ [frame.content s.heap] }
    match s.autoAnswer frame with
    | some pair => { s' with answered := s'.answered ++ [(i, pair)] }
    | none =>
      match frame with
      | .message data =>
        match cloneMessageData s.heap data with
        | .blob bytes => { s' with reading := s'.reading ++ [(i, bytes)] }
        | .payload payload => s'.schedule i (.message payload)
      | .error => s'.schedule i .error
      | .close event => s'.schedule i (.close event)

/-- The `arrayBuffer` of a Blob resolves. -/
def read (frame : Nat) : Option FrameQueue :=
  (s.reading.find? fun r => r.1 = frame).map fun r =>
    { s with reading := s.reading.filter fun r => r.1 ≠ frame }.schedule frame (.message (.bytes r.2))

def setPhase (w : Nat) (scheduled : ScheduledFrame) (phase : FramePhase) : FrameQueue :=
  { s with scheduled := Function.update s.scheduled w (some { scheduled with phase }) }

/-- `run` of a frame goes on from its call of `wait`. -/
def enter (w : Nat) (scheduled : ScheduledFrame) : Option FrameQueue :=
  match s.gates.wait w with
  | .resolved lock =>
    if s.aborted then
      some ((s.setPhase w scheduled .refused).moveGates (InputGates.release lock s.gates).2 |>.refuse scheduled.frame
        scheduled.call)
    else
      some { s.setPhase w scheduled .entered with
        dispatched := s.dispatched ++ [⟨scheduled.frame, scheduled.call, s.listed⟩] }
  | .rejected _ => some ((s.setPhase w scheduled .refused).refuse scheduled.frame scheduled.call)
  | _ => none

def nextJob : Option FrameQueue :=
  match s.jobs with
  | [] => none
  | w :: rest => (s.scheduled w).bind fun scheduled => { s with jobs := rest }.enter w scheduled

/-- The checkpoint of an entered frame ends: `settle`, and then the lock is released. -/
def checkpointEnd (w : Nat) : Option FrameQueue :=
  match s.scheduled w, s.gates.wait w with
  | some scheduled, .resolved lock =>
    if scheduled.phase = .entered then
      some ({ s.setPhase w scheduled .ended with
        listed := s.listed && !scheduled.call.isClose }.moveGates (InputGates.release lock s.gates).2)
    else none
  | _, _ => none

/-- What others do with the gate: they do not withdraw a frame's call of `wait` or release its lock,
    and sections succeed with their parent's lock. -/
def isForeign : InputGates.Event → Bool
  | .abort w => (s.scheduled w).isNone
  | .release lock =>
    (List.range s.gates.waits).all fun w =>
      !((s.scheduled w).any ScheduledFrame.isLive && s.gates.wait w == .resolved lock)
  | .succeeded c => s.gates.state c != .running || (s.gates.parentLock c).isSome
  | _ => true

end Registry

inductive Event
  | receive (frame : SocketFrame)
  | read (frame : Nat)
  | nextJob
  | checkpointEnd (w : Nat)
  | setWebSocketAutoResponse (pair : Option HibernationAutoResponse)
  | abort
  /-- Somebody writes to a buffer. -/
  | write (id : Nat) (bytes : Bytes)
  | gate (event : InputGates.Event)

def step (s : FrameQueue) : Event → Option FrameQueue
  | .receive frame => some (s.receive frame)
  | .read frame => s.read frame
  | .nextJob => s.nextJob
  | .checkpointEnd w => s.checkpointEnd w
  | .setWebSocketAutoResponse pair => some { s with autoResponse := pair }
  | .abort => some { s with aborted := true }
  | .write id bytes => some { s with heap := Function.update s.heap id bytes }
  | .gate event => if s.isForeign event then (InputGates.step s.gates event).map s.moveGates else none

/-- A socket that is accepted, of a context whose input gate is new. -/
def opened : FrameQueue where
  gates := .opened
  heap := fun _ => []
  autoResponse := none
  aborted := false
  listed := true
  arrived := []
  answered := []
  reading := []
  scheduled := fun _ => none
  jobs := []
  refused := []
  dispatched := []

end FrameQueue

end DoRuntime.WebSockets
