import DoRuntime.Lib.Transition
import DoRuntime.Js.Utf8

namespace DoRuntime.Browser.PortWebSocket

open Js

inductive ReadyState where
  | connecting
  | open
  | closing
  | closed
deriving DecidableEq

/-- What may come over the port, as far as `parseWireMessage` looks at it: `data` where it is socket data, `code`
where it is a finite number, `reason` and `type` where they are strings. -/
inductive WireValue (Data : Type) where
  | notRecord
  | record (type : Option JsString) (data : Option Data) (code : Option ℚ) (reason : Option JsString)

inductive WireMessage (Data : Type) where
  | message (data : Data)
  | close (code : ℚ) (reason : JsString)
deriving DecidableEq

inductive Parsed (Data : Type) where
  | open
  | wire (message : WireMessage Data)

inductive Event (Data : Type) where
  | open
  | message (data : Data)
  | close (code : ℚ) (reason : JsString) (wasClean : Bool)
deriving DecidableEq

inductive Microtask where
  | autoOpen
  | flush
  /-- One that the application queued. -/
  | user
  /-- The error of a throwing handler, thrown again. -/
  | report
deriving DecidableEq

/-- What is on the stack of calls: the application's own code, a handler inside the `try` of `#emit`, and the
socket's methods where they wait for one of these. -/
inductive Frame (Data : Type) where
  | code
  | handler
  | emit (event : Event Data)
  | dispatchEvent (event : Event Data)
  | opening
  | flushing (rest : List (WireMessage Data))
deriving DecidableEq

/-- What happens, in order: a frame arrives, the port's close does, the application closes the socket, an event is
emitted, and a handler or listener is called with one. -/
inductive Entry (Data : Type) where
  | arrived (data : Data)
  | wireClose
  | closedLocally
  | dispatched (event : Event Data)
  | heard (event : Event Data)
deriving DecidableEq

structure Socket (Data : Type) where
  readyState : ReadyState
  queuedWireMessages : List (WireMessage Data)
  queuedWireFlushPending : Bool
  portClosed : Bool
  posted : List (WireMessage Data)
  microtasks : List Microtask
  stack : List (Frame Data)
  log : List (Entry Data)
deriving DecidableEq

section Model

variable {Data : Type}

def parseWireMessage : WireValue Data → Option (Parsed Data)
  | .notRecord => none
  | .record type data code reason =>
    if type = some (js "open") then some .open
    else if type = some (js "message") ∧ data.isSome then data.map fun data => .wire (.message data)
    else if type = some (js "close") then
      match code, reason with
      | some code, some reason =>
        if code.isInt ∧ 0 ≤ code ∧ code ≤ 0xffff then some (.wire (.close code reason)) else none
      | _, _ => none
    else none

def isCleanWireClose (code : ℚ) (reason : JsString) : Bool :=
  1000 ≤ code && code < 5000 && !([1004, 1005, 1006, 1015] : List ℚ).contains code && (encode reason).length ≤ 123

namespace Socket

variable (s : Socket Data)

/-- `new MessagePortWebSocket(url, port, autoOpen)` -/
def create (autoOpen : Bool) : Socket Data where
  readyState := .connecting
  queuedWireMessages := []
  queuedWireFlushPending := false
  portClosed := false
  posted := []
  microtasks := if autoOpen then [.autoOpen] else []
  stack := []
  log := []

def note (entry : Entry Data) : Socket Data := { s with log := s.log ++ [entry] }

def push (frame : Frame Data) : Socket Data := { s with stack := frame :: s.stack }

def queueMicrotask (microtask : Microtask) : Socket Data := { s with microtasks := s.microtasks ++ [microtask] }

/-- `#emit` -/
def emit (event : Event Data) : Socket Data := (s.note (.dispatched event)).push (.emit event)

/-- `#finishClose` -/
def finishClose (code : ℚ) (reason : JsString) (wasClean : Bool) : Socket Data :=
  if s.readyState = .closed then s
  else
    let ended : Socket Data := { s with readyState := .closed, queuedWireMessages := [], queuedWireFlushPending := false }
    emit { ended with portClosed := true } (.close code reason wasClean)

def close (code : ℚ) (reason : JsString) : Socket Data :=
  if s.readyState = .closing ∨ s.readyState = .closed then s
  else
    let begun : Socket Data := note { s with readyState := .closing } .closedLocally
    finishClose { begun with posted := begun.posted ++ [.close code reason] } code reason true

/-- It throws, and changes nothing, where the socket is not open. -/
def send (data : Data) : Socket Data :=
  if s.readyState ≠ .open then s else { s with posted := s.posted ++ [.message data] }

/-- `open()`, which goes on behind the `open` event. -/
def openSocket : Socket Data :=
  if s.readyState ≠ .connecting then s
  else ({ s with readyState := .open }.push .opening).emit .open

def opened : Socket Data := { s with queuedWireFlushPending := true }.queueMicrotask .flush

/-- `#dispatchWireMessage` -/
def dispatchWireMessage : WireMessage Data → Socket Data
  | .close code reason => s.finishClose code reason (isCleanWireClose code reason)
  | .message data => if s.readyState ≠ .open then s else s.emit (.message data)

/-- `#handleWireMessage` -/
def handleWireMessage (value : WireValue Data) : Socket Data :=
  match parseWireMessage value with
  | none => s.close 1002 (js "Invalid MessagePort WebSocket message")
  | some .open => s.openSocket
  | some (.wire (.close code reason)) => (s.note .wireClose).dispatchWireMessage (.close code reason)
  | some (.wire (.message data)) =>
    let s := s.note (.arrived data)
    if s.readyState = .connecting ∨ s.queuedWireFlushPending then
      { s with queuedWireMessages := s.queuedWireMessages ++ [.message data] }
    else s.dispatchWireMessage (.message data)

def runMicrotask : Microtask → Socket Data
  | .autoOpen => s.openSocket
  | .flush => { s with queuedWireMessages := [] }.push (.flushing s.queuedWireMessages)
  | .user => s.push .code
  | .report => s

end Socket

inductive Action (Data : Type) where
  /-- A task: something arrives over the port. -/
  | receive (value : WireValue Data)
  /-- A task of the application. -/
  | script
  | microtask
  /-- Running code calls the socket. -/
  | callOpen
  | callAccept
  | callClose (code : ℚ) (reason : JsString)
  | callSend (data : Data)
  | callQueueMicrotask
  | return
  | throw
  /-- `#emit` calls the `on` handler, or finds none. -/
  | handler
  | noHandler
  /-- `dispatchEvent` calls a listener, or has called them all. -/
  | listener
  | noListener
  /-- `open()` or the flush goes on. -/
  | proceed

/-- The code that runs, if any does. -/
def running : List (Frame Data) → Bool
  | .code :: _ => true
  | .handler :: _ => true
  | _ => false

def step (s : Socket Data) : Action Data → Option (Socket Data)
  | .receive value => if s.stack = [] ∧ s.microtasks = [] then some (s.handleWireMessage value) else none
  | .script => if s.stack = [] ∧ s.microtasks = [] then some (s.push .code) else none
  | .microtask =>
    match s.stack, s.microtasks with
    | [], first :: rest => some ({ s with microtasks := rest }.runMicrotask first)
    | _, _ => none
  | .callOpen => if running s.stack then some s.openSocket else none
  | .callAccept => if running s.stack then some s.openSocket else none
  | .callClose code reason => if running s.stack then some (s.close code reason) else none
  | .callSend data => if running s.stack then some (s.send data) else none
  | .callQueueMicrotask => if running s.stack then some (s.queueMicrotask .user) else none
  | .return => if running s.stack then some { s with stack := s.stack.tail } else none
  | .throw =>
    match s.stack with
    | .code :: rest => some { s with stack := rest }
    | .handler :: rest => some ({ s with stack := rest }.queueMicrotask .report)
    | _ => none
  | .handler =>
    match s.stack with
    | .emit event :: rest => some ({ s with stack := .handler :: .dispatchEvent event :: rest }.note (.heard event))
    | _ => none
  | .noHandler =>
    match s.stack with
    | .emit event :: rest => some { s with stack := .dispatchEvent event :: rest }
    | _ => none
  | .listener =>
    match s.stack with
    | .dispatchEvent event :: _ => some ((s.push .code).note (.heard event))
    | _ => none
  | .noListener =>
    match s.stack with
    | .dispatchEvent _ :: rest => some { s with stack := rest }
    | _ => none
  | .proceed =>
    match s.stack with
    | .opening :: rest => some { s with stack := rest }.opened
    | .flushing [] :: rest => some { s with stack := rest, queuedWireFlushPending := false }
    | .flushing (message :: later) :: rest =>
      if s.readyState ≠ .open then some { s with stack := rest, queuedWireFlushPending := false }
      else some ({ s with stack := .flushing later :: rest }.dispatchWireMessage message)
    | _ => none

end Model

end DoRuntime.Browser.PortWebSocket
