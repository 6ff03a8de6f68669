import DoRuntime.Io.OutputGate
import DoRuntime.WebSockets.HibernationMirror

namespace DoRuntime.WebSockets

open Io Js

inductive DeliveryMode
  | pending
  | classic
  | hibernatable
deriving DecidableEq

/-- What a link of `#pump` does to the raw socket. An auto-response is a send of it too. -/
inductive SocketWrite (Message : Type)
  | send (message : Message)
  | autoResponse (message : Message)
  | close (code : Option Int) (reason : JsString)

namespace SocketWrite

def isClose {Message : Type} : SocketWrite Message → Bool
  | close _ _ => true
  | _ => false

def isAutoResponse {Message : Type} : SocketWrite Message → Bool
  | autoResponse _ => true
  | _ => false

end SocketWrite

structure PumpLink (Message : Type) where
  write : SocketWrite Message
  /-- The `wait` that was begun at the call; an auto-response is given a resolved promise in its place. -/
  lock : Option Nat
  /-- The number of output locks that had been taken at the call. -/
  outstanding : Nat

structure CloseEvent where
  code : Int
  reason : JsString
  wasClean : Bool

/-- An `AcceptedWebSocket` of an `IoContext`, with the context's output gate. -/
structure GatedSocket (Message : Type) where
  gate : OutputGate
  aborted : Bool
  /-- The socket is a half of a `WebSocketPair`. -/
  pair : Bool
  released : Bool
  delivery : DeliveryMode
  /-- The closes that came before the socket was accepted. -/
  pending : List CloseEvent
  readyState : Nat
  ownClose : Bool
  peerClose : Bool
  /-- The links chained to `#pump`, those that ran included. -/
  pump : List (PumpLink Message)
  done : Nat
  /-- A link was rejected, and every link after it is. -/
  failed : Bool
  /-- The links whose write reached the raw socket, in that order. -/
  written : List Nat

namespace GatedSocket

def stateOpen : Nat := 1
def stateClosing : Nat := 2
def stateClosed : Nat := 3
def maxCloseReasonBytes : Nat := 123

def validateClose (code : Option Int) (reason : JsString) : Except JsError Unit := do
  match code with
  | some code =>
    if code < 1000 ∨ 5000 ≤ code ∨ code ∈ [1004, 1005, 1006, 1015] then
      throw ⟨"InvalidAccessError", js s!"Invalid WebSocket close code: {code}."⟩
  | none => pure ()
  if maxCloseReasonBytes < (encode reason).length then
    throw ⟨"SyntaxError",
      js s!"WebSocket close reason must not be longer than {maxCloseReasonBytes} bytes when UTF-8 encoded."⟩

section Operations

variable {Message : Type} (s : GatedSocket Message)

/-- `#enqueue` of a socket that has its context, which is one that is not released. -/
def enqueue (write : SocketWrite Message) : GatedSocket Message :=
  if write.isAutoResponse then { s with pump := s.pump ++ [⟨write, none, s.gate.locks⟩] }
  else
    { s with
      gate := s.gate.beginWait
      pump := s.pump ++ [⟨write, some s.gate.waits, s.gate.locks⟩] }

def send (message : Message) : GatedSocket Message × Except JsError Unit :=
  if s.released then (s, .ok ())
  else if s.delivery = .hibernatable ∧ s.ownClose then
    (s, .error (typeError "Can't call WebSocket send() after close()."))
  else if s.peerClose ∨ s.readyState = stateClosed then (s, .ok ())
  else (s.enqueue (.send message), .ok ())

def sendAutoResponse (message : Message) : GatedSocket Message :=
  if s.released ∨ stateClosing ≤ s.readyState then s else s.enqueue (.autoResponse message)

def startClose (code : Option Int) (reason : JsString) : GatedSocket Message :=
  { s with
    ownClose := true
    readyState := if s.peerClose then stateClosed else stateClosing }.enqueue (.close code reason)

def close (code : Option Int) (reason : JsString) : GatedSocket Message × Except JsError Unit :=
  if s.released then (s, .ok ())
  else if s.readyState = stateClosed ∨ s.ownClose then (s, .ok ())
  else if s.delivery = .hibernatable ∨ s.pair then
    match validateClose code reason with
    | .error failure => (s, .error failure)
    | .ok _ => (s.startClose code reason, .ok ())
  else (s.startClose code reason, .ok ())

def answerPeerClose (event : CloseEvent) : GatedSocket Message :=
  if !s.pair || s.ownClose then s
  else if !event.wasClean ∨ event.code ∈ [1005, 1006, 1015] then { s with readyState := stateClosed }
  else (s.close (some event.code) event.reason).1

def keepClose (event : CloseEvent) : GatedSocket Message :=
  if s.delivery = .pending then { s with pending := s.pending ++ [event] } else s

def receiveClose (event : CloseEvent) : GatedSocket Message :=
  if s.ownClose then { s with readyState := stateClosed }.keepClose event
  else
    let peer := { s with peerClose := true, readyState := stateClosing }
    (if s.delivery = .classic then peer.answerPeerClose event else peer).keepClose event

/-- `accept` of a socket that is still pending. -/
def accept : GatedSocket Message :=
  s.pending.foldl answerPeerClose { s with delivery := .classic, pending := [] }

def activateHibernation : GatedSocket Message := { s with delivery := .hibernatable, pending := [] }

/-- `coupleToHost` of a socket that is still pending. -/
def coupleToHost : GatedSocket Message :=
  { s with released := true, pending := [], readyState := stateClosed }

/-- `#dropWith`, which drops the connection below `#pump`. -/
def dropWith : GatedSocket Message :=
  if s.released ∨ s.delivery ≠ .classic ∨ s.readyState = stateClosed then s
  else { s with readyState := stateClosed, ownClose := true }

/-- The next link goes on, once its lock is settled. `throws` is what the raw socket does. -/
def resume (throws : Bool) : Option (GatedSocket Message) :=
  if s.failed then none
  else
    match s.pump[s.done]? with
    | none => none
    | some link =>
      match link.lock.elim .fulfilled s.gate.wait with
      | .pending => none
      | .rejected _ => some { s with failed := true }
      | .fulfilled =>
        if s.released || s.aborted then some { s with done := s.done + 1 }
        else some { s with done := s.done + 1, written := s.written ++ [s.done], failed := throws }

end Operations

inductive Event (Message : Type)
  | send (message : Message)
  | sendAutoResponse (message : Message)
  | close (code : Option Int) (reason : JsString)
  | receiveClose (event : CloseEvent)
  | accept
  | activateHibernation
  | coupleToHost
  | abort
  | dropWith
  | lockWhile
  /-- Another caller of the context waits for the output locks. -/
  | beginWait
  | settleLock (lock : Nat) (outcome : Settlement)
  | settleWait (wait : Nat)
  | resume (throws : Bool)

def step {Message : Type} (s : GatedSocket Message) : Event Message → Option (GatedSocket Message)
  | .send message => some (s.send message).1
  | .sendAutoResponse message => some (s.sendAutoResponse message)
  | .close code reason => some (s.close code reason).1
  | .receiveClose event => some (s.receiveClose event)
  | .accept => if s.released = false ∧ s.delivery = .pending then some s.accept else none
  | .activateHibernation => some s.activateHibernation
  | .coupleToHost => if s.released = false ∧ s.delivery = .pending then some s.coupleToHost else none
  | .abort => some { s with aborted := true }
  | .dropWith => if s.aborted then some s.dropWith else none
  | .lockWhile => some { s with gate := s.gate.lockWhile }
  | .beginWait => some { s with gate := s.gate.beginWait }
  | .settleLock lock outcome => some { s with gate := s.gate.settleLock lock outcome }
  | .settleWait wait => some { s with gate := s.gate.settleWait wait }
  | .resume throws => s.resume throws

/-- A new socket of a context whose output gate is new: a half of a pair, or one around a transport. -/
def opened (Message : Type) (pair : Bool) (delivery : DeliveryMode) : GatedSocket Message where
  gate := .opened
  aborted := false
  pair := pair
  released := false
  delivery := delivery
  pending := []
  readyState := stateOpen
  ownClose := false
  peerClose := false
  pump := []
  done := 0
  failed := false
  written := []

end GatedSocket

end DoRuntime.WebSockets
