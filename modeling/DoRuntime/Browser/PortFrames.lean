import DoRuntime.Browser.PortWebSocket

namespace DoRuntime.Browser.PortWebSocket

open Transition Js

variable {Data : Type}

def arrivals (log : List (Entry Data)) : List Data :=
  log.filterMap fun
    | .arrived data => some data
    | _ => none

/-- The frames that were dispatched. -/
def messages (log : List (Entry Data)) : List Data :=
  log.filterMap fun
    | .dispatched (.message data) => some data
    | _ => none

def Unclosed (log : List (Entry Data)) : Prop := ∀ code reason wasClean, .dispatched (.close code reason wasClean) ∉ log

/-- What may come behind what has happened before. -/
def Admits (before : List (Entry Data)) : Entry Data → Prop
  | .arrived _ => True
  | .closedLocally => True
  | .wireClose => .dispatched .open ∈ before → .closedLocally ∉ before → .wireClose ∉ before →
      messages before = arrivals before
  | .dispatched .open => ∀ event, .dispatched event ∉ before
  | .dispatched (.message _) => .dispatched .open ∈ before ∧ Unclosed before
  | .dispatched (.close ..) => Unclosed before
  | .heard event => .dispatched event ∈ before

def InOrder (log : List (Entry Data)) : Prop := ∀ before entry after, log = before ++ entry :: after → Admits before entry

def Frame.isUser : Frame Data → Bool
  | .opening => false
  | .flushing _ => false
  | _ => true

/-- The socket's own methods on the stack. -/
def special (stack : List (Frame Data)) : List (Frame Data) := stack.filter fun frame => !frame.isUser

inductive Stage (s : Socket Data) : Prop where
  | connecting (state : s.readyState = .connecting) (direct : s.queuedWireFlushPending = false)
      (frames : special s.stack = []) (flushes : s.microtasks.count .flush = 0)
      (queued : s.queuedWireMessages = (arrivals s.log).map .message) (silent : ∀ event, .dispatched event ∉ s.log)
  | opening (state : s.readyState = .open) (frames : special s.stack = [.opening])
      (flushes : s.microtasks.count .flush = 0) (queued : s.queuedWireMessages = (arrivals s.log).map .message)
      (opened : .dispatched .open ∈ s.log) (waits : messages s.log = []) (unclosed : Unclosed s.log)
  | waiting (state : s.readyState = .open) (frames : special s.stack = []) (flushes : s.microtasks.count .flush = 1)
      (queued : s.queuedWireMessages = (arrivals s.log).map .message) (opened : .dispatched .open ∈ s.log)
      (waits : messages s.log = []) (unclosed : Unclosed s.log)
  | flushing {rest : List Data} (state : s.readyState = .open) (frames : special s.stack = [.flushing (rest.map .message)])
      (flushes : s.microtasks.count .flush = 0) (queued : s.queuedWireMessages = [])
      (through : arrivals s.log = messages s.log ++ rest) (opened : .dispatched .open ∈ s.log) (unclosed : Unclosed s.log)
  | flowing (state : s.readyState = .open) (direct : s.queuedWireFlushPending = false) (frames : special s.stack = [])
      (flushes : s.microtasks.count .flush = 0) (queued : s.queuedWireMessages = [])
      (through : arrivals s.log = messages s.log) (opened : .dispatched .open ∈ s.log) (unclosed : Unclosed s.log)
  | closed (state : s.readyState = .closed) (cause : .closedLocally ∈ s.log ∨ .wireClose ∈ s.log)
      (through : messages s.log <+: arrivals s.log) (opened : .dispatched .open ∈ s.log ∨ messages s.log = [])

structure Sound (s : Socket Data) : Prop where
  stage : Stage s
  heard : ∀ event, .emit event ∈ s.stack ∨ .dispatchEvent event ∈ s.stack → .dispatched event ∈ s.log
  ordered : InOrder s.log

variable {s : Socket Data} {log : List (Entry Data)} {entry : Entry Data} {event : Event Data}

theorem arrivals_note (log : List (Entry Data)) (entry : Entry Data) :
    arrivals (log ++ [entry]) = arrivals log ++ arrivals [entry] := List.filterMap_append

theorem messages_note (log : List (Entry Data)) (entry : Entry Data) :
    messages (log ++ [entry]) = messages log ++ messages [entry] := List.filterMap_append

theorem arrivals_other (other : arrivals [entry] = []) : arrivals (log ++ [entry]) = arrivals log := by
  rw [arrivals_note, other, List.append_nil]

theorem messages_other (other : messages [entry] = []) : messages (log ++ [entry]) = messages log := by
  rw [messages_note, other, List.append_nil]

theorem special_append (top rest : List (Frame Data)) : special (top ++ rest) = special top ++ special rest :=
  List.filter_append ..

theorem special_user {frame : Frame Data} (user : frame.isUser = true) (rest : List (Frame Data)) :
    special (frame :: rest) = special rest := by
  unfold special
  rw [List.filter_cons_of_neg]
  rw [user]
  decide

theorem special_own {frame : Frame Data} (own : frame.isUser = false) (rest : List (Frame Data)) :
    special (frame :: rest) = frame :: special rest := by
  unfold special
  rw [List.filter_cons_of_pos]
  rw [own]
  rfl

theorem InOrder.note (ordered : InOrder log) (admitted : Admits log entry) : InOrder (log ++ [entry]) := by
  intro before x after split
  rcases List.eq_nil_or_concat after with rfl | ⟨front, last, rfl⟩
  · obtain ⟨rfl, same⟩ := List.append_inj' split rfl
    cases same
    exact admitted
  · rw [List.concat_eq_append] at split
    have split : log ++ [entry] = (before ++ x :: front) ++ [last] := by
      rw [split, List.append_assoc, List.cons_append]
    exact ordered before x front (List.append_inj' split rfl).1

theorem Unclosed.note (unclosed : Unclosed log) (other : ∀ code reason wasClean, entry ≠ .dispatched (.close code reason wasClean)) :
    Unclosed (log ++ [entry]) := by
  intro code reason wasClean member
  rcases List.mem_append.1 member with before | last
  · exact unclosed code reason wasClean before
  · exact other code reason wasClean (List.mem_singleton.1 last).symm

/-- A socket that is not closed has emitted no close. -/
theorem Stage.unclosed (stage : Stage s) (alive : s.readyState ≠ .closed) : Unclosed s.log := by
  cases stage with
  | connecting state direct frames flushes queued silent => exact fun code reason wasClean => silent _
  | opening state frames flushes queued opened waits unclosed => exact unclosed
  | waiting state frames flushes queued opened waits unclosed => exact unclosed
  | flushing state frames flushes queued through opened unclosed => exact unclosed
  | flowing state direct frames flushes queued through opened unclosed => exact unclosed
  | closed state cause through opened => exact absurd state alive

theorem messages_silent (silent : ∀ event, .dispatched event ∉ log) : messages log = [] := by
  unfold messages
  rw [List.filterMap_eq_nil_iff]
  intro x member
  split
  next data => exact absurd member (silent _)
  next => rfl

theorem Stage.through (stage : Stage s) : messages s.log <+: arrivals s.log := by
  cases stage with
  | connecting state direct frames flushes queued silent =>
    rw [messages_silent silent]
    exact List.nil_prefix
  | opening state frames flushes queued opened waits unclosed =>
    rw [waits]
    exact List.nil_prefix
  | waiting state frames flushes queued opened waits unclosed =>
    rw [waits]
    exact List.nil_prefix
  | flushing state frames flushes queued through opened unclosed =>
    rw [through]
    exact List.prefix_append ..
  | flowing state direct frames flushes queued through opened unclosed => rw [through]
  | closed state cause through opened => exact through

theorem Stage.opened (stage : Stage s) : .dispatched .open ∈ s.log ∨ messages s.log = [] := by
  cases stage with
  | connecting state direct frames flushes queued silent => exact .inr (messages_silent silent)
  | opening state frames flushes queued opened waits unclosed => exact .inl opened
  | waiting state frames flushes queued opened waits unclosed => exact .inl opened
  | flushing state frames flushes queued through opened unclosed => exact .inl opened
  | flowing state direct frames flushes queued through opened unclosed => exact .inl opened
  | closed state cause through opened => exact opened

/-- What the application does beside the socket's own calls shows in none of these. -/
theorem Stage.congr {t : Socket Data} (stage : Stage s) (state : t.readyState = s.readyState)
    (direct : t.queuedWireFlushPending = s.queuedWireFlushPending) (queue : t.queuedWireMessages = s.queuedWireMessages)
    (frames : special t.stack = special s.stack) (flushes : t.microtasks.count .flush = s.microtasks.count .flush)
    (log : t.log = s.log) : Stage t := by
  cases stage with
  | connecting isConnecting isDirect bare none queued silent =>
    apply Stage.connecting (state.trans isConnecting) (direct.trans isDirect) (frames.trans bare) (flushes.trans none)
    · rw [queue, log, queued]
    · rw [log]
      exact silent
  | opening isOpen inside none queued opened waits unclosed =>
    rw [← log] at queued opened waits unclosed
    exact .opening (state.trans isOpen) (frames.trans inside) (flushes.trans none) (queue.trans queued) opened waits unclosed
  | waiting isOpen bare one queued opened waits unclosed =>
    rw [← log] at queued opened waits unclosed
    exact .waiting (state.trans isOpen) (frames.trans bare) (flushes.trans one) (queue.trans queued) opened waits unclosed
  | flushing isOpen inside none queued through opened unclosed =>
    rw [← log] at through opened unclosed
    exact .flushing (state.trans isOpen) (frames.trans inside) (flushes.trans none) (queue.trans queued) through opened
      unclosed
  | flowing isOpen isDirect bare none queued through opened unclosed =>
    rw [← log] at through opened unclosed
    exact .flowing (state.trans isOpen) (direct.trans isDirect) (frames.trans bare) (flushes.trans none)
      (queue.trans queued) through opened unclosed
  | closed isClosed cause through opened =>
    rw [← log] at cause through opened
    exact .closed (state.trans isClosed) cause through opened

theorem Stage.restack {stack : List (Frame Data)} (stage : Stage s) (same : special stack = special s.stack) :
    Stage { s with stack } := stage.congr rfl rfl rfl same rfl rfl

theorem Stage.queueMicrotask {microtask : Microtask} (stage : Stage s) (other : microtask ≠ .flush) :
    Stage (s.queueMicrotask microtask) := by
  refine stage.congr rfl rfl rfl rfl ?_ rfl
  show (s.microtasks ++ [microtask]).count .flush = s.microtasks.count .flush
  rw [List.count_append, List.count_singleton, beq_eq_false_iff_ne.2 other]
  rfl

theorem Stage.hear (stage : Stage s) (event : Event Data) : Stage (s.note (.heard event)) := by
  have arrived : arrivals (s.log ++ [.heard event]) = arrivals s.log := arrivals_other rfl
  have sent : messages (s.log ++ [.heard event]) = messages s.log := messages_other rfl
  have grown {x : Entry Data} (member : x ∈ s.log) : x ∈ s.log ++ [.heard event] := List.mem_append_left _ member
  have still (unclosed : Unclosed s.log) : Unclosed (s.log ++ [.heard event]) :=
    unclosed.note fun code reason wasClean same => by cases same
  cases stage with
  | connecting state direct frames flushes queued silent =>
    refine .connecting state direct frames flushes (queued.trans (congrArg _ arrived.symm)) ?_
    intro other member
    rcases List.mem_append.1 member with before | last
    · exact silent other before
    · cases List.mem_singleton.1 last
  | opening state frames flushes queued opened waits unclosed =>
    exact .opening state frames flushes (queued.trans (congrArg _ arrived.symm)) (grown opened) (sent.trans waits)
      (still unclosed)
  | waiting state frames flushes queued opened waits unclosed =>
    exact .waiting state frames flushes (queued.trans (congrArg _ arrived.symm)) (grown opened) (sent.trans waits)
      (still unclosed)
  | flushing state frames flushes queued through opened unclosed =>
    refine .flushing state frames flushes queued ?_ (grown opened) (still unclosed)
    show arrivals (s.log ++ [.heard event]) = messages (s.log ++ [.heard event]) ++ _
    rw [arrived, sent, through]
  | flowing state direct frames flushes queued through opened unclosed =>
    refine .flowing state direct frames flushes queued ?_ (grown opened) (still unclosed)
    show arrivals (s.log ++ [.heard event]) = messages (s.log ++ [.heard event])
    rw [arrived, sent, through]
  | closed state cause through opened =>
    refine .closed state (cause.imp grown grown) ?_ (opened.imp grown sent.trans)
    show messages (s.log ++ [.heard event]) <+: arrivals (s.log ++ [.heard event])
    rw [arrived, sent]
    exact through

theorem finishClose_closed (closed : s.readyState = .closed) (code : ℚ) (reason : JsString) (wasClean : Bool) :
    s.finishClose code reason wasClean = s := if_pos closed

theorem heard_emit (heard : ∀ event, .emit event ∈ s.stack ∨ .dispatchEvent event ∈ s.stack → .dispatched event ∈ s.log)
    (event : Event Data) : ∀ other, .emit other ∈ (s.emit event).stack ∨ .dispatchEvent other ∈ (s.emit event).stack →
      .dispatched other ∈ (s.emit event).log := by
  intro other waits
  rcases waits with emitted | dispatching
  · rcases List.mem_cons.1 emitted with same | below
    · cases same
      exact List.mem_append_right _ (List.mem_singleton_self _)
    · exact List.mem_append_left _ (heard other (.inl below))
  · rcases List.mem_cons.1 dispatching with same | below
    · cases same
    · exact List.mem_append_left _ (heard other (.inr below))

/-- The one close event. -/
theorem sound_finish {code : ℚ} {reason : JsString} {wasClean : Bool} (alive : s.readyState ≠ .closed)
    (unclosed : Unclosed s.log) (cause : .closedLocally ∈ s.log ∨ .wireClose ∈ s.log)
    (through : messages s.log <+: arrivals s.log) (opened : .dispatched .open ∈ s.log ∨ messages s.log = [])
    (heard : ∀ event, .emit event ∈ s.stack ∨ .dispatchEvent event ∈ s.stack → .dispatched event ∈ s.log)
    (ordered : InOrder s.log) : Sound (s.finishClose code reason wasClean) := by
  have grown {x : Entry Data} (member : x ∈ s.log) : x ∈ s.log ++ [.dispatched (.close code reason wasClean)] :=
    List.mem_append_left _ member
  have arrived : arrivals (s.log ++ [.dispatched (.close code reason wasClean)]) = arrivals s.log := arrivals_other rfl
  have sent : messages (s.log ++ [.dispatched (.close code reason wasClean)]) = messages s.log := messages_other rfl
  unfold Socket.finishClose
  rw [if_neg alive]
  constructor
  · refine .closed rfl (cause.imp grown grown) ?_ (opened.imp grown sent.trans)
    show messages (s.log ++ [.dispatched (.close code reason wasClean)]) <+:
      arrivals (s.log ++ [.dispatched (.close code reason wasClean)])
    rw [arrived, sent]
    exact through
  · exact heard_emit heard _
  · exact ordered.note unclosed

theorem Sound.close (sound : Sound s) (code : ℚ) (reason : JsString) : Sound (s.close code reason) := by
  unfold Socket.close
  split
  · exact sound
  next live =>
    have alive : s.readyState ≠ .closed := fun closed => live (.inr closed)
    have grown {x : Entry Data} (member : x ∈ s.log) : x ∈ s.log ++ [.closedLocally] := List.mem_append_left _ member
    have arrived : arrivals (s.log ++ [.closedLocally]) = arrivals s.log := arrivals_other rfl
    have sent : messages (s.log ++ [.closedLocally]) = messages s.log := messages_other rfl
    apply sound_finish
    · intro same
      cases same
    · exact (sound.stage.unclosed alive).note fun code reason wasClean same => by cases same
    · exact .inl (List.mem_append_right _ (List.mem_singleton_self _))
    · show messages (s.log ++ [.closedLocally]) <+: arrivals (s.log ++ [.closedLocally])
      rw [arrived, sent]
      exact sound.stage.through
    · exact sound.stage.opened.imp grown sent.trans
    · intro event waits
      exact grown (sound.heard event waits)
    · exact sound.ordered.note trivial

theorem Sound.openSocket (sound : Sound s) : Sound s.openSocket := by
  unfold Socket.openSocket
  split
  · exact sound
  next fresh =>
    rw [not_not] at fresh
    obtain ⟨stage, heard, ordered⟩ := sound
    cases stage with
    | connecting state direct frames flushes queued silent =>
      have arrived : arrivals (s.log ++ [.dispatched .open]) = arrivals s.log := arrivals_other rfl
      have sent : messages (s.log ++ [.dispatched .open]) = [] := by
        rw [messages_note, messages_silent silent]
        rfl
      constructor
      · refine .opening rfl ?_ flushes (queued.trans (congrArg _ arrived.symm))
          (List.mem_append_right _ (List.mem_singleton_self _)) sent ?_
        · show special (.emit .open :: .opening :: s.stack) = [.opening]
          rw [special_user rfl, special_own rfl, frames]
        · exact Unclosed.note (fun code reason wasClean => silent _) fun code reason wasClean same => by cases same
      · apply heard_emit
        intro event waits
        rcases waits with emitted | dispatching
        · rcases List.mem_cons.1 emitted with same | below
          · cases same
          · exact heard event (.inl below)
        · rcases List.mem_cons.1 dispatching with same | below
          · cases same
          · exact heard event (.inr below)
      · exact ordered.note silent
    | opening state => rw [state] at fresh; cases fresh
    | waiting state => rw [state] at fresh; cases fresh
    | flushing state => rw [state] at fresh; cases fresh
    | flowing state => rw [state] at fresh; cases fresh
    | closed state => rw [state] at fresh; cases fresh

/-- A frame is emitted at once, where all before it have been. -/
theorem sound_message {data : Data} {rest : List Data} (state : s.readyState = .open)
    (frames : special s.stack = [] ∧ rest = [] ∧ s.queuedWireFlushPending = false ∨
      special s.stack = [.flushing (rest.map .message)]) (flushes : s.microtasks.count .flush = 0)
    (queued : s.queuedWireMessages = []) (through : arrivals s.log = messages s.log ++ data :: rest)
    (opened : .dispatched .open ∈ s.log) (unclosed : Unclosed s.log)
    (heard : ∀ event, .emit event ∈ s.stack ∨ .dispatchEvent event ∈ s.stack → .dispatched event ∈ s.log)
    (ordered : InOrder s.log) : Sound (s.dispatchWireMessage (.message data)) := by
  have live : ¬ s.readyState ≠ .open := not_not.2 state
  have arrived : arrivals (s.log ++ [.dispatched (.message data)]) = arrivals s.log := arrivals_other rfl
  have sent : messages (s.log ++ [.dispatched (.message data)]) = messages s.log ++ [data] := messages_note ..
  have still : Unclosed (s.log ++ [.dispatched (.message data)]) :=
    unclosed.note fun code reason wasClean same => by cases same
  have total : arrivals (s.log ++ [.dispatched (.message data)]) =
      messages (s.log ++ [.dispatched (.message data)]) ++ rest := by
    rw [arrived, sent, through, List.append_assoc]
    rfl
  unfold Socket.dispatchWireMessage
  dsimp only
  rw [if_neg live]
  constructor
  · have above : special (.emit (.message data) :: s.stack) = special s.stack := special_user rfl _
    rcases frames with ⟨bare, rfl, direct⟩ | loop
    · refine .flowing state direct (above.trans bare) flushes queued ?_ (List.mem_append_left _ opened) still
      exact total.trans (List.append_nil _)
    · exact .flushing state (above.trans loop) flushes queued total (List.mem_append_left _ opened) still
  · exact heard_emit heard _
  · exact ordered.note ⟨opened, unclosed⟩

/-- Between tasks the socket is connecting, closed, or all that arrived is dispatched. -/
theorem Stage.between (stage : Stage s) (idle : s.stack = []) (drained : s.microtasks = []) :
    (s.readyState = .connecting ∧ s.queuedWireMessages = (arrivals s.log).map .message ∧
      ∀ event, .dispatched event ∉ s.log) ∨
    (s.readyState = .open ∧ s.queuedWireFlushPending = false ∧ s.queuedWireMessages = [] ∧
      arrivals s.log = messages s.log ∧ .dispatched .open ∈ s.log ∧ Unclosed s.log) ∨
    (s.readyState = .closed ∧ (.closedLocally ∈ s.log ∨ .wireClose ∈ s.log)) := by
  cases stage with
  | connecting state direct frames flushes queued silent => exact .inl ⟨state, queued, silent⟩
  | opening state frames flushes queued opened waits unclosed =>
    rw [idle] at frames
    cases frames
  | waiting state frames flushes queued opened waits unclosed =>
    rw [drained] at flushes
    cases flushes
  | flushing state frames flushes queued through opened unclosed =>
    rw [idle] at frames
    cases frames
  | flowing state direct frames flushes queued through opened unclosed =>
    exact .inr (.inl ⟨state, direct, queued, through, opened, unclosed⟩)
  | closed state cause through opened => exact .inr (.inr ⟨state, cause⟩)

theorem heard_idle (idle : s.stack = []) (log : List (Entry Data)) : ∀ event,
    .emit event ∈ s.stack ∨ .dispatchEvent event ∈ s.stack → .dispatched event ∈ log := by
  intro event waits
  rw [idle] at waits
  rcases waits with none | none <;> cases none

theorem Sound.receiveMessage (sound : Sound s) (idle : s.stack = []) (drained : s.microtasks = []) (data : Data) :
    Sound (let s := s.note (.arrived data)
      if s.readyState = .connecting ∨ s.queuedWireFlushPending then
        { s with queuedWireMessages := s.queuedWireMessages ++ [.message data] }
      else s.dispatchWireMessage (.message data)) := by
  have arrived : arrivals (s.log ++ [.arrived data]) = arrivals s.log ++ [data] := arrivals_note ..
  have sent : messages (s.log ++ [.arrived data]) = messages s.log := messages_other rfl
  have grown {x : Entry Data} (member : x ∈ s.log) : x ∈ s.log ++ [.arrived data] := List.mem_append_left _ member
  have ordered : InOrder (s.log ++ [.arrived data]) := sound.ordered.note trivial
  have special : special s.stack = [] := by rw [idle]; rfl
  have flushes : s.microtasks.count .flush = 0 := by rw [drained]; rfl
  dsimp only
  rcases sound.stage.between idle drained with ⟨state, queued, silent⟩ | ⟨state, direct, queued, through, opened, unclosed⟩ |
    ⟨state, cause⟩
  · rw [if_pos (.inl state)]
    refine ⟨?_, heard_idle idle _, ordered⟩
    obtain ⟨stage, -, -⟩ := sound
    cases stage with
    | connecting state direct frames flushes queued silent =>
      refine .connecting state direct frames flushes ?_ ?_
      · show s.queuedWireMessages ++ [.message data] = (arrivals (s.log ++ [.arrived data])).map .message
        rw [queued, arrived, List.map_append]
        rfl
      · intro event member
        rcases List.mem_append.1 member with before | last
        · exact silent event before
        · cases List.mem_singleton.1 last
    | opening other => rw [other] at state; cases state
    | waiting other => rw [other] at state; cases state
    | flushing other => rw [other] at state; cases state
    | flowing other => rw [other] at state; cases state
    | closed other => rw [other] at state; cases state
  · have at_once : ¬ ((s.note (.arrived data)).readyState = .connecting ∨
        (s.note (.arrived data)).queuedWireFlushPending = true) := by
      show ¬ (s.readyState = .connecting ∨ s.queuedWireFlushPending = true)
      rw [state, direct]
      decide
    rw [if_neg at_once]
    refine @sound_message _ (s.note (.arrived data)) _ [] state (.inl ⟨special, rfl, direct⟩) flushes queued ?_
      (grown opened) ?_ (heard_idle idle _) ordered
    · show arrivals (s.log ++ [.arrived data]) = messages (s.log ++ [.arrived data]) ++ [data]
      rw [arrived, sent, through]
    · exact unclosed.note fun code reason wasClean same => by cases same
  · have closing : ∀ queue, Sound { s.note (.arrived data) with queuedWireMessages := queue } := by
      intro queue
      refine ⟨.closed state (cause.imp grown grown) ?_ (sound.stage.opened.imp grown sent.trans), heard_idle idle _, ordered⟩
      show messages (s.log ++ [.arrived data]) <+: arrivals (s.log ++ [.arrived data])
      rw [arrived, sent]
      exact sound.stage.through.trans (List.prefix_append ..)
    split
    · exact closing _
    · have ended : (s.note (.arrived data)).readyState ≠ .open := by
        show s.readyState ≠ .open
        rw [state]
        decide
      unfold Socket.dispatchWireMessage
      dsimp only
      rw [if_pos ended]
      exact closing (s.note (.arrived data)).queuedWireMessages

theorem Sound.receiveClose (sound : Sound s) (idle : s.stack = []) (drained : s.microtasks = []) (code : ℚ)
    (reason : JsString) : Sound ((s.note .wireClose).dispatchWireMessage (.close code reason)) := by
  have arrived : arrivals (s.log ++ [.wireClose]) = arrivals s.log := arrivals_other rfl
  have sent : messages (s.log ++ [.wireClose]) = messages s.log := messages_other rfl
  have grown {x : Entry Data} (member : x ∈ s.log) : x ∈ s.log ++ [.wireClose] := List.mem_append_left _ member
  have through : messages (s.log ++ [.wireClose]) <+: arrivals (s.log ++ [.wireClose]) := by
    rw [arrived, sent]
    exact sound.stage.through
  have opened : .dispatched .open ∈ s.log ++ [.wireClose] ∨ messages (s.log ++ [.wireClose]) = [] :=
    sound.stage.opened.imp grown sent.trans
  have cause : .closedLocally ∈ s.log ++ [.wireClose] ∨ .wireClose ∈ s.log ++ [.wireClose] :=
    .inr (List.mem_append_right _ (List.mem_singleton_self _))
  have ordered : InOrder (s.log ++ [.wireClose]) := by
    apply sound.ordered.note
    intro isOpen remote first
    rcases sound.stage.between idle drained with ⟨-, -, silent⟩ | ⟨-, -, -, through, -⟩ | ⟨-, cause⟩
    · exact absurd isOpen (silent _)
    · exact through.symm
    · rcases cause with here | there
      · exact absurd here remote
      · exact absurd there first
  by_cases closed : s.readyState = .closed
  · unfold Socket.dispatchWireMessage
    dsimp only
    rw [finishClose_closed (s := s.note .wireClose) closed]
    exact ⟨.closed closed cause through opened, heard_idle idle _, ordered⟩
  · exact sound_finish closed ((sound.stage.unclosed closed).note fun code reason wasClean same => by cases same) cause
      through opened (heard_idle idle _) ordered

theorem Sound.receive (sound : Sound s) (idle : s.stack = []) (drained : s.microtasks = []) (value : WireValue Data) :
    Sound (s.handleWireMessage value) := by
  unfold Socket.handleWireMessage
  split
  · exact sound.close _ _
  · exact sound.openSocket
  · exact sound.receiveClose idle drained _ _
  · exact sound.receiveMessage idle drained _

/-- A microtask other than the flush leaves the queue. -/
theorem Stage.dequeue {first : Microtask} {rest : List Microtask} (stage : Stage s)
    (waiting : s.microtasks = first :: rest) (other : first ≠ .flush) : Stage { s with microtasks := rest } := by
  refine stage.congr rfl rfl rfl rfl ?_ rfl
  rw [waiting, List.count_cons_of_ne other]

theorem Sound.beginFlush {rest : List Microtask} (sound : Sound s) (waiting : s.microtasks = .flush :: rest)
    (idle : s.stack = []) : Sound (Socket.runMicrotask { s with microtasks := rest } .flush) := by
  have count : s.microtasks.count .flush = rest.count .flush + 1 := by rw [waiting, List.count_cons_self]
  refine ⟨?_, ?_, sound.ordered⟩
  · obtain ⟨stage, -, -⟩ := sound
    cases stage with
    | connecting state direct frames flushes queued silent => omega
    | opening state frames flushes queued opened waits unclosed => omega
    | waiting state frames flushes queued opened waits unclosed =>
      refine @Stage.flushing _ _ (arrivals s.log) state ?_ (show rest.count .flush = 0 by omega) rfl ?_ opened unclosed
      · show special (.flushing s.queuedWireMessages :: s.stack) = _
        rw [special_own rfl, frames, queued]
      · show arrivals s.log = messages s.log ++ arrivals s.log
        rw [waits, List.nil_append]
    | flushing state frames flushes queued through opened unclosed => omega
    | flowing state direct frames flushes queued through opened unclosed => omega
    | closed state cause through opened => exact .closed state cause through opened
  · intro event waits
    rcases waits with emitted | dispatching
    · rcases List.mem_cons.1 emitted with same | below
      · cases same
      · exact sound.heard event (.inl below)
    · rcases List.mem_cons.1 dispatching with same | below
      · cases same
      · exact sound.heard event (.inr below)

/-- The frames below the top. -/
theorem heard_tail {frame : Frame Data} {rest : List (Frame Data)} (sound : Sound s) (top : s.stack = frame :: rest) :
    ∀ event, .emit event ∈ rest ∨ .dispatchEvent event ∈ rest → .dispatched event ∈ s.log := by
  intro event waits
  apply sound.heard event
  rw [top]
  exact waits.imp (List.mem_cons_of_mem _) (List.mem_cons_of_mem _)

/-- A frame of the application ends. -/
theorem Sound.pop {frame : Frame Data} {rest : List (Frame Data)} (sound : Sound s) (top : s.stack = frame :: rest)
    (user : frame.isUser = true) : Sound { s with stack := rest } := by
  have known := heard_tail sound top
  refine ⟨sound.stage.restack ?_, known, sound.ordered⟩
  rw [top, special_user user]

theorem Sound.pushCode (sound : Sound s) : Sound (s.push .code) := by
  refine ⟨sound.stage.restack (special_user rfl s.stack), ?_, sound.ordered⟩
  intro event waits
  rcases waits with emitted | dispatching
  · rcases List.mem_cons.1 emitted with same | below
    · cases same
    · exact sound.heard event (.inl below)
  · rcases List.mem_cons.1 dispatching with same | below
    · cases same
    · exact sound.heard event (.inr below)

theorem Sound.hear (sound : Sound s) (known : .dispatched event ∈ s.log) : Sound (s.note (.heard event)) :=
  ⟨sound.stage.hear event, fun other waits => List.mem_append_left _ (sound.heard other waits), sound.ordered.note known⟩

theorem Sound.queueMicrotask {microtask : Microtask} (sound : Sound s) (other : microtask ≠ .flush) :
    Sound (s.queueMicrotask microtask) :=
  ⟨sound.stage.queueMicrotask other, sound.heard, sound.ordered⟩

theorem Sound.send (sound : Sound s) (data : Data) : Sound (s.send data) := by
  unfold Socket.send
  split
  · exact sound
  · exact ⟨sound.stage.congr rfl rfl rfl rfl rfl rfl, sound.heard, sound.ordered⟩

/-- `#emit` goes over from the handler to the listeners. -/
theorem Sound.toListeners {rest : List (Frame Data)} (sound : Sound s) (top : s.stack = .emit event :: rest)
    (handlers : List (Frame Data)) (user : special handlers = []) (plain : ∀ other, .emit other ∉ handlers ∧ .dispatchEvent other ∉ handlers) :
    Sound { s with stack := handlers ++ .dispatchEvent event :: rest } := by
  refine ⟨sound.stage.restack ?_, ?_, sound.ordered⟩
  · rw [top, special_user rfl, special_append, user, special_user rfl]
    exact List.nil_append _
  · intro other waits
    have known := heard_tail sound top
    rcases waits with emitted | dispatching
    · rcases List.mem_append.1 emitted with here | below
      · exact absurd here (plain other).1
      · rcases List.mem_cons.1 below with same | below
        · cases same
        · exact known other (.inl below)
    · rcases List.mem_append.1 dispatching with here | below
      · exact absurd here (plain other).2
      · rcases List.mem_cons.1 below with same | below
        · cases same
          exact sound.heard event (.inl (by rw [top]; exact List.mem_cons_self ..))
        · exact known other (.inr below)

theorem Sound.goOn {rest : List (Frame Data)} (sound : Sound s) (top : s.stack = .opening :: rest) :
    Sound (Socket.opened { s with stack := rest }) := by
  have known := heard_tail sound top
  refine ⟨?_, known, sound.ordered⟩
  have first : special s.stack = .opening :: special rest := by rw [top, special_own rfl]
  obtain ⟨stage, -, -⟩ := sound
  cases stage with
  | connecting state direct frames flushes queued silent => rw [first] at frames; cases frames
  | opening state frames flushes queued opened waits unclosed =>
    rw [first, List.cons.injEq] at frames
    refine .waiting state frames.2 ?_ queued opened waits unclosed
    show (s.microtasks ++ [Microtask.flush]).count .flush = 1
    rw [List.count_append, flushes]
    rfl
  | waiting state frames flushes queued opened waits unclosed => rw [first] at frames; cases frames
  | flushing state frames flushes queued through opened unclosed => rw [first] at frames; cases frames
  | flowing state direct frames flushes queued through opened unclosed => rw [first] at frames; cases frames
  | closed state cause through opened => exact .closed state cause through opened

/-- The flush is over: nothing is left, or the socket is closed. -/
theorem Sound.endFlush {rest : List (Frame Data)} {left : List (WireMessage Data)} (sound : Sound s)
    (top : s.stack = .flushing left :: rest) (done : left = [] ∨ s.readyState ≠ .open) :
    Sound { s with stack := rest, queuedWireFlushPending := false } := by
  have known := heard_tail sound top
  refine ⟨?_, known, sound.ordered⟩
  have first : special s.stack = .flushing left :: special rest := by rw [top, special_own rfl]
  obtain ⟨stage, -, -⟩ := sound
  cases stage with
  | connecting state direct frames flushes queued silent => rw [first] at frames; cases frames
  | opening state frames flushes queued opened waits unclosed => rw [first] at frames; cases frames
  | waiting state frames flushes queued opened waits unclosed => rw [first] at frames; cases frames
  | flushing state frames flushes queued through opened unclosed =>
    rcases done with rfl | shut
    · rw [first, List.cons.injEq, Frame.flushing.injEq] at frames
      rw [List.map_eq_nil_iff.1 frames.1.symm, List.append_nil] at through
      exact .flowing state rfl frames.2 flushes queued through opened unclosed
    · exact absurd state shut
  | flowing state direct frames flushes queued through opened unclosed => rw [first] at frames; cases frames
  | closed state cause through opened => exact .closed state cause through opened

theorem Sound.flushNext {rest : List (Frame Data)} {message : WireMessage Data} {later : List (WireMessage Data)}
    (sound : Sound s) (top : s.stack = .flushing (message :: later) :: rest) (live : s.readyState = .open) :
    Sound (Socket.dispatchWireMessage { s with stack := .flushing later :: rest } message) := by
  have known := heard_tail sound top
  have first : special s.stack = .flushing (message :: later) :: special rest := by rw [top, special_own rfl]
  have below : ∀ event, .emit event ∈ (.flushing later :: rest) ∨ .dispatchEvent event ∈ (.flushing later :: rest) →
      .dispatched event ∈ s.log := by
    intro event waits
    apply known event
    rcases waits with emitted | dispatching
    · rcases List.mem_cons.1 emitted with same | below
      · cases same
      · exact .inl below
    · rcases List.mem_cons.1 dispatching with same | below
      · cases same
      · exact .inr below
  obtain ⟨stage, -, ordered⟩ := sound
  cases stage with
  | connecting state direct frames flushes queued silent => rw [first] at frames; cases frames
  | opening state frames flushes queued opened waits unclosed => rw [first] at frames; cases frames
  | waiting state frames flushes queued opened waits unclosed => rw [first] at frames; cases frames
  | @flushing left state frames flushes queued through opened unclosed =>
    rw [first, List.cons.injEq, Frame.flushing.injEq] at frames
    obtain ⟨same, bare⟩ := frames
    obtain ⟨data, others, rfl, rfl, rfl⟩ := List.map_eq_cons_iff.1 same.symm
    refine sound_message (s := { s with stack := .flushing (others.map .message) :: rest }) live (.inr ?_) flushes queued
      through opened unclosed below ordered
    show special (.flushing (others.map .message) :: rest) = _
    rw [special_own rfl, bare]
  | flowing state direct frames flushes queued through opened unclosed => rw [first] at frames; cases frames
  | closed state cause through opened => rw [state] at live; cases live

theorem Sound.runMicrotask {first : Microtask} {rest : List Microtask} (sound : Sound s)
    (waiting : s.microtasks = first :: rest) (idle : s.stack = []) :
    Sound (Socket.runMicrotask { s with microtasks := rest } first) := by
  have left (other : first ≠ .flush) : Sound { s with microtasks := rest } :=
    ⟨sound.stage.dequeue waiting other, sound.heard, sound.ordered⟩
  cases first with
  | autoOpen => exact (left (by decide)).openSocket
  | flush => exact sound.beginFlush waiting idle
  | user => exact (left (by decide)).pushCode
  | report => exact left (by decide)

theorem step_sound {t : Socket Data} (action : Action Data) (sound : Sound s) (stepped : step s action = some t) :
    Sound t := by
  cases action with
  | receive value =>
    obtain ⟨⟨idle, drained⟩, same⟩ := Option.ite_none_right_eq_some.1 stepped
    cases same
    exact sound.receive idle drained value
  | script =>
    obtain ⟨-, same⟩ := Option.ite_none_right_eq_some.1 stepped
    cases same
    exact sound.pushCode
  | microtask =>
    simp only [step] at stepped
    split at stepped
    next first rest idle waiting =>
      cases stepped
      exact sound.runMicrotask waiting idle
    · cases stepped
  | callOpen =>
    obtain ⟨-, same⟩ := Option.ite_none_right_eq_some.1 stepped
    cases same
    exact sound.openSocket
  | callAccept =>
    obtain ⟨-, same⟩ := Option.ite_none_right_eq_some.1 stepped
    cases same
    exact sound.openSocket
  | callClose code reason =>
    obtain ⟨-, same⟩ := Option.ite_none_right_eq_some.1 stepped
    cases same
    exact sound.close code reason
  | callSend data =>
    obtain ⟨-, same⟩ := Option.ite_none_right_eq_some.1 stepped
    cases same
    exact sound.send data
  | callQueueMicrotask =>
    obtain ⟨-, same⟩ := Option.ite_none_right_eq_some.1 stepped
    cases same
    exact sound.queueMicrotask (by decide)
  | «return» =>
    obtain ⟨runs, same⟩ := Option.ite_none_right_eq_some.1 stepped
    cases same
    unfold running at runs
    split at runs
    next rest top =>
      rw [top]
      exact sound.pop top rfl
    next rest top =>
      rw [top]
      exact sound.pop top rfl
    · cases runs
  | throw =>
    simp only [step] at stepped
    split at stepped
    next rest top =>
      cases stepped
      exact sound.pop top rfl
    next rest top =>
      cases stepped
      exact (sound.pop top rfl).queueMicrotask (by decide)
    · cases stepped
  | handler =>
    simp only [step] at stepped
    split at stepped
    next event rest top =>
      cases stepped
      apply Sound.hear
      · exact sound.toListeners top [.handler] rfl fun other => ⟨by simp, by simp⟩
      · exact sound.heard event (.inl (by rw [top]; exact List.mem_cons_self ..))
    · cases stepped
  | noHandler =>
    simp only [step] at stepped
    split at stepped
    next event rest top =>
      cases stepped
      exact sound.toListeners top [] rfl fun other => ⟨by simp, by simp⟩
    · cases stepped
  | listener =>
    simp only [step] at stepped
    split at stepped
    next event rest top =>
      cases stepped
      apply sound.pushCode.hear
      exact sound.heard event (.inr (by rw [top]; exact List.mem_cons_self ..))
    · cases stepped
  | noListener =>
    simp only [step] at stepped
    split at stepped
    next event rest top =>
      cases stepped
      exact sound.pop top rfl
    · cases stepped
  | proceed =>
    simp only [step] at stepped
    split at stepped
    next rest top =>
      cases stepped
      exact sound.goOn top
    next rest top =>
      cases stepped
      exact sound.endFlush top (.inl rfl)
    next message later rest top =>
      split at stepped
      next shut =>
        cases stepped
        exact sound.endFlush top (.inr shut)
      next live =>
        cases stepped
        exact sound.flushNext top (not_not.1 live)
    · cases stepped

theorem create_sound (autoOpen : Bool) : Sound (Socket.create autoOpen : Socket Data) := by
  refine ⟨.connecting rfl rfl rfl ?_ rfl ?_, heard_idle rfl _, ?_⟩
  · cases autoOpen <;> rfl
  · intro event none
    cases none
  · intro before entry after split
    exact absurd split.symm (List.append_ne_nil_of_right_ne_nil _ (List.cons_ne_nil _ _))

def Reachable (s : Socket Data) : Prop :=
  ∃ autoOpen, Reaches step (fun _ _ => True) (Socket.create autoOpen) s

theorem Reachable.sound (reachable : Reachable s) : Sound s := by
  obtain ⟨autoOpen, reached⟩ := reachable
  exact reached.invariant (create_sound autoOpen) fun _ action _ sound _ stepped => step_sound action sound stepped

theorem mem_of_messages {data : Data} (sent : data ∈ messages log) : .dispatched (.message data) ∈ log := by
  obtain ⟨entry, member, given⟩ := List.mem_filterMap.1 sent
  split at given
  next => cases given; exact member
  next => cases given

/-- Nothing is emitted behind the close event. -/
theorem InOrder.nothing_behind (ordered : InOrder log) {before after : List (Entry Data)} {code : ℚ} {reason : JsString}
    {wasClean : Bool} (split : log = before ++ .dispatched (.close code reason wasClean) :: after) (event : Event Data) :
    .dispatched event ∉ after := by
  intro member
  obtain ⟨front, back, rfl⟩ := List.append_of_mem member
  have earlier : .dispatched (.close code reason wasClean) ∈
      before ++ .dispatched (.close code reason wasClean) :: front :=
    List.mem_append_right _ (List.mem_cons_self ..)
  have admitted := ordered (before ++ .dispatched (.close code reason wasClean) :: front) (.dispatched event) back
    (by rw [split, List.append_assoc, List.cons_append])
  cases event with
  | «open» => exact admitted _ earlier
  | message data => exact admitted.2 code reason wasClean earlier
  | close otherCode otherReason otherClean => exact admitted code reason wasClean earlier

/-- Whatever the tasks, microtasks and handlers do: the frames are emitted in the order in which they arrive, behind
the `open` event; none that arrived before the port's close is missing, unless the application closed the socket or
never opened it, when none is emitted; and behind the one close event nothing is emitted, and only an event that was
being dispatched is still heard. -/
theorem frames_reach_opened_socket {s : Socket Data} (reachable : Reachable s) :
    messages s.log <+: arrivals s.log ∧
    (∀ before after, s.log = before ++ .wireClose :: after → .dispatched .open ∈ before → .closedLocally ∉ before →
      .wireClose ∉ before → messages before = arrivals before) ∧
    (s.stack = [] → s.microtasks = [] → s.readyState = .open → messages s.log = arrivals s.log) ∧
    (∀ before data after, s.log = before ++ .dispatched (.message data) :: after → .dispatched .open ∈ before) ∧
    (∀ before code reason wasClean after, s.log = before ++ .dispatched (.close code reason wasClean) :: after →
      (.dispatched .open ∉ before → messages s.log = []) ∧
      ∀ event, .dispatched event ∉ after ∧
        (.heard event ∈ after → event = .close code reason wasClean ∨ .dispatched event ∈ before)) := by
  obtain ⟨stage, heard, ordered⟩ := reachable.sound
  refine ⟨stage.through, ?_, ?_, ?_, ?_⟩
  · intro before after split
    exact ordered before _ after split
  · intro idle drained isOpen
    rcases stage.between idle drained with ⟨state, -⟩ | ⟨-, -, -, through, -⟩ | ⟨state, -⟩
    · rw [state] at isOpen
      cases isOpen
    · exact through.symm
    · rw [state] at isOpen
      cases isOpen
  · intro before data after split
    exact (ordered before _ after split).1
  · intro before code reason wasClean after split
    have silent := ordered.nothing_behind split
    refine ⟨?_, ?_⟩
    · intro unopened
      cases sent : messages s.log with
      | nil => rfl
      | cons data rest =>
        have member : .dispatched (.message data) ∈ s.log := mem_of_messages (by rw [sent]; exact List.mem_cons_self ..)
        rw [split] at member
        rcases List.mem_append.1 member with here | there
        · obtain ⟨front, back, same⟩ := List.append_of_mem here
          have first := (ordered front (.dispatched (.message data))
            (back ++ .dispatched (.close code reason wasClean) :: after)
            (by rw [split, same, List.append_assoc, List.cons_append])).1
          exact absurd (by rw [same]; exact List.mem_append_left _ first) unopened
        · rcases List.mem_cons.1 there with same | behind
          · cases same
          · exact absurd behind (silent _)
    · intro event
      refine ⟨silent event, ?_⟩
      intro late
      obtain ⟨front, back, rfl⟩ := List.append_of_mem late
      have known : .dispatched event ∈ before ++ .dispatched (.close code reason wasClean) :: front :=
        ordered (before ++ .dispatched (.close code reason wasClean) :: front) (.heard event) back
          (by rw [split, List.append_assoc, List.cons_append])
      rcases List.mem_append.1 known with here | there
      · exact .inr here
      · rcases List.mem_cons.1 there with same | behind
        · cases same
          exact .inl rfl
        · exact absurd (List.mem_append_left _ behind) (silent event)

def frame (data : Nat) : WireValue Nat := .record (some (js "message")) (some data) none none

def opening : WireValue Nat := .record (some (js "open")) none none none

def goodbye : WireValue Nat := .record (some (js "close")) none (some 1000) (some [])

/-- Two frames before the peer opens the socket, a handler that throws at the first, one frame after, and the peer's
close. -/
def served : Option (Socket Nat) := run step (Socket.create false)
  [.receive (frame 1), .receive (frame 2), .receive opening, .noHandler, .noListener, .proceed, .microtask, .proceed,
    .handler, .throw, .listener, .return, .noListener, .proceed, .noHandler, .noListener, .proceed, .microtask,
    .receive (frame 3), .noHandler, .noListener, .receive goodbye, .noHandler, .noListener]

theorem frames_reach_opened_socket_served : ∃ s, served = some s ∧ messages s.log <+: arrivals s.log ∧
    messages (s.log.take 9) = arrivals (s.log.take 9) := by
  obtain ⟨s, ran⟩ : ∃ s, served = some s := Option.isSome_iff_exists.1 (by decide)
  have log : served.map (·.log) = some [.arrived 1, .arrived 2, .dispatched .open, .dispatched (.message 1),
      .heard (.message 1), .heard (.message 1), .dispatched (.message 2), .arrived 3, .dispatched (.message 3),
      .wireClose, .dispatched (.close 1000 [] true)] := by decide
  rw [ran, Option.map_some, Option.some.injEq] at log
  obtain ⟨inOrder, complete, -⟩ := frames_reach_opened_socket ⟨false, run_reaches _ ran⟩
  refine ⟨s, ran, inOrder, ?_⟩
  rw [log]
  exact complete _ [.dispatched (.close 1000 [] true)] log (by decide) (by decide) (by decide)

/-- A handler closes the socket at a frame: the listener hears the close event, and then the frame. -/
theorem frame_heard_after_close : ∃ s, Reachable s ∧ ∃ before after : List (Entry Nat),
    s.log = before ++ .heard (.close 1000 [] true) :: after ∧ .heard (.message 1) ∈ after := by
  obtain ⟨s, ran⟩ : ∃ s, run step (Socket.create false)
      [.receive opening, .noHandler, .noListener, .proceed, .microtask, .proceed, .receive (frame 1), .handler,
        .callClose 1000 [], .noHandler, .listener, .return, .noListener, .return, .listener] = some s :=
    Option.isSome_iff_exists.1 (by decide)
  have log : (run step (Socket.create false)
      [.receive opening, .noHandler, .noListener, .proceed, .microtask, .proceed, .receive (frame 1), .handler,
        .callClose 1000 [], .noHandler, .listener, .return, .noListener, .return, .listener]).map (·.log) =
      some [.dispatched .open, .arrived 1, .dispatched (.message 1), .heard (.message 1), .closedLocally,
        .dispatched (.close 1000 [] true), .heard (.close 1000 [] true), .heard (.message 1)] := by decide
  rw [ran, Option.map_some, Option.some.injEq] at log
  refine ⟨s, ⟨false, run_reaches _ ran⟩, [.dispatched .open, .arrived 1, .dispatched (.message 1), .heard (.message 1),
    .closedLocally, .dispatched (.close 1000 [] true)], [.heard (.message 1)], log, List.mem_singleton_self _⟩

end DoRuntime.Browser.PortWebSocket
