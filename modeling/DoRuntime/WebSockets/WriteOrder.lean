import DoRuntime.WebSockets.GatedWrites

namespace DoRuntime.WebSockets.GatedSocket

open Io Js

section Pump

variable {Message : Type} {s : GatedSocket Message}

/-- What every state keeps of the pump, as long as nothing is sent after the socket's own close. -/
structure Pumped (s : GatedSocket Message) : Prop where
  confirming : s.gate.Confirming
  lock : ∀ link ∈ s.pump, (link.lock = none ↔ link.write.isAutoResponse = true) ∧
    ∀ w, link.lock = some w → w < s.gate.waits ∧ s.gate.bound w = link.outstanding
  known : ∀ link ∈ s.pump, link.outstanding ≤ s.gate.locks
  ran : s.done ≤ s.pump.length
  order : s.written.Pairwise (· < ·)
  below : ∀ i ∈ s.written, i < s.done
  confirmed : ∀ i ∈ s.written, ∀ link, s.pump[i]? = some link → link.write.isAutoResponse = false →
    ∀ l, l < link.outstanding → s.gate.lock l = .fulfilled
  closing : ∀ i link, s.pump[i]? = some link → link.write.isClose = true →
    s.ownClose = true ∧ i + 1 = s.pump.length
  closed : s.ownClose = true → stateClosing ≤ s.readyState

/-- How a gate may go on: it keeps the bounds of its waits and the locks that were released. -/
structure GoesOn (before after : OutputGate) : Prop where
  confirming : before.Confirming → after.Confirming
  waits : before.waits ≤ after.waits
  locks : before.locks ≤ after.locks
  bound : ∀ w, w < before.waits → after.bound w = before.bound w
  released : ∀ l, l < before.locks → before.lock l = .fulfilled → after.lock l = .fulfilled

theorem GoesOn.lockWhile (g : OutputGate) : GoesOn g g.lockWhile where
  confirming confirming := confirming.lockWhile
  waits := le_rfl
  locks := Nat.le_succ _
  bound _ _ := rfl
  released _ below fulfilled := (Function.update_of_ne (Nat.ne_of_lt below) ..).trans fulfilled

theorem GoesOn.beginWait (g : OutputGate) : GoesOn g g.beginWait where
  confirming confirming := confirming.beginWait
  waits := Nat.le_succ _
  locks := le_rfl
  bound _ made := Function.update_of_ne (Nat.ne_of_lt made) ..
  released _ _ := id

theorem GoesOn.settleLock (g : OutputGate) (lock : Nat) (outcome : Settlement) :
    GoesOn g (g.settleLock lock outcome) := by
  obtain ⟨waits, wait, bound, locks⟩ := OutputGate.settleLock_same g lock outcome
  refine ⟨fun confirming => confirming.settleLock lock outcome, waits.ge, locks.ge, fun w _ => ?_, fun l _ => ?_⟩
  · rw [bound]
  · exact OutputGate.settleLock_fulfilled lock outcome

theorem GoesOn.settleWait (g : OutputGate) (w : Nat) : GoesOn g (g.settleWait w) := by
  obtain ⟨waits, lock, bound, locks⟩ := OutputGate.settleWait_same g w
  refine ⟨fun confirming => confirming.settleWait w, waits.ge, locks.ge, fun w _ => ?_, fun l _ => ?_⟩
  · rw [bound]
  · rw [lock]
    exact id

theorem Pumped.gated (inv : Pumped s) {gate : OutputGate} (on : GoesOn s.gate gate) : Pumped { s with gate } := by
  refine { inv with
    confirming := on.confirming inv.confirming
    lock := fun link member => ?_
    known := fun link member => (inv.known link member).trans on.locks
    confirmed := fun i member link here gated l below => ?_ }
  · obtain ⟨kind, own⟩ := inv.lock link member
    refine ⟨kind, fun w held => ?_⟩
    obtain ⟨made, same⟩ := own w held
    exact ⟨made.trans_le on.waits, (on.bound w made).trans same⟩
  · have taken := inv.known link (List.mem_of_getElem? here)
    exact on.released l (below.trans_le taken) (inv.confirmed i member link here gated l below)

/-- A link joins the pump, where no close is in it yet. -/
theorem Pumped.chained (inv : Pumped s) {link : PumpLink Message} (unclosed : ∀ link ∈ s.pump, link.write.isClose = false)
    (lock : (link.lock = none ↔ link.write.isAutoResponse = true) ∧
      ∀ w, link.lock = some w → w < s.gate.waits ∧ s.gate.bound w = link.outstanding)
    (known : link.outstanding ≤ s.gate.locks) (own : link.write.isClose = true → s.ownClose = true) :
    Pumped { s with pump := s.pump ++ [link] } := by
  have length : (s.pump ++ [link]).length = s.pump.length + 1 := List.length_append ..
  refine { inv with
    lock := fun other member => ?_
    known := fun other member => ?_
    ran := inv.ran.trans (by rw [length]; omega)
    confirmed := fun i member other here => ?_
    closing := fun i other here close => ?_ }
  · rcases List.mem_append.1 member with before | new
    · exact inv.lock other before
    · rw [List.mem_singleton.1 new]
      exact lock
  · rcases List.mem_append.1 member with before | new
    · exact inv.known other before
    · rw [List.mem_singleton.1 new]
      exact known
  · have first : i < s.pump.length := (inv.below i member).trans_le inv.ran
    rw [List.getElem?_append_left first] at here
    exact inv.confirmed i member other here
  · rcases List.mem_append.1 (List.mem_of_getElem? here) with before | new
    · rw [unclosed other before] at close
      cases close
    · rw [List.mem_singleton.1 new] at close
      refine ⟨own close, ?_⟩
      by_contra early
      have within : i < s.pump.length := by
        have bound := (List.getElem?_eq_some_iff.1 here).1
        rw [length] at bound early
        omega
      rw [List.getElem?_append_left within] at here
      have unclosed := unclosed other (List.mem_of_getElem? here)
      rw [List.mem_singleton.1 new, close] at unclosed
      cases unclosed

theorem Pumped.enqueue (inv : Pumped s) {write : SocketWrite Message}
    (unclosed : ∀ link ∈ s.pump, link.write.isClose = false) (own : write.isClose = true → s.ownClose = true) :
    Pumped (s.enqueue write) := by
  unfold GatedSocket.enqueue
  cases auto : write.isAutoResponse with
  | true => exact inv.chained unclosed ⟨⟨fun _ => auto, fun _ => rfl⟩, fun _ held => by cases held⟩ le_rfl own
  | false =>
    have waiting := inv.gated (.beginWait s.gate)
    refine waiting.chained unclosed ⟨⟨fun held => ?_, fun other => ?_⟩, fun w held => ?_⟩ le_rfl own
    · cases held
    · rw [auto] at other
      cases other
    · cases held
      exact ⟨Nat.lt_succ_self _, Function.update_self ..⟩

/-- The socket's own close is the only one in the pump. -/
theorem Pumped.unclosed (inv : Pumped s) (open_ : s.ownClose = false) :
    ∀ link ∈ s.pump, link.write.isClose = false := by
  intro link member
  by_contra close
  obtain ⟨i, bound, here⟩ := List.getElem_of_mem member
  have own := (inv.closing i link (here ▸ List.getElem?_eq_getElem bound) (by simpa using close)).1
  rw [open_] at own
  cases own

/-- What a step may change that leaves the gate and the pump alone. -/
theorem Pumped.flags (inv : Pumped s) {t : GatedSocket Message} (gate : t.gate = s.gate) (pump : t.pump = s.pump)
    (done : t.done = s.done) (written : t.written = s.written) (own : s.ownClose = true → t.ownClose = true)
    (closed : t.ownClose = true → stateClosing ≤ t.readyState) : Pumped t where
  confirming := gate ▸ inv.confirming
  lock := by rw [pump, gate]; exact inv.lock
  known := by rw [pump, gate]; exact inv.known
  ran := by rw [done, pump]; exact inv.ran
  order := written ▸ inv.order
  below := by rw [written, done]; exact inv.below
  confirmed := by rw [written, pump, gate]; exact inv.confirmed
  closing := by
    rw [pump]
    intro i link here close
    obtain ⟨was, last⟩ := inv.closing i link here close
    exact ⟨own was, last⟩
  closed := closed

theorem Pumped.startClose (inv : Pumped s) (open_ : s.ownClose = false) (code : Option Int) (reason : JsString) :
    Pumped (s.startClose code reason) := by
  have begun : Pumped { s with
      ownClose := true
      readyState := if s.peerClose then stateClosed else stateClosing } := by
    refine inv.flags rfl rfl rfl rfl (fun _ => rfl) fun _ => ?_
    simp only
    split <;> decide
  exact begun.enqueue (inv.unclosed open_) fun _ => rfl

theorem Pumped.close (inv : Pumped s) (code : Option Int) (reason : JsString) :
    Pumped (s.close code reason).1 := by
  unfold GatedSocket.close
  split
  · exact inv
  · split
    · exact inv
    · rename_i live
      have open_ : s.ownClose = false := by
        cases own : s.ownClose with
        | false => rfl
        | true => exact absurd (.inr own) live
      split
      · cases validateClose code reason with
        | error failure => exact inv
        | ok done => exact inv.startClose open_ code reason
      · exact inv.startClose open_ code reason

theorem Pumped.answerPeerClose (inv : Pumped s) (event : CloseEvent) : Pumped (s.answerPeerClose event) := by
  unfold GatedSocket.answerPeerClose
  split
  · exact inv
  · split
    · exact inv.flags rfl rfl rfl rfl id fun _ => Nat.le_succ stateClosing
    · exact inv.close _ _

theorem Pumped.keepClose (inv : Pumped s) (event : CloseEvent) : Pumped (s.keepClose event) := by
  unfold GatedSocket.keepClose
  split
  · exact inv.flags rfl rfl rfl rfl id inv.closed
  · exact inv

theorem Pumped.receiveClose (inv : Pumped s) (event : CloseEvent) : Pumped (s.receiveClose event) := by
  unfold GatedSocket.receiveClose
  split
  · have heard : Pumped { s with readyState := stateClosed } :=
      inv.flags rfl rfl rfl rfl id fun _ => Nat.le_succ stateClosing
    exact heard.keepClose event
  · have peer : Pumped { s with peerClose := true, readyState := stateClosing } :=
      inv.flags rfl rfl rfl rfl id fun _ => le_rfl
    simp only
    split
    · exact (peer.answerPeerClose event).keepClose event
    · exact peer.keepClose event

theorem Pumped.accept (inv : Pumped s) : Pumped s.accept := by
  have answered : ∀ events : List CloseEvent, ∀ s : GatedSocket Message, Pumped s →
      Pumped (events.foldl GatedSocket.answerPeerClose s) := by
    intro events
    induction events with
    | nil => exact fun _ inv => inv
    | cons event rest ih => exact fun s inv => ih _ (inv.answerPeerClose event)
  exact answered s.pending _ (inv.flags rfl rfl rfl rfl id inv.closed)

theorem Pumped.resume (inv : Pumped s) {throws : Bool} {t : GatedSocket Message}
    (resumed : s.resume throws = some t) : Pumped t := by
  unfold GatedSocket.resume at resumed
  split at resumed
  · cases resumed
  · split at resumed
    · cases resumed
    · rename_i link next
      have within : s.done < s.pump.length := (List.getElem?_eq_some_iff.1 next).1
      have later : ∀ i ∈ s.written, i < s.done + 1 := fun i member => Nat.lt_succ_of_lt (inv.below i member)
      split at resumed
      · cases resumed
      · cases resumed
        exact inv.flags rfl rfl rfl rfl id inv.closed
      · rename_i settled
        split at resumed
        · cases resumed
          exact { inv with ran := within, below := later }
        · cases resumed
          refine { inv with ran := within, order := ?_, below := fun i member => ?_, confirmed := ?_ }
          · refine List.pairwise_append.2 ⟨inv.order, List.pairwise_singleton .., fun i member j last => ?_⟩
            rw [List.mem_singleton.1 last]
            exact inv.below i member
          · rcases List.mem_append.1 member with before | new
            · exact later i before
            · rw [List.mem_singleton.1 new]
              exact Nat.lt_succ_self _
          · intro i member other here gated
            rcases List.mem_append.1 member with before | new
            · exact inv.confirmed i before other here gated
            · rw [List.mem_singleton.1 new] at here
              cases next.symm.trans here
              obtain ⟨kind, own⟩ := inv.lock link (List.mem_of_getElem? next)
              cases held : link.lock with
              | none =>
                rw [kind.1 held] at gated
                cases gated
              | some w =>
                rw [held] at settled
                obtain ⟨made, same⟩ := own w held
                rw [← same]
                exact inv.confirming.confirmed w made settled

/-- Nothing is sent on a classic or pending socket after its own close, and no write goes on between the break of
the output gate and the abort of the context. -/
def InOrder (s : GatedSocket Message) : Event Message → Prop
  | .send _ => s.ownClose = true → s.delivery = .hibernatable ∨ s.released = true ∨ s.peerClose = true ∨
      s.readyState = stateClosed
  | .resume _ => s.gate.Broken → s.aborted = true ∨ s.released = true
  | _ => True

theorem Pumped.send (inv : Pumped s) {message : Message} (inOrder : InOrder s (.send message)) :
    Pumped (s.send message).1 := by
  unfold GatedSocket.send
  split
  · exact inv
  · rename_i live
    split
    · exact inv
    · rename_i allowed
      split
      · exact inv
      · rename_i heard
        have open_ : s.ownClose = false := by
          cases own : s.ownClose with
          | false => rfl
          | true =>
            rcases inOrder own with hibernatable | released | peer | closed
            · exact absurd ⟨hibernatable, own⟩ allowed
            · exact absurd released live
            · exact absurd (.inl peer) heard
            · exact absurd (.inr closed) heard
        exact @Pumped.enqueue _ s inv (.send message) (inv.unclosed open_) (by intro close; cases close)

theorem Pumped.sendAutoResponse (inv : Pumped s) (message : Message) : Pumped (s.sendAutoResponse message) := by
  unfold GatedSocket.sendAutoResponse
  split
  · exact inv
  · rename_i live
    have open_ : s.ownClose = false := by
      cases own : s.ownClose with
      | false => rfl
      | true => exact absurd (.inr (inv.closed own)) live
    exact inv.enqueue (inv.unclosed open_) (by intro close; cases close)

theorem step_pumped (inv : Pumped s) {e : Event Message} {t : GatedSocket Message} (inOrder : InOrder s e)
    (stepped : step s e = some t) : Pumped t := by
  cases e with
  | send message =>
    cases stepped
    exact inv.send inOrder
  | sendAutoResponse message =>
    cases stepped
    exact inv.sendAutoResponse message
  | close code reason =>
    cases stepped
    exact inv.close code reason
  | receiveClose event =>
    cases stepped
    exact inv.receiveClose event
  | accept =>
    obtain ⟨_, stepped⟩ := Option.ite_none_right_eq_some.1 stepped
    cases stepped
    exact inv.accept
  | activateHibernation =>
    cases stepped
    exact inv.flags rfl rfl rfl rfl id inv.closed
  | coupleToHost =>
    obtain ⟨_, stepped⟩ := Option.ite_none_right_eq_some.1 stepped
    cases stepped
    exact inv.flags rfl rfl rfl rfl id fun _ => Nat.le_succ stateClosing
  | abort =>
    cases stepped
    exact inv.flags rfl rfl rfl rfl id inv.closed
  | dropWith =>
    obtain ⟨_, stepped⟩ := Option.ite_none_right_eq_some.1 stepped
    cases stepped
    unfold GatedSocket.dropWith
    split
    · exact inv
    · exact inv.flags rfl rfl rfl rfl (fun _ => rfl) fun _ => Nat.le_succ stateClosing
  | lockWhile =>
    cases stepped
    exact inv.gated (.lockWhile s.gate)
  | beginWait =>
    cases stepped
    exact inv.gated (.beginWait s.gate)
  | settleLock lock outcome =>
    cases stepped
    exact inv.gated (.settleLock s.gate lock outcome)
  | settleWait w =>
    cases stepped
    exact inv.gated (.settleWait s.gate w)
  | resume throws => exact inv.resume stepped

theorem opened_pumped (pair : Bool) (delivery : DeliveryMode) : Pumped (opened Message pair delivery) where
  confirming := OutputGate.opened_confirming
  lock link member := by cases member
  known link member := by cases member
  ran := le_rfl
  order := .nil
  below i member := by cases member
  confirmed i member := by cases member
  closing i link here := by cases here
  closed own := by cases own

/-- A link that is chained changes nothing of what was written. -/
theorem enqueue_written (s : GatedSocket Message) (write : SocketWrite Message) :
    (s.enqueue write).written = s.written := by
  unfold GatedSocket.enqueue
  split <;> rfl

theorem close_written (s : GatedSocket Message) (code : Option Int) (reason : JsString) :
    (s.close code reason).1.written = s.written := by
  have begun : (s.startClose code reason).written = s.written := enqueue_written ..
  unfold GatedSocket.close
  split
  · rfl
  · split
    · rfl
    · split
      · cases validateClose code reason with
        | error failure => rfl
        | ok done => exact begun
      · exact begun

theorem answerPeerClose_written (s : GatedSocket Message) (event : CloseEvent) :
    (s.answerPeerClose event).written = s.written := by
  unfold GatedSocket.answerPeerClose
  split
  · rfl
  · split
    · rfl
    · exact close_written ..

theorem receiveClose_written (s : GatedSocket Message) (event : CloseEvent) :
    (s.receiveClose event).written = s.written := by
  have kept : ∀ s : GatedSocket Message, (s.keepClose event).written = s.written := by
    intro s
    unfold GatedSocket.keepClose
    split <;> rfl
  unfold GatedSocket.receiveClose
  split
  · exact kept _
  · simp only
    rw [kept]
    split
    · exact answerPeerClose_written ..
    · rfl

theorem accept_written (s : GatedSocket Message) : s.accept.written = s.written := by
  have answered : ∀ events : List CloseEvent, ∀ s : GatedSocket Message,
      (events.foldl GatedSocket.answerPeerClose s).written = s.written := by
    intro events
    induction events with
    | nil => exact fun _ => rfl
    | cons event rest ih => exact fun s => (ih _).trans (answerPeerClose_written s event)
  exact answered s.pending _

/-- Only a link that goes on writes, and only for a live context and a socket that is not released. -/
theorem step_written {e : Event Message} {t : GatedSocket Message} (stepped : step s e = some t) :
    t.written = s.written ∨ (∃ throws, e = .resume throws) ∧ t.written = s.written ++ [s.done] ∧
      s.aborted = false ∧ s.released = false := by
  cases e with
  | send message =>
    cases stepped
    left
    unfold GatedSocket.send
    split
    · rfl
    · split
      · rfl
      · split
        · rfl
        · exact enqueue_written ..
  | sendAutoResponse message =>
    cases stepped
    left
    unfold GatedSocket.sendAutoResponse
    split
    · rfl
    · exact enqueue_written ..
  | close code reason =>
    cases stepped
    exact .inl (close_written ..)
  | receiveClose event =>
    cases stepped
    exact .inl (receiveClose_written ..)
  | accept =>
    obtain ⟨_, stepped⟩ := Option.ite_none_right_eq_some.1 stepped
    cases stepped
    exact .inl (accept_written s)
  | coupleToHost =>
    obtain ⟨_, stepped⟩ := Option.ite_none_right_eq_some.1 stepped
    cases stepped
    exact .inl rfl
  | dropWith =>
    obtain ⟨_, stepped⟩ := Option.ite_none_right_eq_some.1 stepped
    cases stepped
    left
    unfold GatedSocket.dropWith
    split <;> rfl
  | resume throws =>
    change s.resume throws = some t at stepped
    unfold GatedSocket.resume at stepped
    split at stepped
    · cases stepped
    · split at stepped
      · cases stepped
      · split at stepped
        · cases stepped
        · cases stepped
          exact .inl rfl
        · split at stepped
          · cases stepped
            exact .inl rfl
          · rename_i live
            cases stepped
            rw [Bool.not_eq_true, Bool.or_eq_false_iff] at live
            exact .inr ⟨⟨throws, rfl⟩, rfl, live.2, live.1⟩
  | activateHibernation | abort | lockWhile | beginWait | settleLock lock outcome | settleWait w =>
    cases stepped
    exact .inl rfl

/-- An auto-response begins no wait. -/
theorem sendAutoResponse_gate (s : GatedSocket Message) (message : Message) :
    (s.sendAutoResponse message).gate = s.gate := by
  unfold GatedSocket.sendAutoResponse
  split
  · rfl
  · rfl

/-- An auto-response that is next in the pump goes on, whatever the locks are. -/
theorem Pumped.autoResponse_resumes (inv : Pumped s) {link : PumpLink Message} (next : s.pump[s.done]? = some link)
    (auto : link.write.isAutoResponse = true) (going : s.failed = false) (throws : Bool) :
    ∃ t, s.resume throws = some t := by
  have free := (inv.lock link (List.mem_of_getElem? next)).1.2 auto
  unfold GatedSocket.resume
  simp only [going, next, free, Option.elim_none]
  by_cases gone : (s.released || s.aborted) = true
  · exact ⟨_, if_pos gone⟩
  · exact ⟨_, if_neg gone⟩

/-- The writes are gated and ordered in every run where nothing is sent after the own close of a classic or pending
socket and the context is aborted before a write goes on behind a broken gate. -/
theorem writes_gated (pair : Bool) (delivery : DeliveryMode) (s : GatedSocket Message)
    (reached : Transition.Reaches step InOrder (opened Message pair delivery) s) :
    s.written.Pairwise (· < ·) ∧
    (∀ i ∈ s.written, ∃ link, s.pump[i]? = some link ∧
      (link.write.isAutoResponse = false → ∀ l, l < link.outstanding → s.gate.lock l = .fulfilled) ∧
      (link.write.isClose = true → ∀ j ∈ s.written, j ≤ i)) ∧
    (∀ e t, InOrder s e → step s e = some t → t.written = s.written ∨
      t.written = s.written ++ [s.done] ∧ s.aborted = false ∧ s.released = false ∧ ¬ s.gate.Broken) ∧
    (∀ message, (s.sendAutoResponse message).gate = s.gate) ∧
    ∀ link, s.pump[s.done]? = some link → link.write.isAutoResponse = true → s.failed = false →
      ∀ throws, ∃ t, step s (.resume throws) = some t := by
  have inv : Pumped s := reached.invariant (opened_pumped pair delivery) fun _ _ _ before admitted stepped =>
    step_pumped before admitted stepped
  refine ⟨inv.order, fun i member => ?_, fun e t inOrder stepped => ?_, sendAutoResponse_gate s,
    fun link next auto going throws => inv.autoResponse_resumes next auto going throws⟩
  · have chained : ∀ j ∈ s.written, j < s.pump.length := fun j member => (inv.below j member).trans_le inv.ran
    have here := List.getElem?_eq_getElem (chained i member)
    refine ⟨_, here, inv.confirmed i member _ here, fun close j other => ?_⟩
    have last := (inv.closing i _ here close).2
    have bound := chained j other
    omega
  · rcases step_written stepped with same | ⟨⟨throws, same⟩, grown, live, kept⟩
    · exact .inl same
    · subst same
      refine .inr ⟨grown, live, kept, fun broken => ?_⟩
      rcases inOrder broken with aborted | released
      · rw [live] at aborted
        cases aborted
      · rw [kept] at released
        cases released

theorem writes_gated_answered : ∃ s : GatedSocket String,
    Transition.run step (opened String false .classic)
      [.sendAutoResponse "pong", .resume false, .lockWhile, .send "first"] = some s ∧
    s.written = [0] ∧ s.written.Pairwise (· < ·) ∧ ¬ ∃ t, step s (.resume false) = some t := by
  have unbroken : ¬ OutputGate.Broken .opened := fun broken => by
    obtain ⟨l, below, _⟩ := broken
    exact absurd below (Nat.not_lt_zero l)
  have sent : ∀ s : GatedSocket String, s.ownClose = false → InOrder s (.send "first") := by
    intro s open_ own
    rw [open_] at own
    cases own
  have reached : Transition.Reaches step InOrder (opened String false .classic) _ :=
    Transition.Reaches.head (.sendAutoResponse "pong") trivial rfl
      (Transition.Reaches.head (.resume false) (fun broken => absurd broken unbroken) rfl
        (Transition.Reaches.head .lockWhile trivial rfl
          (Transition.Reaches.head (.send "first") (sent _ rfl) rfl .refl)))
  obtain ⟨ordered, _⟩ := writes_gated false .classic _ reached
  refine ⟨_, rfl, rfl, ordered, fun waiting => ?_⟩
  obtain ⟨t, resumed⟩ := waiting
  cases resumed

/-- A classic socket is closed, and what is sent afterwards is still written behind the close; an auto-response that
is under way as the output gate breaks is written before the context is aborted. -/
theorem written_behind_close_and_break :
    (∃ s : GatedSocket String, Transition.run step (opened String false .classic)
        [.close none [], .send "late", .settleWait 0, .resume false, .settleWait 1, .resume false] = some s ∧
      s.written = [0, 1] ∧ (∃ link, s.pump[0]? = some link ∧ link.write.isClose = true) ∧
      ∃ link, s.pump[1]? = some link ∧ link.write = .send "late") ∧
    ∃ s t : GatedSocket String, Transition.run step (opened String false .classic)
        [.lockWhile, .sendAutoResponse "pong", .settleLock 0 (.rejected "commit failed")] = some s ∧
      s.gate.Broken ∧ step s (.resume false) = some t ∧ t.written = s.written ++ [0] :=
  ⟨⟨_, rfl, rfl, ⟨_, rfl, rfl⟩, ⟨_, rfl, rfl⟩⟩,
    ⟨_, _, rfl, ⟨0, Nat.zero_lt_one, "commit failed", rfl⟩, rfl, rfl⟩⟩

end Pump

end DoRuntime.WebSockets.GatedSocket
