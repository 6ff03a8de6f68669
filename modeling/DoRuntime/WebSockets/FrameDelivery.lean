import DoRuntime.WebSockets.FrameOrder

namespace DoRuntime.WebSockets

open Io Io.InputGates Js Transition

namespace FrameQueue

/-- The frame is queued by the task it arrives in. -/
def queues (s : FrameQueue) (frame : SocketFrame) : Bool :=
  !s.aborted && s.listed && (s.autoAnswer frame).isNone &&
    match frame with
    | .message (.blob _) => false
    | _ => true

/-- Nothing arrives after the close, and no frame is queued while a Blob that came before it is being
    read. -/
def InTurn (s : FrameQueue) : Event → Prop
  | .receive frame => (∀ call ∈ s.arrived, call.isClose = false) ∧ (s.queues frame = true → s.reading = [])
  | .read frame => s.aborted = false → ∀ r ∈ s.reading, frame ≤ r.1
  | _ => True

/-- The frame has a call of the handler to come. -/
def Pending (s : FrameQueue) (frame : Nat) : Prop :=
  (∃ r ∈ s.reading, r.1 = frame) ∨
    ∃ w k, s.scheduled w = some k ∧ k.frame = frame ∧ (w ∈ s.gates.waiters 0 ∨ w ∈ s.jobs)

/-- The handler is called for the frames in the order they arrive in, with what they had on arrival,
    and for none after the close or once the socket has left; each frame that has arrived is answered,
    has its call still to come, was refused by a broken gate or an aborted context, or is dispatched. -/
structure Delivered (s : FrameQueue) : Prop where
  order : s.dispatched.Pairwise fun a b => a.frame < b.frame
  content : ∀ d ∈ s.dispatched, s.arrived[d.frame]? = some d.call
  last : s.dispatched.Pairwise fun a _ => a.call.isClose = false
  listed : ∀ d ∈ s.dispatched, d.listed = true
  answered : ∀ p ∈ s.answered, s.arrived[p.1]? = some (.message (.text p.2.request)) ∧ ∀ d ∈ s.dispatched, d.frame ≠ p.1
  refused : ∀ i ∈ s.refused, (s.aborted = true ∨ s.gates.brokenState 0 ≠ none) ∧ ∀ d ∈ s.dispatched, d.frame ≠ i
  kept : ∀ i, i < s.arrived.length →
    (∃ p ∈ s.answered, p.1 = i) ∨ s.Pending i ∨ i ∈ s.refused ∨ ∃ d ∈ s.dispatched, d.frame = i

/-- Where the frames that arrived are. -/
structure Numbered (s : FrameQueue) : Prop where
  known : ∀ w k, s.scheduled w = some k → s.arrived[k.frame]? = some k.call
  order : ∀ w₁ w₂ k₁ k₂, w₁ < w₂ → s.scheduled w₁ = some k₁ → s.scheduled w₂ = some k₂ → k₁.frame < k₂.frame
  dispatched : ∀ d ∈ s.dispatched, ∃ w k, s.scheduled w = some k ∧ (k.phase = .entered ∨ k.phase = .ended) ∧
    k.frame = d.frame ∧ k.call = d.call
  called : ∀ w k, s.scheduled w = some k → k.phase = .entered ∨ k.phase = .ended → ∃ d ∈ s.dispatched, d.frame = k.frame
  dropped : ∀ w k, s.scheduled w = some k → k.phase = .refused → k.frame ∈ s.refused
  refused : ∀ i ∈ s.refused, i < s.arrived.length ∧ (∀ w k, s.scheduled w = some k → k.frame = i → k.phase = .refused) ∧
    (s.aborted = true ∨ ∃ w k exception, s.scheduled w = some k ∧ s.gates.wait w = .rejected exception)
  answered : ∀ p ∈ s.answered, s.arrived[p.1]? = some (.message (.text p.2.request)) ∧
    ∀ w k, s.scheduled w = some k → k.frame ≠ p.1
  reading : ∀ r ∈ s.reading, s.arrived[r.1]? = some (.message (.bytes r.2)) ∧ r.1 ∉ s.refused ∧
    (∀ p ∈ s.answered, p.1 ≠ r.1) ∧ ∀ w k, s.scheduled w = some k → k.frame < r.1

/-- Every frame but these has a place. -/
def Placed (s : FrameQueue) (but : Nat → Prop) : Prop :=
  ∀ i, i < s.arrived.length → ¬ but i →
    (∃ p ∈ s.answered, p.1 = i) ∨ (∃ r ∈ s.reading, r.1 = i) ∨ i ∈ s.refused ∨ ∃ w k, s.scheduled w = some k ∧ k.frame = i

/-- A close is the last frame, and the socket is in `getWebSockets` as long as a frame can be dispatched. -/
structure Listed (s : FrameQueue) : Prop where
  last : ∀ i call, s.arrived[i]? = some call → call.isClose = true → i + 1 = s.arrived.length
  order : s.dispatched.Pairwise fun a b => a.frame < b.frame
  listed : ∀ d ∈ s.dispatched, d.listed = true
  unlisted : s.listed = false → s.aborted = true ∨ (s.reading = [] ∧ (∃ call ∈ s.arrived, call.isClose = true) ∧
    ∀ w k, s.scheduled w = some k → k.phase = .waiting → ∃ exception, s.gates.wait w = .rejected exception)
  closing : ∀ w k, s.scheduled w = some k → k.call.isClose = true → s.aborted = true ∨ s.reading = []

/-- What every state of a run keeps. -/
structure Orderly (s : FrameQueue) : Prop where
  gated : Gated s
  numbered : Numbered s
  placed : Placed s fun _ => False
  listed : Listed s

section Steps

variable {s : FrameQueue}

theorem Numbered.below (numbered : Numbered s) {w : Nat} {k : ScheduledFrame} (known : s.scheduled w = some k) :
    k.frame < s.arrived.length := (List.getElem?_eq_some_iff.1 (numbered.known w k known)).1

/-- The gate moves on, and what it settled before stays settled. -/
theorem Orderly.moveGates {gates : InputGates} (orderly : Orderly s) (gated : Gated (s.moveGates gates))
    (final : ∀ w k, s.scheduled w = some k → ¬ (s.gates.wait w).Linked → gates.wait w = s.gates.wait w) :
    Orderly (s.moveGates gates) := by
  obtain ⟨_, numbered, placed, listed⟩ := orderly
  have rejected : ∀ w k exception, s.scheduled w = some k → s.gates.wait w = .rejected exception →
      gates.wait w = .rejected exception := by
    intro w k exception known status
    refine (final w k known ?_).trans status
    rw [status]
    exact not_linked fun _ _ => by simp
  refine ⟨gated, { numbered with refused := fun i out => ?_ }, placed, { listed with unlisted := fun gone => ?_ }⟩
  · obtain ⟨below, phases, why⟩ := numbered.refused i out
    refine ⟨below, phases, why.imp id fun blamed => ?_⟩
    obtain ⟨w, k, exception, known, status⟩ := blamed
    exact ⟨w, k, exception, known, rejected w k exception known status⟩
  · refine (listed.unlisted gone).imp id fun rest => ⟨rest.1, rest.2.1, fun w k known waiting => ?_⟩
    obtain ⟨exception, status⟩ := rest.2.2 w k known waiting
    exact ⟨exception, rejected w k exception known status⟩

theorem Orderly.turns {gates : InputGates} (orderly : Orderly s) (gated : Gated (s.moveGates gates))
    (turns : Turns s.gates gates) : Orderly (s.moveGates gates) := by
  refine orderly.moveGates gated fun w k known free => ?_
  obtain ⟨made, root⟩ := orderly.gated.made w k known
  exact turns.final w made root free

theorem Orderly.gate {event : InputGates.Event} {gates : InputGates} (orderly : Orderly s)
    (foreign : s.isForeign event = true) (stepped : InputGates.step s.gates event = some gates) :
    Orderly (s.moveGates gates) := by
  have gated := orderly.gated
  have sections : InputGates.Orderly s.gates event := by
    cases event with
    | succeeded c =>
      intro running
      simp only [isForeign, running, bne_self_eq_false, Bool.false_or, Option.isSome_iff_ne_none] at foreign
      exact foreign
    | _ => trivial
  obtain ⟨rooted, turns⟩ := step_rooted gated.rooted sections
    (fun w abort => by
      subst abort
      simpa [isForeign] using foreign)
    (fun _ => gated.fresh le_rfl) stepped
  refine orderly.turns (gated.moveGates rooted turns fun w k known live l resolved => ?_) turns
  obtain ⟨held, given⟩ := gated.held w k known live l resolved
  refine step_keeps_lock gated.rooted.sound gated.rooted.exclusive stepped held given fun release => ?_
  subst release
  simp only [isForeign, List.all_eq_true, List.mem_range] at foreign
  have mine := foreign w (gated.made w k known).1
  simp [known, live, resolved] at mine

/-- A frame that an aborted context refuses. -/
theorem Orderly.refuse (gated : Gated s) (numbered : Numbered s) (listed : Listed s) {frame : Nat}
    (placed : Placed s fun i => i = frame) (call : HandlerCall) (aborted : s.aborted = true)
    (arrived : s.arrived[frame]? = some call) (later : ∀ w k, s.scheduled w = some k → k.frame ≠ frame)
    (done : ∀ r ∈ s.reading, r.1 ≠ frame) : Orderly (s.refuse frame call) := by
  refine ⟨{ gated with }, ⟨numbered.known, numbered.order, numbered.dispatched, numbered.called, fun w k known phase => ?_,
    fun i out => ?_, numbered.answered, fun r reading => ?_⟩, fun i below _ => ?_,
    { listed with unlisted := fun _ => .inl aborted }⟩
  · exact List.mem_append_left _ (numbered.dropped w k known phase)
  · rcases List.mem_append.1 out with old | new
    · exact numbered.refused i old
    · obtain rfl := List.mem_singleton.1 new
      exact ⟨(List.getElem?_eq_some_iff.1 arrived).1, fun w k known same => absurd same (later w k known), .inl aborted⟩
  · obtain ⟨content, out, rest⟩ := numbered.reading r reading
    refine ⟨content, fun refused => ?_, rest⟩
    rcases List.mem_append.1 refused with old | new
    · exact out old
    · exact done r reading (List.mem_singleton.1 new)
  · by_cases mine : i = frame
    · exact .inr (.inr (.inl (List.mem_append_right _ (List.mem_singleton.2 mine))))
    · exact (placed i below mine).imp id (.imp id (.imp (List.mem_append_left _) id))

theorem schedule_going (going : s.aborted = false) (frame : Nat) (call : HandlerCall) :
    s.schedule frame call = { s with
      gates := s.gates.call 0 false
      scheduled := Function.update s.scheduled s.gates.waits (some ⟨frame, call, .waiting⟩)
      jobs := if isLinked ((s.gates.call 0 false).wait s.gates.waits) then s.jobs else s.jobs ++ [s.gates.waits] } := by
  unfold FrameQueue.schedule
  rw [going]
  rfl

/-- A frame is queued when all that arrived before it are. -/
theorem Orderly.schedule (gated : Gated s) (numbered : Numbered s) (listed : Listed s) {frame : Nat}
    (placed : Placed s fun i => i = frame) (call : HandlerCall) (here : s.aborted = true ∨ s.listed = true)
    (arrived : s.arrived[frame]? = some call) (later : ∀ w k, s.scheduled w = some k → k.frame < frame)
    (first : ∀ r ∈ s.reading, r.1 ≠ frame ∧ (s.aborted = false → frame < r.1)) (fresh : frame ∉ s.refused)
    (unanswered : ∀ p ∈ s.answered, p.1 ≠ frame) (closing : call.isClose = true → s.aborted = true ∨ s.reading = []) :
    Orderly (s.schedule frame call) := by
  by_cases aborted : s.aborted = true
  · have refused : s.schedule frame call = s.refuse frame call := by
      unfold FrameQueue.schedule
      rw [aborted]
      rfl
    rw [refused]
    exact .refuse gated numbered listed placed call aborted arrived (fun w k known => Nat.ne_of_lt (later w k known))
      fun r reading => (first r reading).1
  · have going : s.aborted = false := by simpa using aborted
    have gated' := gated.schedule going frame call
    have others : ∀ w, w ≠ s.gates.waits → (s.gates.call 0 false).wait w = s.gates.wait w := by
      intro w other
      unfold InputGates.call InputGates.waitOn
      rw [if_pos rfl]
      exact (gateWait_wait (s.gates.recorded 0 false) 0 s.gates.waits false).1 w other
    have cases_ : ∀ w k, Function.update s.scheduled s.gates.waits (some ⟨frame, call, .waiting⟩) w = some k →
        (w = s.gates.waits ∧ k = ⟨frame, call, .waiting⟩) ∨ (w ≠ s.gates.waits ∧ s.scheduled w = some k) := by
      intro w k known
      by_cases new : w = s.gates.waits
      · rw [new, Function.update_self] at known
        exact .inl ⟨new, (Option.some.inj known).symm⟩
      · rw [Function.update_of_ne new] at known
        exact .inr ⟨new, known⟩
    have old : ∀ w k, s.scheduled w = some k → w ≠ s.gates.waits ∧
        Function.update s.scheduled s.gates.waits (some ⟨frame, call, .waiting⟩) w = some k := by
      intro w k known
      have other := Nat.ne_of_lt (gated.made w k known).1
      exact ⟨other, (Function.update_of_ne other ..).trans known⟩
    rw [schedule_going going] at gated' ⊢
    refine ⟨gated', ⟨fun w k known => ?_, fun w₁ w₂ k₁ k₂ before one two => ?_, fun d called => ?_, fun w k known phase => ?_,
      fun w k known phase => ?_, fun i out => ?_, fun p answer => ?_, fun r reading => ?_⟩, fun i below _ => ?_,
      { listed with unlisted := fun gone => ?_, closing := fun w k known close => ?_ }⟩
    · rcases cases_ w k known with ⟨_, rfl⟩ | ⟨_, known⟩
      · exact arrived
      · exact numbered.known w k known
    · rcases cases_ w₁ k₁ one with ⟨same, rfl⟩ | ⟨_, one⟩
      · rcases cases_ w₂ k₂ two with ⟨same', _⟩ | ⟨_, two⟩
        · exact absurd before (by omega)
        · have made := (gated.made w₂ k₂ two).1
          exact absurd before (by omega)
      · rcases cases_ w₂ k₂ two with ⟨_, rfl⟩ | ⟨_, two⟩
        · exact later w₁ k₁ one
        · exact numbered.order w₁ w₂ k₁ k₂ before one two
    · obtain ⟨w, k, known, rest⟩ := numbered.dispatched d called
      exact ⟨w, k, (old w k known).2, rest⟩
    · rcases cases_ w k known with ⟨_, rfl⟩ | ⟨_, known⟩
      · rcases phase with phase | phase <;> cases phase
      · exact numbered.called w k known phase
    · rcases cases_ w k known with ⟨_, rfl⟩ | ⟨_, known⟩
      · cases phase
      · exact numbered.dropped w k known phase
    · obtain ⟨below, phases, why⟩ := numbered.refused i out
      refine ⟨below, fun w k known same => ?_, why.imp id fun blamed => ?_⟩
      · rcases cases_ w k known with ⟨_, rfl⟩ | ⟨_, known⟩
        · rw [← same] at out
          exact absurd out fresh
        · exact phases w k known same
      · obtain ⟨w, k, exception, known, status⟩ := blamed
        exact ⟨w, k, exception, (old w k known).2, (others w (old w k known).1).trans status⟩
    · obtain ⟨content, apart⟩ := numbered.answered p answer
      refine ⟨content, fun w k known => ?_⟩
      rcases cases_ w k known with ⟨_, rfl⟩ | ⟨_, known⟩
      · exact Ne.symm (unanswered p answer)
      · exact apart w k known
    · obtain ⟨content, out, apart, after⟩ := numbered.reading r reading
      refine ⟨content, out, apart, fun w k known => ?_⟩
      rcases cases_ w k known with ⟨_, rfl⟩ | ⟨_, known⟩
      · exact (first r reading).2 going
      · exact after w k known
    · by_cases mine : i = frame
      · exact .inr (.inr (.inr ⟨s.gates.waits, _, Function.update_self .., mine.symm⟩))
      · refine (placed i below mine).imp id (.imp id (.imp id fun there => ?_))
        obtain ⟨w, k, known, same⟩ := there
        exact ⟨w, k, (old w k known).2, same⟩
    · rw [show s.listed = false from gone, going] at here
      simp at here
    · rcases cases_ w k known with ⟨_, rfl⟩ | ⟨_, known⟩
      · exact closing close
      · exact listed.closing w k known close

theorem cloneMessageData_content (heap : Nat → Bytes) (data : MessageData) :
    (∀ payload, cloneMessageData heap data = .payload payload → data.content heap = payload) ∧
      ∀ bytes, cloneMessageData heap data = .blob bytes → data.content heap = .bytes bytes := by
  cases data <;> simp [cloneMessageData, MessageData.content]

theorem autoAnswer_content {frame : SocketFrame} {pair : HibernationAutoResponse} (answer : s.autoAnswer frame = some pair) :
    frame.content s.heap = .message (.text pair.request) := by
  unfold autoAnswer at answer
  split at answer
  · rename_i value
    obtain ⟨_, same⟩ := Option.filter_eq_some_iff.1 answer
    rw [of_decide_eq_true same]
    rfl
  · cases answer

/-- A frame arrives that is to find its place. -/
def arrive (s : FrameQueue) (call : HandlerCall) : FrameQueue := { s with arrived := s.arrived ++ [call] }

theorem arrive_old {call c : HandlerCall} {i : Nat} (at_ : s.arrived[i]? = some c) : (s.arrive call).arrived[i]? = some c := by
  have below := (List.getElem?_eq_some_iff.1 at_).1
  exact (List.getElem?_append_left below).trans at_

theorem arrive_new (call : HandlerCall) : (s.arrive call).arrived[s.arrived.length]? = some call := by
  simp [arrive]

theorem Numbered.arrive (numbered : Numbered s) (call : HandlerCall) : Numbered (s.arrive call) :=
  ⟨fun w k known => arrive_old (numbered.known w k known), numbered.order, numbered.dispatched, numbered.called,
    numbered.dropped,
    fun i out => ⟨by
      have below := (numbered.refused i out).1
      simp only [FrameQueue.arrive, List.length_append, List.length_singleton]
      omega, (numbered.refused i out).2⟩,
    fun p answer => ⟨arrive_old (numbered.answered p answer).1, (numbered.answered p answer).2⟩,
    fun r reading => ⟨arrive_old (numbered.reading r reading).1, (numbered.reading r reading).2⟩⟩

theorem Placed.arrive (placed : Placed s fun _ => False) (call : HandlerCall) :
    Placed (s.arrive call) fun i => i = s.arrived.length := by
  intro i below other
  simp only [FrameQueue.arrive, List.length_append, List.length_singleton] at below
  exact placed i (by omega) not_false

theorem Listed.arrive (listed : Listed s) (open_ : ∀ call ∈ s.arrived, call.isClose = false) (call : HandlerCall) :
    Listed (s.arrive call) := by
  refine ⟨fun i c at_ close => ?_, listed.order, listed.listed, fun gone => ?_, listed.closing⟩
  · rcases Nat.lt_or_ge i s.arrived.length with below | new
    · have old : s.arrived[i]? = some c := (List.getElem?_append_left below).symm.trans at_
      rw [open_ c (List.mem_of_getElem? old)] at close
      cases close
    · have below := (List.getElem?_eq_some_iff.1 at_).1
      simp only [FrameQueue.arrive, List.length_append, List.length_singleton] at below ⊢
      omega
  · refine (listed.unlisted gone).imp id fun rest => ⟨rest.1, ?_, rest.2.2⟩
    obtain ⟨c, member, close⟩ := rest.2.1
    exact ⟨c, List.mem_append_left _ member, close⟩

theorem Orderly.receive (orderly : Orderly s) {frame : SocketFrame} (inTurn : s.InTurn (.receive frame)) :
    Orderly (s.receive frame) := by
  obtain ⟨gated, numbered, placed, listed⟩ := orderly
  obtain ⟨open_, turn⟩ := inTurn
  by_cases here : s.listed = true
  · have fresh : ∀ w k, s.scheduled w = some k → k.frame < s.arrived.length := fun w k known => numbered.below known
    have read : ∀ r ∈ s.reading, r.1 < s.arrived.length := fun r reading =>
      (List.getElem?_eq_some_iff.1 (numbered.reading r reading).1).1
    have answered : ∀ p ∈ s.answered, p.1 < s.arrived.length := fun p answer =>
      (List.getElem?_eq_some_iff.1 (numbered.answered p answer).1).1
    have numbered' := numbered.arrive (frame.content s.heap)
    have placed' := placed.arrive (frame.content s.heap)
    have listed' := listed.arrive open_ (frame.content s.heap)
    have gated' : Gated (s.arrive (frame.content s.heap)) := { gated with }
    have queued : s.queues frame = true ∨ s.aborted = true → ∀ call, frame.content s.heap = call →
        Orderly ((s.arrive (frame.content s.heap)).schedule s.arrived.length call) := by
      intro queues call content
      have empty : s.aborted = false → s.reading = [] := by
        intro going
        rw [going] at queues
        exact turn (queues.resolve_right (by simp))
      refine .schedule gated' numbered' listed' placed' call (.inr here) (content ▸ arrive_new _) fresh
        (fun r reading => ⟨Nat.ne_of_lt (read r reading), fun going => ?_⟩) (fun out => ?_)
        (fun p answer => Nat.ne_of_lt (answered p answer)) (fun _ => ?_)
      · change r ∈ s.reading at reading
        rw [empty going] at reading
        cases reading
      · exact Nat.lt_irrefl _ (numbered.refused _ out).1
      · by_cases aborted : s.aborted = true
        · exact .inl aborted
        · exact .inr (empty (by simpa using aborted))
    have going : (s.autoAnswer frame).isNone = true → (∀ bytes, frame ≠ .message (.blob bytes)) →
        s.queues frame = true ∨ s.aborted = true := by
      intro unanswered whole
      by_cases aborted : s.aborted = true
      · exact .inr aborted
      · left
        unfold queues
        rw [here, unanswered, show s.aborted = false by simpa using aborted]
        cases frame with
        | message data =>
          cases data with
          | blob bytes => exact absurd rfl (whole bytes)
          | _ => rfl
        | _ => rfl
    unfold FrameQueue.receive
    rw [if_neg (by simp [here])]
    dsimp only
    split
    · rename_i pair answer
      refine ⟨{ gated' with }, ⟨numbered'.known, numbered'.order, numbered'.dispatched, numbered'.called, numbered'.dropped,
        numbered'.refused, fun p answer' => ?_, fun r reading => ?_⟩, fun i below _ => ?_, { listed' with }⟩
      · rcases List.mem_append.1 answer' with old | new
        · exact numbered'.answered p old
        · obtain rfl := List.mem_singleton.1 new
          exact ⟨(arrive_new _).trans (congrArg some (autoAnswer_content answer)), fun w k known => Nat.ne_of_lt (fresh w k known)⟩
      · obtain ⟨content, out, apart, after⟩ := numbered'.reading r reading
        refine ⟨content, out, fun p answer' => ?_, after⟩
        rcases List.mem_append.1 answer' with old | new
        · exact apart p old
        · obtain rfl := List.mem_singleton.1 new
          exact Ne.symm (Nat.ne_of_lt (read r reading))
      · by_cases mine : i = s.arrived.length
        · exact .inl ⟨_, List.mem_append_right _ (List.mem_singleton.2 rfl), mine.symm⟩
        · refine (placed' i below mine).imp (fun there => ?_) id
          obtain ⟨p, answer', same⟩ := there
          exact ⟨p, List.mem_append_left _ answer', same⟩
    · rename_i unanswered
      have unanswered : (s.autoAnswer frame).isNone = true := by rw [unanswered]; rfl
      split
      · rename_i data _
        obtain ⟨whole, blob⟩ := cloneMessageData_content s.heap data
        split
        · rename_i bytes cloned
          have content : SocketFrame.content s.heap (.message data) = .message (.bytes bytes) :=
            congrArg HandlerCall.message (blob bytes cloned)
          refine ⟨{ gated' with }, ⟨numbered'.known, numbered'.order, numbered'.dispatched, numbered'.called,
            numbered'.dropped, numbered'.refused, numbered'.answered, fun r reading => ?_⟩, fun i below _ => ?_,
            ⟨listed'.last, listed'.order, listed'.listed, fun gone => ?_, fun w k known close => ?_⟩⟩
          · rcases List.mem_append.1 reading with old | new
            · exact numbered'.reading r old
            · obtain rfl := List.mem_singleton.1 new
              exact ⟨(arrive_new _).trans (congrArg some content), fun out => Nat.lt_irrefl _ (numbered.refused _ out).1,
                fun p answer => Nat.ne_of_lt (answered p answer), fun w k known => fresh w k known⟩
          · by_cases mine : i = s.arrived.length
            · exact .inr (.inl ⟨_, List.mem_append_right _ (List.mem_singleton.2 rfl), mine.symm⟩)
            · refine (placed' i below mine).imp id (.imp (fun there => ?_) id)
              obtain ⟨r, reading, same⟩ := there
              exact ⟨r, List.mem_append_left _ reading, same⟩
          · rw [show s.listed = false from gone] at here
            cases here
          · have before := open_ k.call (List.mem_of_getElem? (numbered.known w k known))
            rw [show k.call.isClose = true from close] at before
            cases before
        · rename_i payload cloned
          refine queued (going unanswered fun bytes same => ?_) (.message payload) (congrArg HandlerCall.message (whole payload cloned))
          cases same
          cases cloned
      · exact queued (going unanswered (by simp)) .error rfl
      · exact queued (going unanswered (by simp)) (.close _) rfl
  · have same : s.receive frame = s := by
      unfold FrameQueue.receive
      rw [show s.listed = false by simpa using here]
      rfl
    rw [same]
    exact ⟨gated, numbered, placed, listed⟩

theorem Orderly.read {t : FrameQueue} {frame : Nat} (orderly : Orderly s) (inTurn : s.InTurn (.read frame))
    (read : s.read frame = some t) : Orderly t := by
  obtain ⟨gated, numbered, placed, listed⟩ := orderly
  obtain ⟨r, found, rfl⟩ := Option.map_eq_some_iff.1 read
  have member := List.mem_of_find?_eq_some found
  obtain rfl : r.1 = frame := by simpa using List.find?_some found
  obtain ⟨content, out, apart, after⟩ := numbered.reading r member
  have sub : ∀ q, q ∈ s.reading.filter (fun q => q.1 ≠ r.1) → q ∈ s.reading ∧ q.1 ≠ r.1 := by
    intro q kept
    obtain ⟨reading, other⟩ := List.mem_filter.1 kept
    exact ⟨reading, of_decide_eq_true other⟩
  have fewer : s.reading = [] → s.reading.filter (fun q => q.1 ≠ r.1) = [] := by
    intro empty
    rw [empty]
    rfl
  refine .schedule (s := { s with reading := s.reading.filter fun q => q.1 ≠ r.1 }) { gated with }
    ⟨numbered.known, numbered.order, numbered.dispatched, numbered.called, numbered.dropped, numbered.refused,
      numbered.answered, fun q kept => numbered.reading q (sub q kept).1⟩
    ⟨listed.last, listed.order, listed.listed, fun gone => (listed.unlisted gone).imp id fun rest => ⟨fewer rest.1, rest.2⟩,
      fun w k known close => (listed.closing w k known close).imp id fewer⟩
    (fun i below other => (placed i below not_false).imp id (.imp (fun there => ?_) id)) _ ?_ content after
    (fun q kept => ⟨(sub q kept).2, fun going => ?_⟩) out apart (fun close => by cases close)
  · obtain ⟨q, reading, same⟩ := there
    refine ⟨q, List.mem_filter.2 ⟨reading, decide_eq_true fun mine => other (same ▸ mine)⟩, same⟩
  · by_cases here : s.listed = true
    · exact .inr here
    · refine .inl ((listed.unlisted (by simpa using here)).resolve_right fun rest => ?_)
      rw [rest.1] at member
      cases member
  · have least := inTurn going q (sub q kept).1
    have other := (sub q kept).2
    omega

theorem setPhase_cases {w x : Nat} {k j : ScheduledFrame} {phase : FramePhase}
    (other : (s.setPhase w k phase).scheduled x = some j) :
    (x = w ∧ j = { k with phase }) ∨ (x ≠ w ∧ s.scheduled x = some j) := by
  by_cases same : x = w
  · rw [same, show (s.setPhase w k phase).scheduled w = _ from Function.update_self ..] at other
    exact .inl ⟨same, (Option.some.inj other).symm⟩
  · rw [show (s.setPhase w k phase).scheduled x = _ from Function.update_of_ne same ..] at other
    exact .inr ⟨same, other⟩

theorem setPhase_frame {w : Nat} {k : ScheduledFrame} (known : s.scheduled w = some k) (phase : FramePhase) {x : Nat}
    {j : ScheduledFrame} (other : s.scheduled x = some j) :
    ∃ i, (s.setPhase w k phase).scheduled x = some i ∧ i.frame = j.frame := by
  by_cases same : x = w
  · subst same
    obtain rfl := Option.some.inj (known.symm.trans other)
    exact ⟨_, Function.update_self .., rfl⟩
  · exact ⟨j, (Function.update_of_ne same ..).trans other, rfl⟩

/-- A live frame goes on: its handler is called, it is refused, or it comes to its end. -/
theorem Numbered.setPhase (numbered : Numbered s) {w : Nat} {k : ScheduledFrame} (known : s.scheduled w = some k)
    (live : k.isLive = true) (phase : FramePhase) (jobs : List Nat) (listed : Bool) (refused : List Nat)
    (dispatched : List HandlerDispatch) (later : ∀ d ∈ s.dispatched, d ∈ dispatched)
    (calls : ∀ d ∈ dispatched, d ∈ s.dispatched ∨ (phase = .entered ∧ d.frame = k.frame ∧ d.call = k.call))
    (stays : k.phase = .entered → phase = .ended)
    (called : phase = .entered ∨ phase = .ended → ∃ d ∈ dispatched, d.frame = k.frame)
    (out : ∀ i, i ∈ refused ↔ i ∈ s.refused ∨ (phase = .refused ∧ i = k.frame))
    (blamed : phase = .refused → s.aborted = true ∨ ∃ exception, s.gates.wait w = .rejected exception) :
    Numbered { s.setPhase w k phase with jobs, listed, refused, dispatched } := by
  have alive : k.phase ≠ .refused := by
    intro dead
    simp [ScheduledFrame.isLive, dead] at live
  refine ⟨fun x j other => ?_, fun x₁ x₂ j₁ j₂ before one two => ?_, fun d call => ?_, fun x j other went => ?_,
    fun x j other went => ?_, fun i gone => ?_, fun p answer => ?_, fun r reading => ?_⟩
  · rcases setPhase_cases other with ⟨_, rfl⟩ | ⟨_, other⟩
    · exact numbered.known w k known
    · exact numbered.known x j other
  · have first : ∃ i₁, s.scheduled x₁ = some i₁ ∧ i₁.frame = j₁.frame := by
      rcases setPhase_cases one with ⟨rfl, rfl⟩ | ⟨_, one⟩
      · exact ⟨k, known, rfl⟩
      · exact ⟨j₁, one, rfl⟩
    have second : ∃ i₂, s.scheduled x₂ = some i₂ ∧ i₂.frame = j₂.frame := by
      rcases setPhase_cases two with ⟨rfl, rfl⟩ | ⟨_, two⟩
      · exact ⟨k, known, rfl⟩
      · exact ⟨j₂, two, rfl⟩
    obtain ⟨i₁, one, same₁⟩ := first
    obtain ⟨i₂, two, same₂⟩ := second
    rw [← same₁, ← same₂]
    exact numbered.order x₁ x₂ i₁ i₂ before one two
  · rcases calls d call with old | ⟨entered, frame, same⟩
    · obtain ⟨x, j, other, went, rest⟩ := numbered.dispatched d old
      by_cases mine : x = w
      · subst mine
        obtain rfl := Option.some.inj (known.symm.trans other)
        have entered : k.phase = .entered := by
          refine went.resolve_right fun ended => ?_
          simp [ScheduledFrame.isLive, ended] at live
        exact ⟨x, { k with phase }, Function.update_self .., .inr (stays entered), rest⟩
      · exact ⟨x, j, (Function.update_of_ne mine ..).trans other, went, rest⟩
    · exact ⟨w, { k with phase }, Function.update_self .., .inl entered, frame.symm, same.symm⟩
  · rcases setPhase_cases other with ⟨_, rfl⟩ | ⟨_, other⟩
    · exact called went
    · obtain ⟨d, call, same⟩ := numbered.called x j other went
      exact ⟨d, later d call, same⟩
  · rcases setPhase_cases other with ⟨_, rfl⟩ | ⟨_, other⟩
    · exact (out _).2 (.inr ⟨went, rfl⟩)
    · exact (out _).2 (.inl (numbered.dropped x j other went))
  · rcases (out i).1 gone with old | ⟨dead, rfl⟩
    · obtain ⟨below, phases, why⟩ := numbered.refused i old
      refine ⟨below, fun x j other same => ?_, why.imp id fun cause => ?_⟩
      · rcases setPhase_cases other with ⟨_, rfl⟩ | ⟨_, other⟩
        · exact absurd (phases w k known same) alive
        · exact phases x j other same
      · obtain ⟨x, j, exception, other, status⟩ := cause
        obtain ⟨i, other, _⟩ := setPhase_frame known phase other
        exact ⟨x, i, exception, other, status⟩
    · refine ⟨numbered.below known, fun x j other same => ?_, (blamed dead).imp id fun cause => ?_⟩
      · rcases setPhase_cases other with ⟨_, rfl⟩ | ⟨different, other⟩
        · exact dead
        · rcases Nat.lt_or_gt_of_ne different with before | after
          · have smaller := numbered.order x w j k before other known
            omega
          · have greater := numbered.order w x k j after known other
            omega
      · obtain ⟨exception, status⟩ := cause
        exact ⟨w, _, exception, Function.update_self .., status⟩
  · obtain ⟨content, apart⟩ := numbered.answered p answer
    refine ⟨content, fun x j other => ?_⟩
    rcases setPhase_cases other with ⟨_, rfl⟩ | ⟨_, other⟩
    · exact apart w k known
    · exact apart x j other
  · obtain ⟨content, kept, apart, after⟩ := numbered.reading r reading
    refine ⟨content, fun gone => ?_, apart, fun x j other => ?_⟩
    · rcases (out r.1).1 gone with old | ⟨_, same⟩
      · exact kept old
      · have before := after w k known
        omega
    · rcases setPhase_cases other with ⟨_, rfl⟩ | ⟨_, other⟩
      · exact after w k known
      · exact after x j other

theorem Placed.setPhase (placed : Placed s fun _ => False) {w : Nat} {k : ScheduledFrame} (known : s.scheduled w = some k)
    (phase : FramePhase) (jobs : List Nat) (listed : Bool) (refused : List Nat) (dispatched : List HandlerDispatch)
    (out : ∀ i, i ∈ s.refused → i ∈ refused) :
    Placed { s.setPhase w k phase with jobs, listed, refused, dispatched } fun _ => False := by
  intro i below _
  refine (placed i below not_false).imp id (.imp id (.imp (out i) fun there => ?_))
  obtain ⟨x, j, other, same⟩ := there
  obtain ⟨l, other, same'⟩ := setPhase_frame known phase other
  exact ⟨x, l, other, same'.trans same⟩

/-- Once a close that has the gate is done, no frame that is waiting is still to be dispatched. -/
theorem Orderly.closed (orderly : Orderly s) {w : Nat} {k : ScheduledFrame} (known : s.scheduled w = some k)
    (close : k.call.isClose = true) (done : ∀ x j, x < w → s.scheduled x = some j → j.phase = .waiting →
      ∃ exception, s.gates.wait x = .rejected exception) {x : Nat} {j : ScheduledFrame} (other : s.scheduled x = some j)
    (different : x ≠ w) (waiting : j.phase = .waiting) : ∃ exception, s.gates.wait x = .rejected exception := by
  rcases Nat.lt_or_gt_of_ne different with before | after
  · exact done x j before other waiting
  · have last := orderly.listed.last _ _ (orderly.numbered.known w k known) close
    have greater := orderly.numbered.order w x k j after known other
    have below := orderly.numbered.below other
    omega

theorem Orderly.nextJob {t : FrameQueue} (orderly : Orderly s) (went : s.nextJob = some t) : Orderly t := by
  have numbered := orderly.numbered
  have listed := orderly.listed
  unfold FrameQueue.nextJob at went
  split at went
  · cases went
  · rename_i w rest jobs
    obtain ⟨k, known, went⟩ := Option.bind_eq_some_iff.1 went
    obtain ⟨j, known', waiting, settled⟩ := (orderly.gated.due w).1 (by rw [jobs]; exact List.mem_cons_self ..)
    obtain rfl := Option.some.inj (known.symm.trans known')
    have live : k.isLive = true := by simp [ScheduledFrame.isLive, waiting]
    have sorted := orderly.gated.sorted
    rw [jobs] at sorted
    have first := (List.pairwise_cons.1 sorted).1
    have less : rest.Sublist s.jobs := by
      rw [jobs]
      exact List.sublist_cons_self ..
    have without : ∀ x, x ∈ rest ↔ x ∈ s.jobs ∧ x ≠ w := by
      intro x
      rw [jobs, List.mem_cons]
      constructor
      · intro later
        have greater := first x later
        exact ⟨.inr later, by omega⟩
      · intro due
        exact due.1.resolve_left due.2
    have gone : ∀ phase, phase ≠ .waiting → (phase = .entered ∨ phase = .ended → ∃ l, s.gates.wait w = .resolved l) →
        Gated { s.setPhase w k phase with jobs := rest } := fun phase moved resolved =>
      orderly.gated.setPhase known phase moved settled live resolved rest less without
    have refused : ∀ i, i ∈ s.refused ++ [k.frame] ↔ i ∈ s.refused ∨ (FramePhase.refused = .refused ∧ i = k.frame) := by
      simp
    unfold FrameQueue.enter at went
    dsimp only at went
    split at went
    · rename_i l resolved
      split at went
      · rename_i aborted
        cases went
        obtain ⟨held, given⟩ := orderly.gated.held w k known live l resolved
        -- the frame leaves the gate, which then goes to the next in line
        have left : Gated { s.setPhase w k .refused with
            jobs := rest
            listed := s.listed && !k.call.isClose
            refused := s.refused ++ [k.frame]
            dispatched := s.dispatched } := { gone .refused (by simp) (by simp) with }
        have free : ∀ x j, (s.setPhase w k .refused).scheduled x = some j → j.isLive = true →
            s.gates.wait x ≠ .resolved l := by
          intro x j other alive same
          rcases setPhase_cases other with ⟨_, rfl⟩ | ⟨different, other⟩
          · cases alive
          · exact different (orderly.gated.one other known alive live same resolved)
        obtain ⟨gated, turns⟩ := left.release given free
        have before : Orderly { s.setPhase w k .refused with
            jobs := rest
            listed := s.listed && !k.call.isClose
            refused := s.refused ++ [k.frame]
            dispatched := s.dispatched } :=
          ⟨left, numbered.setPhase known live .refused rest _ _ s.dispatched (fun _ => id) (fun _ => .inl)
            (fun entered => by rw [waiting] at entered; cases entered) (by simp) refused (fun _ => .inl aborted),
            orderly.placed.setPhase known .refused rest _ _ s.dispatched fun _ => List.mem_append_left _,
            ⟨listed.last, listed.order, listed.listed, fun _ => .inl aborted, fun _ _ _ _ => .inl aborted⟩⟩
        exact before.turns gated turns
      · rename_i going
        cases went
        have here : s.listed = true := by
          by_contra left
          obtain ⟨_, _, dead⟩ := (listed.unlisted (by simpa using left)).resolve_left going
          obtain ⟨exception, rejected⟩ := dead w k known waiting
          rw [resolved] at rejected
          cases rejected
        have ahead : ∀ d ∈ s.dispatched, d.frame < k.frame := by
          intro d call
          obtain ⟨x, j, other, phase, same, _⟩ := numbered.dispatched d call
          obtain ⟨i, mine⟩ := orderly.gated.entered x j other phase
          rw [← same]
          rcases Nat.lt_trichotomy x w with before | rfl | after
          · exact numbered.order x w j k before other known
          · obtain rfl := Option.some.inj (known.symm.trans other)
            rcases phase with phase | phase <;> rw [waiting] at phase <;> cases phase
          · rcases orderly.gated.served w x k j i after known other mine with dead | ⟨exception, rejected⟩
            · rw [live] at dead
              cases dead
            · rw [resolved] at rejected
              cases rejected
        have gated := gone .entered (by simp) fun _ => ⟨l, resolved⟩
        refine ⟨{ gated with }, numbered.setPhase known live .entered rest s.listed s.refused _ (fun d => List.mem_append_left _)
          (fun d call => ?_) (fun entered => by rw [waiting] at entered; cases entered)
          (fun _ => ⟨_, List.mem_append_right _ (List.mem_singleton.2 rfl), rfl⟩) (fun i => by simp) (by simp),
          orderly.placed.setPhase known .entered rest s.listed s.refused _ fun _ => id,
          ⟨listed.last, ?_, fun d call => ?_, fun left => ?_, fun x j other close => ?_⟩⟩
        · rcases List.mem_append.1 call with old | new
          · exact .inl old
          · rw [List.mem_singleton.1 new]
            exact .inr ⟨rfl, rfl, rfl⟩
        · refine List.pairwise_append.2 ⟨listed.order, List.pairwise_singleton .., fun d call e new => ?_⟩
          rw [List.mem_singleton.1 new]
          exact ahead d call
        · rcases List.mem_append.1 call with old | new
          · exact listed.listed d old
          · rw [List.mem_singleton.1 new]
            exact here
        · rw [show s.listed = false from left] at here
          cases here
        · rcases setPhase_cases other with ⟨_, rfl⟩ | ⟨_, other⟩
          · exact listed.closing w k known close
          · exact listed.closing x j other close
    · rename_i exception rejected
      cases went
      refine ⟨{ gone .refused (by simp) (by simp) with },
        numbered.setPhase known live .refused rest _ _ s.dispatched (fun _ => id) (fun _ => .inl)
          (fun entered => by rw [waiting] at entered; cases entered) (by simp) refused (fun _ => .inr ⟨exception, rejected⟩),
        orderly.placed.setPhase known .refused rest _ _ s.dispatched fun _ => List.mem_append_left _,
        ⟨listed.last, listed.order, listed.listed, fun left => ?_, fun x j other close => ?_⟩⟩
      · by_cases close : k.call.isClose = true
        · refine (listed.closing w k known close).imp id fun empty =>
            ⟨empty, ⟨k.call, List.mem_of_getElem? (numbered.known w k known), close⟩, fun x j other waits => ?_⟩
          rcases setPhase_cases other with ⟨_, rfl⟩ | ⟨different, other⟩
          · cases waits
          · refine orderly.closed known close (fun y i before there waits => ?_) other different waits
            -- whoever came before is settled, and would have its job first
            have due := (orderly.gated.due y).2 ⟨i, there, waits, orderly.gated.settled before there known settled⟩
            rw [jobs, List.mem_cons] at due
            have later := first y (due.resolve_left (Nat.ne_of_lt before))
            omega
        · have same : s.listed = false := by
            have left : (s.listed && !k.call.isClose) = false := left
            simpa [close] using left
          refine (listed.unlisted same).imp id fun rest => ⟨rest.1, rest.2.1, fun x j other waits => ?_⟩
          rcases setPhase_cases other with ⟨_, rfl⟩ | ⟨_, other⟩
          · cases waits
          · exact rest.2.2 x j other waits
      · rcases setPhase_cases other with ⟨_, rfl⟩ | ⟨_, other⟩
        · exact listed.closing w k known close
        · exact listed.closing x j other close
    · cases went

theorem Orderly.checkpointEnd {t : FrameQueue} {w : Nat} (orderly : Orderly s) (ended : s.checkpointEnd w = some t) :
    Orderly t := by
  have numbered := orderly.numbered
  have listed := orderly.listed
  unfold FrameQueue.checkpointEnd at ended
  split at ended
  · rename_i k l known resolved
    split at ended
    · rename_i entered
      cases ended
      have live : k.isLive = true := by simp [ScheduledFrame.isLive, entered]
      have settled : ¬ (s.gates.wait w).Linked := by
        rw [resolved]
        exact not_linked fun _ _ => by simp
      obtain ⟨held, given⟩ := orderly.gated.held w k known live l resolved
      have apart : w ∉ s.jobs := by
        intro due
        obtain ⟨j, known', waiting, _⟩ := (orderly.gated.due w).1 due
        obtain rfl := Option.some.inj (known.symm.trans known')
        rw [entered] at waiting
        cases waiting
      have finished := orderly.gated.setPhase known .ended (by simp) settled live (fun _ => ⟨l, resolved⟩) s.jobs
        (List.Sublist.refl _) fun x => ⟨fun due => ⟨due, fun same => apart (same ▸ due)⟩, And.left⟩
      have left : Gated { s.setPhase w k .ended with
          jobs := s.jobs
          listed := s.listed && !k.call.isClose
          refused := s.refused
          dispatched := s.dispatched } := { finished with }
      have free : ∀ x j, (s.setPhase w k .ended).scheduled x = some j → j.isLive = true → s.gates.wait x ≠ .resolved l := by
        intro x j other alive same
        rcases setPhase_cases other with ⟨_, rfl⟩ | ⟨different, other⟩
        · cases alive
        · exact different (orderly.gated.one other known alive live same resolved)
      obtain ⟨gated, turns⟩ := left.release given free
      have before : Orderly { s.setPhase w k .ended with
          jobs := s.jobs
          listed := s.listed && !k.call.isClose
          refused := s.refused
          dispatched := s.dispatched } := by
        refine ⟨left, numbered.setPhase known live .ended s.jobs _ s.refused s.dispatched (fun _ => id) (fun _ => .inl)
          (fun _ => rfl) (fun _ => numbered.called w k known (.inl entered)) (fun i => by simp) (by simp),
          orderly.placed.setPhase known .ended s.jobs _ s.refused s.dispatched fun _ => id,
          ⟨listed.last, listed.order, listed.listed, fun gone => ?_, fun x j other close => ?_⟩⟩
        · by_cases close : k.call.isClose = true
          · refine (listed.closing w k known close).imp id fun empty =>
              ⟨empty, ⟨k.call, List.mem_of_getElem? (numbered.known w k known), close⟩, fun x j other waits => ?_⟩
            rcases setPhase_cases other with ⟨_, rfl⟩ | ⟨different, other⟩
            · cases waits
            · refine orderly.closed known close (fun y i before there waits => ?_) other different waits
              refine (orderly.gated.served y w i k l before there known resolved).resolve_left fun dead => ?_
              simp [ScheduledFrame.isLive, waits] at dead
          · have same : s.listed = false := by
              have gone : (s.listed && !k.call.isClose) = false := gone
              simpa [close] using gone
            refine (listed.unlisted same).imp id fun rest => ⟨rest.1, rest.2.1, fun x j other waits => ?_⟩
            rcases setPhase_cases other with ⟨_, rfl⟩ | ⟨_, other⟩
            · cases waits
            · exact rest.2.2 x j other waits
        · rcases setPhase_cases other with ⟨_, rfl⟩ | ⟨_, other⟩
          · exact listed.closing w k known close
          · exact listed.closing x j other close
      exact before.turns gated turns
    · cases ended
  · cases ended

theorem step_orderly {event : Event} {t : FrameQueue} (orderly : Orderly s) (inTurn : s.InTurn event)
    (stepped : step s event = some t) : Orderly t := by
  cases event with
  | receive frame =>
    cases stepped
    exact orderly.receive inTurn
  | read frame => exact orderly.read inTurn stepped
  | nextJob => exact orderly.nextJob stepped
  | checkpointEnd w => exact orderly.checkpointEnd stepped
  | setWebSocketAutoResponse pair =>
    cases stepped
    exact ⟨{ orderly.gated with }, { orderly.numbered with }, orderly.placed, { orderly.listed with }⟩
  | abort =>
    cases stepped
    have numbered := orderly.numbered
    refine ⟨{ orderly.gated with }, { numbered with refused := fun i out => ?_ }, orderly.placed,
      { orderly.listed with unlisted := fun _ => .inl rfl, closing := fun _ _ _ _ => .inl rfl }⟩
    exact ⟨(numbered.refused i out).1, (numbered.refused i out).2.1, .inl rfl⟩
  | write id bytes =>
    cases stepped
    exact ⟨{ orderly.gated with }, { orderly.numbered with }, orderly.placed, { orderly.listed with }⟩
  | gate event =>
    simp only [step, Option.ite_none_right_eq_some, Option.map_eq_some_iff] at stepped
    obtain ⟨foreign, gates, stepped, rfl⟩ := stepped
    exact orderly.gate foreign stepped

theorem opened_orderly : Orderly opened := by
  have nobody : ∀ w k, opened.scheduled w ≠ some k := by
    intro w k known
    cases known
  refine ⟨⟨opened_rooted, fun w k known => absurd known (nobody w k), fun w k known => absurd known (nobody w k),
    fun w _ k _ _ _ known => absurd known (nobody w k), fun w k known => absurd known (nobody w k),
    fun w k known => absurd known (nobody w k), List.Pairwise.nil, fun w => ?_⟩,
    ⟨fun w k known => absurd known (nobody w k), fun w _ k _ _ known => absurd known (nobody w k),
      fun d call => absurd call List.not_mem_nil, fun w k known => absurd known (nobody w k),
      fun w k known => absurd known (nobody w k), fun i out => absurd out List.not_mem_nil,
      fun p answer => absurd answer List.not_mem_nil, fun r reading => absurd reading List.not_mem_nil⟩,
    fun i below => absurd below (Nat.not_lt_zero i),
    ⟨fun i call at_ => ?_, List.Pairwise.nil, fun d call => absurd call List.not_mem_nil, fun gone => ?_,
      fun w k known => absurd known (nobody w k)⟩⟩
  · simp [opened]
  · simp [opened] at at_
  · cases gone

theorem Orderly.delivered (orderly : Orderly s) : Delivered s := by
  obtain ⟨gated, numbered, placed, listed⟩ := orderly
  have content : ∀ d ∈ s.dispatched, s.arrived[d.frame]? = some d.call := by
    intro d call
    obtain ⟨w, k, known, _, frame, same⟩ := numbered.dispatched d call
    rw [← frame, ← same]
    exact numbered.known w k known
  refine ⟨listed.order, content, ?_, listed.listed, fun p answer => ?_, fun i out => ?_, fun i below => ?_⟩
  · refine List.Pairwise.imp_of_mem (fun {a b} first second before => ?_) listed.order
    by_contra close
    have last := listed.last a.frame a.call (content a first) (by simpa using close)
    have below := (List.getElem?_eq_some_iff.1 (content b second)).1
    omega
  · obtain ⟨text, apart⟩ := numbered.answered p answer
    refine ⟨text, fun d call => ?_⟩
    obtain ⟨w, k, known, _, frame, _⟩ := numbered.dispatched d call
    rw [← frame]
    exact apart w k known
  · obtain ⟨_, phases, why⟩ := numbered.refused i out
    refine ⟨why.imp id fun blamed => ?_, fun d call same => ?_⟩
    · obtain ⟨w, k, exception, known, rejected⟩ := blamed
      obtain ⟨made, root⟩ := gated.made w k known
      exact (gated.rooted.denies.blamed w made root exception rejected).resolve_left (by simp [known])
    · obtain ⟨w, k, known, went, frame, _⟩ := numbered.dispatched d call
      have dead := phases w k known (frame.trans same)
      rcases went with went | went <;> rw [dead] at went <;> cases went
  · rcases placed i below not_false with answered | reading | refused | ⟨w, k, known, same⟩
    · exact .inl answered
    · exact .inr (.inl (.inl reading))
    · exact .inr (.inr (.inl refused))
    · cases phase : k.phase with
      | waiting =>
        refine .inr (.inl (.inr ⟨w, k, known, same, ?_⟩))
        by_cases linked : (s.gates.wait w).Linked
        · exact .inl ((gated.inLine known).2 linked)
        · exact .inr ((gated.due w).2 ⟨k, known, phase, linked⟩)
      | entered => exact .inr (.inr (.inr (same ▸ numbered.called w k known (.inl phase))))
      | ended => exact .inr (.inr (.inr (same ▸ numbered.called w k known (.inr phase))))
      | refused => exact .inr (.inr (.inl (same ▸ numbered.dropped w k known phase)))

end Steps

/-- In a run in which no frame is queued while a Blob that came before it is being read, and nothing
    arrives after the close, the handler is called in arrival order. -/
theorem frames_keep_order {s : FrameQueue} (reached : Reaches step InTurn opened s) : Delivered s :=
  (reached.invariant opened_orderly fun _ _ _ orderly inTurn stepped => step_orderly orderly inTurn stepped).delivered

/-- A text, a Blob that is read before the close arrives, and the close. -/
theorem frames_keep_order_blob : ∃ s : FrameQueue, Reaches step InTurn opened s ∧
    (s.dispatched.map fun d => d.frame) = [0, 1, 2] ∧ s.listed = false ∧ Delivered s := by
  have start : Reaches step InTurn opened opened := .refl
  have text := start.then (.receive (.message (.text [97])))
    ⟨fun call arrived => absurd arrived List.not_mem_nil, fun _ => rfl⟩ rfl
  have blob := text.then (.receive (.message (.blob [1]))) ⟨by decide, fun _ => rfl⟩ rfl
  have read := blob.then (.read 1) (fun _ => by decide) rfl
  have close := ((read.then .nextJob trivial rfl).then (.receive (.close ⟨1000, [], true⟩)) ⟨by decide, fun _ => rfl⟩ rfl)
  have done := (((((close.then (.checkpointEnd 0) trivial rfl).then .nextJob trivial rfl).then (.checkpointEnd 1) trivial
    rfl).then .nextJob trivial rfl).then (.checkpointEnd 2) trivial rfl)
  exact ⟨_, done, rfl, rfl, frames_keep_order done⟩

/-- A Blob that is read when the close has been dispatched is dispatched after it, to a socket that
    has left `getWebSockets`. -/
theorem blob_dispatched_after_close : ¬ ∀ s, Reaches step (fun _ _ => True) opened s → Delivered s := by
  intro delivered
  have ran : ∃ s, run step opened [.receive (.message (.blob [1])), .receive (.close ⟨1000, [], true⟩), .nextJob,
      .checkpointEnd 0, .read 0, .nextJob] = some s ∧ (s.dispatched.map fun d => (d.frame, d.listed)) = [(1, true), (0, false)] :=
    ⟨_, rfl, rfl⟩
  obtain ⟨s, ran, calls⟩ := ran
  have order := (delivered s (run_reaches _ ran)).order
  have frames : (s.dispatched.map fun d => d.frame) = [1, 0] := by
    have firsts := congrArg (List.map Prod.fst) calls
    simpa [Function.comp_def] using firsts
  have sorted := List.pairwise_map.2 order
  rw [frames] at sorted
  simp at sorted

end FrameQueue

end DoRuntime.WebSockets
