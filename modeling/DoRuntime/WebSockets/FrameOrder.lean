import DoRuntime.Io.RootTurns
import DoRuntime.WebSockets.FrameQueue

namespace DoRuntime.WebSockets

open Io Io.InputGates Js Transition

namespace FrameQueue

/-- The frames that are scheduled and the input gate: who has the gate, and whose job is due. -/
structure Gated (s : FrameQueue) : Prop where
  rooted : Rooted (fun w => s.scheduled w = none) s.gates
  made : ∀ w k, s.scheduled w = some k → w < s.gates.waits ∧ s.gates.asked w = 0
  held : ∀ w k, s.scheduled w = some k → k.isLive = true → ∀ l, s.gates.wait w = .resolved l →
    s.gates.gateOf l = some 0 ∧ s.gates.given l = true
  served : ∀ w₁ w₂ k₁ k₂ l, w₁ < w₂ → s.scheduled w₁ = some k₁ → s.scheduled w₂ = some k₂ →
    s.gates.wait w₂ = .resolved l → k₁.isLive = false ∨ ∃ exception, s.gates.wait w₁ = .rejected exception
  entered : ∀ w k, s.scheduled w = some k → k.phase = .entered ∨ k.phase = .ended → ∃ l, s.gates.wait w = .resolved l
  gone : ∀ w k, s.scheduled w = some k → k.phase ≠ .waiting → ¬ (s.gates.wait w).Linked
  sorted : s.jobs.Pairwise (· < ·)
  due : ∀ w, w ∈ s.jobs ↔ ∃ k, s.scheduled w = some k ∧ k.phase = .waiting ∧ ¬ (s.gates.wait w).Linked

section Gate

variable {s : FrameQueue}

theorem isLinked_iff (status : WaitStatus) : isLinked status = true ↔ status.Linked := by
  cases status <;> simp [isLinked, WaitStatus.Linked]

theorem Gated.fresh (gated : Gated s) {w : Nat} (later : s.gates.waits ≤ w) : s.scheduled w = none := by
  cases known : s.scheduled w with
  | none => rfl
  | some k => exact absurd (gated.made w k known).1 (Nat.not_lt.2 later)

/-- A scheduled frame whose call is in line is in line for the root. -/
theorem Gated.inLine (gated : Gated s) {w : Nat} {k : ScheduledFrame} (known : s.scheduled w = some k) :
    w ∈ s.gates.waiters 0 ↔ (s.gates.wait w).Linked := by
  have queued := gated.rooted.sound.accounted.queued
  obtain ⟨starts, place⟩ := gated.rooted.lined.atRoot w (gated.made w k known).2
  refine ⟨fun member => ⟨0, none, (queued.waiter 0 w).1 member⟩, fun linked => ?_⟩
  obtain ⟨g, first, linked⟩ := linked
  rw [linked] at starts
  obtain rfl : first = none := starts
  rw [place g none linked] at linked
  exact (queued.waiter 0 w).2 linked

/-- A frame's call is in line, has the gate or is rejected. -/
theorem Gated.status (gated : Gated s) {w : Nat} {k : ScheduledFrame} (known : s.scheduled w = some k) :
    (s.gates.wait w).Linked ∨ (∃ l, s.gates.wait w = .resolved l) ∨ ∃ exception, s.gates.wait w = .rejected exception := by
  have starts := (gated.rooted.lined.atRoot w (gated.made w k known).2).1
  cases status : s.gates.wait w with
  | linked g first => exact .inl ⟨g, first, rfl⟩
  | granted c l =>
    rw [status] at starts
    cases starts
  | refused c exception =>
    rw [status] at starts
    cases starts
  | resolved l => exact .inr (.inl ⟨l, rfl⟩)
  | rejected exception => exact .inr (.inr ⟨exception, rfl⟩)

/-- Frames are settled in the order they are scheduled. -/
theorem Gated.settled (gated : Gated s) {w₁ w₂ : Nat} {k₁ k₂ : ScheduledFrame} (earlier : w₁ < w₂)
    (first : s.scheduled w₁ = some k₁) (second : s.scheduled w₂ = some k₂) (settled : ¬ (s.gates.wait w₂).Linked) :
    ¬ (s.gates.wait w₁).Linked := by
  obtain ⟨made, root⟩ := gated.made w₂ k₂ second
  exact gated.rooted.settled earlier made (gated.made w₁ k₁ first).2 root (by simp [second]) settled

/-- The gate moves on, and nobody releases the lock of a live frame. -/
theorem Gated.moveGates {gates : InputGates} (gated : Gated s) (rooted : Rooted (fun w => s.scheduled w = none) gates)
    (turns : Turns s.gates gates)
    (keeps : ∀ w k, s.scheduled w = some k → k.isLive = true → ∀ l, s.gates.wait w = .resolved l →
      gates.gateOf l = some 0 ∧ gates.given l = true) : Gated (s.moveGates gates) := by
  have counted := gated.rooted.sound.accounted.counted
  have made : ∀ w k, s.scheduled w = some k → w < gates.waits ∧ gates.asked w = 0 := by
    intro w k known
    obtain ⟨made, root⟩ := gated.made w k known
    exact ⟨made.trans_le turns.waits, (turns.asked w made).trans root⟩
  have final : ∀ w k, s.scheduled w = some k → ¬ (s.gates.wait w).Linked → gates.wait w = s.gates.wait w := by
    intro w k known free
    obtain ⟨made, root⟩ := gated.made w k known
    exact turns.final w made root free
  have granted : ∀ w k, s.scheduled w = some k → ∀ l, gates.wait w = .resolved l →
      s.gates.wait w = .resolved l ∨ Granted s.gates gates w l := by
    intro w k known l resolved
    obtain ⟨made, root⟩ := made w k known
    exact (turns.granted w made root l resolved).imp And.right id
  have earlier : ∀ w, w ∈ s.jobs → ∀ v, v ∈ (s.gates.waiters 0).filter
      (fun w => (s.scheduled w).isSome && !isLinked (gates.wait w)) → w < v := by
    intro w due v new
    obtain ⟨k, known, _, settled⟩ := (gated.due w).1 due
    obtain ⟨member, scheduled⟩ := List.mem_filter.1 new
    obtain ⟨j, other⟩ := Option.isSome_iff_exists.1 (Bool.and_eq_true_iff.1 scheduled).1
    have linked := (gated.inLine other).1 member
    rcases Nat.lt_trichotomy w v with before | same | after
    · exact before
    · exact absurd (same ▸ linked) settled
    · exact absurd linked (gated.settled after other known settled)
  refine ⟨rooted, made, fun w k known live l resolved => ?_, fun w₁ w₂ k₁ k₂ l before first second resolved => ?_,
    fun w k known phase => ?_, fun w k known phase => ?_, ?_, fun w => ?_⟩
  · rcases granted w k known l resolved with old | new
    · exact keeps w k known live l old
    · exact ⟨new.held, new.given⟩
  · rcases granted w₂ k₂ second l resolved with old | new
    · refine (gated.served w₁ w₂ k₁ k₂ l before first second old).imp id fun rejected => ?_
      obtain ⟨exception, rejected⟩ := rejected
      refine ⟨exception, (final w₁ k₁ first ?_).trans rejected⟩
      rw [rejected]
      exact not_linked fun _ _ => by simp
    · by_cases live : k₁.isLive = true
      · exact .inr (new.supersedes rooted counted before (made w₁ k₁ first).2 fun i had =>
          ⟨(gated.held w₁ k₁ first live i had).1, (keeps w₁ k₁ first live i had).1⟩)
      · exact .inl (by simpa using live)
  · obtain ⟨l, resolved⟩ := gated.entered w k known phase
    refine ⟨l, (final w k known ?_).trans resolved⟩
    rw [resolved]
    exact not_linked fun _ _ => by simp
  · have free := gated.gone w k known phase
    rw [show (s.moveGates gates).gates.wait w = _ from final w k known free]
    exact free
  · refine List.pairwise_append.2 ⟨gated.sorted, ?_, earlier⟩
    refine List.Pairwise.imp_of_mem (fun {a b} first second ordered => ?_)
      (gated.rooted.lined.inLine.sublist List.filter_sublist)
    obtain ⟨j, known⟩ := Option.isSome_iff_exists.1 (Bool.and_eq_true_iff.1 (List.mem_filter.1 first).2).1
    obtain ⟨k, known'⟩ := Option.isSome_iff_exists.1 (Bool.and_eq_true_iff.1 (List.mem_filter.1 second).2).1
    exact ordered (gated.made a j known).2 (gated.made b k known').2
  · have stays := final w
    change w ∈ s.jobs ++ _ ↔ ∃ k, s.scheduled w = some k ∧ k.phase = .waiting ∧ ¬ (gates.wait w).Linked
    rw [List.mem_append, List.mem_filter, gated.due w, Bool.and_eq_true, Bool.not_eq_true', Option.isSome_iff_exists,
      ← Bool.not_eq_true, isLinked_iff]
    constructor
    · intro due
      rcases due with ⟨k, known, phase, free⟩ | ⟨member, ⟨k, known⟩, free⟩
      · exact ⟨k, known, phase, by rw [stays k known free]; exact free⟩
      · refine ⟨k, known, ?_, free⟩
        by_contra phase
        exact gated.gone w k known phase ((gated.inLine known).1 member)
    · intro due
      obtain ⟨k, known, phase, free⟩ := due
      by_cases line : (s.gates.wait w).Linked
      · exact .inr ⟨(gated.inLine known).2 line, ⟨k, known⟩, free⟩
      · exact .inl ⟨k, known, phase, line⟩

/-- A new frame calls `wait`. -/
theorem Gated.schedule (gated : Gated s) (going : s.aborted = false) (frame : Nat) (call : HandlerCall) :
    Gated (s.schedule frame call) := by
  have scheduled : s.schedule frame call = { s with
      gates := s.gates.call 0 false
      scheduled := Function.update s.scheduled s.gates.waits (some ⟨frame, call, .waiting⟩)
      jobs := if isLinked ((s.gates.call 0 false).wait s.gates.waits) then s.jobs else s.jobs ++ [s.gates.waits] } := by
    unfold FrameQueue.schedule
    rw [going]
    rfl
  have stepped : InputGates.step s.gates (.wait 0 false) = some (s.gates.call 0 false) := if_pos gated.rooted.known
  have before : Rooted (fun w => Function.update s.scheduled s.gates.waits (some ⟨frame, call, .waiting⟩) w = none) s.gates :=
    gated.rooted.mono fun w made free => (Function.update_of_ne (Nat.ne_of_lt made) ..).trans free
  obtain ⟨rooted, turns⟩ := step_rooted before
    (show Orderly s.gates (.wait 0 false) from trivial) (fun w other => by cases other) (fun other => by cases other) stepped
  have waited : s.gates.call 0 false = (s.gates.recorded 0 false).gateWait 0 s.gates.waits false := by
    unfold InputGates.call InputGates.waitOn
    rw [if_pos rfl]
    rfl
  have aside := Aside.gateWait (s.gates.recorded 0 false) 0 s.gates.waits false
  have waits : (s.gates.call 0 false).waits = s.gates.waits + 1 := by
    rw [waited]
    exact aside.waits
  have asked : (s.gates.call 0 false).asked s.gates.waits = 0 := by
    rw [waited, aside.asked]
    exact Function.update_self ..
  have others : ∀ w, w ≠ s.gates.waits → (s.gates.call 0 false).wait w = s.gates.wait w := by
    intro w other
    rw [waited]
    exact (gateWait_wait (s.gates.recorded 0 false) 0 s.gates.waits false).1 w other
  have cases_ : ∀ w k, Function.update s.scheduled s.gates.waits (some ⟨frame, call, .waiting⟩) w = some k →
      (w = s.gates.waits ∧ k = ⟨frame, call, .waiting⟩) ∨ (w ≠ s.gates.waits ∧ s.scheduled w = some k) := by
    intro w k known
    by_cases new : w = s.gates.waits
    · rw [new, Function.update_self] at known
      exact .inl ⟨new, (Option.some.inj known).symm⟩
    · rw [Function.update_of_ne new] at known
      exact .inr ⟨new, known⟩
  have keeps : ∀ w k, s.scheduled w = some k → k.isLive = true → ∀ l, s.gates.wait w = .resolved l →
      (s.gates.call 0 false).gateOf l = some 0 ∧ (s.gates.call 0 false).given l = true := by
    intro w k known live l resolved
    obtain ⟨held, given⟩ := gated.held w k known live l resolved
    exact step_keeps_lock gated.rooted.sound gated.rooted.exclusive stepped held given (by simp)
  have granted : ∀ l, (s.gates.call 0 false).wait s.gates.waits = .resolved l →
      Granted s.gates (s.gates.call 0 false) s.gates.waits l := by
    intro l resolved
    refine (turns.granted s.gates.waits (by rw [waits]; exact Nat.lt_succ_self _) asked l resolved).resolve_left fun old => ?_
    exact Nat.lt_irrefl _ old.1
  rw [scheduled]
  refine ⟨rooted, fun w k known => ?_, fun w k known live l resolved => ?_, fun w₁ w₂ k₁ k₂ l earlier first second resolved => ?_,
    fun w k known phase => ?_, fun w k known phase => ?_, ?_, fun w => ?_⟩
  · rcases cases_ w k known with ⟨rfl, _⟩ | ⟨_, known⟩
    · exact ⟨by rw [waits]; exact Nat.lt_succ_self _, asked⟩
    · obtain ⟨made, root⟩ := gated.made w k known
      exact ⟨made.trans_le turns.waits, (turns.asked w made).trans root⟩
  · rcases cases_ w k known with ⟨rfl, _⟩ | ⟨old, known⟩
    · exact ⟨(granted l resolved).held, (granted l resolved).given⟩
    · exact keeps w k known live l ((others w old).symm.trans resolved)
  · rcases cases_ w₂ k₂ second with ⟨rfl, _⟩ | ⟨old, second⟩
    · rcases cases_ w₁ k₁ first with ⟨same, _⟩ | ⟨old, first⟩
      · exact absurd earlier (by omega)
      · obtain ⟨made, root⟩ := gated.made w₁ k₁ first
        by_cases live : k₁.isLive = true
        · exact .inr ((granted l resolved).supersedes rooted gated.rooted.sound.accounted.counted earlier
            ((turns.asked w₁ made).trans root) fun i had =>
              ⟨(gated.held w₁ k₁ first live i had).1, (keeps w₁ k₁ first live i had).1⟩)
        · exact .inl (by simpa using live)
    · have made := (gated.made w₂ k₂ second).1
      rcases cases_ w₁ k₁ first with ⟨same, _⟩ | ⟨old', first⟩
      · exact absurd earlier (by omega)
      · have status := others w₁ old'
        dsimp only
        rw [status]
        exact gated.served w₁ w₂ k₁ k₂ l earlier first second ((others w₂ old).symm.trans resolved)
  · rcases cases_ w k known with ⟨_, rfl⟩ | ⟨old, known⟩
    · rcases phase with phase | phase <;> cases phase
    · obtain ⟨l, resolved⟩ := gated.entered w k known phase
      exact ⟨l, (others w old).trans resolved⟩
  · rcases cases_ w k known with ⟨_, rfl⟩ | ⟨old, known⟩
    · exact absurd rfl phase
    · dsimp only
      rw [others w old]
      exact gated.gone w k known phase
  · dsimp only
    split
    · exact gated.sorted
    · refine List.pairwise_append.2 ⟨gated.sorted, List.pairwise_singleton .., fun w due v new => ?_⟩
      obtain ⟨k, known, _⟩ := (gated.due w).1 due
      rw [List.mem_singleton.1 new]
      exact (gated.made w k known).1
  · have mine : w ∈ (if isLinked ((s.gates.call 0 false).wait s.gates.waits) then s.jobs else s.jobs ++ [s.gates.waits]) ↔
        w ∈ s.jobs ∨ (w = s.gates.waits ∧ ¬ ((s.gates.call 0 false).wait s.gates.waits).Linked) := by
      rw [← isLinked_iff]
      split
      · rename_i linked
        simp [linked]
      · rename_i free
        simp [free]
    dsimp only
    rw [mine]
    by_cases new : w = s.gates.waits
    · have old : w ∉ s.jobs := by
        intro due
        obtain ⟨k, known, _⟩ := (gated.due w).1 due
        have made := (gated.made w k known).1
        omega
      rw [new, Function.update_self]
      rw [new] at old
      constructor
      · intro due
        exact ⟨_, rfl, rfl, (due.resolve_left old).2⟩
      · intro due
        exact .inr ⟨rfl, due.choose_spec.2.2⟩
    · rw [Function.update_of_ne new, others w new, ← gated.due w]
      simp [new]

/-- A frame goes on from its call of `wait`, or comes to its end. -/
theorem Gated.setPhase (gated : Gated s) {w : Nat} {k : ScheduledFrame} (known : s.scheduled w = some k) (phase : FramePhase)
    (moved : phase ≠ .waiting) (settled : ¬ (s.gates.wait w).Linked)
    (live : k.isLive = true) (entered : phase = .entered ∨ phase = .ended → ∃ l, s.gates.wait w = .resolved l)
    (jobs : List Nat) (less : jobs.Sublist s.jobs) (rest : ∀ x, x ∈ jobs ↔ x ∈ s.jobs ∧ x ≠ w) :
    Gated { s.setPhase w k phase with jobs } := by
  have cases_ : ∀ x j, Function.update s.scheduled w (some { k with phase }) x = some j →
      (x = w ∧ j = { k with phase }) ∨ (x ≠ w ∧ s.scheduled x = some j) := by
    intro x j other
    by_cases same : x = w
    · rw [same, Function.update_self] at other
      exact .inl ⟨same, (Option.some.inj other).symm⟩
    · rw [Function.update_of_ne same] at other
      exact .inr ⟨same, other⟩
  refine ⟨gated.rooted.mono fun x made free => ?_, fun x j other => ?_, fun x j other alive l resolved => ?_,
    fun x₁ x₂ j₁ j₂ l earlier first second resolved => ?_, fun x j other phase => ?_, fun x j other phase => ?_,
    gated.sorted.sublist less, fun x => ?_⟩
  · have other : x ≠ w := by
      rintro rfl
      rw [known] at free
      cases free
    exact (Function.update_of_ne other ..).trans free
  · rcases cases_ x j other with ⟨rfl, _⟩ | ⟨_, other⟩
    · exact gated.made x k known
    · exact gated.made x j other
  · rcases cases_ x j other with ⟨rfl, rfl⟩ | ⟨_, other⟩
    · exact gated.held x k known live l resolved
    · exact gated.held x j other alive l resolved
  · obtain ⟨i₂, later⟩ : ∃ i₂, s.scheduled x₂ = some i₂ := by
      rcases cases_ x₂ j₂ second with ⟨rfl, _⟩ | ⟨_, second⟩
      · exact ⟨k, known⟩
      · exact ⟨j₂, second⟩
    rcases cases_ x₁ j₁ first with ⟨rfl, rfl⟩ | ⟨_, first⟩
    · refine (gated.served x₁ x₂ k i₂ l earlier known later resolved).imp (fun dead => ?_) id
      rw [live] at dead
      cases dead
    · exact gated.served x₁ x₂ j₁ i₂ l earlier first later resolved
  · rcases cases_ x j other with ⟨rfl, rfl⟩ | ⟨_, other⟩
    · exact entered phase
    · exact gated.entered x j other phase
  · rcases cases_ x j other with ⟨rfl, rfl⟩ | ⟨_, other⟩
    · exact settled
    · exact gated.gone x j other phase
  · change x ∈ jobs ↔ ∃ j, Function.update s.scheduled w (some { k with phase }) x = some j ∧ j.phase = .waiting ∧
      ¬ (s.gates.wait x).Linked
    rw [rest, gated.due x]
    by_cases same : x = w
    · rw [same, Function.update_self]
      constructor
      · intro due
        exact absurd rfl due.2
      · intro due
        obtain ⟨j, mine, waiting, _⟩ := due
        rw [← Option.some.inj mine] at waiting
        exact absurd waiting moved
    · rw [Function.update_of_ne same]
      simp [same]

/-- One live frame at most has the gate. -/
theorem Gated.one (gated : Gated s) {w₁ w₂ : Nat} {k₁ k₂ : ScheduledFrame} (first : s.scheduled w₁ = some k₁)
    (second : s.scheduled w₂ = some k₂) (live₁ : k₁.isLive = true) (live₂ : k₂.isLive = true) {l₁ l₂ : Nat}
    (resolved₁ : s.gates.wait w₁ = .resolved l₁) (resolved₂ : s.gates.wait w₂ = .resolved l₂) : w₁ = w₂ := by
  rcases Nat.lt_trichotomy w₁ w₂ with before | same | after
  · rcases gated.served w₁ w₂ k₁ k₂ l₂ before first second resolved₂ with dead | ⟨exception, rejected⟩
    · rw [live₁] at dead
      cases dead
    · rw [resolved₁] at rejected
      cases rejected
  · exact same
  · rcases gated.served w₂ w₁ k₂ k₁ l₁ after second first resolved₁ with dead | ⟨exception, rejected⟩
    · rw [live₂] at dead
      cases dead
    · rw [resolved₂] at rejected
      cases rejected

/-- A frame that is not live any more releases its lock. -/
theorem Gated.release (gated : Gated s) {l : Nat} (given : s.gates.given l = true)
    (free : ∀ w k, s.scheduled w = some k → k.isLive = true → s.gates.wait w ≠ .resolved l) :
    Gated (s.moveGates (InputGates.release l s.gates).2) ∧ Turns s.gates (InputGates.release l s.gates).2 := by
  have stepped : InputGates.step s.gates (.release l) = some (InputGates.release l s.gates).2 := if_pos given
  obtain ⟨rooted, turns⟩ := step_rooted gated.rooted
    (show Orderly s.gates (.release l) from trivial) (fun w other => by cases other) (fun other => by cases other) stepped
  refine ⟨gated.moveGates rooted turns fun w k known live i resolved => ?_, turns⟩
  obtain ⟨held, given⟩ := gated.held w k known live i resolved
  refine step_keeps_lock gated.rooted.sound gated.rooted.exclusive stepped held given fun same => ?_
  cases same
  exact free w k known live resolved

end Gate

end FrameQueue

end DoRuntime.WebSockets
