import DoRuntime.Io.GateOrder
import DoRuntime.Io.WaitErased

namespace DoRuntime.Io.InputGates

open Forwarding Prog Transition

section Calls

variable {s t : InputGates} {event : Event} {x w b c : Nat}

theorem leaves_call {before after : WaitStatus} (leaves : before.Leaves after) :
    after.starts = before.starts ∧ (¬ before.Linked → after = before) := by
  cases leaves with
  | stays => exact ⟨rfl, fun _ => rfl⟩
  | refused g c exception => exact ⟨rfl, fun free => absurd ⟨g, _, rfl⟩ free⟩
  | rejected g exception => exact ⟨rfl, fun free => absurd ⟨g, _, rfl⟩ free⟩
  | granted g c lock => exact ⟨rfl, fun free => absurd ⟨g, _, rfl⟩ free⟩
  | resolved g lock => exact ⟨rfl, fun free => absurd ⟨g, _, rfl⟩ free⟩

theorem Aside.call (aside : Aside s t w) (other : x ≠ w) :
    (t.wait x).starts = (s.wait x).starts ∧ (¬ (s.wait x).Linked → t.wait x = s.wait x) := by
  refine ⟨?_, aside.finals x other⟩
  rcases aside.others x other with same | ⟨starts, -⟩
  · rw [same]
  · exact starts

theorem Aside.resume (s : InputGates) (w : Nat) : Aside s (s.resume w) w := by
  have none_waits : Aside s s w :=
    ⟨rfl, rfl, fun _ _ => .inl rfl, fun _ _ _ => rfl, List.sublist_append_left ..⟩
  unfold InputGates.resume
  split
  · exact .enter ..
  · exact .settle ..
  · rename_i c exception _ _
    have rejects := Aside.rejectsSettle (Rejects.setBroken (s.withState c .running) c exception) w
      (.rejected exception)
    exact ⟨rejects.asked, rejects.waits, rejects.others, rejects.finals, rejects.waiters⟩
  · exact none_waits

theorem Settles.call (settles : Settles s t) (x : Nat) :
    (t.wait x).starts = (s.wait x).starts ∧ (¬ (s.wait x).Linked → t.wait x = s.wait x) :=
  ⟨settles.starts x, settles.free x⟩

/-- A step on something else keeps the section that a call begins, and what has become of a call. -/
theorem step_call (sound : Sound s) (stepped : step s event = some t)
    (old : ∀ gate aborted, event = .wait gate aborted → x ≠ s.waits) (other : event ≠ .resume x) :
    (t.wait x).starts = (s.wait x).starts ∧ (¬ (s.wait x).Linked → t.wait x = s.wait x) := by
  obtain ⟨accounted, starting, placed⟩ := sound
  cases event <;> simp only [step, Option.ite_none_right_eq_some, Option.some.injEq] at stepped <;>
    obtain ⟨admitted, rfl⟩ := stepped
  case wait gate aborted =>
    exact (Aside.waitOn (s.asking gate aborted) gate gate s.waits aborted).call (old gate aborted rfl)
  case abort y => exact (Settles.abort s y).call x
  case resume y =>
    have apart : x ≠ y := by
      rintro rfl
      exact other rfl
    exact (Aside.resume s y).call apart
  case addRef l =>
    rw [addRef_state]
    split
    · exact ⟨rfl, fun _ => rfl⟩
    · exact ⟨rfl, fun _ => rfl⟩
  case release l => exact leaves_call ((release_leaves accounted l).1 x)
  case startCriticalSection l =>
    rw [startCriticalSection_state]
    split
    · exact ⟨rfl, fun _ => rfl⟩
    · exact ⟨rfl, fun _ => rfl⟩
  case succeeded c =>
    have moved : ((s.reparent c).wait x).starts = (s.wait x).starts ∧
        (¬ (s.wait x).Linked → (s.reparent c).wait x = s.wait x) := by
      refine ⟨reparent_starts s c x, fun free => ?_⟩
      rw [reparent_wait]
      split
      · rename_i linked
        exact absurd ⟨_, _, linked⟩ free
      · rfl
    by_cases running : s.state c = .running
    · rw [succeeded_state running]
      split
      · exact moved
      · exact moved
    · rw [succeeded_refused running]
      exact ⟨rfl, fun _ => rfl⟩
  case failed c exception => exact (Settles.failed s c c exception).call x
  case setBroken gate exception => exact (Settles.setBroken s gate exception).call x
  case drop c =>
    have dropped := (Settles.dropped s c).call x
    have kept := (accounted.dropped c).disown c
    rw [drop_state]
    split
    · exact dropped
    · rename_i l _
      have released := leaves_call ((release_leaves kept l).1 x)
      refine ⟨released.1.trans dropped.1, fun free => ?_⟩
      have same : ((s.dropped c).disown c).wait x = s.wait x := dropped.2 free
      rw [same] at released
      exact released.2 free

end Calls

section Starts

variable {s t : InputGates} {event : Event} {x w b c : Nat}

/-- The section has not got the lock that its first `wait` asks for. -/
def Unbegun (s : InputGates) (c : Nat) : Prop := 0 < c ∧ (s.state c = .notStarted ∨ s.state c = .initialWait)

/-- Nothing hangs on a section that has not begun. -/
structure Untouched (s : InputGates) : Prop where
  locks : ∀ l c, s.gateOf l = some c → ¬ s.Unbegun c
  parents : ∀ g, 0 < g → g < s.gates → ¬ s.Unbegun (s.parent g)

theorem Untouched.frame (untouched : Untouched s) (begun : ∀ c, t.Unbegun c → s.Unbegun c)
    (parent : t.parent = s.parent)
    (gates : t.gates = s.gates) (gateOf : ∀ l c, t.gateOf l = some c → s.gateOf l = some c) : Untouched t :=
      by
  refine ⟨fun l c held unbegun => ?_, fun g first known unbegun => ?_⟩
  · exact untouched.locks l c (gateOf l c held) (begun c unbegun)
  · rw [parent] at unbegun
    exact untouched.parents g first (gates ▸ known) (begun _ unbegun)

theorem Untouched.settles (untouched : Untouched s) (settles : Settles s t) : Untouched t := by
  refine untouched.frame (fun c unbegun => ?_) settles.parent settles.gates fun l c held => ?_
  · unfold Unbegun at unbegun
    rw [settles.state] at unbegun
    exact unbegun
  · rw [settles.gateOf] at held
    exact held

theorem Untouched.newLock (untouched : Untouched s) {gate : Nat} (begun : ¬ s.Unbegun gate) (given : Bool) :
    Untouched (s.newLock gate given) := by
  refine ⟨fun l c held => ?_, untouched.parents⟩
  by_cases new : l = s.locks
  · subst new
    simp only [InputGates.newLock, Function.update_self] at held
    cases held
    exact begun
  · simp only [InputGates.newLock, Function.update_of_ne new] at held
    exact untouched.locks l c held

theorem Untouched.withState (untouched : Untouched s) {state : SectionState}
    (before : s.Unbegun c ∨ state ≠ .notStarted ∧ state ≠ .initialWait) : Untouched (s.withState c state) :=
      by
  refine untouched.frame (fun d unbegun => ?_) rfl rfl fun _ _ => id
  by_cases same : d = c
  · subst same
    rcases before with before | ⟨fresh, initial⟩
    · exact before
    · obtain ⟨-, left⟩ := unbegun
      simp only [InputGates.withState, Function.update_self] at left
      rcases left with left | left
      · exact absurd left fresh
      · exact absurd left initial
  · obtain ⟨first, left⟩ := unbegun
    simp only [InputGates.withState, Function.update_of_ne same] at left
    exact ⟨first, left⟩

/-- What a gate that is done has forwards to a gate that has begun. -/
theorem Untouched.adopter (untouched : Untouched s) (counted : Counted s) {g : Nat} (begun : ¬ s.Unbegun g) :
    ¬ s.Unbegun (s.adopter g) := by
  induction g using Nat.strong_induction_on with
  | _ g ih =>
    by_cases gone : s.isReparented g = true
    · obtain ⟨first, -⟩ := isReparented_pos gone
      have known : g < s.gates := by
        by_contra unknown
        rw [counted.fresh g (Nat.le_of_not_lt unknown)] at gone
        cases gone
      rw [show s.adopter g = s.adopter (s.parent g) from heir_of_gone counted.below gone]
      exact ih _ (counted.older g first) (untouched.parents g first known)
    · rw [adopter_of_stays (by simpa using gone)]
      exact begun

/-- A section that has not begun is no one's adopter. -/
theorem Untouched.own (untouched : Untouched s) (counted : Counted s) {g : Nat}
    (unbegun : s.Unbegun (s.adopter g)) :
    s.adopter g = g := by
  by_cases here : s.Unbegun g
  · have stays : s.isReparented g = false := by
      obtain ⟨-, fresh | initial⟩ := here
      · simp [isReparented, fresh]
      · simp [isReparented, initial]
    exact adopter_of_stays stays
  · exact absurd unbegun (untouched.adopter counted here)

theorem Untouched.free (untouched : Untouched s) (counted : Counted s) (unbegun : s.Unbegun c)
    : s.lockCount c = 0 := by
  have stays : s.isReparented c = false := by
    obtain ⟨-, fresh | initial⟩ := unbegun
    · simp [isReparented, fresh]
    · simp [isReparented, initial]
  rw [counted.counts c stays, outstanding, Finset.card_eq_zero, Finset.filter_eq_empty_iff]
  rintro l - ⟨h, held, forwards⟩
  exact untouched.adopter counted (untouched.locks l h held) (forwards ▸ unbegun)

theorem Untouched.gateWait (untouched : Untouched s) {gate : Nat} (begun : ¬ s.Unbegun gate) (w : Nat)
    (aborted : Bool) :
    Untouched (s.gateWait gate w aborted) := by
  have same : ∀ u : InputGates, Untouched u → ∀ status, Untouched (u.settle w status) := fun u kept status =>
    kept.frame (fun _ => id) rfl rfl fun _ _ => id
  unfold InputGates.gateWait
  split
  · exact same s untouched _
  · split
    · exact same s untouched _
    · split
      · exact same _ (untouched.newLock begun true) _
      · exact untouched.frame (fun _ => id) rfl rfl fun _ _ => id

theorem Untouched.enter (untouched : Untouched s) (lock w : Nat) (aborted : Bool) :
    Untouched (s.enter c lock w aborted) := by
  have running : Untouched (s.withState c .running) := untouched.withState (.inr ⟨by simp, by simp⟩)
  have owned : Untouched { s.withState c .running with
      parentLock := Function.update s.parentLock c (some lock) } :=
    running.frame (fun _ => id) rfl rfl fun _ _ => id
  refine owned.gateWait (fun unbegun => ?_) w aborted
  obtain ⟨-, left⟩ := unbegun
  simp [InputGates.withState] at left

theorem Untouched.start (untouched : Untouched s) (counted : Counted s) (first : 0 < c) (known : c < s.gates)
    (fresh : s.state c = .notStarted) (w : Nat) : Untouched (s.start c w) := by
  have begun : Untouched (s.withState c .initialWait) := untouched.withState (.inl ⟨first, .inl fresh⟩)
  have counts : Counted (s.withState c .initialWait) :=
    counted.same (.setState (by simp [fresh]) (by simp) s.parentLock)
  have target : ¬ (s.withState c .initialWait).Unbegun ((s.withState c .initialWait).parentAsInputGate c) :=
    begun.adopter counts (begun.parents c first known)
  rw [start_eq]
  unfold begin
  split
  · rename_i exception _
    have broken := begun.settles (.setBroken _ c exception)
    exact broken.frame (fun _ => id) rfl rfl fun _ _ => id
  · split
    · exact (begun.newLock target false).enter _ w false
    · exact begun.frame (fun _ => id) rfl rfl fun _ _ => id

theorem Untouched.waitOn (untouched : Untouched s) (counted : Counted s) {gate : Nat} (known : gate < s.gates)
    (fuel w : Nat) (aborted : Bool) : Untouched (s.waitOn fuel gate w aborted) := by
  have same : ∀ status, Untouched (s.settle w status) := fun status =>
    untouched.frame (fun _ => id) rfl rfl fun _ _ => id
  induction gate using Nat.strong_induction_on generalizing fuel with
  | _ gate ih =>
    unfold InputGates.waitOn
    split
    · exact untouched.gateWait (fun unbegun => absurd unbegun.1 (Nat.lt_irrefl 0)) w aborted
    · rename_i section_
      have first := Nat.pos_of_ne_zero section_
      split
      · exact same _
      · split
        · rename_i fresh
          exact untouched.start counted first known fresh w
        · exact same _
        · rename_i running
          exact untouched.gateWait (fun unbegun => by obtain ⟨-, left⟩ := unbegun; simp [running] at left)
            w aborted
        · cases fuel with
          | zero => exact untouched
          | succ fuel =>
            have below := counted.older gate first
            exact ih _ below (Nat.lt_trans below known) fuel

theorem Untouched.grantNext (untouched : Untouched s) (queued : Queued s) {gate : Nat}
    (begun : ¬ s.Unbegun gate) :
    Untouched (s.grantNext gate) := by
  have given : ∀ w status given, Untouched (((s.newLock gate given).unlink w).settle w status) := by
    intro w status given
    have locks := SameLocks.unlink (s.newLock gate given) w status
    obtain ⟨state, gates, -⟩ := unlink_state (s.newLock gate given) w status
    refine (untouched.newLock begun given).frame (fun c unbegun => ?_) locks.parent gates fun l c held => ?_
    · unfold Unbegun at unbegun
      rw [state] at unbegun
      exact unbegun
    · rw [locks.gateOf] at held
      exact held
  unfold InputGates.grantNext
  split
  · rename_i child rest children
    obtain ⟨c, linked⟩ := (queued.child gate child).1 (by simp [children])
    rw [fulfill_child (s := s.newLock gate false) linked]
    exact given child _ false
  · split
    · rename_i waiter rest waiters
      have linked := (queued.waiter gate waiter).1 (by simp [waiters])
      rw [fulfill_waiter (s := s.newLock gate true) linked]
      exact given waiter _ true
    · exact untouched

theorem Untouched.release (untouched : Untouched s) (accounted : Accounted s) (l : Nat) :
    Untouched (release l s).2 := by
  cases held : s.gateOf l with
  | none =>
    rw [release_none held]
    exact untouched
  | some h =>
    rw [release_run accounted held]
    have unlocked : Untouched (s.unlock l (s.adopter h)) := by
      refine untouched.frame (fun _ => id) rfl rfl fun i c there => ?_
      by_cases same : i = l
      · subst same
        simp [unlock] at there
      · simpa [unlock, same] using there
    have begun : ¬ (s.unlock l (s.adopter h)).Unbegun (s.adopter h) :=
      untouched.adopter accounted.counted (untouched.locks l h held)
    change Untouched (s.freed l (s.adopter h))
    unfold freed
    split
    · exact unlocked.grantNext { accounted.queued with } begun
    · exact unlocked

theorem step_untouched (sound : Sound s) (untouched : Untouched s) (stepped : step s event = some t)
    : Untouched t := by
  obtain ⟨accounted, starting, placed⟩ := sound
  cases event <;> simp only [step, Option.ite_none_right_eq_some, Option.some.injEq] at stepped <;>
    obtain ⟨admitted, rfl⟩ := stepped
  case wait gate aborted =>
    have asked : Untouched (s.asking gate aborted) := untouched.frame (fun _ => id) rfl rfl fun _ _ => id
    exact asked.waitOn (accounted.counted.same ⟨rfl, rfl, rfl, rfl, rfl, rfl⟩) admitted gate s.waits aborted
  case abort w => exact untouched.settles (.abort s w)
  case resume w =>
    unfold resume
    split
    · exact untouched.enter _ w _
    · exact untouched.frame (fun _ => id) rfl rfl fun _ _ => id
    · rename_i c exception _ _
      have running : Untouched (s.withState c .running) := untouched.withState (.inr ⟨by simp, by simp⟩)
      have broken := running.settles (.setBroken _ c exception)
      exact broken.frame (fun _ => id) rfl rfl fun _ _ => id
    · exact untouched
  case addRef l =>
    rw [addRef_state]
    split
    · exact untouched
    · rename_i g held
      exact untouched.newLock (untouched.locks l g held) true
  case release l => exact untouched.release accounted l
  case startCriticalSection l =>
    rw [startCriticalSection_state]
    split
    · exact untouched
    · rename_i g held
      refine ⟨untouched.locks, fun c first known => ?_⟩
      by_cases new : c = s.gates
      · subst new
        rw [show (s.newSection g).parent s.gates = g from Function.update_self ..]
        exact untouched.locks l g held
      · rw [show (s.newSection g).parent c = s.parent c from Function.update_of_ne new ..]
        exact untouched.parents c first (Nat.lt_of_le_of_ne (Nat.le_of_lt_succ known) new)
  case succeeded c =>
    have done : Untouched (s.withState c .reparented) := untouched.withState (.inr ⟨by simp, by simp⟩)
    have moved : Untouched (s.reparent c) := done.frame (fun _ => id) rfl rfl fun _ _ => id
    by_cases running : s.state c = .running
    · rw [succeeded_state running]
      split
      · exact moved
      · exact moved.frame (fun _ => id) rfl rfl fun _ _ => id
    · rw [succeeded_refused running]
      exact untouched
  case failed c exception => exact untouched.settles (.failed s c c exception)
  case setBroken gate exception => exact untouched.settles (.setBroken s gate exception)
  case drop c =>
    have dropped := untouched.settles (.dropped s c)
    rw [drop_state]
    split
    · exact dropped
    · have disowned : Untouched ((s.dropped c).disown c) := dropped.frame (fun _ => id) rfl rfl fun _ _ => id
      exact disowned.release ((accounted.dropped c).disown c) _

/-- A section whose first `wait` is over without its lock. -/
structure Stale (s : InputGates) (c : Nat) : Prop where
  initial : s.state c = .initialWait
  nobody : ∀ x, (s.wait x).starts ≠ some c

theorem enter_state (s : InputGates) (b lock w : Nat) (aborted : Bool) :
    (s.enter b lock w aborted).state = Function.update s.state b .running :=
  (gateWait_rest _ b w aborted).1

theorem start_state (s : InputGates) {b : Nat} (other : c ≠ b) (w : Nat) :
    (s.start b w).state c = s.state c := by
  have begun : (s.withState b .initialWait).state c = s.state c := Function.update_of_ne other ..
  rw [start_eq]
  unfold begin
  split
  · rename_i exception _
    change ((s.withState b .initialWait).setBroken b exception).state c = _
    rw [(Settles.setBroken _ b exception).state]
    exact begun
  · split
    · rw [enter_state, Function.update_of_ne other]
      exact begun
    · exact begun

theorem start_starts (s : InputGates) {b : Nat} (w : Nat) (first : ((s.start b w).wait w).starts = some c)
    : c = b := by
  rw [start_eq] at first
  unfold begin at first
  split at first
  · simp [settle, WaitStatus.starts] at first
  · split at first
    · unfold enter at first
      rw [(gateWait_wait _ b w false).2] at first
      cases first
    · simp only [newWaiterPromise, settle, Function.update_self, WaitStatus.starts,
        Option.some.injEq] at first
      exact first.symm

theorem waitOn_state (s : InputGates) (initial : s.state c = .initialWait) (fuel gate w : Nat)
    (aborted : Bool) :
    (s.waitOn fuel gate w aborted).state c = .initialWait := by
  induction fuel generalizing gate with
  | zero =>
    unfold waitOn
    split
    · rw [(gateWait_rest s 0 w aborted).1, initial]
    · split
      · exact initial
      · split
        · rename_i fresh
          rw [start_state s (fun same => by rw [same, fresh] at initial; cases initial) w, initial]
        · exact initial
        · rw [(gateWait_rest s gate w aborted).1, initial]
        · exact initial
  | succ fuel ih =>
    unfold waitOn
    split
    · rw [(gateWait_rest s 0 w aborted).1, initial]
    · split
      · exact initial
      · split
        · rename_i fresh
          rw [start_state s (fun same => by rw [same, fresh] at initial; cases initial) w, initial]
        · exact initial
        · rw [(gateWait_rest s gate w aborted).1, initial]
        · exact ih _

theorem waitOn_starts (s : InputGates) (idle : (s.wait w).starts = none) (fuel gate : Nat) (aborted : Bool)
    (first : ((s.waitOn fuel gate w aborted).wait w).starts = some c) : 0 < c ∧ s.state c = .notStarted := by
  have waited : ∀ g, ((s.gateWait g w aborted).wait w).starts ≠ some c := by
    intro g mine
    rw [(gateWait_wait s g w aborted).2] at mine
    cases mine
  have settled : ∀ exception, ((s.settle w (.rejected exception)).wait w).starts ≠ some c := by
    intro exception mine
    simp [settle, WaitStatus.starts] at mine
  induction fuel generalizing gate with
  | zero =>
    unfold waitOn at first
    split at first
    · exact absurd first (waited 0)
    · rename_i section_
      split at first
      · exact absurd first (settled _)
      · split at first
        · rename_i fresh
          rw [start_starts s w first]
          exact ⟨Nat.pos_of_ne_zero section_, fresh⟩
        · exact absurd first (settled _)
        · exact absurd first (waited gate)
        · rw [idle] at first
          cases first
  | succ fuel ih =>
    unfold waitOn at first
    split at first
    · exact absurd first (waited 0)
    · rename_i section_
      split at first
      · exact absurd first (settled _)
      · split at first
        · rename_i fresh
          rw [start_starts s w first]
          exact ⟨Nat.pos_of_ne_zero section_, fresh⟩
        · exact absurd first (settled _)
        · exact absurd first (waited gate)
        · exact ih _ first

theorem resume_starts (s : InputGates) (x : Nat) (first : ((s.resume x).wait x).starts = some c) :
    (s.wait x).starts = some c := by
  unfold resume at first
  split at first
  · unfold enter at first
    rw [(gateWait_wait _ _ x _).2] at first
    cases first
  · simp [settle, WaitStatus.starts] at first
  · simp [settle, WaitStatus.starts] at first
  · exact first

theorem grantNext_state (queued : Queued s) (gate : Nat) : (s.grantNext gate).state = s.state := by
  unfold grantNext
  split
  · rename_i child rest children
    obtain ⟨c, linked⟩ := (queued.child gate child).1 (by simp [children])
    rw [fulfill_child (s := s.newLock gate false) linked]
    exact (unlink_state ..).1
  · split
    · rename_i waiter rest waiters
      have linked := (queued.waiter gate waiter).1 (by simp [waiters])
      rw [fulfill_waiter (s := s.newLock gate true) linked]
      exact (unlink_state ..).1
    · rfl

theorem release_state (accounted : Accounted s) (l : Nat) : (release l s).2.state = s.state := by
  cases held : s.gateOf l with
  | none => rw [release_none held]
  | some h =>
    rw [release_run accounted held]
    change (s.freed l (s.adopter h)).state = _
    unfold freed
    split
    · exact grantNext_state (s := s.unlock l (s.adopter h)) { accounted.queued with } _
    · rfl

/-- Nothing but its own first `wait` takes a section on from there. -/
theorem step_state (sound : Sound s) (stepped : step s event = some t) (initial : s.state c = .initialWait)
    (nobody : ∀ x, event = .resume x → (s.wait x).starts ≠ some c) : t.state c = .initialWait := by
  obtain ⟨accounted, starting, placed⟩ := sound
  cases event <;> simp only [step, Option.ite_none_right_eq_some, Option.some.injEq] at stepped <;>
    obtain ⟨admitted, rfl⟩ := stepped
  case wait gate aborted => exact waitOn_state (s.asking gate aborted) initial gate gate s.waits aborted
  case abort w => rw [(Settles.abort s w).state, initial]
  case resume x =>
    have apart : ∀ b, (s.wait x).starts = some b → c ≠ b := by
      rintro b first rfl
      exact nobody x rfl first
    unfold resume
    split
    · rename_i b l status
      rw [enter_state, Function.update_of_ne (apart b (by rw [status]; rfl)), initial]
    · exact initial
    · rename_i b exception _ status
      change ((s.withState b .running).setBroken b exception).state c = _
      rw [(Settles.setBroken _ b exception).state]
      exact (Function.update_of_ne (apart b (by rw [status]; rfl)) ..).trans initial
    · exact initial
  case addRef l =>
    rw [addRef_state]
    split
    · exact initial
    · exact initial
  case release l => rw [release_state accounted, initial]
  case startCriticalSection l =>
    rw [startCriticalSection_state]
    split
    · exact initial
    · exact initial
  case succeeded b =>
    by_cases running : s.state b = .running
    · have apart : c ≠ b := by
        rintro rfl
        rw [initial] at running
        cases running
      have moved : (s.reparent b).state c = .initialWait := (Function.update_of_ne apart ..).trans initial
      rw [succeeded_state running]
      split
      · exact moved
      · exact moved
    · rw [succeeded_refused running]
      exact initial
  case failed b exception => rw [(Settles.failed s b b exception).state, initial]
  case setBroken gate exception => rw [(Settles.setBroken s gate exception).state, initial]
  case drop b =>
    have dropped : (s.dropped b).state c = .initialWait := by rw [(Settles.dropped s b).state, initial]
    rw [drop_state]
    split
    · exact dropped
    · rw [release_state (s := (s.dropped b).disown b) ((accounted.dropped b).disown b)]
      exact dropped

/-- A call begins a section that nobody has asked before. -/
theorem step_starts (sound : Sound s) (stepped : step s event = some t) (first : (t.wait x).starts = some c) :
    (s.wait x).starts = some c ∨ 0 < c ∧ s.state c = .notStarted := by
  by_cases resumed : event = .resume x
  · subst resumed
    simp only [step, Option.ite_none_right_eq_some, Option.some.injEq] at stepped
    obtain ⟨-, rfl⟩ := stepped
    exact .inl (resume_starts s x first)
  · by_cases new : ∃ gate aborted, event = .wait gate aborted ∧ x = s.waits
    · obtain ⟨gate, aborted, rfl, rfl⟩ := new
      simp only [step, Option.ite_none_right_eq_some, Option.some.injEq] at stepped
      obtain ⟨-, rfl⟩ := stepped
      obtain ⟨exception, fresh⟩ := sound.accounted.queued.later s.waits le_rfl
      have idle : ((s.asking gate aborted).wait s.waits).starts = none := (not_linked_of_rejected fresh).2
      exact .inr (waitOn_starts (s.asking gate aborted) idle gate gate aborted first)
    · have old : ∀ gate aborted, event = .wait gate aborted → x ≠ s.waits := fun gate aborted same mine =>
        new ⟨gate, aborted, same, mine⟩
      rw [(step_call sound stepped old resumed).1] at first
      exact .inl first

theorem step_stale (sound : Sound s) (stale : Stale s c) (stepped : step s event = some t) : Stale t c := by
  refine ⟨step_state sound stepped stale.initial fun x _ => stale.nobody x, fun x first => ?_⟩
  rcases step_starts sound stepped first with before | ⟨-, fresh⟩
  · exact stale.nobody x before
  · rw [stale.initial] at fresh
    cases fresh

/-- The root is no section. -/
def Sections (s : InputGates) : Prop := ∀ x c, (s.wait x).starts = some c → 0 < c

theorem step_sections (sound : Sound s) (sections : Sections s) (stepped : step s event = some t)
    : Sections t := by
  intro x c first
  rcases step_starts sound stepped first with before | ⟨section_, -⟩
  · exact sections x c before
  · exact section_

/-- What the cancellation of a call rests on. -/
structure Settled (s : InputGates) : Prop extends Sound s where
  untouched : Untouched s
  sections : Sections s

theorem step_settled (settled : Settled s) (stepped : step s event = some t) : Settled t :=
  ⟨step_sound settled.toSound stepped, step_untouched settled.toSound settled.untouched stepped,
    step_sections settled.toSound settled.sections stepped⟩

theorem opened_settled : Settled opened := by
  refine ⟨opened_sound, ⟨fun l c held => ?_, fun g first known => ?_⟩, fun x c first => ?_⟩
  · cases held
  · exact absurd known (Nat.not_lt.2 first)
  · cases first

theorem reaches_settled {admits : InputGates → Event → Prop} (reached : Reaches step admits opened s)
    : Settled s :=
  reached.invariant opened_settled fun _ _ _ kept _ stepped => step_settled kept stepped

end Starts

section Cancelling

variable {s t u : InputGates} {event : Event} {x w b : Nat} {c : Option Nat}

/-- The call is in a list, or is to be told that it was cancelled there. -/
def Waiting (s : InputGates) (w : Nat) (c : Option Nat) : Prop :=
  (∃ g, s.wait w = .linked g c) ∨ ∃ b, c = some b ∧ s.wait w = .refused b .canceled

/-- The call is over for want of a lock, and the section whose first it was does not go on. -/
structure Ended (s : InputGates) (w : Nat) (c : Option Nat) : Prop where
  cancelled : s.wait w = .rejected .canceled
  stale : ∀ b, c = some b → s.Stale b

/-- The call was given a lock, or fails with an error of the gate. -/
def Spent (s : InputGates) (w : Nat) : Prop :=
  s.Served w ∨ (∃ b m, s.wait w = .refused b (.error m)) ∨ ∃ m, s.wait w = .rejected (.error m)

theorem waiting_or_spent (starts : (s.wait w).starts = c) (out : s.wait w ≠ .rejected .canceled) :
    s.Waiting w c ∨ s.Spent w := by
  cases status : s.wait w with
  | linked g d =>
    rw [status] at starts
    obtain rfl : d = c := starts
    exact .inl (.inl ⟨g, status⟩)
  | granted b l => exact .inr (.inl (.inr ⟨b, l, status⟩))
  | refused b exception =>
    rw [status] at starts
    cases exception with
    | canceled => exact .inl (.inr ⟨b, starts.symm, status⟩)
    | error m => exact .inr (.inr (.inl ⟨b, m, status⟩))
  | resolved l => exact .inr (.inl (.inl ⟨l, status⟩))
  | rejected exception =>
    cases exception with
    | canceled => exact absurd status out
    | error m => exact .inr (.inr (.inr ⟨m, status⟩))

theorem Waiting.starts (waiting : s.Waiting w c) : (s.wait w).starts = c := by
  rcases waiting with ⟨g, status⟩ | ⟨b, rfl, status⟩
  · rw [status]
    rfl
  · rw [status]
    rfl

theorem Waiting.unserved (waiting : s.Waiting w c) : ¬ s.Served w := by
  rintro (⟨l, served⟩ | ⟨b, l, served⟩)
  · rcases waiting with ⟨g, status⟩ | ⟨b, -, status⟩
    · rw [served] at status
      cases status
    · rw [served] at status
      cases status
  · rcases waiting with ⟨g, status⟩ | ⟨b, -, status⟩
    · rw [served] at status
      cases status
    · rw [served] at status
      cases status

theorem Waiting.quiet (waiting : s.Waiting w c) (b : Nat) (m : String) : s.wait w ≠ .refused b (.error m) :=
    by
  intro refused
  rcases waiting with ⟨g, status⟩ | ⟨b, -, status⟩
  · rw [refused] at status
    cases status
  · rw [refused] at status
    cases status

theorem Waiting.atStart (waiting : s.Waiting w c) (starting : Starting s) : s.AtStart c := by
  rintro b rfl
  exact (starting.initial w b waiting.starts).1

/-- The call is still out, a section that has its lock goes on while the signal is not aborted, and
    a section is not made to wait again before its first `wait` is over. -/
structure Undisturbed (w : Nat) (s : InputGates) (event : Event) : Prop where
  out : ∀ exception, s.wait w ≠ .rejected exception
  clean : event = .resume w → ∀ b l, s.wait w = .granted b l → s.aborted w = false ∧
    s.brokenState b ≠ some .canceled
  once : ∀ b, (s.wait w).starts = some b → ∀ aborted, event ≠ .wait b aborted

theorem made_of_out (sound : Sound s) (out : ∀ exception, s.wait w ≠ .rejected exception) : w < s.waits := by
  by_contra unmade
  obtain ⟨exception, fresh⟩ := sound.accounted.queued.later w (Nat.le_of_not_lt unmade)
  exact out exception fresh

/-- A section that goes on with its lock gets the first lock of its own. -/
theorem enter_wait {lock : Nat} (free : s.lockCount b = 0) (sane : s.brokenState b ≠ some .canceled) :
    (s.enter b lock w false).Spent w := by
  have mine : ∀ (t : InputGates) (status : WaitStatus), (t.settle w status).wait w = status := fun _ _ =>
    Function.update_self ..
  unfold enter gateWait
  simp only [Bool.false_eq_true, if_false, free, if_true]
  split
  · rename_i exception broken
    cases exception with
    | canceled => exact absurd broken sane
    | error m => exact .inr (.inr ⟨m, mine ..⟩)
  · exact .inl (.inl ⟨_, mine ..⟩)

theorem step_waiting (sound : Sound s) (waiting : s.Waiting w c) (undisturbed : Undisturbed w s event)
    (stepped : step s event = some t) : t.Waiting w c ∨ t.Ended w c ∨ t.Spent w := by
  have made := made_of_out sound undisturbed.out
  by_cases resumed : event = .resume w
  · subst resumed
    simp only [step, Option.ite_none_right_eq_some, Option.some.injEq] at stepped
    obtain ⟨-, rfl⟩ := stepped
    rcases waiting with ⟨g, status⟩ | ⟨b, rfl, status⟩
    · have same : s.resume w = s := by
        unfold resume
        rw [status]
      rw [same]
      exact .inl (.inl ⟨g, status⟩)
    · have told : s.resume w = s.settle w (.rejected .canceled) := by
        unfold resume
        rw [status]
      have first : (s.wait w).starts = some b := by rw [status]; rfl
      rw [told]
      refine .inr (.inl ⟨Function.update_self .., fun d same => ?_⟩)
      cases same
      refine ⟨(sound.starting.initial w b first).1, fun x starts => ?_⟩
      by_cases mine : x = w
      · subst mine
        simp [settle, WaitStatus.starts] at starts
      · have before : (s.wait x).starts = some b := by simpa [settle, mine] using starts
        exact mine (sound.starting.once x w b before first)
  · have kept := (step_call sound stepped (fun _ _ _ => Nat.ne_of_lt made) resumed).1.trans waiting.starts
    by_cases cancelled : t.wait w = .rejected .canceled
    · rw [cancelled] at kept
      obtain rfl : none = c := kept
      exact .inr (.inl ⟨cancelled, fun b none => by cases none⟩)
    · rcases waiting_or_spent kept cancelled with waiting | spent
      · exact .inl waiting
      · exact .inr (.inr spent)

theorem step_spent (settled : Settled s) (spent : s.Spent w) (undisturbed : Undisturbed w s event)
    (stepped : step s event = some t) : t.Spent w := by
  have sound := settled.toSound
  have made := made_of_out sound undisturbed.out
  have free : ¬ (s.wait w).Linked := by
    rintro ⟨g, d, linked⟩
    rcases spent with (⟨l, status⟩ | ⟨b, l, status⟩)
      | ⟨b, m, status⟩ | ⟨m, status⟩ <;> rw [linked] at status <;> cases status
  by_cases resumed : event = .resume w
  · subst resumed
    simp only [step, Option.ite_none_right_eq_some, Option.some.injEq] at stepped
    obtain ⟨-, rfl⟩ := stepped
    rcases spent with (⟨l, status⟩ | ⟨b, l, status⟩) | ⟨b, m, status⟩ | ⟨m, status⟩
    · have same : s.resume w = s := by
        unfold resume
        rw [status]
      rw [same]
      exact .inl (.inl ⟨l, status⟩)
    · obtain ⟨live, sane⟩ := undisturbed.clean rfl b l status
      have first : (s.wait w).starts = some b := by rw [status]; rfl
      have unbegun : s.Unbegun b := ⟨settled.sections w b first, .inr (sound.starting.initial w b first).1⟩
      have entered : s.resume w = s.enter b l w false := by
        unfold resume
        rw [status, live]
      rw [entered]
      exact enter_wait (settled.untouched.free sound.accounted.counted unbegun) sane
    · have told : (s.resume w).wait w = .rejected (.error m) := by
        unfold resume
        rw [status]
        exact Function.update_self ..
      exact .inr (.inr ⟨m, told⟩)
    · exact absurd status (undisturbed.out _)
  · have same := (step_call sound stepped (fun _ _ _ => Nat.ne_of_lt made) resumed).2 free
    unfold Spent Served
    rw [same]
    exact spent

theorem run_spent (settled : Settled s) (spent : s.Spent w) {events : List Event}
    (undisturbed : Admitted step (Undisturbed w) s events) (ran : run step s events = some u) : u.Spent w :=
      by
  induction events generalizing s with
  | nil =>
    cases ran
    exact spent
  | cons event rest ih =>
    obtain ⟨t, stepped, ran⟩ := Option.bind_eq_some_iff.1 ran
    obtain ⟨first, later⟩ := undisturbed
    exact ih (step_settled settled stepped) (step_spent settled spent first stepped) (later t stepped) ran

/-- A run in which the call waits is the run without it, until the call is given a lock or fails. -/
theorem run_spared (settled : Settled s) (sound' : Sound (s.spared w c))
    (waiting : s.Waiting w c ∨ s.Ended w c)
    {events : List Event} (undisturbed : Admitted step (Undisturbed w) s events)
      (ran : run step s events = some u) :
    (run step (s.spared w c) events = some (u.spared w c) ∧ (u.Waiting w c ∨ u.Ended w c)) ∨ u.Spent w := by
  induction events generalizing s with
  | nil =>
    cases ran
    exact .inl ⟨rfl, waiting⟩
  | cons event rest ih =>
    obtain ⟨t, stepped, ran⟩ := Option.bind_eq_some_iff.1 ran
    obtain ⟨first, later⟩ := undisturbed
    have waiting : s.Waiting w c := waiting.resolve_right fun ended => first.out _ ended.cancelled
    have kept := step_settled settled stepped
    have spared : ¬ t.Served w → step (s.spared w c) event = some (t.spared w c) := by
      intro passed
      refine spared_step settled.toSound sound'.accounted (waiting.atStart settled.starting)
        (made_of_out settled.toSound
        first.out) ?_ waiting.quiet waiting.unserved ?_ stepped passed
      · rintro x other b starts rfl
        exact other (settled.starting.once x w b starts waiting.starts)
      · rintro gate aborted rfl rfl
        have begun := waiting.starts
        have unbegun : s.Unbegun (s.adopter gate) :=
          ⟨settled.sections w _ begun, .inr (settled.starting.initial w _ begun).1⟩
        refine first.once _ begun aborted ?_
        rw [settled.untouched.own settled.accounted.counted unbegun]
    have goes : t.Waiting w c ∨ t.Ended w c → ¬ t.Served w → _ := fun waits passed =>
      ih kept (step_sound sound' (spared passed)) waits (later t stepped) ran
    have went : ∀ passed : ¬ t.Served w, run step (s.spared w c) (event :: rest) = run step (t.spared w c)
      rest := by
      intro passed
      simp only [run, spared passed, Option.bind_some]
    rcases step_waiting settled.toSound waiting first stepped with waits | ended | spent
    · rw [went waits.unserved]
      exact goes (.inl waits) waits.unserved
    · have passed : ¬ t.Served w := by
        rintro (⟨l, served⟩ | ⟨b, l, served⟩)
        · rw [ended.cancelled] at served
          cases served
        · rw [ended.cancelled] at served
          cases served
      rw [went passed]
      exact goes (.inr ended) passed
    · exact .inr (run_spent kept spent (later t stepped) ran)

theorem call_aborted (s : InputGates) (gate : Nat) :
    s.call gate true = (s.asking gate true).settle s.waits (.rejected .canceled) := by
  have asked : s.call gate true = (s.asking gate true).waitOn gate gate s.waits true := rfl
  have root : (s.asking gate true).gateWait 0 s.waits true = (s.asking gate true).settle s.waits
    (.rejected .canceled) := rfl
  rw [asked]
  unfold waitOn
  split
  · exact root
  · rfl

theorem erased_fresh (queued : Queued s) (free : ¬ (s.wait w).Linked) :
    (fun g => (s.waiters g).erase w) = s.waiters ∧ (fun g => (s.waitingChildren g).erase w)
      = s.waitingChildren := by
  constructor
  · funext g
    apply List.erase_of_not_mem
    intro member
    exact free ⟨g, none, (queued.waiter g w).1 member⟩
  · funext g
    apply List.erase_of_not_mem
    intro member
    obtain ⟨c, linked⟩ := (queued.child g w).1 member
    exact free ⟨g, some c, linked⟩

/-- A call that joins a list is in nobody's way. -/
theorem spared_join (queued : Queued s) (free : ¬ (s.wait w).Linked) (gate : Nat) (starts : Option Nat) :
    (s.newWaiterPromise gate starts w).spared w c = s.spared w c := by
  have last : ∀ (f : Nat → List Nat), (∀ g, w ∉ f g) →
      (fun g => (Function.update f gate (f gate ++ [w]) g).erase w) = fun g => (f g).erase w := by
    intro f out
    funext g
    by_cases same : g = gate
    · subst same
      rw [Function.update_self, List.erase_append_right _ (out g), List.erase_of_not_mem (out g),
        List.erase_cons_head,
        List.append_nil]
    · rw [Function.update_of_ne same]
  have children : ∀ g, w ∉ s.waitingChildren g := by
    intro g member
    obtain ⟨d, linked⟩ := (queued.child g w).1 member
    exact free ⟨g, some d, linked⟩
  have waiters : ∀ g, w ∉ s.waiters g := fun g member => free ⟨g, none, (queued.waiter g w).1 member⟩
  unfold newWaiterPromise
  cases starts with
  | none =>
    rw [spared_settle_self]
    unfold spared
    simp only [last s.waiters waiters]
  | some b =>
    rw [spared_settle_self]
    unfold spared
    simp only [last s.waitingChildren children]

/-- What a call comes to at once. -/
theorem call_spared (settled : Settled s) {gate : Nat} (known : gate < s.gates)
    (sane : ∀ g, s.brokenState g ≠ some .canceled) :
    (∃ c, (s.call gate false).Waiting s.waits c ∧ (s.call gate false).spared s.waits c = s.call gate true ∧
      (s.adopter gate ≠ 0 → s.state (s.adopter gate) = .notStarted → c = some (s.adopter gate))) ∨
      (s.call gate false).Spent s.waits := by
  obtain ⟨exception, fresh⟩ := settled.accounted.queued.later s.waits le_rfl
  have counted : Counted (s.asking gate false) :=
    settled.accounted.counted.same ⟨rfl, rfl, rfl, rfl, rfl, rfl⟩
  have queued : Queued (s.asking gate false) :=
    { settled.accounted.queued with
      later := fun x later => settled.accounted.queued.later x (Nat.le_of_succ_le later) }
  have free : ¬ ((s.asking gate false).wait s.waits).Linked := (not_linked_of_rejected fresh).1
  have goes : s.call gate false = (s.asking gate false).waitOn 0 (s.adopter gate) s.waits false :=
    waitOn_adopter counted (Nat.le_refl gate) s.waits false
  have mine : ∀ (t : InputGates) (status : WaitStatus), (t.settle s.waits status).wait s.waits = status :=
    fun _ _ =>
    Function.update_self ..
  have unmade : (s.asking gate false).spared s.waits none = s.call gate true := by
    rw [call_aborted]
    unfold spared
    rw [(erased_fresh queued free).1, (erased_fresh queued free).2]
    unfold asking settle
    simp only [Function.update_idem, Option.elim_none]
  have waits_in : ∀ {t : InputGates} {g : Nat} {c : Option Nat},
    (t.newWaiterPromise g c s.waits).Waiting s.waits c := by
    intro t g c
    refine .inl ⟨g, ?_⟩
    unfold newWaiterPromise
    cases c with
    | none => exact mine ..
    | some b => exact mine ..
  have failed : ∀ {t : InputGates} {g : Nat} {exception : GateException}, s.brokenState g = some exception →
      (t.settle s.waits (.rejected exception)).Spent s.waits := by
    intro t g exception broken
    cases exception with
    | canceled => exact absurd broken (sane g)
    | error m => exact .inr (.inr ⟨m, mine ..⟩)
  have waited : ∀ g, (g ≠ 0 → s.state g ≠ .notStarted) →
    ((s.asking gate false).gateWait g s.waits false).Spent s.waits ∨
      ∃ c, ((s.asking gate false).gateWait g s.waits false).Waiting s.waits c ∧
        ((s.asking gate false).gateWait g s.waits false).spared s.waits c = s.call gate true ∧
          (g ≠ 0 → s.state g = .notStarted → c = some g) := by
    intro g begun
    unfold gateWait
    simp only [Bool.false_eq_true, if_false]
    split
    · rename_i exception broken
      exact .inl (failed broken)
    · split
      · exact .inl (.inl (.inl ⟨_, mine ..⟩))
      · refine .inr ⟨none, waits_in, ?_, fun section_ unbegun => absurd unbegun (begun section_)⟩
        rw [spared_join queued free, unmade]
  rw [goes]
  unfold waitOn
  split
  · rename_i root
    rw [root]
    exact (waited 0 fun section_ => absurd rfl section_).symm
  · rename_i section_
    have first := Nat.pos_of_ne_zero section_
    simp only [Bool.false_eq_true, if_false]
    split
    · rename_i fresh
      have fresh' : s.state (s.adopter gate) = .notStarted := fresh
      have counts : Counted ((s.asking gate false).withState (s.adopter gate) .initialWait) :=
        counted.same (.setState (by simp [fresh]) (by simp) s.parentLock)
      have unlocked : s.lockCount (s.adopter gate) = 0 :=
        settled.untouched.free settled.accounted.counted ⟨first, .inl fresh'⟩
      rw [start_eq]
      unfold begin
      split
      · rename_i exception broken
        exact .inr (failed broken)
      · split
        · refine .inr (enter_wait ?_ (sane _))
          have target := parent_lt counts first
          rw [newLock_lockCount counts, adopter_of_stays (counts.parent_stays _), Function.update_of_ne
            (Nat.ne_of_gt target)]
          exact unlocked
        · refine .inl ⟨some (s.adopter gate), waits_in, ?_, fun _ _ => rfl⟩
          have same : Function.update s.state (s.adopter gate) .notStarted = s.state := by
            rw [← fresh', Function.update_eq_self]
          have begun : Queued ((s.asking gate false).withState (s.adopter gate) .initialWait) :=
            { queued with }
          rw [spared_join begun free, ← unmade]
          unfold spared withState asking
          simp only [Option.elim_some, Option.elim_none, Function.update_idem, same]
    · exact .inr (.inr (.inr ⟨_, mine ..⟩))
    · rename_i running
      refine (waited _ fun _ unbegun => ?_).symm
      change s.state _ = _ at running
      rw [unbegun] at running
      cases running
    · rename_i gone
      have stays := settled.accounted.counted.adopter_stays gate
      change s.state _ = _ at gone
      simp [isReparented, first, gone] at stays

/-- The gates are the same, and what has become of every other call. -/
structure SameBut (w : Nat) (s t : InputGates) : Prop where
  lockCount : t.lockCount = s.lockCount
  waiters : t.waiters = s.waiters
  waitingChildren : t.waitingChildren = s.waitingChildren
  brokenState : t.brokenState = s.brokenState
  parentLock : t.parentLock = s.parentLock
  gateOf : t.gateOf = s.gateOf
  others : ∀ x, x ≠ w → t.wait x = s.wait x

theorem Stale.dropped {b : Nat} (stale : s.Stale b) (sound : Sound s) (stepped : step s (.drop b) = some t) :
    t.brokenState = s.brokenState := by
  simp only [step, Option.ite_none_right_eq_some, Option.some.injEq] at stepped
  obtain ⟨-, rfl⟩ := stepped
  have still : s.dropped b = s := by
    unfold InputGates.dropped
    rw [stale.initial]
    rfl
  rw [drop_state, still]
  split
  · rfl
  · exact (release_leaves (s := s.disown b) (sound.accounted.disown b) _).2.1

/-- As long as no signal aborts between the grant to a section and the continuation that goes on
    with it, a call that is cancelled leaves what there would be without it. -/
theorem cancelled_wait_leaves_nothing (reached : Reaches step (fun _ _ => True) opened s) {gate : Nat}
    (known : gate < s.gates) (sane : ∀ g, s.brokenState g ≠ some .canceled) {events : List Event}
    (undisturbed : Admitted step (Undisturbed s.waits) (s.call gate false) events)
    (ran : run step (s.call gate false) events = some u) (cancelled : u.wait s.waits = .rejected .canceled) :
    SameBut s.waits s (s.call gate true) ∧
      (∃ v, run step (s.call gate true) events = some v ∧ SameBut s.waits u v) ∧
        ∀ b, s.adopter gate = b → b ≠ 0 → s.state b = .notStarted →
          ∀ u', Reaches step (fun _ _ => True) u u' → ∀ t, step u' (.drop b) = some t →
            t.brokenState = u'.brokenState := by
  have called : ∀ aborted, step s (.wait gate aborted) = some (s.call gate aborted) := fun aborted =>
    if_pos known
  have settled := reaches_settled reached
  have settled' := step_settled settled (called false)
  have sound' := step_sound settled.toSound (called true)
  have unspent : ¬ u.Spent s.waits := by
    rintro ((⟨l, status⟩ | ⟨b, l, status⟩) | ⟨b, m, status⟩ | ⟨m, status⟩)
      <;> rw [cancelled] at status <;> cases status
  refine ⟨?_, ?_⟩
  · rw [call_aborted]
    exact ⟨rfl, rfl, rfl, rfl, rfl, rfl, fun x other => Function.update_of_ne other ..⟩
  · rcases call_spared settled known sane with ⟨c, waiting, same, begins⟩ | spent
    · rw [← same] at sound' ⊢
      obtain ⟨went, left⟩ := (run_spared settled' sound' (.inl waiting) undisturbed ran).resolve_right unspent
      have final : Settled u := reaches_settled ((reached.then _ trivial (called false)).trans
        (run_reaches events ran))
      have ended : u.Ended s.waits c := by
        refine left.resolve_left fun waits => ?_
        rcases waits with ⟨g, status⟩ | ⟨b, -, status⟩ <;> rw [cancelled] at status <;> cases status
      obtain ⟨waiters, children⟩ := erased_fresh final.accounted.queued (not_linked_of_rejected cancelled).1
      refine ⟨⟨_, went, rfl, waiters, children, rfl, rfl, rfl, fun x other => spared_wait other⟩, ?_⟩
      rintro b rfl section_ fresh u' later t dropped
      have stale := ended.stale _ (begins section_ fresh)
      obtain ⟨settled, stale⟩ := later.invariant (P := fun u => Settled u ∧ u.Stale (s.adopter gate))
        ⟨final, stale⟩
        fun _ _ _ kept _ stepped => ⟨step_settled kept.1 stepped, step_stale kept.1.toSound kept.2 stepped⟩
      exact stale.dropped settled.toSound dropped
    · exact absurd (run_spent settled' spent undisturbed ran) unspent

theorem failed_breaks (s : InputGates) (fuel b : Nat) (exception : GateException) :
    (s.failed fuel b exception).Broken b := by
  unfold failed
  split
  · rename_i already
    exact fun sane => by simp [sane] at already
  · have broken : (s.setBroken b exception).Broken b := (setBroken_broken s b exception b).2 (.inl rfl)
    dsimp only
    split
    · exact (Breaks.setBroken _ 0 exception).2 b broken
    · split
      · exact broken
      · exact (Breaks.failed _ _ _ exception).2 b broken

/-- Where the signal aborts in between, the section is left with its parent's lock, and breaks when it is dropped. -/
theorem granted_wait_aborted (sound : Sound s) {b l : Nat} (granted : s.wait w = .granted b l)
    (aborted : s.aborted w = true)
    (stepped : step s (.resume w) = some t) : t.wait w = .rejected .canceled ∧ t.parentLock b = some l ∧
      ∀ t', step t (.drop b) = some t' → t'.Broken b := by
  have sound' := step_sound sound stepped
  simp only [step, Option.ite_none_right_eq_some, Option.some.injEq] at stepped
  obtain ⟨-, rfl⟩ := stepped
  have entered : s.resume w = s.enter b l w true := by
    unfold resume
    rw [granted, aborted]
  rw [entered] at sound' ⊢
  have running : (s.enter b l w true).state b = .running := by
    rw [enter_state, Function.update_self]
  have owned : (s.enter b l w true).parentLock b = some l := Function.update_self ..
  refine ⟨Function.update_self .., owned, fun t' dropped => ?_⟩
  simp only [step, Option.ite_none_right_eq_some, Option.some.injEq] at dropped
  obtain ⟨-, rfl⟩ := dropped
  have broken : ((s.enter b l w true).dropped b).Broken b := by
    unfold InputGates.dropped
    rw [if_pos running]
    exact failed_breaks _ b b _
  rw [drop_state, owned]
  have kept := (release_leaves (s := ((s.enter b l w true).dropped b).disown b)
    ((sound'.accounted.dropped b).disown b) l).2.1
  change ((release l (((s.enter b l w true).dropped b).disown b)).2).brokenState b ≠ none
  rw [kept]
  exact broken

/-- The first wait of a section, cancelled in its list while another call waits for the root. -/
theorem cancelled_wait_leaves_nothing_queued : ∃ u v : InputGates, u.wait 1 = .rejected .canceled ∧
    u.lockCount 0 = 1 ∧
    u.waiters 0 = [2] ∧ SameBut 1 u v := by
  have start : Reaches step (fun _ _ => True) opened opened := .refl
  have locked := start.then (.wait 0 false) trivial rfl
  have begun := locked.then (.startCriticalSection 0) trivial rfl
  have undisturbed : Admitted step (Undisturbed 1)
    ((startCriticalSection 0 (opened.call 0 false)).2.call 1 false)
      [.wait 0 false, .abort 1, .resume 1] := by
    refine ⟨⟨?_, ?_, ?_⟩, ?_⟩
    · intro exception rejected
      cases rejected
    · intro resumed
      cases resumed
    · intro b first aborted same
      cases first
      cases same
    · rintro t ⟨⟩
      refine ⟨⟨?_, ?_, ?_⟩, ?_⟩
      · intro exception rejected
        cases rejected
      · intro resumed
        cases resumed
      · intro b first aborted same
        cases same
      · rintro t ⟨⟩
        refine ⟨⟨?_, ?_, ?_⟩, fun _ _ => trivial⟩
        · intro exception rejected
          cases rejected
        · intro resumed b l granted
          cases granted
        · intro b first aborted same
          cases same
  obtain ⟨-, ⟨v, -, same⟩, -⟩ := cancelled_wait_leaves_nothing begun (show 1 < 2 by decide)
    (fun g broken => by cases broken) undisturbed rfl rfl
  exact ⟨_, v, rfl, rfl, rfl, same⟩

/-- The signal of a section's first wait aborts between the grant and the continuation. -/
theorem abort_after_grant_leaves_lock : ¬ ∀ s u v : InputGates, ∀ gate events,
    Reaches step (fun _ _ => True) opened s → gate < s.gates → (∀ g, s.brokenState g ≠ some .canceled) →
      run step (s.call gate false) events = some u → u.wait s.waits = .rejected .canceled →
        run step (s.call gate true) events = some v → v.lockCount = u.lockCount := by
  intro same
  have start : Reaches step (fun _ _ => True) opened opened := .refl
  have locked := start.then (.wait 0 false) trivial rfl
  have begun := locked.then (.startCriticalSection 0) trivial rfl
  have counts := same _ _ _ 1 [.release 0, .abort 1, .resume 1] begun (by decide)
    (fun g broken => by cases broken) rfl rfl rfl
  have left := congrFun counts 0
  cases left

end Cancelling

end DoRuntime.Io.InputGates
