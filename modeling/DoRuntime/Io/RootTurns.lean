import DoRuntime.Io.BrokenGate
import DoRuntime.Io.GateOrder

namespace DoRuntime.Io.InputGates

open Forwarding Prog Transition

/-- Nobody is in line for a broken root, and what it rejects it rejects because it is broken, the
    calls that are withdrawn aside. -/
structure Denies (withdrawn : Nat → Prop) (s : InputGates) : Prop where
  quiet : s.Broken 0 → ∀ w, s.asked w = 0 → ¬ (s.wait w).Linked
  blamed : ∀ w, w < s.waits → s.asked w = 0 → ∀ exception, s.wait w = .rejected exception → withdrawn w ∨ s.Broken 0

/-- What a step leaves of the locks there are. -/
structure KeepsLocks (s t : InputGates) : Prop where
  locks : s.locks ≤ t.locks
  gateOf : ∀ l, l < s.locks → t.gateOf l = s.gateOf l
  given : ∀ l, l < s.locks → t.given l = s.given l

section Denials

variable {s t : InputGates} {withdrawn : Nat → Prop} {w : Nat}

theorem Denies.frame (denies : Denies withdrawn s) (asked : t.asked = s.asked) (waits : t.waits = s.waits)
    (broken : t.Broken 0 ↔ s.Broken 0) (root : ∀ x, s.asked x = 0 → t.wait x = s.wait x ∨ ∃ l, t.wait x = .resolved l) :
    Denies withdrawn t := by
  refine ⟨fun known x mine linked => ?_, fun x made mine exception rejected => ?_⟩
  · rw [asked] at mine
    rcases root x mine with same | ⟨l, resolved⟩
    · exact denies.quiet (broken.1 known) x mine (same ▸ linked)
    · obtain ⟨g, starts, linked⟩ := linked
      rw [resolved] at linked
      cases linked
  · rw [asked] at mine
    rw [waits] at made
    rcases root x mine with same | ⟨l, resolved⟩
    · rw [broken]
      exact denies.blamed x made mine exception (same.symm.trans rejected)
    · rw [resolved] at rejected
      cases rejected

theorem Denies.same (denies : Denies withdrawn s) (asked : t.asked = s.asked) (waits : t.waits = s.waits)
    (broken : t.brokenState = s.brokenState) (wait : t.wait = s.wait) : Denies withdrawn t :=
  denies.frame asked waits (by unfold Broken; rw [broken]) fun x _ => .inl (congrFun wait x)

theorem different (other : s.asked w ≠ 0) {x : Nat} (root : s.asked x = 0) : x ≠ w := by
  rintro rfl
  exact other root

theorem Denies.settle (denies : Denies withdrawn s) (other : s.asked w ≠ 0) (status : WaitStatus) :
    Denies withdrawn (s.settle w status) :=
  denies.frame rfl rfl Iff.rfl fun x root => .inl (Function.update_of_ne (different other root) ..)

theorem Denies.setBroken (denies : Denies withdrawn s) (atRoot : AtRoot s) (accounted : Accounted s) (g : Nat)
    (exception : GateException) : Denies withdrawn (s.setBroken g exception) := by
  have settles := Settles.setBroken s g exception
  have asked := setBroken_asked s g exception
  refine ⟨fun known x root linked => ?_, fun x made root e rejected => ?_⟩
  · rw [asked] at root
    obtain ⟨h, starts, linked⟩ := linked
    have before := settles.linked x h starts linked
    obtain rfl := (atRoot x root).2 h starts before
    rcases (setBroken_broken s g exception 0).1 known with rfl | known
    · have refused := (setBroken_wait accounted 0 exception x).1 starts before
      rw [linked, before] at refused
      cases starts <;> cases refused
    · exact denies.quiet known x root ⟨0, starts, before⟩
  · rw [asked] at root
    rw [settles.waits] at made
    rw [setBroken_broken]
    by_cases line : (s.wait x).Linked
    · obtain ⟨h, starts, linked⟩ := line
      obtain rfl := (atRoot x root).2 h starts linked
      by_cases mine : 0 = g
      · exact .inr (.inl mine)
      · have same := (setBroken_wait accounted g exception x).2 fun starts' there => by
          rw [linked] at there
          cases there
          exact mine rfl
        rw [same, linked] at rejected
        cases rejected
    · rw [settles.free x line] at rejected
      exact (denies.blamed x made root e rejected).imp id .inr

theorem Denies.failed (denies : Denies withdrawn s) (lined : Lined s) (accounted : Accounted s) (fuel c : Nat)
    (exception : GateException) : Denies withdrawn (s.failed fuel c exception) := by
  induction fuel generalizing s c with
  | zero =>
    have once := denies.setBroken lined.atRoot accounted c exception
    unfold InputGates.failed
    dsimp only
    split
    · exact denies
    · split
      · exact once.setBroken (lined.rejects (.setBroken s c exception)).1.atRoot (accounted.setBroken c exception) 0 _
      · exact once
  | succ fuel ih =>
    have once := denies.setBroken lined.atRoot accounted c exception
    have lined' := (lined.rejects (.setBroken s c exception)).1
    unfold InputGates.failed
    dsimp only
    split
    · exact denies
    · split
      · exact once.setBroken lined'.atRoot (accounted.setBroken c exception) 0 _
      · exact ih once lined' (accounted.setBroken c exception) _

theorem Denies.gateWait (denies : Denies withdrawn s) (other : s.asked w ≠ 0) (gate : Nat) (aborted : Bool) :
    Denies withdrawn (s.gateWait gate w aborted) := by
  have aside := Aside.gateWait s gate w aborted
  refine denies.frame aside.asked aside.waits (by unfold Broken; rw [gateWait_brokenState]) fun x root => .inl ?_
  exact (gateWait_wait s gate w aborted).1 x (different other root)

theorem Denies.enter (denies : Denies withdrawn s) (other : s.asked w ≠ 0) (c lock : Nat) (aborted : Bool) :
    Denies withdrawn (s.enter c lock w aborted) := by
  have entered : Denies withdrawn { s with
    state := Function.update s.state c .running
    parentLock := Function.update s.parentLock c (some lock) } := denies.same rfl rfl rfl rfl
  exact entered.gateWait other c aborted

theorem Denies.start (denies : Denies withdrawn s) (lined : Lined s) (accounted : Accounted s) (other : s.asked w ≠ 0)
    {c : Nat} (fresh : s.state c = .notStarted) : Denies withdrawn (s.start c w) := by
  have begun : Accounted (s.withState c .initialWait) := accounted.setState (by simp [fresh]) (by simp) s.parentLock
  have denied : Denies withdrawn (s.withState c .initialWait) := denies.same rfl rfl rfl rfl
  rw [start_eq]
  unfold begin
  split
  · rename_i exception _
    have broken := denied.setBroken lined.atRoot begun c exception
    refine broken.settle ?_ _
    rw [setBroken_asked]
    exact other
  · split
    · have locked : Denies withdrawn ((s.withState c .initialWait).newLock
        ((s.withState c .initialWait).parentAsInputGate c) false) := denied.same rfl rfl rfl rfl
      exact locked.enter other c _ false
    · exact denied.frame rfl rfl Iff.rfl fun x root => .inl (Function.update_of_ne (different other root) ..)

theorem Denies.waitOn (denies : Denies withdrawn s) (lined : Lined s) (accounted : Accounted s) (other : s.asked w ≠ 0)
    (fuel gate : Nat) (aborted : Bool) : Denies withdrawn (s.waitOn fuel gate w aborted) := by
  induction fuel generalizing gate with
  | zero =>
    unfold InputGates.waitOn
    split
    · exact denies.gateWait other 0 aborted
    · split
      · exact denies.settle other _
      · split
        · rename_i fresh
          exact denies.start lined accounted other fresh
        · exact denies.settle other _
        · exact denies.gateWait other gate aborted
        · exact denies
  | succ fuel ih =>
    unfold InputGates.waitOn
    split
    · exact denies.gateWait other 0 aborted
    · split
      · exact denies.settle other _
      · split
        · rename_i fresh
          exact denies.start lined accounted other fresh
        · exact denies.settle other _
        · exact denies.gateWait other gate aborted
        · exact ih (s.parent gate)

theorem Denies.resume (denies : Denies withdrawn s) (lined : Lined s) (accounted : Accounted s) (starting : Starting s)
    (w : Nat) : Denies withdrawn (s.resume w) := by
  have apart : ∀ c, (s.wait w).starts = some c → s.asked w ≠ 0 := by
    intro c starts root
    rw [(lined.atRoot w root).1] at starts
    cases starts
  unfold InputGates.resume
  split
  · rename_i c lock status
    exact denies.enter (apart c (by rw [status]; rfl)) c lock _
  · rename_i c status
    exact denies.settle (apart c (by rw [status]; rfl)) _
  · rename_i c exception _ status
    have starts : (s.wait w).starts = some c := by rw [status]; rfl
    have running : Accounted (s.withState c .running) :=
      accounted.setState (by simp [(starting.initial w c starts).1]) (by simp) s.parentLock
    have denied : Denies withdrawn (s.withState c .running) := denies.same rfl rfl rfl rfl
    refine (denied.setBroken lined.atRoot running c exception).settle ?_ _
    rw [setBroken_asked]
    exact apart c starts
  · exact denies

theorem Denies.grantNext (denies : Denies withdrawn s) (lined : Lined s) (queued : Queued s) (gate : Nat) :
    Denies withdrawn (s.grantNext gate) := by
  unfold InputGates.grantNext
  split
  · rename_i child rest children
    obtain ⟨c, linked⟩ := (queued.child gate child).1 (by simp [children])
    rw [fulfill_child (s := s.newLock gate false) linked]
    obtain ⟨broken, asked⟩ := unlink_rest (s.newLock gate false) child (.granted c s.locks)
    refine denies.frame asked (unlink_state ..).2.2 (by unfold Broken; rw [broken]; rfl) fun x root => .inl ?_
    rw [unlink_wait, if_neg]
    · rfl
    · intro same
      have first := (lined.atRoot x root).1
      rw [same, linked] at first
      cases first
  · split
    · rename_i waiter rest waiters
      have linked := (queued.waiter gate waiter).1 (by simp [waiters])
      rw [fulfill_waiter (s := s.newLock gate true) linked]
      obtain ⟨broken, asked⟩ := unlink_rest (s.newLock gate true) waiter (.resolved s.locks)
      refine denies.frame asked (unlink_state ..).2.2 (by unfold Broken; rw [broken]; rfl) fun x root => ?_
      rw [unlink_wait]
      split
      · exact .inr ⟨_, rfl⟩
      · exact .inl rfl
    · exact denies

theorem Denies.release (denies : Denies withdrawn s) (lined : Lined s) (accounted : Accounted s) (l : Nat) :
    Denies withdrawn (release l s).2 := by
  cases held : s.gateOf l with
  | none =>
    have refused : (InputGates.release l s).2 = s := by
      unfold InputGates.release
      rw [state_bind]
      simp only [held, raise_run]
    rw [refused]
    exact denies
  | some h =>
    rw [release_run accounted held]
    have unlocked : Denies withdrawn (s.unlock l (s.adopter h)) := denies.same rfl rfl rfl rfl
    dsimp only
    unfold freed
    split
    · exact unlocked.grantNext ⟨lined.atRoot, lined.inLine⟩ { accounted.queued with } _
    · exact unlocked

theorem Denies.abort (denies : Denies withdrawn s) (gone : withdrawn w) : Denies withdrawn (s.abort w) := by
  have rejects := Rejects.abort s w
  have broken : (s.abort w).brokenState = s.brokenState := (reject_rest ..).1
  have same : ∀ x, x ≠ w → (s.abort w).wait x = s.wait x := by
    intro x other
    unfold InputGates.abort
    rw [reject_wait, if_neg other]
  refine ⟨fun known x root linked => ?_, fun x made root e rejected => ?_⟩
  · rw [rejects.asked] at root
    obtain ⟨g, starts, linked⟩ := linked
    unfold Broken at known
    rw [broken] at known
    exact denies.quiet known x root ⟨g, starts, rejects.linked x g starts linked⟩
  · rw [rejects.asked] at root
    rw [rejects.waits] at made
    by_cases mine : x = w
    · exact .inl (mine ▸ gone)
    · rw [same x mine] at rejected
      unfold Broken
      rw [broken]
      exact denies.blamed x made root e rejected

theorem Denies.recorded (denies : Denies withdrawn s) (queued : Queued s) {gate : Nat} (other : gate ≠ 0) (aborted : Bool) :
    Denies withdrawn (s.recorded gate aborted) := by
  have old : ∀ x, (s.recorded gate aborted).asked x = 0 → x ≠ s.waits ∧ s.asked x = 0 := by
    intro x root
    have different : x ≠ s.waits := by
      rintro rfl
      exact other ((Function.update_self ..).symm.trans root)
    exact ⟨different, (Function.update_of_ne different ..).symm.trans root⟩
  refine ⟨fun known x root => denies.quiet known x (old x root).2, fun x made root e rejected => ?_⟩
  obtain ⟨different, root⟩ := old x root
  exact denies.blamed x (by have : x < s.waits + 1 := made; omega) root e rejected

theorem Denies.callRoot (denies : Denies withdrawn s) (queued : Queued s) (aborted : Bool)
    (gone : aborted = true → withdrawn s.waits) : Denies withdrawn (s.call 0 aborted) := by
  have same : s.call 0 aborted = (s.recorded 0 aborted).gateWait 0 s.waits aborted := by
    unfold call InputGates.waitOn
    rw [if_pos rfl]
    rfl
  have aside := Aside.gateWait (s.recorded 0 aborted) 0 s.waits aborted
  have others := (gateWait_wait (s.recorded 0 aborted) 0 s.waits aborted).1
  have broken : ((s.recorded 0 aborted).gateWait 0 s.waits aborted).brokenState = s.brokenState := gateWait_brokenState ..
  have mine : (∀ e, ((s.recorded 0 aborted).gateWait 0 s.waits aborted).wait s.waits = .rejected e →
        withdrawn s.waits ∨ s.Broken 0) ∧
      (s.Broken 0 → ¬ (((s.recorded 0 aborted).gateWait 0 s.waits aborted).wait s.waits).Linked) := by
    have out : ∀ status : WaitStatus, ¬ status.Linked →
        ¬ (((s.recorded 0 aborted).settle s.waits status).wait s.waits).Linked := by
      intro status out
      rw [show ((s.recorded 0 aborted).settle s.waits status).wait s.waits = status from Function.update_self ..]
      exact out
    unfold InputGates.gateWait
    split
    · rename_i flag
      exact ⟨fun _ _ => .inl (gone flag), fun _ => out _ (not_linked fun _ _ => by simp)⟩
    · split
      · rename_i exception known
        have known : s.Broken 0 := by
          unfold Broken
          rw [show s.brokenState 0 = _ from known]
          simp
        exact ⟨fun _ _ => .inr known, fun _ => out _ (not_linked fun _ _ => by simp)⟩
      · rename_i sane
        have sane : ¬ s.Broken 0 := fun known => known sane
        split
        · refine ⟨fun e rejected => ?_, fun known => absurd known sane⟩
          have status : (((s.recorded 0 aborted).newLock 0 true).settle s.waits (.resolved s.locks)).wait s.waits =
            .resolved s.locks := Function.update_self ..
          cases status.symm.trans rejected
        · refine ⟨fun e rejected => ?_, fun known => absurd known sane⟩
          have status : ((s.recorded 0 aborted).newWaiterPromise 0 none s.waits).wait s.waits = .linked 0 none :=
            Function.update_self ..
          cases status.symm.trans rejected
  rw [same]
  have old : ∀ x, x ≠ s.waits → ((s.recorded 0 aborted).gateWait 0 s.waits aborted).asked x = s.asked x := by
    intro x other
    rw [aside.asked]
    exact Function.update_of_ne other ..
  have same_broken : ((s.recorded 0 aborted).gateWait 0 s.waits aborted).Broken 0 ↔ s.Broken 0 := by
    unfold Broken
    rw [broken]
  refine ⟨fun known x root => ?_, fun x made root e rejected => ?_⟩
  · rw [same_broken] at known
    by_cases new : x = s.waits
    · rw [new]
      exact mine.2 known
    · rw [others x new]
      exact denies.quiet known x ((old x new).symm.trans root)
  · rw [same_broken]
    by_cases new : x = s.waits
    · rw [new] at rejected ⊢
      exact mine.1 e rejected
    · rw [others x new] at rejected
      rw [aside.waits] at made
      exact denies.blamed x (by have : x < s.waits + 1 := made; omega) ((old x new).symm.trans root) e rejected

end Denials

section Locks

variable {s t : InputGates}

theorem KeepsLocks.refl (s : InputGates) : KeepsLocks s s := ⟨le_rfl, fun _ _ => rfl, fun _ _ => rfl⟩

theorem KeepsLocks.same (locks : t.locks = s.locks) (gateOf : t.gateOf = s.gateOf) (given : t.given = s.given) :
    KeepsLocks s t := ⟨locks.ge, fun _ _ => by rw [gateOf], fun _ _ => by rw [given]⟩

theorem KeepsLocks.trans {u : InputGates} (first : KeepsLocks s t) (second : KeepsLocks t u) : KeepsLocks s u where
  locks := first.locks.trans second.locks
  gateOf l made := (second.gateOf l (made.trans_le first.locks)).trans (first.gateOf l made)
  given l made := (second.given l (made.trans_le first.locks)).trans (first.given l made)

theorem KeepsLocks.newLock (s : InputGates) (gate : Nat) (given : Bool) : KeepsLocks s (s.newLock gate given) where
  locks := Nat.le_succ _
  gateOf l made := Function.update_of_ne (Nat.ne_of_lt made) ..
  given l made := Function.update_of_ne (Nat.ne_of_lt made) ..

theorem KeepsLocks.settles (settles : Settles s t) : KeepsLocks s t :=
  .same settles.locks settles.gateOf settles.given

theorem unlink_locks_count (s : InputGates) (w : Nat) (status : WaitStatus) :
    ((s.unlink w).settle w status).locks = s.locks := by
  unfold InputGates.unlink
  split <;> rfl

theorem KeepsLocks.unlink (s : InputGates) (w : Nat) (status : WaitStatus) :
    KeepsLocks s ((s.unlink w).settle w status) :=
  .same (unlink_locks_count s w status) (unlink_locks s w status).2.1 (unlink_locks s w status).2.2

theorem KeepsLocks.gateWait (s : InputGates) (gate w : Nat) (aborted : Bool) : KeepsLocks s (s.gateWait gate w aborted) := by
  unfold InputGates.gateWait
  split
  · exact .same rfl rfl rfl
  · split
    · exact .same rfl rfl rfl
    · split
      · exact (KeepsLocks.newLock s gate true).trans (.same rfl rfl rfl)
      · exact .same rfl rfl rfl

theorem KeepsLocks.enter (s : InputGates) (c lock w : Nat) (aborted : Bool) : KeepsLocks s (s.enter c lock w aborted) := by
  have waited := KeepsLocks.gateWait { s with
    state := Function.update s.state c .running
    parentLock := Function.update s.parentLock c (some lock) } c w aborted
  exact ⟨waited.locks, waited.gateOf, waited.given⟩

theorem KeepsLocks.start (s : InputGates) (c w : Nat) : KeepsLocks s (s.start c w) := by
  have begun : KeepsLocks s (s.withState c .initialWait) := .same rfl rfl rfl
  rw [start_eq]
  unfold begin
  split
  · rename_i exception _
    exact begun.trans ((KeepsLocks.settles (.setBroken (s.withState c .initialWait) c exception)).trans (.same rfl rfl rfl))
  · split
    · exact begun.trans ((KeepsLocks.newLock ..).trans (.enter ..))
    · exact begun.trans (.same rfl rfl rfl)

theorem KeepsLocks.waitOn (s : InputGates) (fuel gate w : Nat) (aborted : Bool) :
    KeepsLocks s (s.waitOn fuel gate w aborted) := by
  induction fuel generalizing gate with
  | zero =>
    unfold InputGates.waitOn
    split
    · exact .gateWait s 0 w aborted
    · split
      · exact .same rfl rfl rfl
      · split
        · exact .start s gate w
        · exact .same rfl rfl rfl
        · exact .gateWait s gate w aborted
        · exact .refl s
  | succ fuel ih =>
    unfold InputGates.waitOn
    split
    · exact .gateWait s 0 w aborted
    · split
      · exact .same rfl rfl rfl
      · split
        · exact .start s gate w
        · exact .same rfl rfl rfl
        · exact .gateWait s gate w aborted
        · exact ih (s.parent gate)

theorem KeepsLocks.resume (s : InputGates) (w : Nat) : KeepsLocks s (s.resume w) := by
  unfold InputGates.resume
  split
  · exact .enter ..
  · exact .same rfl rfl rfl
  · rename_i c exception _ _
    have running : KeepsLocks s (s.withState c .running) := .same rfl rfl rfl
    exact running.trans ((KeepsLocks.settles (.setBroken (s.withState c .running) c exception)).trans (.same rfl rfl rfl))
  · exact .refl s

theorem KeepsLocks.grantNext (queued : Queued s) (gate : Nat) : KeepsLocks s (s.grantNext gate) := by
  unfold InputGates.grantNext
  split
  · rename_i child rest children
    obtain ⟨c, linked⟩ := (queued.child gate child).1 (by simp [children])
    rw [fulfill_child (s := s.newLock gate false) linked]
    exact (KeepsLocks.newLock s gate false).trans (.unlink ..)
  · split
    · rename_i waiter rest waiters
      have linked := (queued.waiter gate waiter).1 (by simp [waiters])
      rw [fulfill_waiter (s := s.newLock gate true) linked]
      exact (KeepsLocks.newLock s gate true).trans (.unlink ..)
    · exact .refl s

/-- A release changes no lock there is but the one it releases. -/
theorem release_keeps (accounted : Accounted s) {l i : Nat} (made : i < s.locks) (other : i ≠ l) :
    (release l s).2.gateOf i = s.gateOf i ∧ (release l s).2.given i = s.given i := by
  cases held : s.gateOf l with
  | none =>
    have refused : (InputGates.release l s).2 = s := by
      unfold InputGates.release
      rw [state_bind]
      simp only [held, raise_run]
    rw [refused]
    exact ⟨rfl, rfl⟩
  | some h =>
    rw [release_run accounted held]
    have same : (s.unlock l (s.adopter h)).gateOf i = s.gateOf i := Function.update_of_ne other ..
    dsimp only
    unfold freed
    split
    · have kept := KeepsLocks.grantNext (s := s.unlock l (s.adopter h)) { accounted.queued with } (s.adopter h)
      exact ⟨(kept.gateOf i made).trans same, kept.given i made⟩
    · exact ⟨same, rfl⟩

/-- A lock in the hands of a caller is released by this caller only. -/
theorem step_keeps_lock {event : Event} (sound : Sound s) (exclusive : Exclusive s) (stepped : step s event = some t)
    {l h : Nat} (held : s.gateOf l = some h) (given : s.given l = true) (mine : event ≠ .release l) :
    t.gateOf l = some h ∧ t.given l = true := by
  obtain ⟨accounted, starting, _⟩ := sound
  have made : l < s.locks := by
    by_contra later
    rw [accounted.counted.unmade l (Nat.le_of_not_lt later)] at held
    cases held
  have kept : ∀ {u}, KeepsLocks s u → u.gateOf l = some h ∧ u.given l = true := fun keeps =>
    ⟨(keeps.gateOf l made).trans held, (keeps.given l made).trans given⟩
  cases event <;> simp only [step, Option.ite_none_right_eq_some, Option.some.injEq] at stepped <;>
    obtain ⟨admitted, rfl⟩ := stepped
  case wait gate aborted =>
    have recorded : KeepsLocks s (s.recorded gate aborted) := .same rfl rfl rfl
    exact kept (recorded.trans (.waitOn (s.recorded gate aborted) gate gate s.waits aborted))
  case abort w => exact kept (.settles (.abort s w))
  case resume w => exact kept (.resume s w)
  case addRef i =>
    rw [addRef_state]
    split
    · exact ⟨held, given⟩
    · exact kept (.newLock ..)
  case release i =>
    have other : l ≠ i := fun same => mine (by rw [same])
    obtain ⟨same, hands⟩ := release_keeps accounted made other
    exact ⟨same.trans held, hands.trans given⟩
  case startCriticalSection i =>
    rw [startCriticalSection_state]
    split
    · exact ⟨held, given⟩
    · exact ⟨held, given⟩
  case succeeded c =>
    by_cases running : s.state c = .running
    · rw [succeeded_state running]
      split
      · exact ⟨held, given⟩
      · rename_i lock _
        refine ⟨held, ?_⟩
        by_cases same : l = lock
        · rw [same]
          exact Function.update_self ..
        · exact (Function.update_of_ne same ..).trans given
    · rw [succeeded_refused running]
      exact ⟨held, given⟩
  case failed c exception => exact kept (.settles (.failed s _ _ _))
  case setBroken gate exception => exact kept (.settles (.setBroken s _ _))
  case drop c =>
    have settles := Settles.dropped s c
    rw [drop_state]
    split
    · exact kept (.settles settles)
    · rename_i lock owned
      -- a section's lock in its parent is in no caller's hands
      have other : l ≠ lock := by
        rintro rfl
        rw [exclusive.kept (.inl c) c l (by simp [lockOf, owned])] at given
        cases given
      have accounted := (dropped_kept accounted starting c).1
      have disowned : Accounted ((s.dropped c).disown c) :=
        ⟨{ accounted.queued with }, accounted.counted.same ⟨rfl, rfl, rfl, rfl, rfl, rfl⟩, accounted.idle⟩
      obtain ⟨same, hands⟩ := release_keeps disowned (l := lock) (made.trans_le settles.locks.ge) other
      exact ⟨same.trans ((congrFun settles.gateOf l).trans held), hands.trans ((congrFun settles.given l).trans given)⟩

end Locks

section Known

variable {s t : InputGates}

theorem start_gates (s : InputGates) (c w : Nat) : (s.start c w).gates = s.gates := by
  rw [start_eq]
  unfold begin
  split
  · exact (Settles.setBroken (s.withState c .initialWait) c _).gates
  · split
    · exact (gateWait_rest ..).2.1
    · rfl

theorem waitOn_gates (s : InputGates) (fuel gate w : Nat) (aborted : Bool) :
    (s.waitOn fuel gate w aborted).gates = s.gates := by
  induction fuel generalizing gate with
  | zero =>
    unfold InputGates.waitOn
    split
    · exact (gateWait_rest ..).2.1
    · split
      · rfl
      · split
        · exact start_gates s gate w
        · rfl
        · exact (gateWait_rest ..).2.1
        · rfl
  | succ fuel ih =>
    unfold InputGates.waitOn
    split
    · exact (gateWait_rest ..).2.1
    · split
      · rfl
      · split
        · exact start_gates s gate w
        · rfl
        · exact (gateWait_rest ..).2.1
        · exact ih (s.parent gate)

theorem resume_gates (s : InputGates) (w : Nat) : (s.resume w).gates = s.gates := by
  unfold InputGates.resume
  split
  · exact (gateWait_rest ..).2.1
  · rfl
  · rename_i c exception _ _
    exact (Settles.setBroken (s.withState c .running) c exception).gates
  · rfl

theorem grantNext_gates (queued : Queued s) (gate : Nat) : (s.grantNext gate).gates = s.gates := by
  unfold InputGates.grantNext
  split
  · rename_i child rest children
    obtain ⟨c, linked⟩ := (queued.child gate child).1 (by simp [children])
    rw [fulfill_child (s := s.newLock gate false) linked]
    exact (unlink_state ..).2.1
  · split
    · rename_i waiter rest waiters
      have linked := (queued.waiter gate waiter).1 (by simp [waiters])
      rw [fulfill_waiter (s := s.newLock gate true) linked]
      exact (unlink_state ..).2.1
    · rfl

theorem release_gates (accounted : Accounted s) (l : Nat) : (release l s).2.gates = s.gates := by
  cases held : s.gateOf l with
  | none =>
    unfold InputGates.release
    rw [state_bind]
    simp only [held, raise_run]
  | some h =>
    rw [release_run accounted held]
    dsimp only
    unfold freed
    split
    · exact grantNext_gates (s := s.unlock l (s.adopter h)) { accounted.queued with } _
    · rfl

/-- No step takes a gate away. -/
theorem step_gates {event : Event} (sound : Sound s) (stepped : step s event = some t) : s.gates ≤ t.gates := by
  obtain ⟨accounted, starting, _⟩ := sound
  cases event <;> simp only [step, Option.ite_none_right_eq_some, Option.some.injEq] at stepped <;>
    obtain ⟨admitted, rfl⟩ := stepped
  case wait gate aborted => exact (waitOn_gates (s.recorded gate aborted) gate gate s.waits aborted).ge
  case abort w => exact (Settles.abort s w).gates.ge
  case resume w => exact (resume_gates s w).ge
  case addRef l =>
    rw [addRef_state]
    split <;> exact le_rfl
  case release l => exact (release_gates accounted l).ge
  case startCriticalSection l =>
    rw [startCriticalSection_state]
    split
    · exact le_rfl
    · exact Nat.le_succ _
  case succeeded c =>
    by_cases running : s.state c = .running
    · rw [succeeded_state running]
      split <;> exact le_rfl
    · rw [succeeded_refused running]
  case failed c exception => exact (Settles.failed s _ _ _).gates.ge
  case setBroken gate exception => exact (Settles.setBroken s _ _).gates.ge
  case drop c =>
    have settles := Settles.dropped s c
    rw [drop_state]
    split
    · exact settles.gates.ge
    · have accounted := (dropped_kept accounted starting c).1
      have disowned : Accounted ((s.dropped c).disown c) :=
        ⟨{ accounted.queued with }, accounted.counted.same ⟨rfl, rfl, rfl, rfl, rfl, rfl⟩, accounted.idle⟩
      rw [release_gates disowned]
      exact settles.gates.ge

end Known

section Turns

variable {s t : InputGates} {withdrawn : Nat → Prop}

theorem step_denies {event : Event} (sound : Sound s) (lined : Lined s) (denies : Denies withdrawn s)
    (abort : ∀ w, event = .abort w → withdrawn w) (call : event = .wait 0 true → withdrawn s.waits)
    (stepped : step s event = some t) : Denies withdrawn t := by
  obtain ⟨accounted, starting, _⟩ := sound
  cases event <;> simp only [step, Option.ite_none_right_eq_some, Option.some.injEq] at stepped <;>
    obtain ⟨admitted, rfl⟩ := stepped
  case wait gate aborted =>
    by_cases root : gate = 0
    · subst root
      exact denies.callRoot accounted.queued aborted fun flag => call (by rw [flag])
    · have recorded := denies.recorded accounted.queued root aborted
      have lined := lined.recorded accounted.queued gate aborted
      have mine : (s.recorded gate aborted).asked s.waits = gate := Function.update_self ..
      have later : ∀ w, (s.recorded gate aborted).waits ≤ w →
          ∃ exception, (s.recorded gate aborted).wait w = .rejected exception :=
        fun w beyond => accounted.queued.later w (Nat.le_of_succ_le beyond)
      have accounted : Accounted (s.recorded gate aborted) :=
        ⟨{ accounted.queued with later := later }, accounted.counted.same ⟨rfl, rfl, rfl, rfl, rfl, rfl⟩, accounted.idle⟩
      exact recorded.waitOn lined accounted (by rw [mine]; exact root) gate gate aborted
  case abort w => exact denies.abort (abort w rfl)
  case resume w => exact denies.resume lined accounted starting w
  case addRef l =>
    rw [addRef_state]
    split
    · exact denies
    · exact denies.same rfl rfl rfl rfl
  case release l => exact denies.release lined accounted l
  case startCriticalSection l =>
    rw [startCriticalSection_state]
    split
    · exact denies
    · exact denies.same rfl rfl rfl rfl
  case succeeded c =>
    by_cases running : s.state c = .running
    · obtain ⟨_, same⟩ := lined.reparent accounted.queued admitted.1
      have done : Denies withdrawn (s.reparent c) :=
        denies.frame rfl rfl Iff.rfl fun x root => .inl (same x root)
      rw [succeeded_state running]
      split
      · exact done
      · exact done.same rfl rfl rfl rfl
    · rw [succeeded_refused running]
      exact denies
  case failed c exception => exact denies.failed lined accounted _ _ _
  case setBroken gate exception => exact denies.setBroken lined.atRoot accounted _ _
  case drop c =>
    have denied : Denies withdrawn (s.dropped c) := by
      unfold dropped
      split
      · exact denies.failed lined accounted _ _ _
      · exact denies
    have lined := (lined.rejects (.dropped s c)).1
    rw [drop_state]
    split
    · exact denied
    · rename_i lock _
      have accounted := (dropped_kept accounted starting c).1
      have disowned : Accounted ((s.dropped c).disown c) :=
        ⟨{ accounted.queued with }, accounted.counted.same ⟨rfl, rfl, rfl, rfl, rfl, rfl⟩, accounted.idle⟩
      have same : Denies withdrawn ((s.dropped c).disown c) := denied.same rfl rfl rfl rfl
      exact same.release ⟨lined.atRoot, lined.inLine⟩ disowned lock

/-- A call that has the root came after those in line. -/
def Passed (s : InputGates) : Prop :=
  ∀ w, w < s.waits → s.asked w = 0 → ∀ l, s.wait w = .resolved l → ∀ x, x < w → s.asked x = 0 → ¬ (s.wait x).Linked

theorem Passed.step (passed : Passed s) (turns : Turns s t) : Passed t := by
  intro w made root l resolved x earlier rootX
  rcases turns.granted w made root l resolved with ⟨older, before⟩ | given
  · have madeX := earlier.trans older
    rw [turns.asked w older] at root
    rw [turns.asked x madeX] at rootX
    have free := passed w older root l before x earlier rootX
    rw [turns.final x madeX rootX free]
    exact free
  · exact given.first x earlier rootX

/-- The calls for the root are served in their order. -/
structure Rooted (withdrawn : Nat → Prop) (s : InputGates) : Prop where
  known : 0 < s.gates
  sound : Sound s
  exclusive : Exclusive s
  lined : Lined s
  denies : Denies withdrawn s
  passed : Passed s

theorem opened_rooted : Rooted withdrawn opened where
  known := Nat.zero_lt_one
  sound := opened_sound
  exclusive := opened_exclusive
  lined := ⟨fun _ _ => ⟨rfl, fun _ _ linked => by cases linked⟩, List.Pairwise.nil⟩
  denies := ⟨fun known => absurd rfl known, fun w made => absurd made (Nat.not_lt_zero w)⟩
  passed w made := absurd made (Nat.not_lt_zero w)

theorem step_rooted {event : Event} (rooted : Rooted withdrawn s) (orderly : Orderly s event)
    (abort : ∀ w, event = .abort w → withdrawn w) (call : event = .wait 0 true → withdrawn s.waits)
    (stepped : step s event = some t) : Rooted withdrawn t ∧ Turns s t := by
  obtain ⟨lined, turns⟩ := step_lined rooted.sound rooted.lined stepped
  exact ⟨⟨rooted.known.trans_le (step_gates rooted.sound stepped), step_sound rooted.sound stepped,
    step_exclusive rooted.sound rooted.exclusive orderly stepped, lined,
    step_denies rooted.sound rooted.lined rooted.denies abort call stepped, rooted.passed.step turns⟩, turns⟩

/-- A call for the root that is not withdrawn is not settled before one that came earlier. -/
theorem Rooted.settled (rooted : Rooted withdrawn s) {x w : Nat} (earlier : x < w) (made : w < s.waits)
    (rootX : s.asked x = 0) (root : s.asked w = 0) (stays : ¬ withdrawn w) (settled : ¬ (s.wait w).Linked) :
    ¬ (s.wait x).Linked := by
  have first := (rooted.lined.atRoot w root).1
  cases status : s.wait w with
  | linked g starts =>
    rw [status] at settled
    exact absurd ⟨g, starts, rfl⟩ settled
  | granted c l =>
    rw [status] at first
    cases first
  | refused c exception =>
    rw [status] at first
    cases first
  | resolved l => exact rooted.passed w made root l status x earlier rootX
  | rejected exception =>
    have broken := (rooted.denies.blamed w made root exception status).resolve_left stays
    exact rooted.denies.quiet broken x rootX

/-- No lock of the root but the one that is given. -/
theorem GivenRoot.only {w l i : Nat} (given : s.GivenRoot w l) (counted : Counted s) (held : s.gateOf i = some 0) : i = l := by
  have stays : s.isReparented 0 = false := by simp [isReparented]
  have alone : s.outstanding 0 = 1 := (counted.counts 0 stays).symm.trans given.alone
  have made : ∀ j, s.gateOf j = some 0 → j ∈ (Finset.range s.locks).filter fun l => s.Holds l 0 := by
    intro j held
    rw [Finset.mem_filter, Finset.mem_range]
    refine ⟨?_, 0, held, adopter_of_stays stays⟩
    by_contra later
    rw [counted.unmade j (Nat.le_of_not_lt later)] at held
    cases held
  exact Finset.card_le_one.1 (Nat.le_of_eq alone) i (made i held) l (made l given.held)

theorem Rooted.mono {other : Nat → Prop} (rooted : Rooted withdrawn s) (weaker : ∀ w, w < s.waits → withdrawn w → other w) :
    Rooted other s :=
  { rooted with
    denies := ⟨rooted.denies.quiet, fun w made root exception rejected =>
      (rooted.denies.blamed w made root exception rejected).imp (weaker w made) id⟩ }

/-- Who came earlier than the call that is given the root has no lock left, unless it was rejected. -/
theorem Granted.supersedes {w l x : Nat} (granted : Granted s t w l) (rooted : Rooted withdrawn t) (counted : Counted s)
    (earlier : x < w) (root : t.asked x = 0)
    (keeps : ∀ i, s.wait x = .resolved i → s.gateOf i = some 0 ∧ t.gateOf i = some 0) :
    ∃ exception, t.wait x = .rejected exception := by
  have free := granted.first x earlier root
  have starts := (rooted.lined.atRoot x root).1
  cases status : t.wait x with
  | linked g first => exact absurd ⟨g, first, status⟩ free
  | granted c i =>
    rw [status] at starts
    cases starts
  | refused c exception =>
    rw [status] at starts
    cases starts
  | rejected exception => exact ⟨exception, rfl⟩
  | resolved i =>
    -- the lock it had before is still held, and the new one is alone
    obtain ⟨old, held⟩ := keeps i (granted.sole x (Nat.ne_of_lt earlier) root i status)
    have same := granted.only rooted.sound.accounted.counted held
    rw [counted.unmade i (same ▸ granted.fresh)] at old
    cases old

end Turns

end DoRuntime.Io.InputGates
