import DoRuntime.Io.BrokenGate
import DoRuntime.Io.RootTurns

namespace DoRuntime.Io.InputGates

open Forwarding Prog Transition

/-- Each call waits on the gate that it was made on, or on the one that has taken over from it, and the lock
    that it is given is of this gate for as long as it is held. -/
structure Rightful (s : InputGates) : Prop where
  sound : Sound s
  asks : Asks s
  given : ∀ w l, s.wait w = .resolved l →
    l < s.locks ∧ ∀ h, s.gateOf l = some h → s.adopter h = s.adopter (s.asked w)

/-- What a step does to the calls, and leaves of the locks. -/
structure Serves (s t : InputGates) : Prop where
  locks : s.locks ≤ t.locks
  gateOf : ∀ l h, l < s.locks → t.gateOf l = some h → s.gateOf l = some h
  merges : ∀ g h, s.adopter g = s.adopter h → t.adopter g = t.adopter h
  awaits : Asks t
  served : ∀ w l, t.wait w = .resolved l → s.wait w = .resolved l ∧ t.asked w = s.asked w ∨
    s.locks ≤ l ∧ l < t.locks ∧ ∀ h, t.gateOf l = some h → t.adopter h = t.adopter (t.asked w)

section Serving

variable {s t u : InputGates} {w : Nat}

theorem Rightful.serves (rightful : Rightful s) (sound : Sound t) (serves : Serves s t) : Rightful t := by
  refine ⟨sound, serves.awaits, ?_⟩
  intro w l resolved
  rcases serves.served w l resolved with ⟨before, asked⟩ | ⟨_, made, right⟩
  · obtain ⟨made, right⟩ := rightful.given w l before
    refine ⟨Nat.lt_of_lt_of_le made serves.locks, ?_⟩
    intro h held
    rw [asked]
    exact serves.merges _ _ (right h (serves.gateOf l h made held))
  · exact ⟨made, right⟩

theorem Serves.trans (first : Serves s t) (second : Serves t u) : Serves s u := by
  refine ⟨Nat.le_trans first.locks second.locks, ?_, ?_, second.awaits, ?_⟩
  · intro l h made held
    exact first.gateOf l h made (second.gateOf l h (Nat.lt_of_lt_of_le made first.locks) held)
  · intro g h same
    exact second.merges g h (first.merges g h same)
  · intro w l resolved
    rcases second.served w l resolved with ⟨before, asked⟩ | ⟨new, made, right⟩
    · rcases first.served w l before with ⟨earlier, asked'⟩ | ⟨new, made, right⟩
      · exact Or.inl ⟨earlier, asked.trans asked'⟩
      · refine Or.inr ⟨new, Nat.lt_of_lt_of_le made second.locks, ?_⟩
        intro h held
        rw [asked]
        exact second.merges _ _ (right h (second.gateOf l h made held))
    · exact Or.inr ⟨Nat.le_trans first.locks new, made, right⟩

theorem adopter_adopter (counted : Counted s) (g : Nat) : s.adopter (s.adopter g) = s.adopter g :=
  adopter_of_stays (counted.adopter_stays g)

/-- The sections and the locks are as they were, and no call has got a lock. -/
theorem Serves.leave (asks : Asks s) (same : SameTree s t) (locks : t.locks = s.locks) (gateOf : t.gateOf = s.gateOf)
    (leaves : ∀ w, (s.wait w).Leaves (t.wait w))
    (unserved : ∀ w l, t.wait w = .resolved l → s.wait w = .resolved l) :
    Serves s t := by
  refine ⟨Nat.le_of_eq locks.symm, ?_, ?_, asks.leave same leaves, ?_⟩
  · intro l h _ held
    rw [← gateOf]
    exact held
  · intro g h equal
    rw [same.adopter, same.adopter]
    exact equal
  · intro w l resolved
    exact Or.inl ⟨unserved w l resolved, congrFun same.asked w⟩

theorem Serves.same (asks : Asks s) (same : SameTree s t) (locks : t.locks = s.locks) (gateOf : t.gateOf = s.gateOf)
    (wait : t.wait = s.wait) : Serves s t := by
  refine .leave asks same locks gateOf ?_ ?_
  · intro w
    rw [wait]
    exact .stays _
  · intro w l resolved
    rw [← wait]
    exact resolved

theorem refuse_resolved {status : WaitStatus} {exception : GateException} {l : Nat}
    (resolved : status.refuse exception = .resolved l) : status = .resolved l := by
  by_contra other
  refine WaitStatus.refuse_unresolved ?_ exception l resolved
  intro l' same
  rw [same] at resolved other
  exact other resolved

/-- One call goes on, at the gate it was made on. -/
theorem Serves.settles (asks : Asks s) (same : SameTree s t) (keeps : KeepsLocks s t)
    (others : ∀ x, x ≠ w → t.wait x = s.wait x ∨ ∃ exception, t.wait x = (s.wait x).refuse exception)
    (awaits : ∀ g, (t.wait w).awaits = some g → g = s.adopter (s.asked w))
    (given : ∀ l, t.wait w = .resolved l →
      s.locks ≤ l ∧ l < t.locks ∧ ∀ h, t.gateOf l = some h → s.adopter h = s.adopter (s.asked w)) :
    Serves s t := by
  refine ⟨keeps.locks, ?_, ?_, ?_, ?_⟩
  · intro l h made held
    rw [← keeps.gateOf l made]
    exact held
  · intro g h equal
    rw [same.adopter, same.adopter]
    exact equal
  · intro x g waits
    rw [same.adopter, same.asked]
    by_cases mine : x = w
    · rw [mine] at waits ⊢
      exact awaits g waits
    · rcases others x mine with still | ⟨exception, refused⟩
      · rw [still] at waits
        exact asks x g waits
      · rw [refused] at waits
        exact asks x g ((WaitStatus.refuse_leaves _ exception).awaits waits)
  · intro x l resolved
    rw [same.asked]
    by_cases mine : x = w
    · rw [mine] at resolved ⊢
      obtain ⟨new, made, right⟩ := given l resolved
      refine Or.inr ⟨new, made, ?_⟩
      intro h held
      rw [same.adopter, same.adopter]
      exact right h held
    · rcases others x mine with still | ⟨exception, refused⟩
      · rw [still] at resolved
        exact Or.inl ⟨resolved, rfl⟩
      · rw [refused] at resolved
        exact Or.inl ⟨refuse_resolved resolved, rfl⟩

/-- What a call that is made on `g`, or goes on there, comes to. -/
structure Joins (s t : InputGates) (w g : Nat) : Prop where
  same : SameTree s t
  keeps : KeepsLocks s t
  others : ∀ x, x ≠ w → t.wait x = s.wait x ∨ ∃ exception, t.wait x = (s.wait x).refuse exception
  awaits : ∀ h, (t.wait w).awaits = some h → h = g
  given : ∀ l, t.wait w = .resolved l → s.locks ≤ l ∧ l < t.locks ∧ t.gateOf l = some g

theorem Joins.serves {g : Nat} (joins : Joins s t w g) (asks : Asks s) (counted : Counted s)
    (mine : g = s.adopter (s.asked w)) : Serves s t := by
  refine .settles asks joins.same joins.keeps joins.others ?_ ?_
  · intro h awaits
    exact (joins.awaits h awaits).trans mine
  · intro l resolved
    obtain ⟨new, made, held⟩ := joins.given l resolved
    refine ⟨new, made, ?_⟩
    intro h held'
    rw [held] at held'
    cases held'
    rw [mine, adopter_adopter counted]

theorem Joins.from {g : Nat} (joins : Joins t u w g) (same : SameTree s t) (keeps : KeepsLocks s t)
    (wait : t.wait = s.wait) : Joins s u w g := by
  refine ⟨same.trans joins.same, keeps.trans joins.keeps, ?_, joins.awaits, ?_⟩
  · intro x other
    rw [← wait]
    exact joins.others x other
  · intro l resolved
    obtain ⟨new, made, held⟩ := joins.given l resolved
    exact ⟨Nat.le_trans keeps.locks new, made, held⟩

theorem Joins.settle (s : InputGates) (w g : Nat) (exception : GateException) :
    Joins s (s.settle w (.rejected exception)) w g := by
  refine ⟨⟨rfl, fun _ => rfl, rfl, rfl⟩, .same rfl rfl rfl, fun x other => Or.inl (Function.update_of_ne other ..), ?_, ?_⟩
  · intro h awaits
    simp only [InputGates.settle, Function.update_self, WaitStatus.awaits, reduceCtorEq] at awaits
  · intro l resolved
    simp only [InputGates.settle, Function.update_self, reduceCtorEq] at resolved

theorem Joins.newWaiterPromise (s : InputGates) (gate : Nat) (starts : Option Nat) {g : Nat}
    (awaits : (WaitStatus.linked gate starts).awaits = some g) : Joins s (s.newWaiterPromise gate starts w) w g := by
  have mine : (s.newWaiterPromise gate starts w).wait w = .linked gate starts := by
    unfold InputGates.newWaiterPromise
    split <;> exact Function.update_self ..
  have others : ∀ x, x ≠ w → (s.newWaiterPromise gate starts w).wait x = s.wait x := by
    intro x other
    unfold InputGates.newWaiterPromise
    split <;> exact Function.update_of_ne other ..
  have rest : SameTree s (s.newWaiterPromise gate starts w) ∧ KeepsLocks s (s.newWaiterPromise gate starts w) := by
    unfold InputGates.newWaiterPromise
    split <;> exact ⟨⟨rfl, fun _ => rfl, rfl, rfl⟩, .same rfl rfl rfl⟩
  refine ⟨rest.1, rest.2, fun x other => Or.inl (others x other), ?_, ?_⟩
  · intro h same
    rw [mine, awaits] at same
    exact (Option.some.inj same).symm
  · intro l resolved
    rw [mine] at resolved
    cases resolved

theorem Joins.gateWait (s : InputGates) (g w : Nat) (aborted : Bool) : Joins s (s.gateWait g w aborted) w g := by
  unfold InputGates.gateWait
  split
  · exact .settle s w g _
  · split
    · exact .settle s w g _
    · split
      · refine ⟨⟨rfl, fun _ => rfl, rfl, rfl⟩, (KeepsLocks.newLock s g true).trans (.same rfl rfl rfl),
          fun x other => Or.inl (Function.update_of_ne other ..), ?_, ?_⟩
        · intro h awaits
          simp only [InputGates.settle, Function.update_self, WaitStatus.awaits, reduceCtorEq] at awaits
        · intro l resolved
          simp only [InputGates.settle, Function.update_self, WaitStatus.resolved.injEq] at resolved
          rw [← resolved]
          exact ⟨Nat.le_refl _, Nat.lt_succ_self _, Function.update_self ..⟩
      · exact .newWaiterPromise s g none rfl

theorem Joins.enter (s : InputGates) {c : Nat} (stays : s.state c ≠ .reparented) (lock w : Nat) (aborted : Bool) :
    Joins s (s.enter c lock w aborted) w c :=
  (Joins.gateWait _ c w aborted).from (.withState stays (by simp) _) (.same rfl rfl rfl) rfl

/-- A section that its first call breaks, because its parent is broken. -/
theorem Joins.setBroken (accounted : Accounted s) (c w : Nat) (exception : GateException) :
    Joins s ((s.setBroken c exception).settle w (.rejected exception)) w c := by
  have told := Joins.settle (s.setBroken c exception) w c exception
  have broken := Settles.setBroken s c exception
  refine ⟨(SameTree.settles broken (setBroken_asked s c exception)).trans told.same,
    (KeepsLocks.settles broken).trans told.keeps, ?_, told.awaits, ?_⟩
  · intro x other
    have still : ((s.setBroken c exception).settle w (.rejected exception)).wait x = (s.setBroken c exception).wait x :=
      Function.update_of_ne other ..
    rw [still]
    exact setBroken_refused accounted c exception x
  · intro l resolved
    simp only [InputGates.settle, Function.update_self, reduceCtorEq] at resolved

theorem Joins.start (accounted : Accounted s) {c : Nat} (fresh : s.state c = .notStarted) (w : Nat) :
    Joins s (s.start c w) w c := by
  have same : SameTree s (s.withState c .initialWait) := .withState (by simp [fresh]) (by simp) s.parentLock
  have begun : Accounted (s.withState c .initialWait) := accounted.setState (by simp [fresh]) (by simp) s.parentLock
  have initial : (s.withState c .initialWait).state c = .initialWait := Function.update_self ..
  rw [start_eq]
  refine Joins.from (t := s.withState c .initialWait) ?_ same (.same rfl rfl rfl) rfl
  unfold begin
  split
  · exact .setBroken begun c w _
  · split
    · refine Joins.from (t := (s.withState c .initialWait).newLock ((s.withState c .initialWait).parentAsInputGate c) false) ?_
        ⟨rfl, fun _ => rfl, rfl, rfl⟩ (.newLock ..) rfl
      exact .enter _ (by simp [newLock, initial]) _ w false
    · exact .newWaiterPromise _ _ _ rfl

theorem Joins.waitOn (accounted : Accounted s) (gate w : Nat) (aborted : Bool) :
    Joins s (s.waitOn gate gate w aborted) w (s.adopter gate) := by
  rw [waitOn_adopter accounted.counted (Nat.le_refl gate)]
  unfold InputGates.waitOn
  split
  · rename_i root
    rw [root]
    exact .gateWait s 0 w aborted
  · rename_i section_
    split
    · exact .settle s w _ _
    · split
      · rename_i fresh
        exact .start accounted fresh w
      · exact .settle s w _ _
      · exact .gateWait s _ w aborted
      · rename_i state
        have stays := accounted.counted.adopter_stays gate
        simp [isReparented, state, Nat.pos_of_ne_zero section_] at stays

theorem Serves.call (rightful : Rightful s) (gate : Nat) (aborted : Bool) : Serves s (s.call gate aborted) := by
  have accounted := rightful.sound.accounted
  obtain ⟨exception, fresh⟩ := accounted.queued.later s.waits (Nat.le_refl _)
  have asking : Accounted (s.asking gate aborted) :=
    ⟨{ accounted.queued with later := fun x later => accounted.queued.later x (Nat.le_of_succ_le later) },
      accounted.counted.same ⟨rfl, rfl, rfl, rfl, rfl, rfl⟩, accounted.idle⟩
  have others : ∀ x, x ≠ s.waits → (s.asking gate aborted).asked x = s.asked x := by
    intro x other
    exact Function.update_of_ne other ..
  have asks : Asks (s.asking gate aborted) := by
    intro x g awaits
    by_cases mine : x = s.waits
    · change (s.wait x).awaits = some g at awaits
      rw [mine, fresh] at awaits
      cases awaits
    · rw [others x mine]
      exact rightful.asks x g awaits
  have recorded : Serves s (s.asking gate aborted) := by
    refine ⟨Nat.le_refl _, fun _ _ _ held => held, fun _ _ same => same, asks, ?_⟩
    intro x l resolved
    refine Or.inl ⟨resolved, others x ?_⟩
    intro mine
    change s.wait x = _ at resolved
    rw [mine, fresh] at resolved
    cases resolved
  refine recorded.trans ((Joins.waitOn asking gate s.waits aborted).serves asks asking.counted ?_)
  have mine : (s.asking gate aborted).asked s.waits = gate := Function.update_self ..
  rw [mine]

theorem Serves.resume (rightful : Rightful s) (w : Nat) : Serves s (s.resume w) := by
  obtain ⟨⟨accounted, starting, _⟩, asks, _⟩ := rightful
  unfold InputGates.resume
  split
  · rename_i c lock status
    obtain ⟨initial, _⟩ := starting.initial w c (by rw [status]; rfl)
    exact (Joins.enter s (by simp [initial]) lock w (s.aborted w)).serves asks accounted.counted
      (asks w c (by rw [status]; rfl))
  · rename_i c status
    exact (Joins.settle s w c .canceled).serves asks accounted.counted (asks w c (by rw [status]; rfl))
  · rename_i c exception _ status
    obtain ⟨initial, _⟩ := starting.initial w c (by rw [status]; rfl)
    have same : SameTree s (s.withState c .running) := .withState (by simp [initial]) (by simp) s.parentLock
    have running : Accounted (s.withState c .running) := accounted.setState (by simp [initial]) (by simp) s.parentLock
    exact ((Joins.setBroken running c w exception).from same (.same rfl rfl rfl) rfl).serves asks accounted.counted
      (asks w c (by rw [status]; rfl))
  · exact .same asks ⟨rfl, fun _ => rfl, rfl, rfl⟩ rfl rfl rfl

/-- The call at the head of a gate's list is given a new lock of the gate. -/
theorem Serves.fulfill (asks : Asks s) (counted : Counted s) {gate : Nat} {starts : Option Nat} (linked : s.wait w = .linked gate starts)
    (given : Bool) : Serves s ((s.newLock gate given).fulfill w s.locks) := by
  have tree : ∀ status, SameTree s (((s.newLock gate given).unlink w).settle w status) := by
    intro status
    have locks := SameLocks.unlink (s.newLock gate given) w status
    exact ⟨locks.gone, locks.adopter, (unlink_rest (s.newLock gate given) w status).2,
      (unlink_state (s.newLock gate given) w status).2.2⟩
  have keeps : ∀ status, KeepsLocks s (((s.newLock gate given).unlink w).settle w status) := by
    intro status
    exact (KeepsLocks.newLock s gate given).trans (.unlink ..)
  have others : ∀ status x, x ≠ w → (((s.newLock gate given).unlink w).settle w status).wait x = s.wait x := by
    intro status x other
    rw [unlink_wait, if_neg other]
    rfl
  have mine : ∀ status, (((s.newLock gate given).unlink w).settle w status).wait w = status := by
    intro status
    rw [unlink_wait, if_pos rfl]
  cases starts with
  | none =>
    rw [fulfill_waiter (s := s.newLock gate given) linked]
    refine .settles asks (tree _) (keeps _) (fun x other => Or.inl (others _ x other)) ?_ ?_
    · intro g awaits
      rw [mine] at awaits
      cases awaits
    · intro l resolved
      rw [mine] at resolved
      cases resolved
      have right := asks w gate (by rw [linked]; rfl)
      have locks := unlink_locks (s.newLock gate given) w (.resolved s.locks)
      refine ⟨Nat.le_refl _, ?_, ?_⟩
      · rw [unlink_locks_count]
        exact Nat.lt_succ_self _
      · intro h held
        rw [locks.2.1] at held
        change Function.update s.gateOf s.locks (some gate) s.locks = some h at held
        rw [Function.update_self] at held
        cases held
        rw [right, adopter_adopter counted]
  | some c =>
    rw [fulfill_child (s := s.newLock gate given) linked]
    refine .settles asks (tree _) (keeps _) (fun x other => Or.inl (others _ x other)) ?_ ?_
    · intro g awaits
      rw [mine] at awaits
      exact asks w g (by rw [linked]; exact awaits)
    · intro l resolved
      rw [mine] at resolved
      cases resolved

theorem Serves.grantNext (asks : Asks s) (queued : Queued s) (counted : Counted s) (gate : Nat) :
    Serves s (s.grantNext gate) := by
  unfold InputGates.grantNext
  split
  · rename_i child rest children
    obtain ⟨c, linked⟩ := (queued.child gate child).1 (by simp [children])
    exact .fulfill asks counted linked false
  · split
    · rename_i waiter rest waiters
      exact .fulfill asks counted ((queued.waiter gate waiter).1 (by simp [waiters])) true
    · exact .same asks ⟨rfl, fun _ => rfl, rfl, rfl⟩ rfl rfl rfl

theorem Serves.release (asks : Asks s) (accounted : Accounted s) (l : Nat) : Serves s (release l s).2 := by
  cases held : s.gateOf l with
  | none =>
    have refused : (InputGates.release l s).2 = s := by
      unfold InputGates.release
      rw [state_bind]
      simp only [held, raise_run]
    rw [refused]
    exact .same asks ⟨rfl, fun _ => rfl, rfl, rfl⟩ rfl rfl rfl
  | some h =>
    rw [release_run accounted held]
    have unlocked : Serves s (s.unlock l (s.adopter h)) := by
      refine ⟨Nat.le_refl _, ?_, fun _ _ same => same, asks, fun _ _ resolved => Or.inl ⟨resolved, rfl⟩⟩
      intro i g _ kept
      by_cases same : i = l
      · rw [same] at kept
        change Function.update s.gateOf l none l = some g at kept
        rw [Function.update_self] at kept
        cases kept
      · change Function.update s.gateOf l none i = some g at kept
        rw [Function.update_of_ne same] at kept
        exact kept
    dsimp only
    unfold freed
    split
    · exact unlocked.trans (Serves.grantNext (s := s.unlock l (s.adopter h)) asks { accounted.queued with }
        (accounted.counted.unlock held) _)
    · exact unlocked

theorem Serves.newLock (asks : Asks s) (gate : Nat) (given : Bool) :
    Serves s (s.newLock gate given) := by
  refine ⟨Nat.le_succ _, ?_, fun _ _ same => same, asks, fun _ _ resolved => Or.inl ⟨resolved, rfl⟩⟩
  intro l h made held
  change Function.update s.gateOf s.locks (some gate) l = some h at held
  rw [Function.update_of_ne (Nat.ne_of_lt made)] at held
  exact held

/-- The calls of a section that is done, and its locks, are for the gate that takes over. -/
theorem Serves.reparent (asks : Asks s) (accounted : Accounted s) (starting : Starting s) {c : Nat} (first : 0 < c)
    (running : s.state c = .running) : Serves s (s.reparent c) := by
  have queued := accounted.queued
  have stays : s.isReparented c = false := by simp [isReparented, running]
  have moves := reparent_adopter accounted.counted first stays
  refine ⟨Nat.le_refl _, fun _ _ _ held => held, ?_, ?_, ?_⟩
  · intro g h same
    rw [moves, moves, same]
  · intro w g awaits
    change g = (s.reparent c).adopter (s.asked w)
    rw [moves]
    rcases WaitStatus.awaits_iff.1 awaits with linked | starts
    · rcases (queued.reparent_linked w g none).1 linked with ⟨before, apart⟩ | ⟨before, target⟩
      · have mine := asks w g (WaitStatus.awaits_iff.2 (Or.inl before))
        rw [← mine, if_neg apart]
      · have mine := asks w c (WaitStatus.awaits_iff.2 (Or.inl before))
        rw [← mine, if_pos rfl, target]
    · rw [reparent_starts] at starts
      have mine := asks w g (WaitStatus.awaits_iff.2 (Or.inr starts))
      have apart : g ≠ c := by
        intro same
        have initial := (starting.initial w g starts).1
        rw [same, running] at initial
        cases initial
      rw [← mine, if_neg apart]
  · intro w l resolved
    rw [reparent_wait] at resolved
    cases status : s.wait w with
    | linked g starts =>
      rw [status] at resolved
      dsimp only at resolved
      split at resolved <;> cases resolved
    | _ =>
      rw [status] at resolved
      exact Or.inl ⟨resolved, rfl⟩

theorem Serves.rejects (asks : Asks s) (settles : Settles s t) (asked : t.asked = s.asked)
    (refused : Refused s t) : Serves s t := by
  refine .leave asks (.settles settles asked) settles.locks settles.gateOf refused.leaves ?_
  intro w l resolved
  rcases refused w with still | ⟨exception, refused⟩
  · rw [← still]
    exact resolved
  · rw [refused] at resolved
    exact refuse_resolved resolved

theorem Serves.dropped (asks : Asks s) (accounted : Accounted s) (c : Nat) : Serves s (s.dropped c) := by
  have settles := Settles.dropped s c
  unfold InputGates.dropped at settles ⊢
  split
  · rename_i running
    rw [if_pos running] at settles
    exact .rejects asks settles (Breaks.failed s c c _).1 (failed_refused accounted c c _)
  · exact .same asks ⟨rfl, fun _ => rfl, rfl, rfl⟩ rfl rfl rfl

theorem step_serves {event : Event} (rightful : Rightful s) (stepped : step s event = some t) : Serves s t := by
  obtain ⟨⟨accounted, starting, placed⟩, asks, given⟩ := rightful
  have rightful : Rightful s := ⟨⟨accounted, starting, placed⟩, asks, given⟩
  cases event <;> simp only [step, Option.ite_none_right_eq_some, Option.some.injEq] at stepped <;>
    obtain ⟨admitted, rfl⟩ := stepped
  case wait gate aborted => exact .call rightful gate aborted
  case abort w =>
    have refused : Refused s (s.abort w) := by
      intro x
      unfold InputGates.abort
      rw [reject_wait]
      split
      · exact Or.inr ⟨.canceled, rfl⟩
      · exact Or.inl rfl
    exact .rejects asks (.abort s w) (reject_rest { s with aborted := Function.update s.aborted w true } w .canceled).2
      refused
  case resume w => exact .resume rightful w
  case addRef l =>
    rw [addRef_state]
    split
    · exact .same asks ⟨rfl, fun _ => rfl, rfl, rfl⟩ rfl rfl rfl
    · exact .newLock asks _ true
  case release l => exact .release asks accounted l
  case startCriticalSection l =>
    rw [startCriticalSection_state]
    split
    · exact .same asks ⟨rfl, fun _ => rfl, rfl, rfl⟩ rfl rfl rfl
    · exact .same asks ⟨rfl, newSection_adopter accounted.counted _, rfl, rfl⟩ rfl rfl rfl
  case succeeded c =>
    by_cases running : s.state c = .running
    · have done := Serves.reparent asks accounted starting admitted.1 running
      rw [succeeded_state running]
      split
      · exact done
      · exact ⟨done.locks, done.gateOf, done.merges, done.awaits, done.served⟩
    · rw [succeeded_refused running]
      exact .same asks ⟨rfl, fun _ => rfl, rfl, rfl⟩ rfl rfl rfl
  case failed c exception =>
    exact .rejects asks (.failed s _ _ _) (Breaks.failed s c c exception).1 (failed_refused accounted c c exception)
  case setBroken g exception =>
    exact .rejects asks (.setBroken s _ _) (setBroken_asked s g exception) (setBroken_refused accounted g exception)
  case drop c =>
    have dropped := Serves.dropped asks accounted c
    have kept := (dropped_kept accounted starting c).1
    rw [drop_state]
    split
    · exact dropped
    · have disowned : Accounted ((s.dropped c).disown c) :=
        ⟨{ kept.queued with }, kept.counted.same ⟨rfl, rfl, rfl, rfl, rfl, rfl⟩, kept.idle⟩
      have asks' : Asks ((s.dropped c).disown c) := dropped.awaits
      have before : Serves s ((s.dropped c).disown c) :=
        ⟨dropped.locks, dropped.gateOf, dropped.merges, dropped.awaits, dropped.served⟩
      exact before.trans (.release asks' disowned _)

theorem step_rightful {event : Event} (rightful : Rightful s) (stepped : step s event = some t) : Rightful t :=
  rightful.serves (step_sound rightful.sound stepped) (step_serves rightful stepped)

theorem opened_rightful : Rightful opened := by
  refine ⟨opened_sound, ?_, ?_⟩
  · intro w g awaits
    cases awaits
  · intro w l resolved
    cases resolved

theorem call_asked (s : InputGates) (gate : Nat) (aborted : Bool) :
    (s.call gate aborted).asked s.waits = gate ∧ s.waits < (s.call gate aborted).waits := by
  have aside := Aside.waitOn (s.asking gate aborted) gate gate s.waits aborted
  constructor
  · exact (congrFun aside.asked s.waits).trans (Function.update_self ..)
  · exact Nat.lt_of_lt_of_le (Nat.lt_succ_self _) (Nat.le_of_eq aside.waits.symm)

/-- What a step makes of the gates. -/
structure Advances (s t : InputGates) : Prop where
  rightful : Rightful t
  lined : Lined t
  serves : Serves s t
  gates : s.gates ≤ t.gates
  waits : s.waits ≤ t.waits
  asked : ∀ w, w < s.waits → t.asked w = s.asked w

theorem step_advances {event : Event} (rightful : Rightful s) (lined : Lined s) (stepped : step s event = some t) :
    Advances s t := by
  have turns := step_lined rightful.sound lined stepped
  exact ⟨step_rightful rightful stepped, turns.1, step_serves rightful stepped, step_gates rightful.sound stepped,
    turns.2.waits, turns.2.asked⟩

theorem release_advances (rightful : Rightful s) (lined : Lined s) (l : Nat) : Advances s (release l s).2 := by
  obtain ⟨⟨accounted, starting, placed⟩, asks, given⟩ := rightful
  have turns := lined.release accounted l
  have serves := Serves.release asks accounted l
  obtain ⟨accounted', starting'⟩ := release_kept accounted starting l
  have sound : Sound (InputGates.release l s).2 := ⟨accounted', starting', placed.release accounted l⟩
  exact ⟨Rightful.serves ⟨⟨accounted, starting, placed⟩, asks, given⟩ sound serves, turns.1, serves,
    Nat.le_of_eq (release_gates accounted l).symm, turns.2.waits, turns.2.asked⟩

end Serving

end DoRuntime.Io.InputGates
