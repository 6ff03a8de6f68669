import DoRuntime.Io.BrokenGate

namespace DoRuntime.Io.InputGates

open Forwarding Prog Transition

/-- The gates as they are without the call `w`, which is the first `wait` of the section `c` if there is one. -/
def spared (s : InputGates) (w : Nat) (c : Option Nat) : InputGates :=
  { s with
    state := c.elim s.state fun b => Function.update s.state b .notStarted
    waiters := fun g => (s.waiters g).erase w
    waitingChildren := fun g => (s.waitingChildren g).erase w
    wait := Function.update s.wait w (.rejected .canceled)
    aborted := Function.update s.aborted w true }

/-- The section is at its first `wait`. -/
def AtStart (s : InputGates) (c : Option Nat) : Prop := ∀ b, c = some b → s.state b = .initialWait

section Erasing

variable {s : InputGates} {w x g b : Nat} {c : Option Nat}

theorem erase_update {α : Type} [DecidableEq α] (f : Nat → List α) (g : Nat) (l : List α) (a : α) :
    (fun i => (Function.update f g l i).erase a) = Function.update (fun i => (f i).erase a) g (l.erase a) :=
      by
  funext i
  by_cases same : i = g
  · subst same
    simp
  · simp [same]

theorem spared_state (other : c ≠ some b) : (s.spared w c).state b = s.state b := by
  cases c with
  | none => rfl
  | some d =>
    have apart : b ≠ d := fun same => other (by rw [same])
    simp [spared, apart]

theorem spared_isReparented (start : s.AtStart c) : (s.spared w c).isReparented = s.isReparented := by
  funext g
  unfold isReparented
  by_cases mine : c = some g
  · subst mine
    simp [spared, start g rfl]
  · rw [spared_state mine]

theorem spared_adopter (start : s.AtStart c) (g : Nat) : (s.spared w c).adopter g = s.adopter g := by
  unfold adopter
  rw [spared_isReparented start]
  rfl

theorem spared_parentAsInputGate (start : s.AtStart c) (g : Nat) :
    (s.spared w c).parentAsInputGate g = s.parentAsInputGate g := spared_adopter start _

theorem spared_wait (other : x ≠ w) : (s.spared w c).wait x = s.wait x := Function.update_of_ne other ..

theorem spared_brokenState : (s.spared w c).brokenState = s.brokenState := rfl

theorem spared_parent : (s.spared w c).parent = s.parent := rfl

theorem spared_newLock (start : s.AtStart c) (gate : Nat) (given : Bool) :
    (s.spared w c).newLock gate given = (s.newLock gate given).spared w c := by
  unfold newLock
  rw [spared_isReparented start, spared_parentAsInputGate start]
  rfl

theorem spared_settle (other : x ≠ w) (status : WaitStatus) :
    (s.spared w c).settle x status = (s.settle x status).spared w c := by
  unfold settle spared
  simp only [Function.update_comm other]

/-- What becomes of the call itself is not seen. -/
theorem spared_settle_self (status : WaitStatus) : (s.settle w status).spared w c = s.spared w c := by
  unfold settle spared
  simp only [Function.update_idem]

theorem spared_unlink (other : x ≠ w) : (s.spared w c).unlink x = (s.unlink x).spared w c := by
  unfold unlink
  rw [spared_wait other]
  cases s.wait x with
  | linked g starts =>
    cases starts with
    | none =>
      unfold spared
      simp only [erase_update, List.erase_comm]
    | some b =>
      unfold spared
      simp only [erase_update, List.erase_comm]
  | _ => rfl

theorem spared_reject (other : x ≠ w) (exception : GateException) :
    (s.spared w c).reject x exception = (s.reject x exception).spared w c := by
  unfold reject
  rw [spared_wait other]
  cases s.wait x with
  | linked g starts =>
    cases starts with
    | none => simp only [spared_unlink other, spared_settle other]
    | some b => simp only [spared_unlink other, spared_settle other]
  | _ => rfl

/-- Without the call, it is not in the lists. -/
theorem spared_unlink_self (queued : Queued s) : (s.unlink w).spared w c = s.spared w c := by
  have twice : ∀ (f : Nat → List Nat) (g : Nat), (f g).Nodup →
      (fun i => (Function.update f g ((f g).erase w) i).erase w) = fun i => (f i).erase w := by
    intro f g nodup
    funext i
    by_cases same : i = g
    · subst same
      rw [Function.update_self, List.erase_of_not_mem]
      exact nodup.not_mem_erase
    · rw [Function.update_of_ne same]
  unfold unlink
  split
  · unfold spared
    simp only [twice s.waitingChildren _ (queued.childrenNodup _)]
  · unfold spared
    simp only [twice s.waiters _ (queued.waitersNodup _)]
  · rfl

theorem spared_reject_self (queued : Queued s) (exception : GateException) :
    (s.reject w exception).spared w c = s.spared w c := by
  unfold reject
  split
  · rw [spared_settle_self, spared_unlink_self queued]
  · rw [spared_settle_self, spared_unlink_self queued]
  · rfl

theorem reject_inert {exception : GateException} (out : ¬ (s.wait x).Linked) : s.reject x exception = s := by
  unfold reject
  split
  · rename_i linked
    exact absurd ⟨_, _, linked⟩ out
  · rename_i linked
    exact absurd ⟨_, _, linked⟩ out
  · rfl

theorem spared_out : ¬ ((s.spared w c).wait w).Linked := by
  rw [show (s.spared w c).wait w = .rejected .canceled from Function.update_self ..]
  exact not_linked fun _ _ => by simp

theorem spared_rejects (exception : GateException) (ws : List Nat) (nodup : ws.Nodup) {s : InputGates}
    (accounted : Accounted s) : (ws.erase w).foldl (fun s x => s.reject x exception) (s.spared w c) =
      (ws.foldl (fun s x => s.reject x exception) s).spared w c := by
  induction ws generalizing s with
  | nil => rfl
  | cons x rest ih =>
    obtain ⟨apart, nodup⟩ := List.nodup_cons.1 nodup
    have kept := accounted.reject x exception
    by_cases same : x = w
    · subst same
      rw [List.erase_cons_head, List.foldl_cons, ← ih nodup kept, List.erase_of_not_mem apart,
        spared_reject_self accounted.queued]
    · rw [List.erase_cons_tail (by simpa using same), List.foldl_cons, List.foldl_cons, spared_reject same,
        ih nodup kept]

theorem spared_setBroken (accounted : Accounted s) (gate : Nat) (exception : GateException) :
    (s.spared w c).setBroken gate exception = (s.setBroken gate exception).spared w c := by
  have children := @spared_rejects w c exception (s.waitingChildren gate)
    (accounted.queued.childrenNodup gate) s accounted
  have kept := accounted.rejects exception (s.waitingChildren gate)
  have waiters := @spared_rejects w c exception _ (kept.queued.waitersNodup gate) _ kept
  unfold setBroken
  rw [show (s.spared w c).waitingChildren gate = (s.waitingChildren gate).erase w from rfl, children]
  exact congrArg (fun u : InputGates =>
    { u with brokenState := Function.update u.brokenState gate (some exception) }) waiters

theorem spared_failed (fuel : Nat) (b : Nat) (exception : GateException) {s : InputGates}
    (accounted : Accounted s) :
    (s.spared w c).failed fuel b exception = (s.failed fuel b exception).spared w c := by
  have kept := accounted.setBroken b exception
  induction fuel generalizing s b with
  | zero =>
    unfold failed
    simp only [spared_brokenState, spared_setBroken accounted b exception, spared_parent,
      spared_setBroken kept]
    split
    · rfl
    · split
      · rfl
      · rfl
  | succ fuel ih =>
    unfold failed
    simp only [spared_brokenState, spared_setBroken accounted b exception, spared_parent,
      spared_setBroken kept]
    split
    · rfl
    · split
      · rfl
      · exact ih _ kept (kept.setBroken _ exception)

theorem erase_append_other {l : List Nat} (other : x ≠ w) : (l ++ [x]).erase w = l.erase w ++ [x] := by
  by_cases member : w ∈ l
  · rw [List.erase_append_left _ member]
  · rw [List.erase_append_right _ member, List.erase_of_not_mem member, List.erase_of_not_mem]
    simpa using other.symm

theorem spared_newWaiterPromise (other : x ≠ w) (gate : Nat) (starts : Option Nat) :
    (s.spared w c).newWaiterPromise gate starts x = (s.newWaiterPromise gate starts x).spared w c := by
  unfold newWaiterPromise
  cases starts with
  | none =>
    simp only [← spared_settle other]
    unfold spared
    simp only [erase_update, erase_append_other other]
  | some b =>
    simp only [← spared_settle other]
    unfold spared
    simp only [erase_update, erase_append_other other]

theorem spared_gateWait (start : s.AtStart c) (other : x ≠ w) (gate : Nat) (aborted : Bool) :
    (s.spared w c).gateWait gate x aborted = (s.gateWait gate x aborted).spared w c := by
  unfold gateWait
  split
  · exact spared_settle other _
  · rw [spared_brokenState]
    split
    · exact spared_settle other _
    · rw [show (s.spared w c).lockCount = s.lockCount from rfl]
      split
      · rw [spared_newLock start, spared_settle other]
        rfl
      · exact spared_newWaiterPromise other gate none

theorem spared_withState (other : c ≠ some b) (state : SectionState) :
    (s.spared w c).withState b state = (s.withState b state).spared w c := by
  cases c with
  | none => rfl
  | some d =>
    have apart : d ≠ b := fun same => other (by rw [same])
    unfold withState spared
    simp only [Option.elim_some, Function.update_comm apart]

theorem AtStart.withState (start : s.AtStart c) (other : c ≠ some b) (state : SectionState) :
    (s.withState b state).AtStart c := by
  rintro d rfl
  have apart : d ≠ b := fun same => other (by rw [same])
  simpa [InputGates.withState, apart] using start d rfl

theorem spared_enter (start : s.AtStart c) (own : c ≠ some b) (other : x ≠ w) (lock : Nat) (aborted : Bool) :
    (s.spared w c).enter b lock x aborted = (s.enter b lock x aborted).spared w c := by
  have entered : ∀ t : InputGates, t.enter b lock x aborted =
      { t.withState b .running with parentLock := Function.update t.parentLock b (some lock)
        }.gateWait b x aborted :=
    fun _ => rfl
  have same : { (s.spared w c).withState b .running with
      parentLock := Function.update (s.spared w c).parentLock b (some lock) } =
      { s.withState b .running with
        parentLock := Function.update s.parentLock b (some lock) }.spared w c := by
    rw [spared_withState own]
    rfl
  have start' : AtStart { s.withState b .running with
      parentLock := Function.update s.parentLock b (some lock) } c := start.withState own .running
  rw [entered, entered, same]
  exact spared_gateWait start' other b aborted

theorem AtStart.settles {t : InputGates} (start : s.AtStart c) (settles : Settles s t) : t.AtStart c := by
  intro b mine
  rw [settles.state]
  exact start b mine

theorem spared_start (start : s.AtStart c) (accounted : Accounted s) (own : c ≠ some b)
    (fresh : s.state b = .notStarted)
    (other : x ≠ w) : (s.spared w c).start b x = (s.start b x).spared w c := by
  have begun : Accounted (s.withState b .initialWait) :=
    accounted.setState (by simp [fresh]) (by simp) s.parentLock
  have start' := start.withState own .initialWait
  rw [start_eq, start_eq, spared_withState own]
  unfold begin
  rw [spared_parentAsInputGate start', spared_brokenState]
  split
  · rw [spared_setBroken begun, spared_settle other]
  · rw [show ((s.withState b .initialWait).spared w c).lockCount =
      (s.withState b .initialWait).lockCount from rfl]
    split
    · have locked : AtStart ((s.withState b .initialWait).newLock
        ((s.withState b .initialWait).parentAsInputGate b) false)
        c := start'
      rw [spared_newLock start']
      exact spared_enter locked own other _ false
    · exact spared_newWaiterPromise other _ _

theorem spared_waitOn (start : s.AtStart c) (accounted : Accounted s) (counted : Counted (s.spared w c))
    {gate : Nat}
    (own : c ≠ some (s.adopter gate)) (other : x ≠ w) (aborted : Bool) :
    (s.spared w c).waitOn gate gate x aborted = (s.waitOn gate gate x aborted).spared w c := by
  rw [waitOn_adopter counted (Nat.le_refl gate), waitOn_adopter accounted.counted (Nat.le_refl gate),
    spared_adopter start]
  unfold waitOn
  split
  · exact spared_gateWait start other 0 aborted
  · split
    · exact spared_settle other _
    · rw [spared_state own]
      split
      · rename_i fresh
        exact spared_start start accounted own fresh other
      · exact spared_settle other _
      · exact spared_gateWait start other _ aborted
      · rfl

theorem spared_call (start : s.AtStart c) (accounted : Accounted s) (counted : Counted (s.spared w c))
    {gate : Nat}
    (own : c ≠ some (s.adopter gate)) (made : w < s.waits) (aborted : Bool) :
    (s.spared w c).call gate aborted = (s.call gate aborted).spared w c := by
  have other : s.waits ≠ w := Nat.ne_of_gt made
  have asked : (s.asking gate aborted).spared w c = (s.spared w c).asking gate aborted := by
    unfold asking spared
    simp only [Function.update_comm other]
  have accounted' : Accounted (s.asking gate aborted) :=
    ⟨{ accounted.queued with later := fun x later => accounted.queued.later x (Nat.le_of_succ_le later) },
      accounted.counted.same ⟨rfl, rfl, rfl, rfl, rfl, rfl⟩, accounted.idle⟩
  have counted' : Counted ((s.asking gate aborted).spared w c) := by
    rw [asked]
    exact counted.same ⟨rfl, rfl, rfl, rfl, rfl, rfl⟩
  change ((s.spared w c).asking gate aborted).waitOn gate gate s.waits aborted =
    ((s.asking gate aborted).waitOn gate gate s.waits aborted).spared w c
  rw [← asked]
  exact spared_waitOn (s := s.asking gate aborted) start accounted' counted' own other aborted

theorem spared_abort (accounted : Accounted s) (x : Nat) : (s.spared w c).abort x = (s.abort x).spared w c :=
    by
  unfold abort
  by_cases mine : x = w
  · subst mine
    have marked : Accounted { s with aborted := Function.update s.aborted x true } :=
      ⟨{ accounted.queued with }, accounted.counted.same ⟨rfl, rfl, rfl, rfl, rfl, rfl⟩, accounted.idle⟩
    rw [spared_reject_self marked.queued]
    have same : { s.spared x c with aborted := Function.update (s.spared x c).aborted x true } =
        { s with aborted := Function.update s.aborted x true }.spared x c := by
      unfold spared
      simp only [Function.update_idem]
    rw [same, reject_inert spared_out]
  · rw [← spared_reject mine]
    unfold spared
    simp only [Function.update_comm mine]

theorem spared_resume (start : s.AtStart c) (accounted : Accounted s) (other : x ≠ w)
    (own : ∀ b, (s.wait x).starts = some b → c ≠ some b) (first : ∀ b, (s.wait x).starts = some b →
      s.state b = .initialWait) :
    (s.spared w c).resume x = (s.resume x).spared w c := by
  unfold resume
  rw [spared_wait other]
  cases status : s.wait x with
  | granted b lock =>
    have mine : (s.wait x).starts = some b := by rw [status]; rfl
    have same : (s.spared w c).aborted x = s.aborted x := Function.update_of_ne other ..
    simp only [same]
    exact spared_enter start (own b mine) other lock _
  | refused b exception =>
    have mine : (s.wait x).starts = some b := by rw [status]; rfl
    cases exception with
    | canceled => exact spared_settle other _
    | error message =>
      have running : Accounted (s.withState b .running) :=
        accounted.setState (by simp [first b mine]) (by simp) s.parentLock
      have broken := @spared_setBroken _ w c running b (.error message)
      rw [← spared_withState (own b mine)] at broken
      change (((s.spared w c).withState b .running).setBroken b (.error message)).settle x _ = _
      rw [broken, spared_settle other]
      rfl
  | _ => rfl

/-- The call was given a lock. -/
def Served (s : InputGates) (w : Nat) : Prop := (∃ l, s.wait w = .resolved l) ∨ ∃ b l, s.wait w = .granted b l

theorem spared_fulfill (other : x ≠ w) (lock : Nat) :
    (s.spared w c).fulfill x lock = (s.fulfill x lock).spared w c := by
  unfold fulfill
  rw [spared_wait other]
  cases s.wait x with
  | linked g starts =>
    cases starts with
    | none => simp only [spared_unlink other, spared_settle other]
    | some b => simp only [spared_unlink other, spared_settle other]
  | _ => rfl

theorem spared_grantNext (start : s.AtStart c) (queued : Queued s) {gate : Nat}
    (passed : ¬ (s.grantNext gate).Served w) :
    (s.spared w c).grantNext gate = (s.grantNext gate).spared w c := by
  have settled : ∀ (t : InputGates) (status : WaitStatus), (t.settle w status).wait w = status := fun _ _ =>
    Function.update_self ..
  unfold grantNext at passed ⊢
  cases children : s.waitingChildren gate with
  | cons x rest =>
    rw [children] at passed
    have other : x ≠ w := by
      rintro rfl
      obtain ⟨b, linked⟩ := (queued.child gate x).1 (by rw [children]; exact List.mem_cons_self ..)
      exact passed (.inr ⟨b, s.locks, by simp only [fulfill_child (s := s.newLock gate false) linked,
        settled]⟩)
    have erased : (s.spared w c).waitingChildren gate = x :: rest.erase w := by
      change (s.waitingChildren gate).erase w = _
      rw [children, List.erase_cons_tail (by simpa using other)]
    simp only [erased, spared_newLock start]
    exact spared_fulfill (s := s.newLock gate false) other _
  | nil =>
    rw [children] at passed
    have erased : (s.spared w c).waitingChildren gate = [] := by
      change (s.waitingChildren gate).erase w = _
      rw [children]
      rfl
    simp only [erased]
    cases waiters : s.waiters gate with
    | cons x rest =>
      rw [waiters] at passed
      have other : x ≠ w := by
        rintro rfl
        have linked := (queued.waiter gate x).1 (by rw [waiters]; exact List.mem_cons_self ..)
        exact passed (.inl ⟨s.locks, by simp only [fulfill_waiter (s := s.newLock gate true) linked,
          settled]⟩)
      have erased : (s.spared w c).waiters gate = x :: rest.erase w := by
        change (s.waiters gate).erase w = _
        rw [waiters, List.erase_cons_tail (by simpa using other)]
      simp only [erased, spared_newLock start]
      exact spared_fulfill (s := s.newLock gate true) other _
    | nil =>
      have erased : (s.spared w c).waiters gate = [] := by
        change (s.waiters gate).erase w = _
        rw [waiters]
        rfl
      simp only [erased]

theorem release_none {l : Nat} (gone : s.gateOf l = none) : (release l s).2 = s := by
  unfold release
  rw [state_bind, gone]
  rfl

theorem spared_release (start : s.AtStart c) (accounted : Accounted s)
    (accounted' : Accounted (s.spared w c)) {l : Nat}
    (passed : ¬ ((release l s).2).Served w) : (release l (s.spared w c)).2 = (release l s).2.spared w c := by
  cases held : s.gateOf l with
  | none =>
    have gone : (s.spared w c).gateOf l = none := held
    rw [release_none held, release_none gone]
  | some h =>
    have held' : (s.spared w c).gateOf l = some h := held
    rw [release_run accounted held] at passed ⊢
    rw [release_run accounted' held', spared_adopter start]
    have unlocked : (s.spared w c).unlock l (s.adopter h) = (s.unlock l (s.adopter h)).spared w c := rfl
    unfold freed at passed ⊢
    rw [unlocked]
    change (if (s.unlock l (s.adopter h)).lockCount (s.adopter h) = 0 then _ else _) = _
    by_cases free : (s.unlock l (s.adopter h)).lockCount (s.adopter h) = 0
    · rw [if_pos free] at passed ⊢
      rw [if_pos free]
      exact spared_grantNext (s := s.unlock l (s.adopter h)) start { accounted.queued with } passed
    · rw [if_neg free, if_neg free]

theorem erase_append_apart {l m : List Nat} (apart : w ∈ l → w ∉ m) :
    (l ++ m).erase w = l.erase w ++ m.erase w := by
  by_cases member : w ∈ l
  · rw [List.erase_append_left _ member, List.erase_of_not_mem (apart member)]
  · rw [List.erase_append_right _ member, List.erase_of_not_mem member]

theorem spared_reparent (start : s.AtStart c) (queued : Queued s) (own : c ≠ some b)
    (up : s.parentAsInputGate b ≠ b) :
    (s.spared w c).reparent b = (s.reparent b).spared w c := by
  have children : ∀ {g}, g ≠ b → w ∈ s.waitingChildren g → w ∉ s.waitingChildren b := by
    intro g other member also
    obtain ⟨d, linked⟩ := (queued.child g w).1 member
    obtain ⟨d', linked'⟩ := (queued.child b w).1 also
    rw [linked] at linked'
    cases linked'
    exact other rfl
  have waiters : ∀ {g}, g ≠ b → w ∈ s.waiters g → w ∉ s.waiters b := by
    intro g other member also
    have linked := (queued.waiter g w).1 member
    rw [(queued.waiter b w).1 also] at linked
    cases linked
    exact other rfl
  have states : (s.spared w c).withState b .reparented = (s.withState b .reparented).spared w c :=
    spared_withState own _
  have state : Function.update (s.spared w c).state b .reparented = ((s.reparent b).spared w c).state :=
    congrArg InputGates.state states
  unfold reparent
  rw [spared_parentAsInputGate start]
  unfold spared at state ⊢
  simp only [erase_update, erase_append_apart (children up), erase_append_apart (waiters up),
    List.erase_nil] at state ⊢
  rw [state]
  congr 1
  funext x
  by_cases mine : x = w
  · subst mine
    simp only [Function.update_self]
  · simp only [Function.update_of_ne mine, List.mem_append, List.mem_erase_of_ne mine]

theorem spared_resume_self (quiet : ∀ b m, s.wait w ≠ .refused b (.error m)) (unserved : ¬ s.Served w) :
    (s.spared w c).resume w = (s.resume w).spared w c := by
  have rejected : (s.spared w c).wait w = .rejected .canceled := Function.update_self ..
  have still : (s.spared w c).resume w = s.spared w c := by
    unfold resume
    rw [rejected]
  rw [still]
  unfold resume
  cases status : s.wait w with
  | granted b l => exact absurd (.inr ⟨b, l, status⟩) unserved
  | refused b exception =>
    cases exception with
    | canceled => exact (spared_settle_self _).symm
    | error m => exact absurd status (quiet b m)
  | _ => rfl

theorem spared_dropped (accounted : Accounted s) (own : c = some b → s.state b = .initialWait) :
    (s.spared w c).dropped b = (s.dropped b).spared w c := by
  have state : (s.spared w c).state b = .running ↔ s.state b = .running := by
    by_cases mine : c = some b
    · subst mine
      rw [own rfl]
      simp [spared]
    · rw [spared_state mine]
  unfold dropped
  simp only [state]
  split
  · exact spared_failed b b _ accounted
  · rfl

theorem Accounted.dropped (accounted : Accounted s) (b : Nat) : Accounted (s.dropped b) := by
  unfold InputGates.dropped
  split
  · exact accounted.failed _ _ _
  · exact accounted

theorem Accounted.disown (accounted : Accounted s) (b : Nat) : Accounted (s.disown b) :=
  ⟨{ accounted.queued with }, accounted.counted.same ⟨rfl, rfl, rfl, rfl, rfl, rfl⟩, accounted.idle⟩

/-- What a step does goes on without the call, as long as the call is given no lock. -/
theorem spared_step {event : Event} {t : InputGates} (sound : Sound s) (accounted' : Accounted (s.spared w c))
    (start : s.AtStart c) (made : w < s.waits) (alone : ∀ x, x ≠ w → ∀ b, (s.wait x).starts = some b →
      c ≠ some b)
    (quiet : ∀ b m, s.wait w ≠ .refused b (.error m)) (unserved : ¬ s.Served w)
    (unasked : ∀ gate aborted, event = .wait gate aborted → c ≠ some (s.adopter gate))
    (stepped : step s event = some t) (passed : ¬ t.Served w) : step (s.spared w c) event = some
      (t.spared w c) := by
  obtain ⟨accounted, starting, placed⟩ := sound
  have goes : ∀ {p : Prop} [Decidable p] {u v : InputGates}, (if p then some u else none) = some t →
      v = u.spared w c → (if p then some v else none) = some (t.spared w c) := by
    intro p _ u v went same
    obtain ⟨admitted, rfl⟩ := Option.ite_none_right_eq_some.1 went |>.imp_right Option.some.inj
    rw [if_pos admitted, same]
  have result : ∀ {p : Prop} [Decidable p] {u : InputGates}, (if p then some u else none) = some t → u = t :=
    by
    intro p _ u went
    exact Option.some.inj (Option.ite_none_right_eq_some.1 went).2
  cases event with
  | wait gate aborted =>
    exact goes stepped (spared_call start accounted accounted'.counted (unasked gate aborted rfl)
      made aborted)
  | abort x => exact goes stepped (spared_abort accounted x)
  | resume x =>
    by_cases mine : x = w
    · subst mine
      exact goes stepped (spared_resume_self quiet unserved)
    · exact goes stepped (spared_resume start accounted mine (alone x mine) fun b first =>
        (starting.initial x b first).1)
  | addRef l =>
    refine goes stepped ?_
    rw [addRef_state, addRef_state]
    rw [show (s.spared w c).gateOf l = s.gateOf l from rfl]
    cases s.gateOf l with
    | none => rfl
    | some g => exact spared_newLock start g true
  | release l =>
    refine goes stepped (spared_release start accounted accounted' ?_)
    rw [result stepped]
    exact passed
  | startCriticalSection l =>
    refine goes stepped ?_
    rw [startCriticalSection_state, startCriticalSection_state]
    rw [show (s.spared w c).gateOf l = s.gateOf l from rfl]
    cases s.gateOf l with
    | none => rfl
    | some g => rfl
  | succeeded b =>
    refine goes stepped ?_
    obtain ⟨⟨section_, -⟩, -⟩ := Option.ite_none_right_eq_some.1 stepped
    by_cases running : s.state b = .running
    · have own : c ≠ some b := by
        intro mine
        have initial := start b mine
        rw [running] at initial
        cases initial
      have running' : (s.spared w c).state b = .running := (spared_state own).trans running
      have up : s.parentAsInputGate b ≠ b := Nat.ne_of_lt (parent_lt accounted.counted section_)
      rw [succeeded_state running, succeeded_state running']
      rw [show (s.spared w c).parentLock b = s.parentLock b from rfl]
      cases s.parentLock b with
      | none => exact spared_reparent start accounted.queued own up
      | some lock =>
        simp only [spared_reparent start accounted.queued own up]
        rfl
    · have idle : (s.spared w c).state b ≠ .running := by
        by_cases mine : c = some b
        · subst mine
          simp [spared]
        · rw [spared_state mine]
          exact running
      rw [succeeded_refused running, succeeded_refused idle]
  | failed b exception => exact goes stepped (spared_failed b b exception accounted)
  | setBroken gate exception => exact goes stepped (spared_setBroken accounted gate exception)
  | drop b =>
    refine goes stepped ?_
    have same := result stepped
    have done := @spared_dropped s w b c accounted (start b)
    rw [drop_state] at same ⊢
    rw [drop_state]
    rw [show (s.spared w c).parentLock b = s.parentLock b from rfl]
    cases held : s.parentLock b with
    | none => exact done
    | some l =>
      rw [held] at same
      have kept := (accounted.dropped b).disown b
      have kept' : Accounted (((s.dropped b).disown b).spared w c) := by
        rw [show ((s.dropped b).disown b).spared w c = ((s.spared w c).dropped b).disown b by rw [done]; rfl]
        exact (accounted'.dropped b).disown b
      have start' : ((s.dropped b).disown b).AtStart c :=
        (start.settles (.dropped s b) : (s.dropped b).AtStart c)
      have same' : (release l ((s.dropped b).disown b)).2 = t := same
      have released := spared_release (l := l) start' kept kept' fun served => passed (same' ▸ served)
      simp only [done]
      exact released

end Erasing

end DoRuntime.Io.InputGates
