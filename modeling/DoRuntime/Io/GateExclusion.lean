import DoRuntime.Io.GateAccounting

namespace DoRuntime.Io.InputGates

open Forwarding Prog Transition

/-- The lock that a section has in its parent, or that the first `wait` of one is to go on with. -/
def lockOf (s : InputGates) : Nat ⊕ Nat → Option (Nat × Nat)
  | .inl c => (s.parentLock c).map fun l => (c, l)
  | .inr w =>
    match s.wait w with
    | .granted c l => some (c, l)
    | _ => none

theorem lockOf_inr {s : InputGates} {w c l : Nat} : s.lockOf (.inr w) = some (c, l) ↔ s.wait w = .granted c l := by
  cases status : s.wait w <;> simp [lockOf, status]

/-- The locks of sections in their parents are no caller's, and each is alone on its gate. -/
structure Exclusive (s : InputGates) : Prop where
  known : ∀ o c l, s.lockOf o = some (c, l) → c < s.gates
  kept : ∀ o c l, s.lockOf o = some (c, l) → s.given l = false
  target : ∀ o c l, s.lockOf o = some (c, l) → s.Holds l (s.parentAsInputGate c)
  once : ∀ o o' c c' l, s.lockOf o = some (c, l) → s.lockOf o' = some (c', l) → o = o'
  alone : ∀ o c l h, s.lockOf o = some (c, l) → s.gateOf l = some h → s.isReparented h = false →
    ∀ l', s.Holds l' h → l' = l

section Frames

variable {s t : InputGates}

/-- What the exclusion of locks depends on, the locks of sections aside. -/
structure SameOwners (s t : InputGates) : Prop where
  parent : t.parent = s.parent
  gone : t.isReparented = s.isReparented
  gates : t.gates = s.gates
  gateOf : t.gateOf = s.gateOf
  given : t.given = s.given

theorem SameOwners.holds (same : SameOwners s t) (l g : Nat) : t.Holds l g ↔ s.Holds l g := by
  simp only [Holds, adopter, same.gateOf, same.parent, same.gone]

theorem SameOwners.parentAsInputGate (same : SameOwners s t) (c : Nat) :
    t.parentAsInputGate c = s.parentAsInputGate c := by
  simp only [InputGates.parentAsInputGate, adopter, same.parent, same.gone]

/-- A section comes to have a lock that none had, alone on its gate. -/
theorem Exclusive.own (exclusive : Exclusive s) (same : SameOwners s t) (o₀ : Nat ⊕ Nat) (c₀ l₀ h₀ : Nat)
    (back : ∀ o c l, t.lockOf o = some (c, l) → s.lockOf o = some (c, l) ∨ (o = o₀ ∧ c = c₀ ∧ l = l₀))
    (unowned : ∀ o c, s.lockOf o ≠ some (c, l₀)) (known : c₀ < s.gates) (kept : s.given l₀ = false)
    (target : s.Holds l₀ (s.parentAsInputGate c₀)) (gate : s.gateOf l₀ = some h₀)
    (alone : s.isReparented h₀ = false → ∀ l', s.Holds l' h₀ → l' = l₀) : Exclusive t := by
  refine ⟨fun o c l has => ?_, fun o c l has => ?_, fun o c l has => ?_, fun o o' c c' l has has' => ?_,
    fun o c l h has at_gate stays l' holds => ?_⟩
  · rw [same.gates]
    rcases back o c l has with before | ⟨_, rfl, rfl⟩
    · exact exclusive.known o c l before
    · exact known
  · rw [same.given]
    rcases back o c l has with before | ⟨_, rfl, rfl⟩
    · exact exclusive.kept o c l before
    · exact kept
  · rw [same.holds, same.parentAsInputGate]
    rcases back o c l has with before | ⟨_, rfl, rfl⟩
    · exact exclusive.target o c l before
    · exact target
  · rcases back o c l has with before | ⟨rfl, rfl, rfl⟩ <;> rcases back o' c' _ has' with before' | ⟨rfl, rfl, new⟩
    · exact exclusive.once o o' c c' l before before'
    · exact absurd (new ▸ before) (unowned o c)
    · exact absurd before' (unowned o' c')
    · rfl
  · rw [same.gateOf] at at_gate
    rw [same.gone] at stays
    rw [same.holds] at holds
    rcases back o c l has with before | ⟨_, rfl, rfl⟩
    · exact exclusive.alone o c l h before at_gate stays l' holds
    · obtain rfl : h₀ = h := Option.some.inj (gate.symm.trans at_gate)
      exact alone stays l' holds

theorem Exclusive.frame (exclusive : Exclusive s) (same : SameOwners s t)
    (back : ∀ o c l, t.lockOf o = some (c, l) → s.lockOf o = some (c, l)) : Exclusive t := by
  refine ⟨fun o c l has => ?_, fun o c l has => ?_, fun o c l has => ?_, fun o o' c c' l has has' => ?_,
    fun o c l h has at_gate stays l' holds => ?_⟩
  · rw [same.gates]
    exact exclusive.known o c l (back o c l has)
  · rw [same.given]
    exact exclusive.kept o c l (back o c l has)
  · rw [same.holds, same.parentAsInputGate]
    exact exclusive.target o c l (back o c l has)
  · exact exclusive.once o o' c c' l (back o c l has) (back o' c' l has')
  · rw [same.gateOf] at at_gate
    rw [same.gone] at stays
    rw [same.holds] at holds
    exact exclusive.alone o c l h (back o c l has) at_gate stays l' holds

theorem newLock_holds (counted : Counted s) (gate : Nat) (given : Bool) (l g : Nat) :
    (s.newLock gate given).Holds l g ↔ (s.Holds l g ∨ l = s.locks ∧ s.adopter gate = g) := by
  by_cases new : l = s.locks
  · subst new
    have unheld : ¬ s.Holds s.locks g := by
      rintro ⟨h, held, _⟩
      simp [counted.unmade s.locks (Nat.le_refl _)] at held
    simp only [Holds, newLock, Function.update_self, Option.some.injEq, exists_eq_left', true_and]
    exact ⟨fun forwards => .inr forwards, fun either => either.resolve_left unheld⟩
  · simp only [Holds, newLock, Function.update_of_ne new, new, false_and, or_false]
    rfl

theorem Exclusive.made (exclusive : Exclusive s) (counted : Counted s) {o : Nat ⊕ Nat} {c l : Nat}
    (has : s.lockOf o = some (c, l)) : l < s.locks := by
  by_contra later
  obtain ⟨h, held, _⟩ := exclusive.target o c l has
  simp [counted.unmade l (Nat.le_of_not_lt later)] at held

/-- A lock is made on a gate where no section has its lock. -/
theorem Exclusive.newLock (exclusive : Exclusive s) (counted : Counted s) {gate : Nat} (given : Bool)
    (clear : ∀ o c l h, s.lockOf o = some (c, l) → s.gateOf l = some h → s.isReparented h = false →
      s.adopter gate ≠ h) : Exclusive (s.newLock gate given) := by
  have old : ∀ o c l, s.lockOf o = some (c, l) → l ≠ s.locks := fun o c l has =>
    Nat.ne_of_lt (exclusive.made counted has)
  refine ⟨exclusive.known, fun o c l has => ?_, fun o c l has => ?_, exclusive.once,
    fun o c l h has at_gate stays l' holds => ?_⟩
  · simp only [InputGates.newLock]
    rw [Function.update_of_ne (old o c l has)]
    exact exclusive.kept o c l has
  · rw [newLock_holds counted]
    exact .inl (exclusive.target o c l has)
  · simp only [InputGates.newLock] at at_gate
    rw [Function.update_of_ne (old o c l has)] at at_gate
    rw [newLock_holds counted] at holds
    rcases holds with before | ⟨_, forwards⟩
    · exact exclusive.alone o c l h has at_gate stays l' before
    · exact absurd forwards (clear o c l h has at_gate stays)

/-- No lock forwards to a gate that counts none. -/
theorem Counted.unheld (counted : Counted s) {gate : Nat} (stays : s.isReparented gate = false)
    (free : s.lockCount gate = 0) (l : Nat) : ¬ s.Holds l gate := by
  intro holds
  obtain ⟨h, held, forwards⟩ := holds
  have none_left := counted.counts gate stays
  rw [free, outstanding, eq_comm, Finset.card_eq_zero, Finset.filter_eq_empty_iff] at none_left
  have made : l < s.locks := by
    by_contra later
    simp [counted.unmade l (Nat.le_of_not_lt later)] at held
  exact none_left (Finset.mem_range.2 made) ⟨h, held, forwards⟩

theorem clear_of_free (counted : Counted s) {gate : Nat} (stays : s.isReparented gate = false)
    (free : s.lockCount gate = 0) (o : Nat ⊕ Nat) (c l h : Nat) (_ : s.lockOf o = some (c, l))
    (at_gate : s.gateOf l = some h) (there : s.isReparented h = false) : s.adopter gate ≠ h := by
  rw [adopter_of_stays stays]
  rintro rfl
  exact counted.unheld stays free l ⟨gate, at_gate, adopter_of_stays there⟩

theorem lockOf_settle {w : Nat} {status : WaitStatus} (out : ∀ c l, status ≠ .granted c l) (o : Nat ⊕ Nat) (c l : Nat)
    (has : (s.settle w status).lockOf o = some (c, l)) : s.lockOf o = some (c, l) := by
  cases o with
  | inl c' => exact has
  | inr x =>
    by_cases mine : x = w
    · subst mine
      simp only [lockOf, settle, Function.update_self] at has
      cases status with
      | granted c' l' => exact absurd rfl (out c' l')
      | linked => cases has
      | refused => cases has
      | resolved => cases has
      | rejected => cases has
    · simpa [lockOf, settle, mine] using has

theorem Exclusive.settle (exclusive : Exclusive s) {w : Nat} {status : WaitStatus}
    (out : ∀ c l, status ≠ .granted c l) : Exclusive (s.settle w status) :=
  exclusive.frame ⟨rfl, rfl, rfl, rfl, rfl⟩ (lockOf_settle out)

theorem Exclusive.settles (exclusive : Exclusive s) (settles : Settles s t) : Exclusive t := by
  have gone : t.isReparented = s.isReparented := by
    funext g
    simp only [isReparented, settles.state]
  refine exclusive.frame ⟨settles.parent, gone, settles.gates, settles.gateOf, settles.given⟩ fun o c l has => ?_
  cases o with
  | inl c' =>
    simp only [lockOf, settles.parentLock] at has ⊢
    exact has
  | inr w =>
    simp only [lockOf] at has
    split at has
    · rename_i c' l' granted
      cases has
      simp only [lockOf, settles.granted w c l granted]
    · cases has

theorem Exclusive.gateWait (exclusive : Exclusive s) (counted : Counted s) {gate : Nat}
    (stays : s.isReparented gate = false) (w : Nat) (aborted : Bool) : Exclusive (s.gateWait gate w aborted) := by
  unfold InputGates.gateWait
  split
  · exact exclusive.settle fun _ _ => by simp
  · split
    · exact exclusive.settle fun _ _ => by simp
    · split
      · rename_i free
        exact (exclusive.newLock counted true (clear_of_free counted stays free)).settle fun _ _ => by simp
      · exact exclusive.frame ⟨rfl, rfl, rfl, rfl, rfl⟩ (lockOf_settle fun _ _ => by simp)

theorem settle_settle (s : InputGates) (w : Nat) (first second : WaitStatus) :
    (s.settle w first).settle w second = s.settle w second := by
  simp [settle]

/-- What was known of the promise of a call before does not matter. -/
theorem gateWait_forget (s : InputGates) (gate w : Nat) (aborted : Bool) (status : WaitStatus) :
    (s.settle w status).gateWait gate w aborted = s.gateWait gate w aborted := by
  have same : (s.settle w status).brokenState = s.brokenState ∧ (s.settle w status).lockCount = s.lockCount := ⟨rfl, rfl⟩
  unfold InputGates.gateWait
  rw [same.1, same.2]
  by_cases left : aborted
  · simp only [left, if_true, settle_settle]
  · simp only [left, Bool.false_eq_true, if_false]
    cases s.brokenState gate with
    | some exception => exact settle_settle s w status _
    | none =>
      by_cases free : s.lockCount gate = 0
      · simp only [free, if_true]
        exact settle_settle (s.newLock gate true) w status _
      · simp only [free, if_false]
        exact settle_settle { s with waiters := Function.update s.waiters gate (s.waiters gate ++ [w]) } w status _

end Frames

section Steps

variable {s : InputGates} {c w : Nat}

theorem Counted.root_stays (s : InputGates) : s.isReparented 0 = false := by simp [isReparented]

/-- A section goes on with a lock of its parent that none has. -/
theorem Exclusive.enter (exclusive : Exclusive s) (counted : Counted s) (initial : s.state c = .initialWait)
    (known : c < s.gates) {lock h : Nat} (unowned : ∀ o c', s.lockOf o ≠ some (c', lock))
    (kept : s.given lock = false) (target : s.Holds lock (s.parentAsInputGate c)) (gate : s.gateOf lock = some h)
    (alone : s.isReparented h = false → ∀ l, s.Holds l h → l = lock) (aborted : Bool) :
    Exclusive (s.enter c lock w aborted) := by
  have same := SameLocks.setState (s := s) (c := c) (by simp [initial]) (show SectionState.running ≠ .reparented by simp)
    (Function.update s.parentLock c (some lock))
  have owned : Exclusive { s with
      state := Function.update s.state c .running
      parentLock := Function.update s.parentLock c (some lock) } := by
    refine exclusive.own ⟨rfl, same.gone, rfl, rfl, rfl⟩ (.inl c) c lock h (fun o c' l has => ?_) unowned known
      kept target gate alone
    cases o with
    | inr w' => exact .inl has
    | inl c'' =>
      by_cases mine : c'' = c
      · subst mine
        simp only [lockOf, Function.update_self, Option.map_some, Option.some.injEq, Prod.mk.injEq] at has
        exact .inr ⟨rfl, has.1.symm, has.2.symm⟩
      · simp only [lockOf, Function.update_of_ne mine] at has
        exact .inl has
  exact owned.gateWait (counted.same same) (by simp [isReparented]) w aborted

theorem Exclusive.begin (exclusive : Exclusive s) (counted : Counted s) (initial : s.state c = .initialWait)
    (known : c < s.gates) (first : 0 < c) : Exclusive (s.begin c w) := by
  have stays := counted.parent_stays c
  unfold InputGates.begin
  split
  · exact (exclusive.settles (.setBroken s c _)).settle fun _ _ => by simp
  · split
    · rename_i free
      have made := counted.newLock (counted.parent_known first known) false
      have fresh := exclusive.newLock counted false (clear_of_free counted stays free)
      have unheld := counted.unheld stays free
      have forwards : s.adopter (s.parentAsInputGate c) = s.parentAsInputGate c := adopter_of_stays stays
      refine fresh.enter made (h := s.parentAsInputGate c) initial known (fun o c' has => ?_) ?_ ?_ ?_ (fun _ l holds => ?_)
        false
      · exact absurd (exclusive.made counted (o := o) has) (Nat.lt_irrefl _)
      · simp [InputGates.newLock]
      · exact (newLock_holds counted _ _ _ _).2 (.inr ⟨rfl, forwards⟩)
      · simp [InputGates.newLock]
      · rcases (newLock_holds counted _ _ _ _).1 holds with before | ⟨new, _⟩
        · exact absurd before (unheld l)
        · exact new
    · exact exclusive.frame ⟨rfl, rfl, rfl, rfl, rfl⟩ (lockOf_settle fun _ _ => by simp)

theorem Exclusive.waitOn (exclusive : Exclusive s) (counted : Counted s) {gate : Nat} (known : gate < s.gates)
    (fuel : Nat) (aborted : Bool) : Exclusive (s.waitOn fuel gate w aborted) := by
  induction gate using Nat.strong_induction_on generalizing fuel with
  | _ gate ih =>
    unfold InputGates.waitOn
    split
    · exact exclusive.gateWait counted (Counted.root_stays s) w aborted
    · rename_i section_
      have first := Nat.pos_of_ne_zero section_
      split
      · exact exclusive.settle fun _ _ => by simp
      · split
        · rename_i fresh
          have same : SameLocks s (s.withState gate .initialWait) :=
            .setState (by simp [fresh]) (by simp) s.parentLock
          have begun : Exclusive (s.withState gate .initialWait) :=
            exclusive.frame ⟨rfl, same.gone, rfl, rfl, rfl⟩ fun _ _ _ has => has
          exact begun.begin (counted.same same) (by simp [withState]) known first
        · exact exclusive.settle fun _ _ => by simp
        · rename_i running
          exact exclusive.gateWait counted (by simp [isReparented, running]) w aborted
        · cases fuel with
          | zero => exact exclusive
          | succ fuel =>
            have below := counted.older gate first
            exact ih _ below (Nat.lt_trans below known) fuel

theorem Exclusive.resume (exclusive : Exclusive s) (counted : Counted s) (starting : Starting s) :
    Exclusive (s.resume w) := by
  unfold InputGates.resume
  split
  · rename_i c lock status
    have has : s.lockOf (.inr w) = some (c, lock) := by simp [lockOf, status]
    obtain ⟨initial, known⟩ := starting.initial w c (by rw [status]; rfl)
    have forgotten : Exclusive (s.settle w (.rejected .canceled)) := exclusive.settle fun _ _ => by simp
    obtain ⟨h, gate, forwards⟩ := exclusive.target _ _ _ has
    have unowned : ∀ o c', (s.settle w (.rejected .canceled)).lockOf o ≠ some (c', lock) := by
      intro o c' other
      have before := lockOf_settle (fun _ _ => by simp) o c' lock other
      obtain rfl := exclusive.once o (.inr w) c' c lock before has
      simp only [lockOf, InputGates.settle, Function.update_self] at other
      cases other
    have entered := forgotten.enter (c := c) (w := w) (counted.same (.settle s w _)) initial known unowned
      (exclusive.kept _ _ _ has) (exclusive.target _ _ _ has) gate
      (fun stays l holds => exclusive.alone _ _ _ h has gate stays l holds) (s.aborted w)
    have same : (s.settle w (.rejected .canceled)).enter c lock w (s.aborted w) = s.enter c lock w (s.aborted w) :=
      gateWait_forget { s with
        state := Function.update s.state c .running
        parentLock := Function.update s.parentLock c (some lock) } c w (s.aborted w) _
    exact same ▸ entered
  · exact exclusive.settle fun _ _ => by simp
  · rename_i c exception other status
    obtain ⟨initial, _⟩ := starting.initial w c (by rw [status]; rfl)
    have same : SameLocks s (s.withState c .running) := .setState (by simp [initial]) (by simp) s.parentLock
    have running : Exclusive (s.withState c .running) :=
      exclusive.frame ⟨rfl, same.gone, rfl, rfl, rfl⟩ fun _ _ _ has => has
    exact (running.settles (.setBroken _ c exception)).settle fun _ _ => by simp
  · exact exclusive

/-- A gate that nobody holds goes to the next in line. -/
theorem Exclusive.grantNext (exclusive : Exclusive s) (queued : Queued s) (counted : Counted s) (starting : Starting s)
    {gate : Nat} (stays : s.isReparented gate = false) (free : s.lockCount gate = 0)
    (target : ∀ w g c, s.wait w = .linked g (some c) → s.parentAsInputGate c = g) :
    Exclusive (s.grantNext gate) := by
  have clear := clear_of_free counted stays free
  unfold InputGates.grantNext
  split
  · rename_i child rest children
    obtain ⟨c, linked⟩ := (queued.child gate child).1 (by simp [children])
    have forwards : s.adopter gate = gate := adopter_of_stays stays
    rw [fulfill_child (s := s.newLock gate false) linked]
    have fresh := exclusive.newLock counted false clear
    have same := SameLocks.unlink (s.newLock gate false) child (.granted c s.locks)
    have others : (((s.newLock gate false).unlink child).settle child (.granted c s.locks)).given =
          (s.newLock gate false).given ∧
        (((s.newLock gate false).unlink child).settle child (.granted c s.locks)).parentLock = s.parentLock := by
      unfold InputGates.unlink
      split <;> exact ⟨rfl, rfl⟩
    refine fresh.own ⟨same.parent, same.gone, same.gates, same.gateOf, others.1⟩ (.inr child) c s.locks gate
      (fun o c' l has => ?_) (fun o c' has => ?_) ?_ ?_ ?_ ?_
      (fun _ l holds => ?_)
    · cases o with
      | inl c'' =>
        simp only [lockOf, others.2] at has
        exact .inl has
      | inr x =>
        simp only [lockOf, unlink_wait] at has
        by_cases mine : x = child
        · subst mine
          simp only [if_true, Option.some.injEq, Prod.mk.injEq] at has
          exact .inr ⟨rfl, has.1.symm, has.2.symm⟩
        · simp only [mine, if_false] at has
          exact .inl has
    · exact absurd (exclusive.made counted (o := o) has) (Nat.lt_irrefl _)
    · exact (starting.initial child c (by rw [linked]; rfl)).2
    · simp [InputGates.newLock]
    · have parent : (s.newLock gate false).parentAsInputGate c = gate := target child gate c linked
      rw [parent]
      exact (newLock_holds counted _ _ _ _).2 (.inr ⟨rfl, forwards⟩)
    · simp [InputGates.newLock]
    · rcases (newLock_holds counted _ _ _ _).1 holds with before | ⟨new, _⟩
      · exact absurd before (counted.unheld stays free l)
      · exact new
  · split
    · rename_i waiter rest waiters
      have linked := (queued.waiter gate waiter).1 (by simp [waiters])
      rw [fulfill_waiter (s := s.newLock gate true) linked]
      have same := SameLocks.unlink (s.newLock gate true) waiter (.resolved s.locks)
      have others : (((s.newLock gate true).unlink waiter).settle waiter (.resolved s.locks)).given =
            (s.newLock gate true).given ∧
          (((s.newLock gate true).unlink waiter).settle waiter (.resolved s.locks)).parentLock = s.parentLock := by
        unfold InputGates.unlink
        split <;> exact ⟨rfl, rfl⟩
      refine (exclusive.newLock counted true clear).frame ⟨same.parent, same.gone, same.gates, same.gateOf, others.1⟩
        fun o c' l has => ?_
      cases o with
      | inl c'' =>
        simp only [lockOf, others.2] at has
        exact has
      | inr x =>
        simp only [lockOf, unlink_wait] at has
        by_cases mine : x = waiter
        · simp [mine] at has
        · simp only [mine, if_false] at has
          exact has
    · exact exclusive

/-- A child waiter waits at the gate its section has for a parent. -/
def Placed (s : InputGates) : Prop := ∀ w g c, s.wait w = .linked g (some c) → s.parentAsInputGate c = g

theorem Exclusive.unlock (exclusive : Exclusive s) {l : Nat} (unowned : ∀ o c, s.lockOf o ≠ some (c, l)) (gate : Nat) :
    Exclusive (s.unlock l gate) := by
  have holds : ∀ i g, (s.unlock l gate).Holds i g ↔ i ≠ l ∧ s.Holds i g := fun i g => without_holds (s := s) l i g
  have other : ∀ o c i, s.lockOf o = some (c, i) → i ≠ l := by
    rintro o c i has rfl
    exact unowned o c has
  refine ⟨exclusive.known, exclusive.kept, fun o c i has => ?_, exclusive.once,
    fun o c i h has at_gate stays i' held => ?_⟩
  · rw [holds]
    exact ⟨other o c i has, exclusive.target o c i has⟩
  · rw [holds] at held
    simp only [InputGates.unlock] at at_gate
    rw [Function.update_of_ne (other o c i has)] at at_gate
    exact exclusive.alone o c i h has at_gate stays i' held.2

theorem Exclusive.release (exclusive : Exclusive s) (accounted : Accounted s) (starting : Starting s)
    (placed : Placed s) {l : Nat} (unowned : ∀ o c, s.lockOf o ≠ some (c, l)) : Exclusive (release l s).2 := by
  cases held : s.gateOf l with
  | none =>
    have refused : (InputGates.release l s).2 = s := by
      unfold InputGates.release
      rw [state_bind]
      simp only [held, raise_run]
    rw [refused]
    exact exclusive
  | some h =>
    have counted := accounted.counted
    rw [release_run accounted held]
    have unlocked := exclusive.unlock unowned (s.adopter h)
    dsimp only
    unfold freed
    split
    · rename_i free
      exact unlocked.grantNext { accounted.queued with } (counted.unlock held) { starting with }
        (counted.adopter_stays h) free placed
    · exact unlocked

theorem newSection_adopter (counted : Counted s) (parent g : Nat) : (s.newSection parent).adopter g = s.adopter g := by
  have apart : ∀ g, s.isReparented g = true → g ≠ s.gates := by
    rintro g gone rfl
    simp [counted.fresh s.gates (Nat.le_refl _)] at gone
  exact heir_congr counted.below (fun x gone => Function.update_of_ne (apart x gone) _ _) g

theorem newSection_parent (counted : Counted s) (parent : Nat) {c : Nat} (known : c < s.gates) :
    (s.newSection parent).parentAsInputGate c = s.parentAsInputGate c := by
  have same : (s.newSection parent).parent c = s.parent c := Function.update_of_ne (Nat.ne_of_lt known) _ _
  unfold parentAsInputGate
  rw [newSection_adopter counted, same]

theorem Exclusive.newSection (exclusive : Exclusive s) (counted : Counted s) (parent : Nat) :
    Exclusive (s.newSection parent) := by
  have holds : ∀ l g, (s.newSection parent).Holds l g ↔ s.Holds l g := by
    intro l g
    simp only [Holds, newSection_adopter counted]
    rfl
  refine ⟨fun o c l has => Nat.lt_succ_of_lt (exclusive.known o c l has), exclusive.kept, fun o c l has => ?_,
    exclusive.once, fun o c l h has at_gate stays l' held => ?_⟩
  · rw [holds, newSection_parent counted parent (exclusive.known o c l has)]
    exact exclusive.target o c l has
  · exact exclusive.alone o c l h has at_gate stays l' ((holds l' h).1 held)

/-- A section that hands on the lock it has in its parent. -/
def handed (s : InputGates) (c l : Nat) : InputGates :=
  { s.reparent c with
    parentLock := Function.update s.parentLock c none
    given := Function.update s.given l true }

theorem reparent_granted {c' l : Nat} : (s.reparent c).wait w = .granted c' l ↔ s.wait w = .granted c' l := by
  rw [reparent_wait]
  cases s.wait w with
  | linked g starts =>
    dsimp only
    split <;> simp
  | granted => rfl
  | refused => rfl
  | resolved => rfl
  | rejected => rfl

theorem lockOf_handed (o : Nat ⊕ Nat) (c' l l' : Nat) (has : (s.handed c l).lockOf o = some (c', l')) :
    o ≠ .inl c ∧ s.lockOf o = some (c', l') := by
  cases o with
  | inl x =>
    by_cases mine : x = c
    · subst mine
      simp [lockOf, handed] at has
    · simp only [lockOf, handed, Function.update_of_ne mine] at has
      exact ⟨fun same => mine (Sum.inl.inj same), has⟩
  | inr w =>
    refine ⟨by simp, ?_⟩
    rw [lockOf_inr] at has ⊢
    exact reparent_granted.1 has

theorem reparent_parent (counted : Counted s) (section_ : 0 < c) (stays : s.isReparented c = false) (x : Nat) :
    (s.reparent c).parentAsInputGate x =
      if s.parentAsInputGate x = c then s.parentAsInputGate c else s.parentAsInputGate x :=
  reparent_adopter counted section_ stays _

theorem reparent_holds (counted : Counted s) (section_ : 0 < c) (stays : s.isReparented c = false) (l g : Nat) :
    (s.reparent c).Holds l g ↔ (g ≠ c ∧ s.Holds l g) ∨ (g = s.parentAsInputGate c ∧ s.Holds l c) := by
  have other : s.parentAsInputGate c ≠ c := Nat.ne_of_lt (parent_lt counted section_)
  unfold Holds
  change (∃ h, s.gateOf l = some h ∧ (s.reparent c).adopter h = g) ↔ _
  simp only [reparent_adopter counted section_ stays]
  constructor
  · rintro ⟨h, held, forwards⟩
    by_cases mine : s.adopter h = c
    · rw [if_pos mine] at forwards
      exact .inr ⟨forwards.symm, h, held, mine⟩
    · rw [if_neg mine] at forwards
      exact .inl ⟨forwards ▸ mine, h, held, forwards⟩
  · rintro (⟨apart, h, held, forwards⟩ | ⟨target, h, held, forwards⟩)
    · exact ⟨h, held, by rw [forwards, if_neg apart]⟩
    · exact ⟨h, held, by rw [if_pos forwards, target]⟩

theorem Exclusive.handed (exclusive : Exclusive s) (counted : Counted s) (section_ : 0 < c)
    (running : s.state c = .running) {l : Nat} (has_lock : s.parentLock c = some l) : Exclusive (s.handed c l) := by
  have stays : s.isReparented c = false := by simp [isReparented, running]
  have mine : s.lockOf (.inl c) = some (c, l) := by simp [lockOf, has_lock]
  have holds : ∀ i g, (s.handed c l).Holds i g ↔
      (g ≠ c ∧ s.Holds i g) ∨ (g = s.parentAsInputGate c ∧ s.Holds i c) :=
    reparent_holds counted section_ stays
  have other : ∀ o c' i, (s.handed c l).lockOf o = some (c', i) → s.lockOf o = some (c', i) ∧ i ≠ l := by
    intro o c' i has
    obtain ⟨apart, before⟩ := lockOf_handed o c' l i has
    refine ⟨before, ?_⟩
    rintro rfl
    exact apart (exclusive.once o (.inl c) c' c i before mine)
  have gone : ∀ x, (s.handed c l).isReparented x = false → x ≠ c ∧ s.isReparented x = false := by
    intro x still
    change (s.reparent c).isReparented x = false at still
    have apart : x ≠ c := by
      rintro rfl
      simp [isReparented, reparent, section_] at still
    refine ⟨apart, ?_⟩
    simpa [isReparented, reparent, apart] using still
  refine ⟨fun o c' i has => exclusive.known o c' i (other o c' i has).1, fun o c' i has => ?_, fun o c' i has => ?_,
    fun o o' c' c'' i has has' => exclusive.once o o' c' c'' i (other o c' i has).1 (other o' c'' i has').1,
    fun o c' i h has at_gate still i' held => ?_⟩
  · obtain ⟨before, apart⟩ := other o c' i has
    change Function.update s.given l true i = false
    rw [Function.update_of_ne apart]
    exact exclusive.kept o c' i before
  · obtain ⟨before, _⟩ := other o c' i has
    have target := exclusive.target o c' i before
    change (s.handed c l).Holds i ((s.reparent c).parentAsInputGate c')
    rw [holds, reparent_parent counted section_ stays]
    by_cases under : s.parentAsInputGate c' = c
    · rw [if_pos under]
      exact .inr ⟨rfl, under ▸ target⟩
    · rw [if_neg under]
      exact .inl ⟨under, target⟩
  · obtain ⟨before, apart⟩ := other o c' i has
    obtain ⟨_, there⟩ := gone h still
    have alone := exclusive.alone o c' i h before at_gate there
    rcases (holds i' h).1 held with ⟨_, held⟩ | ⟨rfl, _⟩
    · exact alone i' held
    · have same := alone l (exclusive.target _ _ _ mine)
      exact absurd same.symm apart

end Steps

section Places

variable {s t : InputGates} {c w : Nat}

theorem Placed.frame (placed : Placed s) (parent : t.parent = s.parent) (gone : t.isReparented = s.isReparented)
    (linked : ∀ w g c, t.wait w = .linked g (some c) → s.wait w = .linked g (some c)) : Placed t := by
  intro w g c there
  unfold parentAsInputGate adopter
  rw [parent, gone]
  exact placed w g c (linked w g c there)

theorem Placed.settles (placed : Placed s) (settles : Settles s t) : Placed t := by
  have gone : t.isReparented = s.isReparented := by
    funext g
    simp only [isReparented, settles.state]
  exact placed.frame settles.parent gone fun w g c there => settles.linked w g (some c) there

theorem Placed.settle (placed : Placed s) {status : WaitStatus} (out : ∀ g c, status ≠ .linked g (some c)) :
    Placed (s.settle w status) := by
  refine placed.frame rfl rfl fun x g c there => ?_
  by_cases mine : x = w
  · subst mine
    simp only [InputGates.settle, Function.update_self] at there
    exact absurd there (out g c)
  · simpa [InputGates.settle, mine] using there

theorem Placed.gateWait (placed : Placed s) (gate w : Nat) (aborted : Bool) : Placed (s.gateWait gate w aborted) := by
  unfold InputGates.gateWait
  split
  · exact placed.settle fun _ _ => by simp
  · split
    · exact placed.settle fun _ _ => by simp
    · split
      · have same : Placed (s.newLock gate true) := placed
        exact same.settle fun _ _ => by simp
      · have same : Placed { s with waiters := Function.update s.waiters gate (s.waiters gate ++ [w]) } := placed
        exact same.settle fun _ _ => by simp

theorem Placed.enter (placed : Placed s) (initial : s.state c = .initialWait) (lock : Nat) (aborted : Bool) :
    Placed (s.enter c lock w aborted) := by
  have same := SameLocks.setState (s := s) (c := c) (by simp [initial]) (show SectionState.running ≠ .reparented by simp)
    (Function.update s.parentLock c (some lock))
  have entered : Placed { s with
      state := Function.update s.state c .running
      parentLock := Function.update s.parentLock c (some lock) } := placed.frame rfl same.gone fun _ _ _ there => there
  exact entered.gateWait c w aborted

theorem Placed.begin (placed : Placed s) (initial : s.state c = .initialWait) : Placed (s.begin c w) := by
  unfold InputGates.begin
  split
  · exact (placed.settles (.setBroken s c _)).settle fun _ _ => by simp
  · split
    · have same : Placed (s.newLock (s.parentAsInputGate c) false) := placed
      exact same.enter initial _ _
    · intro x g c' there
      change s.parentAsInputGate c' = g
      by_cases mine : x = w
      · subst mine
        simp only [newWaiterPromise, InputGates.settle, Function.update_self, WaitStatus.linked.injEq,
          Option.some.injEq] at there
        rw [← there.2, there.1]
      · simp only [newWaiterPromise, InputGates.settle, Function.update_of_ne mine] at there
        exact placed x g c' there

theorem Placed.waitOn (placed : Placed s) (fuel gate : Nat) (aborted : Bool) :
    Placed (s.waitOn fuel gate w aborted) := by
  induction fuel generalizing gate with
  | zero =>
    unfold InputGates.waitOn
    split
    · exact placed.gateWait _ _ _
    · split
      · exact placed.settle fun _ _ => by simp
      · split
        · rename_i fresh
          have same : SameLocks s (s.withState gate .initialWait) :=
            .setState (by simp [fresh]) (by simp) s.parentLock
          have begun : Placed (s.withState gate .initialWait) := placed.frame rfl same.gone fun _ _ _ there => there
          exact begun.begin (by simp [withState])
        · exact placed.settle fun _ _ => by simp
        · exact placed.gateWait _ _ _
        · exact placed
  | succ fuel ih =>
    unfold InputGates.waitOn
    split
    · exact placed.gateWait _ _ _
    · split
      · exact placed.settle fun _ _ => by simp
      · split
        · rename_i fresh
          have same : SameLocks s (s.withState gate .initialWait) :=
            .setState (by simp [fresh]) (by simp) s.parentLock
          have begun : Placed (s.withState gate .initialWait) := placed.frame rfl same.gone fun _ _ _ there => there
          exact begun.begin (by simp [withState])
        · exact placed.settle fun _ _ => by simp
        · exact placed.gateWait _ _ _
        · exact ih _

theorem Placed.resume (placed : Placed s) (starting : Starting s) : Placed (s.resume w) := by
  unfold InputGates.resume
  split
  · rename_i c lock status
    exact placed.enter (starting.initial w c (by rw [status]; rfl)).1 lock _
  · exact placed.settle fun _ _ => by simp
  · rename_i c exception _ status
    obtain ⟨initial, _⟩ := starting.initial w c (by rw [status]; rfl)
    have same : SameLocks s (s.withState c .running) := .setState (by simp [initial]) (by simp) s.parentLock
    have running : Placed (s.withState c .running) := placed.frame rfl same.gone fun _ _ _ there => there
    exact (running.settles (.setBroken _ c exception)).settle fun _ _ => by simp
  · exact placed

theorem Placed.unlink (placed : Placed s) {status : WaitStatus} (out : ∀ g c, status ≠ .linked g (some c)) :
    Placed ((s.unlink w).settle w status) := by
  have same := SameLocks.unlink s w status
  refine placed.frame same.parent same.gone fun x g c there => ?_
  rw [unlink_wait] at there
  split at there
  · exact absurd there (out g c)
  · exact there

theorem Placed.grantNext (placed : Placed s) (queued : Queued s) (gate : Nat) : Placed (s.grantNext gate) := by
  unfold InputGates.grantNext
  split
  · rename_i child rest children
    obtain ⟨c, linked⟩ := (queued.child gate child).1 (by simp [children])
    rw [fulfill_child (s := s.newLock gate false) linked]
    have same : Placed (s.newLock gate false) := placed
    exact same.unlink fun _ _ => by simp
  · split
    · rename_i waiter rest waiters
      have linked := (queued.waiter gate waiter).1 (by simp [waiters])
      rw [fulfill_waiter (s := s.newLock gate true) linked]
      have same : Placed (s.newLock gate true) := placed
      exact same.unlink fun _ _ => by simp
    · exact placed

theorem Placed.release (placed : Placed s) (accounted : Accounted s) (l : Nat) : Placed (release l s).2 := by
  cases held : s.gateOf l with
  | none =>
    have refused : (InputGates.release l s).2 = s := by
      unfold InputGates.release
      rw [state_bind]
      simp only [held, raise_run]
    rw [refused]
    exact placed
  | some h =>
    rw [release_run accounted held]
    have unlocked : Placed (s.unlock l (s.adopter h)) := placed
    dsimp only
    unfold freed
    split
    · exact unlocked.grantNext { accounted.queued with } _
    · exact unlocked

theorem Placed.newSection (placed : Placed s) (counted : Counted s) (starting : Starting s) (parent : Nat) :
    Placed (s.newSection parent) := by
  intro w g c there
  have known := (starting.initial w c (by rw [show s.wait w = .linked g (some c) from there]; rfl)).2
  rw [newSection_parent counted parent known]
  exact placed w g c there

theorem Placed.reparent (placed : Placed s) (queued : Queued s) (counted : Counted s) (section_ : 0 < c)
    (stays : s.isReparented c = false) : Placed (s.reparent c) := by
  intro w g c' there
  rw [reparent_parent counted section_ stays]
  rcases (queued.reparent_linked w g (some c')).1 there with ⟨before, apart⟩ | ⟨before, target⟩
  · have at_gate := placed w g c' before
    rw [if_neg (at_gate ▸ apart), at_gate]
  · rw [if_pos (placed w c c' before), target]

end Places

/-- `succeeded` is called of a running section only while it has its parent's lock. -/
def Orderly (s : InputGates) : Event → Prop
  | .succeeded c => s.state c = .running → s.parentLock c ≠ none
  | _ => True

/-- What every state of a run keeps. -/
structure Sound (s : InputGates) : Prop where
  accounted : Accounted s
  starting : Starting s
  placed : Placed s

section Runs

variable {s t : InputGates} {event : Event}

theorem addRef_state (s : InputGates) (l : Nat) : (addRef l s).2 =
    match s.gateOf l with
    | none => s
    | some g => s.newLock g true := by
  unfold addRef
  rw [state_bind]
  cases s.gateOf l <;> rfl

theorem startCriticalSection_state (s : InputGates) (l : Nat) : (startCriticalSection l s).2 =
    match s.gateOf l with
    | none => s
    | some g => s.newSection g := by
  unfold startCriticalSection
  rw [state_bind]
  cases s.gateOf l <;> rfl

theorem Settles.dropped (s : InputGates) (c : Nat) : Settles s (s.dropped c) := by
  unfold InputGates.dropped
  split
  · exact .failed s _ _ _
  · exact .refl s

theorem step_sound (sound : Sound s) (stepped : step s event = some t) : Sound t := by
  obtain ⟨accounted, starting, placed⟩ := sound
  obtain ⟨accounted', starting'⟩ := step_kept accounted starting stepped
  refine ⟨accounted', starting', ?_⟩
  cases event <;> simp only [step, Option.ite_none_right_eq_some, Option.some.injEq] at stepped <;>
    obtain ⟨admitted, rfl⟩ := stepped
  case wait gate aborted =>
    have same : Placed { s with
        asked := Function.update s.asked s.waits gate
        aborted := Function.update s.aborted s.waits aborted
        waits := s.waits + 1 } := placed
    exact same.waitOn gate gate aborted
  case abort w => exact placed.settles (.abort s w)
  case resume w => exact placed.resume starting
  case addRef l =>
    rw [addRef_state]
    split <;> exact placed
  case release l => exact placed.release accounted l
  case startCriticalSection l =>
    rw [startCriticalSection_state]
    split
    · exact placed
    · exact placed.newSection accounted.counted starting _
  case succeeded c =>
    by_cases running : s.state c = .running
    · have done := placed.reparent accounted.queued accounted.counted admitted.1 (by simp [isReparented, running])
      rw [succeeded_state running]
      split
      · exact done
      · exact done
    · rw [succeeded_refused running]
      exact placed
  case failed c exception => exact placed.settles (.failed s _ _ _)
  case setBroken gate exception => exact placed.settles (.setBroken s _ _)
  case drop c =>
    have done := placed.settles (.dropped s c)
    rw [drop_state]
    split
    · exact done
    · have same : Placed ((s.dropped c).disown c) := done
      have kept := (dropped_kept accounted starting c).1
      exact same.release ⟨{ kept.queued with }, kept.counted.same ⟨rfl, rfl, rfl, rfl, rfl, rfl⟩, kept.idle⟩ _

theorem step_exclusive (sound : Sound s) (exclusive : Exclusive s) (orderly : Orderly s event)
    (stepped : step s event = some t) : Exclusive t := by
  obtain ⟨accounted, starting, placed⟩ := sound
  have counted := accounted.counted
  have given_apart : ∀ l, s.given l = true → ∀ o c, s.lockOf o ≠ some (c, l) := by
    intro l given o c has
    simp [exclusive.kept o c l has] at given
  cases event <;> simp only [step, Option.ite_none_right_eq_some, Option.some.injEq] at stepped <;>
    obtain ⟨admitted, rfl⟩ := stepped
  case wait gate aborted =>
    have asked : Exclusive { s with
        asked := Function.update s.asked s.waits gate
        aborted := Function.update s.aborted s.waits aborted
        waits := s.waits + 1 } := exclusive.frame ⟨rfl, rfl, rfl, rfl, rfl⟩ fun _ _ _ has => has
    exact asked.waitOn (counted.same ⟨rfl, rfl, rfl, rfl, rfl, rfl⟩) admitted gate aborted
  case abort w => exact exclusive.settles (.abort s w)
  case resume w => exact exclusive.resume counted starting
  case addRef l =>
    rw [addRef_state]
    split
    · exact exclusive
    · rename_i g held
      refine exclusive.newLock counted true fun o c i h has at_gate there same => ?_
      have alone := exclusive.alone o c i h has at_gate there l ⟨g, held, same⟩
      exact given_apart l admitted o c (alone ▸ has)
  case release l => exact exclusive.release accounted starting placed (given_apart l admitted)
  case startCriticalSection l =>
    rw [startCriticalSection_state]
    split
    · exact exclusive
    · exact exclusive.newSection counted _
  case succeeded c =>
    by_cases running : s.state c = .running
    · obtain ⟨l, has⟩ := Option.ne_none_iff_exists'.1 (orderly running)
      rw [succeeded_state running]
      simp only [has]
      exact exclusive.handed counted admitted.1 running has
    · rw [succeeded_refused running]
      exact exclusive
  case failed c exception => exact exclusive.settles (.failed s _ _ _)
  case setBroken gate exception => exact exclusive.settles (.setBroken s _ _)
  case drop c =>
    have settles := Settles.dropped s c
    have done := exclusive.settles settles
    obtain ⟨kept, begun⟩ := dropped_kept accounted starting c
    rw [drop_state]
    split
    · exact done
    · rename_i l has
      have mine : (s.dropped c).lockOf (.inl c) = some (c, l) := by
        simp [lockOf, settles.parentLock, has]
      have back : ∀ o c' i, ((s.dropped c).disown c).lockOf o = some (c', i) →
          o ≠ .inl c ∧ (s.dropped c).lockOf o = some (c', i) := by
        intro o c' i other
        cases o with
        | inr w => exact ⟨by simp, other⟩
        | inl x =>
          by_cases same : x = c
          · subst same
            simp [lockOf, disown] at other
          · simp only [lockOf, disown, Function.update_of_ne same] at other
            exact ⟨fun eq => same (Sum.inl.inj eq), other⟩
      have disowned : Exclusive ((s.dropped c).disown c) :=
        done.frame ⟨rfl, rfl, rfl, rfl, rfl⟩ fun o c' i other => (back o c' i other).2
      have base : Placed (s.dropped c) := placed.settles settles
      have same : Placed ((s.dropped c).disown c) := base
      refine disowned.release ⟨{ kept.queued with }, kept.counted.same ⟨rfl, rfl, rfl, rfl, rfl, rfl⟩, kept.idle⟩
        { begun with } same fun o c' other => ?_
      obtain ⟨apart, before⟩ := back o c' l other
      exact apart (done.once o (.inl c) c' c l before mine)

theorem opened_sound : Sound opened := by
  refine ⟨⟨⟨?_, ?_, fun _ => List.nodup_nil, fun _ => List.nodup_nil, fun _ _ => ⟨_, rfl⟩⟩,
    ⟨fun g first => first, ?_, ?_, fun _ _ => rfl, ?_, ?_⟩, fun _ _ => ⟨rfl, rfl⟩⟩, ⟨?_, ?_⟩, ?_⟩
  · simp [opened]
  · simp [opened]
  · simp [opened, isReparented]
  · simp [opened]
  · intro g _
    change 0 = ((Finset.range 0).filter _).card
    rw [Finset.range_zero, Finset.filter_empty, Finset.card_empty]
  · simp [opened, isReparented]
  · simp [opened, WaitStatus.starts]
  · simp [opened, WaitStatus.starts]
  · simp [opened, Placed]

theorem opened_exclusive : Exclusive opened := by
  have none_owned : ∀ o c l, opened.lockOf o ≠ some (c, l) := by
    intro o c l
    cases o <;> simp [opened, lockOf]
  exact ⟨fun o c l has => absurd has (none_owned o c l), fun o c l has => absurd has (none_owned o c l),
    fun o c l has => absurd has (none_owned o c l), fun o _ c _ l has => absurd has (none_owned o c l),
    fun o c l _ has => absurd has (none_owned o c l)⟩

theorem reaches_sound {admits : InputGates → Event → Prop} {s : InputGates} (reached : Reaches step admits opened s) :
    Sound s :=
  reached.invariant opened_sound fun _ _ _ kept _ stepped => step_sound kept stepped

/-- A gate that is not reparented counts the unreleased locks that forward to it, and has no waiter
    when it counts none. In a run in which `succeeded` never finds a running section without its
    parent's lock, this lock is the only one on the gate it was taken on, as long as that is not
    reparented in its turn. -/
theorem gate_accounting :
    (∀ s, Reaches step (fun _ _ => True) opened s → ∀ g, s.isReparented g = false →
      s.lockCount g = s.outstanding g ∧ (s.lockCount g = 0 → ∀ w starts, s.wait w ≠ .linked g starts)) ∧
    ∀ s, Reaches step Orderly opened s → ∀ c l g, s.state c = .running → s.parentLock c = some l →
      s.gateOf l = some g → s.isReparented g = false →
        s.parentAsInputGate c = g ∧ s.lockCount g = 1 ∧ ∀ l', s.Holds l' g ↔ l' = l := by
  refine ⟨fun s reached g stays => ?_, fun s reached c l g _ has at_gate stays => ?_⟩
  · obtain ⟨⟨queued, counted, idle⟩, _, _⟩ := reaches_sound reached
    refine ⟨counted.counts g stays, fun free w starts linked => ?_⟩
    obtain ⟨waiters, children⟩ := idle g free
    cases starts with
    | none =>
      have member := (queued.waiter g w).2 linked
      simp [waiters] at member
    | some c =>
      have member := (queued.child g w).2 ⟨c, linked⟩
      simp [children] at member
  · obtain ⟨sound, exclusive⟩ := reached.invariant (P := fun s => Sound s ∧ Exclusive s)
      ⟨opened_sound, opened_exclusive⟩ fun _ _ _ kept orderly stepped =>
        ⟨step_sound kept.1 stepped, step_exclusive kept.1 kept.2 orderly stepped⟩
    have mine : s.lockOf (.inl c) = some (c, l) := by simp [lockOf, has]
    have holds : s.Holds l g := ⟨g, at_gate, adopter_of_stays stays⟩
    have only : ∀ l', s.Holds l' g ↔ l' = l := fun l' =>
      ⟨exclusive.alone _ c l g mine at_gate stays l', fun same => same ▸ holds⟩
    obtain ⟨h, held, forwards⟩ := exclusive.target _ c l mine
    obtain rfl : g = h := Option.some.inj (at_gate.symm.trans held)
    rw [adopter_of_stays stays] at forwards
    refine ⟨forwards.symm, ?_, only⟩
    have made := exclusive.made sound.accounted.counted mine
    rw [sound.accounted.counted.counts g stays, outstanding, Finset.card_eq_one]
    refine ⟨l, Finset.ext fun l' => ?_⟩
    simp only [Finset.mem_filter, Finset.mem_range, only, Finset.mem_singleton]
    exact ⟨fun both => both.2, fun same => ⟨same ▸ made, same⟩⟩

/-- A section begun behind the lock it was started from. -/
theorem gate_accounting_section : ∃ s : InputGates, Reaches step Orderly opened s ∧ s.state 1 = .running ∧
    s.lockCount 0 = 1 ∧ s.Holds 1 0 := by
  have start : Reaches step Orderly opened opened := .refl
  have locked := start.then (.wait 0 false) trivial rfl
  have begun := locked.then (.startCriticalSection 0) trivial rfl
  have waiting := begun.then (.wait 1 false) trivial rfl
  have released := waiting.then (.release 0) trivial rfl
  have entered := released.then (.resume 1) trivial rfl
  obtain ⟨_, counts, only⟩ := gate_accounting.2 _ entered 1 1 0 rfl rfl rfl rfl
  exact ⟨_, entered, rfl, counts, (only 1).2 rfl⟩

/-- A section whose first `wait` fails with its gate is running without a lock, while another has one. -/
theorem broken_start_shares_parent : ¬ ∀ s, Reaches step (fun _ _ => True) opened s → ∀ c, s.state c = .running →
    ∀ l, s.Holds l (s.parentAsInputGate c) → s.parentLock c = some l := by
  intro alone
  have shared := alone _
    (.head (.wait 0 false) trivial rfl <|
    .head (.startCriticalSection 0) trivial rfl <|
    .head (.startCriticalSection 0) trivial rfl <|
    .head (.wait 1 false) trivial rfl <|
    .head (.wait 2 false) trivial rfl <|
    .head (.release 0) trivial rfl <|
    .head (.resume 1) trivial rfl <|
    .head (.failed 1 (.error "failed")) trivial rfl <|
    .head (.resume 2) trivial rfl .refl) 2 rfl 1 ⟨0, rfl, rfl⟩
  cases shared

end Runs

end DoRuntime.Io.InputGates
