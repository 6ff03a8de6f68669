import DoRuntime.Io.AskedGate
import DoRuntime.Io.CancelledWait

namespace DoRuntime.Io.InputGates

open Forwarding Prog Transition

/-- A caller was given the lock and has not released it. -/
def InHand (s : InputGates) (l : Nat) : Prop := s.given l = true ∧ s.gateOf l ≠ none

instance (s : InputGates) (l : Nat) : Decidable (s.InHand l) := inferInstanceAs (Decidable (_ ∧ _))

/-- What a step that no caller hands a lock to gives out: each new lock in the hands of a caller is what one wait
    has resolved to. -/
structure Issues (s t : InputGates) : Prop where
  gates : s.gates ≤ t.gates
  waits : s.waits ≤ t.waits
  locks : s.locks ≤ t.locks
  kept : ∀ l, l < s.locks → (t.InHand l ↔ s.InHand l)
  issued : ∀ l, s.locks ≤ l → l < t.locks → (t.InHand l ↔ ∃ w, t.wait w = .resolved l)
  resolved : ∀ w l, s.wait w = .resolved l → t.wait w = .resolved l
  rejected : ∀ w exception, w < s.waits → s.wait w = .rejected exception → t.wait w = .rejected exception
  fresh : ∀ w l, t.wait w = .resolved l → s.wait w = .resolved l ∨ s.locks ≤ l ∧ l < t.locks
  once : ∀ w w' l, s.locks ≤ l → t.wait w = .resolved l → t.wait w' = .resolved l → w = w'

/-- A wait resolves to a lock that there is. -/
def Bounded (s : InputGates) : Prop := ∀ w l, s.wait w = .resolved l → l < s.locks

section Issuing

variable {s t u : InputGates} {w : Nat}

theorem KeepsLocks.inHand (keeps : KeepsLocks s t) {l : Nat} (made : l < s.locks) : t.InHand l ↔ s.InHand l := by
  unfold InHand
  rw [keeps.gateOf l made, keeps.given l made]

theorem Rightful.bounded (rightful : Rightful s) : Bounded s := fun w l resolved => (rightful.given w l resolved).1

theorem InHand.made (counted : Counted s) {l : Nat} (has : s.InHand l) : l < s.locks := by
  by_contra later
  exact has.2 (counted.unmade l (Nat.le_of_not_lt later))

theorem Issues.trans (first : Issues s t) (second : Issues t u) : Issues s u := by
  have locks := first.locks
  refine ⟨Nat.le_trans first.gates second.gates, Nat.le_trans first.waits second.waits,
    Nat.le_trans first.locks second.locks, ?_, ?_, ?_, ?_, ?_, ?_⟩
  · intro l made
    rw [second.kept l (Nat.lt_of_lt_of_le made locks), first.kept l made]
  · intro l old new
    by_cases made : l < t.locks
    · rw [second.kept l made, first.issued l old made]
      constructor
      · intro ⟨w, resolved⟩
        exact ⟨w, second.resolved w l resolved⟩
      · intro ⟨w, resolved⟩
        rcases second.fresh w l resolved with before | ⟨later, _⟩
        · exact ⟨w, before⟩
        · omega
    · exact second.issued l (Nat.le_of_not_lt made) new
  · intro w l resolved
    exact second.resolved w l (first.resolved w l resolved)
  · intro w exception made rejected
    have still := first.rejected w exception made rejected
    exact second.rejected w exception (Nat.lt_of_lt_of_le made first.waits) still
  · intro w l resolved
    have kept := second.locks
    rcases second.fresh w l resolved with before | later
    · rcases first.fresh w l before with earlier | new
      · exact Or.inl earlier
      · exact Or.inr (by omega)
    · exact Or.inr (by omega)
  · intro w w' l old resolved resolved'
    rcases second.fresh w l resolved with before | ⟨later, _⟩
    · rcases second.fresh w' l resolved' with before' | ⟨later, _⟩
      · exact first.once w w' l old before before'
      · rcases first.fresh w l before with earlier | ⟨_, made⟩
        · exact second.once w w' l later resolved resolved'
        · omega
    · exact second.once w w' l later resolved resolved'

/-- No lock is made, and no wait comes to have one. -/
theorem Issues.quiet (bounded : Bounded s) (gates : s.gates ≤ t.gates) (waits : s.waits ≤ t.waits)
    (locks : t.locks = s.locks) (kept : ∀ l, t.InHand l ↔ s.InHand l)
    (resolved : ∀ w l, t.wait w = .resolved l ↔ s.wait w = .resolved l)
    (rejected : ∀ w exception, s.wait w = .rejected exception → t.wait w = .rejected exception) : Issues s t := by
  refine ⟨gates, waits, Nat.le_of_eq locks.symm, fun l _ => kept l, ?_, fun w l => (resolved w l).2, fun w exception _ => rejected w exception, ?_, ?_⟩
  · intro l old new
    omega
  · intro w l is
    exact Or.inl ((resolved w l).1 is)
  · intro w w' l old is _
    have made := bounded w l ((resolved w l).1 is)
    omega

theorem Issues.refused (bounded : Bounded s) (gates : t.gates = s.gates) (waits : s.waits ≤ t.waits)
    (locks : t.locks = s.locks) (kept : ∀ l, t.InHand l ↔ s.InHand l) (refused : Refused s t) : Issues s t := by
  apply Issues.quiet bounded (Nat.le_of_eq gates.symm) waits locks kept
  · intro x l
    rcases refused x with still | ⟨exception, told⟩
    · rw [still]
    · rw [told]
      constructor
      · exact refuse_resolved
      · intro resolved
        rw [resolved]
        rfl
  · intro x exception rejected
    rcases refused x with still | ⟨_, told⟩
    · rw [still]
      exact rejected
    · rw [told, rejected]
      rfl

theorem Issues.settles (bounded : Bounded s) (settles : Settles s t) (refused : Refused s t) : Issues s t :=
  .refused bounded settles.gates (Nat.le_of_eq settles.waits.symm) settles.locks
    (fun l => by unfold InHand; rw [settles.gateOf, settles.given]) refused

theorem Issues.frame (bounded : Bounded s) (gates : t.gates = s.gates) (waits : s.waits ≤ t.waits)
    (locks : t.locks = s.locks) (kept : ∀ l, t.InHand l ↔ s.InHand l) (wait : t.wait = s.wait) : Issues s t :=
  .refused bounded gates waits locks kept fun x => Or.inl (congrFun wait x)

/-- The new locks in the hands of callers are what `w` has resolved to. -/
def Gives (s t : InputGates) (w : Nat) : Prop :=
  ∀ l, s.locks ≤ l → l < t.locks → (t.InHand l ↔ t.wait w = .resolved l)

theorem Gives.none (locks : t.locks = s.locks) : Gives s t w := by
  intro l old new
  omega

theorem Gives.gateWait (s : InputGates) (gate w : Nat) (aborted : Bool) : Gives s (s.gateWait gate w aborted) w := by
  unfold InputGates.gateWait
  split
  · exact .none rfl
  · split
    · exact .none rfl
    · split
      · intro l old new
        change l < s.locks + 1 at new
        have mine : l = s.locks := by omega
        subst mine
        simp [InHand, InputGates.newLock, InputGates.settle]
      · exact .none rfl

/-- A lock that is made for a section first is in nobody's hands. -/
theorem Gives.after (counted : Counted s) (gate : Nat) (keeps : KeepsLocks (s.newLock gate false) t)
    (bounded : Bounded s) (resolved : ∀ l, t.wait w = .resolved l → s.locks + 1 ≤ l)
    (gives : Gives (s.newLock gate false) t w) : Gives s t w := by
  intro l old new
  by_cases mine : l = s.locks
  · subst mine
    have made : s.locks < (s.newLock gate false).locks := Nat.lt_succ_self _
    constructor
    · intro has
      rw [keeps.inHand made] at has
      have free : (s.newLock gate false).given s.locks = false := Function.update_self ..
      rw [has.1] at free
      cases free
    · intro is
      have later := resolved s.locks is
      omega
  · refine gives l ?_ new
    change s.locks + 1 ≤ l
    omega

theorem Gives.enter (s : InputGates) (c lock w : Nat) (aborted : Bool) : Gives s (s.enter c lock w aborted) w :=
  Gives.gateWait { s with
    state := Function.update s.state c .running
    parentLock := Function.update s.parentLock c (some lock) } c w aborted

theorem Gives.start (accounted : Accounted s) (bounded : Bounded s) {c : Nat} (fresh : s.state c = .notStarted)
    (w : Nat) : Gives s (s.start c w) w := by
  have begun : Accounted (s.withState c .initialWait) := accounted.setState (by simp [fresh]) (by simp) s.parentLock
  have initial : (s.withState c .initialWait).state c = .initialWait := Function.update_self ..
  rw [start_eq]
  change Gives (s.withState c .initialWait) _ w
  unfold begin
  split
  · exact .none (Settles.setBroken (s.withState c .initialWait) c _).locks
  · split
    · refine Gives.after begun.counted _ (.enter ..) bounded ?_ (Gives.enter _ c _ w false)
      intro l resolved
      exact ((Joins.enter _ (by simp [newLock, initial]) _ w false).given l resolved).1
    · exact .none rfl

theorem Gives.waitOn (accounted : Accounted s) (bounded : Bounded s) (gate w : Nat) (aborted : Bool) :
    Gives s (s.waitOn gate gate w aborted) w := by
  rw [waitOn_adopter accounted.counted (Nat.le_refl gate)]
  unfold InputGates.waitOn
  split
  · exact .gateWait s 0 w aborted
  · split
    · exact .none rfl
    · split
      · rename_i fresh
        exact .start accounted bounded fresh w
      · exact .none rfl
      · exact .gateWait s _ w aborted
      · split
        · exact .none rfl
        · rename_i section_ _ _ state _ _ _
          have stays := accounted.counted.adopter_stays gate
          simp [isReparented, state, Nat.pos_of_ne_zero section_] at stays

/-- One wait that is not settled yet goes on. -/
theorem Issues.one (bounded : Bounded s) (gates : s.gates ≤ t.gates) (waits : s.waits ≤ t.waits)
    (keeps : KeepsLocks s t) (gives : Gives s t w)
    (others : ∀ x, x ≠ w → t.wait x = s.wait x ∨ ∃ exception, t.wait x = (s.wait x).refuse exception)
    (given : ∀ l, t.wait w = .resolved l → s.locks ≤ l ∧ l < t.locks) (unresolved : ∀ l, s.wait w ≠ .resolved l)
    (unrejected : ∀ exception, w < s.waits → s.wait w ≠ .rejected exception) : Issues s t := by
  have before : ∀ x l, x ≠ w → t.wait x = .resolved l → s.wait x = .resolved l := by
    intro x l other resolved
    rcases others x other with still | ⟨exception, told⟩
    · rw [← still]
      exact resolved
    · rw [told] at resolved
      exact refuse_resolved resolved
  refine ⟨gates, waits, keeps.locks, fun l => keeps.inHand, ?_, ?_, ?_, ?_, ?_⟩
  · intro l old new
    rw [gives l old new]
    constructor
    · intro resolved
      exact ⟨w, resolved⟩
    · intro ⟨x, resolved⟩
      by_cases mine : x = w
      · rw [← mine]
        exact resolved
      · have made := bounded x l (before x l mine resolved)
        omega
  · intro x l resolved
    have other : x ≠ w := by
      intro mine
      rw [mine] at resolved
      exact unresolved l resolved
    rcases others x other with still | ⟨exception, told⟩
    · rw [still]
      exact resolved
    · rw [told, resolved]
      rfl
  · intro x exception made rejected
    have other : x ≠ w := by
      intro mine
      rw [mine] at made rejected
      exact unrejected exception made rejected
    rcases others x other with still | ⟨_, told⟩
    · rw [still]
      exact rejected
    · rw [told, rejected]
      rfl
  · intro x l resolved
    by_cases mine : x = w
    · rw [mine] at resolved
      exact Or.inr (given l resolved)
    · exact Or.inl (before x l mine resolved)
  · intro x x' l old resolved resolved'
    have mine : ∀ y, t.wait y = .resolved l → y = w := by
      intro y is
      by_contra other
      have made := bounded y l (before y l other is)
      omega
    rw [mine x resolved, mine x' resolved']

theorem Issues.call (rightful : Rightful s) {gate : Nat} (known : gate < s.gates) (aborted : Bool) :
    Issues s (s.call gate aborted) := by
  have accounted := rightful.sound.accounted
  obtain ⟨exception, fresh⟩ := accounted.queued.later s.waits (Nat.le_refl _)
  have asking : Accounted (s.asking gate aborted) :=
    ⟨{ accounted.queued with later := fun x later => accounted.queued.later x (Nat.le_of_succ_le later) },
      accounted.counted.same ⟨rfl, rfl, rfl, rfl, rfl, rfl⟩, accounted.idle⟩
  have bounded : Bounded (s.asking gate aborted) := rightful.bounded
  have joins := Joins.waitOn asking gate s.waits aborted
  have called : step s (.wait gate aborted) = some (s.call gate aborted) := if_pos known
  apply Issues.one (w := s.waits) rightful.bounded (step_gates rightful.sound called) ?_
    ⟨joins.keeps.locks, joins.keeps.gateOf, joins.keeps.given⟩
    (Gives.waitOn asking bounded gate s.waits aborted) joins.others ?_ ?_ ?_
  · exact Nat.le_trans (Nat.le_succ _) (Nat.le_of_eq joins.same.waits.symm)
  · intro l resolved
    obtain ⟨new, made, _⟩ := joins.given l resolved
    exact ⟨new, made⟩
  · intro l resolved
    rw [fresh] at resolved
    cases resolved
  · intro exception made
    exact absurd made (Nat.lt_irrefl _)

theorem Issues.resume (rightful : Rightful s) (w : Nat) : Issues s (s.resume w) := by
  obtain ⟨⟨accounted, starting, _⟩, asks, given⟩ := rightful
  have bounded : Bounded s := fun x l resolved => (given x l resolved).1
  have gates := Nat.le_of_eq (resume_gates s w).symm
  have one : ∀ {t : InputGates} {g : Nat}, s.gates ≤ t.gates → Joins s t w g → Gives s t w →
      (∀ l, s.wait w ≠ .resolved l) → (∀ exception, s.wait w ≠ .rejected exception) → Issues s t := by
    intro t g gates joins gives unresolved unrejected
    apply Issues.one bounded gates (Nat.le_of_eq joins.same.waits.symm) joins.keeps gives joins.others ?_ unresolved
      fun exception _ => unrejected exception
    intro l resolved
    obtain ⟨new, made, _⟩ := joins.given l resolved
    exact ⟨new, made⟩
  unfold InputGates.resume at gates ⊢
  split
  · rename_i c lock status
    obtain ⟨initial, _⟩ := starting.initial w c (by rw [status]; rfl)
    rw [status] at gates
    exact one gates (Joins.enter s (by simp [initial]) lock w (s.aborted w)) (.enter s c lock w _) (by simp [status])
      (by simp [status])
  · rename_i c status
    exact one (Nat.le_refl _) (Joins.settle s w c .canceled) (.none rfl) (by simp [status]) (by simp [status])
  · rename_i c exception _ status
    obtain ⟨initial, _⟩ := starting.initial w c (by rw [status]; rfl)
    have same : SameTree s (s.withState c .running) := .withState (by simp [initial]) (by simp) s.parentLock
    have running : Accounted (s.withState c .running) := accounted.setState (by simp [initial]) (by simp) s.parentLock
    have broken := Settles.setBroken (s.withState c .running) c exception
    exact one (Nat.le_of_eq broken.gates.symm)
      ((Joins.setBroken running c w exception).from same (.same rfl rfl rfl) rfl) (.none broken.locks)
      (by simp [status]) (by simp [status])
  · exact .frame bounded rfl (Nat.le_refl _) rfl (fun _ => Iff.rfl) rfl

/-- The call at the head of a gate's list is given a new lock of the gate. -/
theorem Issues.fulfill (bounded : Bounded s) {gate : Nat} {starts : Option Nat}
    (linked : s.wait w = .linked gate starts) : Issues s ((s.newLock gate starts.isNone).fulfill w s.locks) := by
  have others : ∀ status x, x ≠ w →
      (((s.newLock gate starts.isNone).unlink w).settle w status).wait x = s.wait x := by
    intro status x other
    rw [unlink_wait, if_neg other]
    rfl
  have mine : ∀ status, (((s.newLock gate starts.isNone).unlink w).settle w status).wait w = status := by
    intro status
    rw [unlink_wait, if_pos rfl]
  have keeps : ∀ status,
      KeepsLocks (s.newLock gate starts.isNone) (((s.newLock gate starts.isNone).unlink w).settle w status) := by
    intro status
    exact .unlink ..
  have rest : ∀ status, (((s.newLock gate starts.isNone).unlink w).settle w status).gates = s.gates ∧
      s.waits ≤ (((s.newLock gate starts.isNone).unlink w).settle w status).waits ∧
      (((s.newLock gate starts.isNone).unlink w).settle w status).locks = s.locks + 1 := by
    intro status
    have state := unlink_state (s.newLock gate starts.isNone) w status
    exact ⟨state.2.1, Nat.le_of_eq state.2.2.symm, unlink_locks_count _ w status⟩
  have one : ∀ status, (∀ l, status = .resolved l ↔ l = s.locks ∧ starts.isNone = true) →
      Issues s (((s.newLock gate starts.isNone).unlink w).settle w status) := by
    intro status resolves
    apply Issues.one (w := w) bounded (Nat.le_of_eq (rest status).1.symm) (rest status).2.1
      ((KeepsLocks.newLock s gate _).trans (keeps status)) ?_ (fun x other => Or.inl (others status x other)) ?_
      (by simp [linked]) (by simp [linked])
    · intro l old new
      rw [(rest status).2.2] at new
      have last : l = s.locks := by omega
      rw [mine, resolves, last, (keeps status).inHand (Nat.lt_succ_self s.locks)]
      simp [InHand, InputGates.newLock]
    · intro l resolved
      rw [mine, resolves] at resolved
      rw [(rest status).2.2]
      omega
  cases starts with
  | none =>
    rw [fulfill_waiter (s := s.newLock gate _) linked]
    apply one
    intro l
    simp [eq_comm]
  | some c =>
    rw [fulfill_child (s := s.newLock gate _) linked]
    apply one
    intro l
    simp

theorem Issues.grantNext (bounded : Bounded s) (queued : Queued s) (gate : Nat) : Issues s (s.grantNext gate) := by
  unfold InputGates.grantNext
  split
  · rename_i child rest children
    obtain ⟨c, linked⟩ := (queued.child gate child).1 (by simp [children])
    exact Issues.fulfill bounded linked
  · split
    · rename_i waiter rest waiters
      exact Issues.fulfill bounded ((queued.waiter gate waiter).1 (by simp [waiters]))
    · exact .frame bounded rfl (Nat.le_refl _) rfl (fun _ => Iff.rfl) rfl

theorem grantNext_waits (queued : Queued s) (gate : Nat) : (s.grantNext gate).waits = s.waits := by
  unfold InputGates.grantNext
  split
  · rename_i child rest children
    obtain ⟨c, linked⟩ := (queued.child gate child).1 (by simp [children])
    rw [fulfill_child (s := s.newLock gate false) linked]
    exact (unlink_state ..).2.2
  · split
    · rename_i waiter rest waiters
      have linked := (queued.waiter gate waiter).1 (by simp [waiters])
      rw [fulfill_waiter (s := s.newLock gate true) linked]
      exact (unlink_state ..).2.2
    · rfl

theorem freed_waits (queued : Queued s) (l gate : Nat) : (s.freed l gate).waits = s.waits := by
  unfold InputGates.freed
  split
  · exact grantNext_waits (s := s.unlock l gate) { queued with } gate
  · rfl

theorem Issues.freed (bounded : Bounded s) (queued : Queued s) (l gate : Nat) :
    Issues (s.unlock l gate) (s.freed l gate) := by
  unfold InputGates.freed
  split
  · exact Issues.grantNext (s := s.unlock l gate) bounded { queued with } gate
  · exact .frame bounded rfl (Nat.le_refl _) rfl (fun _ => Iff.rfl) rfl

theorem Issues.reparent (bounded : Bounded s) (c : Nat) : Issues s (s.reparent c) := by
  apply Issues.quiet (t := s.reparent c) bounded (Nat.le_refl _) (Nat.le_refl _) rfl (fun _ => Iff.rfl)
  · intro w l
    rw [reparent_wait]
    cases status : s.wait w with
    | linked g starts =>
      dsimp only
      split <;> simp
    | _ => simp
  · intro w exception rejected
    rw [reparent_wait, rejected]

end Issuing

/-- The section has no lock in its parent, and none is on its way. -/
structure LetGo (s : InputGates) (c : Nat) : Prop where
  unlocked : s.parentLock c = none
  nobody : ∀ w, (s.wait w).starts ≠ some c
  begun : s.state c ≠ .notStarted

/-- How far the first wait of a section is. -/
def FirstWait (s : InputGates) (w c : Nat) : Prop :=
  (s.wait w).starts = some c ∨ (∃ exception, s.wait w = .rejected exception) ∨ s.parentLock c ≠ none

/-- What such a step does to the sections other than `x`. -/
structure Deals (x : Option Nat) (s t : InputGates) : Prop extends Issues s t where
  parentLock : ∀ c, x ≠ some c → s.parentLock c ≠ none → t.parentLock c ≠ none
  unlocked : ∀ c, x ≠ some c → s.LetGo c → t.parentLock c = none
  starts : ∀ w c, x ≠ some c → (t.wait w).starts = some c → (s.wait w).starts = some c
  first : ∀ w c, x ≠ some c → (s.wait w).starts = some c → t.FirstWait w c
  begun : ∀ c, x ≠ some c → s.state c ≠ .notStarted → t.state c ≠ .notStarted

section Dealing

variable {s t u : InputGates} {x : Option Nat} {w c : Nat}

theorem Deals.letGo (deals : Deals x s t) (other : x ≠ some c) (gone : s.LetGo c) : t.LetGo c := by
  refine ⟨deals.unlocked c other gone, ?_, deals.begun c other gone.begun⟩
  intro w starts
  exact gone.nobody w (deals.starts w c other starts)

theorem Deals.firstWait (deals : Deals x s t) (other : x ≠ some c) (made : w < s.waits) (first : s.FirstWait w c) :
    t.FirstWait w c := by
  rcases first with starts | ⟨exception, rejected⟩ | locked
  · exact deals.first w c other starts
  · exact Or.inr (Or.inl ⟨exception, deals.rejected w exception made rejected⟩)
  · exact Or.inr (Or.inr (deals.parentLock c other locked))

theorem starts_made (queued : Queued s) (starts : (s.wait w).starts = some c) : w < s.waits := by
  by_contra later
  obtain ⟨exception, rejected⟩ := queued.later w (Nat.le_of_not_lt later)
  rw [rejected] at starts
  cases starts

theorem Deals.trans (queued : Queued s) (first : Deals x s t) (second : Deals x t u) : Deals x s u := by
  refine ⟨first.toIssues.trans second.toIssues, ?_, ?_, ?_, ?_, ?_⟩
  · intro c other locked
    exact second.parentLock c other (first.parentLock c other locked)
  · intro c other gone
    exact second.unlocked c other (first.letGo other gone)
  · intro w c other starts
    exact first.starts w c other (second.starts w c other starts)
  · intro w c other starts
    have made := Nat.lt_of_lt_of_le (starts_made queued starts) first.waits
    exact second.firstWait other made (first.first w c other starts)
  · intro c other begun
    exact second.begun c other (first.begun c other begun)

theorem Deals.frame (issues : Issues s t) (starts : ∀ w, (t.wait w).starts = (s.wait w).starts)
    (parentLock : ∀ c, x ≠ some c → t.parentLock c = s.parentLock c)
    (begun : ∀ c, x ≠ some c → s.state c ≠ .notStarted → t.state c ≠ .notStarted) : Deals x s t := by
  refine ⟨issues, ?_, ?_, ?_, ?_, begun⟩
  · intro c other locked
    rw [parentLock c other]
    exact locked
  · intro c other gone
    rw [parentLock c other]
    exact gone.unlocked
  · intro w c _ mine
    rw [← starts]
    exact mine
  · intro w c _ mine
    exact Or.inl ((starts w).trans mine)

theorem Deals.settles (bounded : Bounded s) (settles : Settles s t) (refused : Refused s t) : Deals x s t := by
  apply Deals.frame (.settles bounded settles refused) settles.starts
  · intro c _
    rw [settles.parentLock]
  · intro c _
    rw [settles.state]
    exact id

/-- A lock that a section or a caller is given moves no section on. -/
theorem fulfilled_sections (s : InputGates) (gate : Nat) (given : Bool) {status : WaitStatus}
    (same : (s.wait w).starts = status.starts) :
    (∀ x, ((((s.newLock gate given).unlink w).settle w status).wait x).starts = (s.wait x).starts) ∧
      (((s.newLock gate given).unlink w).settle w status).parentLock = s.parentLock := by
  constructor
  · intro x
    rw [unlink_wait]
    split
    · rename_i mine
      rw [mine, same]
    · rfl
  · unfold InputGates.unlink
    split <;> rfl

theorem grantNext_sections (queued : Queued s) (gate : Nat) :
    (∀ x, ((s.grantNext gate).wait x).starts = (s.wait x).starts) ∧ (s.grantNext gate).parentLock = s.parentLock := by
  unfold InputGates.grantNext
  split
  · rename_i child rest children
    obtain ⟨c, linked⟩ := (queued.child gate child).1 (by simp [children])
    rw [fulfill_child (s := s.newLock gate false) linked]
    apply fulfilled_sections
    rw [linked]
    rfl
  · split
    · rename_i waiter rest waiters
      have linked := (queued.waiter gate waiter).1 (by simp [waiters])
      rw [fulfill_waiter (s := s.newLock gate true) linked]
      apply fulfilled_sections
      rw [linked]
      rfl
    · exact ⟨fun _ => rfl, rfl⟩

theorem Deals.freed (bounded : Bounded s) (queued : Queued s) (l gate : Nat) :
    Deals x (s.unlock l gate) (s.freed l gate) := by
  have issues := Issues.freed bounded queued l gate
  have queued' : Queued (s.unlock l gate) := { queued with }
  unfold InputGates.freed at issues ⊢
  split
  · rename_i free
    rw [if_pos free] at issues
    obtain ⟨starts, parentLock⟩ := grantNext_sections queued' gate
    apply Deals.frame issues starts
    · intro c _
      rw [parentLock]
    · intro c _
      rw [grantNext_state queued' gate]
      exact id
  · rename_i busy
    rw [if_neg busy] at issues
    exact .frame issues (fun _ => rfl) (fun _ _ => rfl) fun _ _ => id

/-- A call on a gate that has begun moves no section on. -/
theorem waitOn_sections (s : InputGates) {g : Nat} (begun : 0 < g → s.state g ≠ .notStarted)
    (idle : (s.wait w).starts = none) (aborted : Bool) :
    (∀ x, x ≠ w → (s.waitOn 0 g w aborted).wait x = s.wait x) ∧ ((s.waitOn 0 g w aborted).wait w).starts = none ∧
      (s.waitOn 0 g w aborted).parentLock = s.parentLock ∧ (s.waitOn 0 g w aborted).state = s.state := by
  have waited : ∀ h, (∀ x, x ≠ w → (s.gateWait h w aborted).wait x = s.wait x) ∧
      ((s.gateWait h w aborted).wait w).starts = none ∧
      (s.gateWait h w aborted).parentLock = s.parentLock ∧ (s.gateWait h w aborted).state = s.state := by
    intro h
    obtain ⟨others, mine⟩ := gateWait_wait s h w aborted
    refine ⟨others, mine, ?_, (gateWait_rest s h w aborted).1⟩
    unfold InputGates.gateWait
    split
    · rfl
    · split
      · rfl
      · split <;> rfl
  have told : ∀ exception, (∀ x, x ≠ w → (s.settle w (.rejected exception)).wait x = s.wait x) ∧
      ((s.settle w (.rejected exception)).wait w).starts = none := by
    intro exception
    exact ⟨fun x other => Function.update_of_ne other .., by simp [InputGates.settle, WaitStatus.starts]⟩
  unfold InputGates.waitOn
  split
  · exact waited 0
  · rename_i section_
    split
    · exact ⟨(told _).1, (told _).2, rfl, rfl⟩
    · split
      · rename_i fresh
        exact absurd fresh (begun (Nat.pos_of_ne_zero section_))
      · exact ⟨(told _).1, (told _).2, rfl, rfl⟩
      · exact waited g
      · exact ⟨fun _ _ => rfl, idle, rfl, rfl⟩

theorem Deals.call (rightful : Rightful s) {gate : Nat} (known : gate < s.gates) (aborted : Bool)
    (begun : 0 < s.adopter gate → s.state (s.adopter gate) ≠ .notStarted) : Deals x s (s.call gate aborted) := by
  have counted := rightful.sound.accounted.counted
  obtain ⟨exception, fresh⟩ := rightful.sound.accounted.queued.later s.waits (Nat.le_refl _)
  have idle : (s.wait s.waits).starts = none := by
    rw [fresh]
    rfl
  have issues := Issues.call rightful known aborted
  have adopted : (s.asking gate aborted).waitOn gate gate s.waits aborted =
      (s.asking gate aborted).waitOn 0 (s.adopter gate) s.waits aborted :=
    waitOn_adopter (s := s.asking gate aborted) (counted.same ⟨rfl, rfl, rfl, rfl, rfl, rfl⟩) (Nat.le_refl gate) ..
  change Issues s ((s.asking gate aborted).waitOn gate gate s.waits aborted) at issues
  change Deals x s ((s.asking gate aborted).waitOn gate gate s.waits aborted)
  rw [adopted] at issues ⊢
  obtain ⟨others, mine, parentLock, state⟩ :=
    waitOn_sections (s.asking gate aborted) (w := s.waits) (g := s.adopter gate) begun idle aborted
  apply Deals.frame issues
  · intro w
    by_cases new : w = s.waits
    · rw [new, mine, idle]
    · rw [others w new]
      rfl
  · intro c _
    rw [parentLock]
    rfl
  · intro c _
    rw [state]
    exact id

theorem gateWait_parentLock (s : InputGates) (gate w : Nat) (aborted : Bool) :
    (s.gateWait gate w aborted).parentLock = s.parentLock := by
  unfold InputGates.gateWait
  split
  · rfl
  · split
    · rfl
    · split <;> rfl

theorem enter_sections (s : InputGates) (c lock w : Nat) (aborted : Bool) :
    (∀ x, x ≠ w → (s.enter c lock w aborted).wait x = s.wait x) ∧ ((s.enter c lock w aborted).wait w).starts = none ∧
      (s.enter c lock w aborted).parentLock = Function.update s.parentLock c (some lock) := by
  obtain ⟨others, mine⟩ := gateWait_wait { s with
    state := Function.update s.state c .running
    parentLock := Function.update s.parentLock c (some lock) } c w aborted
  exact ⟨others, mine, gateWait_parentLock ..⟩

/-- What the first call on a section does to the sections. -/
structure Starts (s t : InputGates) (w c : Nat) : Prop where
  others : ∀ x, x ≠ w → (t.wait x).starts = (s.wait x).starts
  mine : ∀ d, (t.wait w).starts = some d → d = c
  parentLock : ∀ d, d ≠ c → t.parentLock d = s.parentLock d
  state : ∀ d, d ≠ c → t.state d = s.state d
  begun : t.state c ≠ .notStarted
  first : t.FirstWait w c

theorem start_sections (s : InputGates) (c w : Nat) : Starts s (s.start c w) w c := by
  have initial : (s.withState c .initialWait).state c = .initialWait := Function.update_self ..
  have still : ∀ d, d ≠ c → (s.withState c .initialWait).state d = s.state d := by
    intro d other
    exact Function.update_of_ne other ..
  rw [start_eq]
  unfold begin
  split
  · rename_i exception _
    have broken := Settles.setBroken (s.withState c .initialWait) c exception
    have told : (((s.withState c .initialWait).setBroken c exception).settle w (.rejected exception)).wait w =
        .rejected exception := Function.update_self ..
    refine ⟨?_, ?_, ?_, ?_, ?_, Or.inr (Or.inl ⟨exception, told⟩)⟩
    · intro x other
      have same : (((s.withState c .initialWait).setBroken c exception).settle w (.rejected exception)).wait x =
          ((s.withState c .initialWait).setBroken c exception).wait x := Function.update_of_ne other ..
      rw [same, broken.starts]
      rfl
    · intro d starts
      rw [told] at starts
      cases starts
    · intro d _
      exact congrFun broken.parentLock d
    · intro d other
      exact (congrFun broken.state d).trans (still d other)
    · change ((s.withState c .initialWait).setBroken c exception).state c ≠ _
      rw [broken.state, initial]
      simp
  · split
    · obtain ⟨others, mine, parentLock⟩ := enter_sections ((s.withState c .initialWait).newLock
        ((s.withState c .initialWait).parentAsInputGate c) false) c (s.withState c .initialWait).locks w false
      have state := enter_state ((s.withState c .initialWait).newLock
        ((s.withState c .initialWait).parentAsInputGate c) false) c (s.withState c .initialWait).locks w false
      refine ⟨?_, ?_, ?_, ?_, ?_, Or.inr (Or.inr ?_)⟩
      · intro x other
        rw [others x other]
        rfl
      · intro d starts
        rw [mine] at starts
        cases starts
      · intro d other
        rw [parentLock, Function.update_of_ne other]
        rfl
      · intro d other
        rw [state, Function.update_of_ne other]
        exact still d other
      · rw [state, Function.update_self]
        simp
      · rw [parentLock, Function.update_self]
        simp
    · have mine : (((s.withState c .initialWait).newWaiterPromise ((s.withState c .initialWait).parentAsInputGate c)
          (some c) w).wait w).starts = some c := by
        simp [newWaiterPromise, InputGates.settle, WaitStatus.starts]
      refine ⟨?_, ?_, fun _ _ => rfl, still, ?_, Or.inl mine⟩
      · intro x other
        simp [newWaiterPromise, InputGates.settle, Function.update_of_ne other, withState]
      · intro d starts
        rw [mine] at starts
        exact (Option.some.inj starts).symm
      · change (s.withState c .initialWait).state c ≠ _
        rw [initial]
        simp

theorem call_start (counted : Counted s) (first : 0 < c) (fresh : s.state c = .notStarted) :
    s.call c false = (s.asking c false).start c s.waits := by
  have stays : s.isReparented c = false := by simp [isReparented, fresh]
  have adopted : (s.asking c false).waitOn c c s.waits false = (s.asking c false).waitOn 0 (s.adopter c) s.waits false :=
    waitOn_adopter (s := s.asking c false) (counted.same ⟨rfl, rfl, rfl, rfl, rfl, rfl⟩) (Nat.le_refl c) ..
  change (s.asking c false).waitOn c c s.waits false = _
  rw [adopted, adopter_of_stays stays]
  unfold InputGates.waitOn
  have state : (s.asking c false).state c = .notStarted := fresh
  rw [if_neg (Nat.ne_of_gt first)]
  simp [state]

/-- The first call on a section. -/
theorem Deals.start (rightful : Rightful s) (first : 0 < c) (known : c < s.gates) (fresh : s.state c = .notStarted) :
    Deals (some c) s (s.call c false) ∧ Starts s (s.call c false) s.waits c := by
  have issues := Issues.call rightful known false
  have begun := start_sections (s.asking c false) c s.waits
  rw [call_start rightful.sound.accounted.counted first fresh] at issues ⊢
  have starts : Starts s ((s.asking c false).start c s.waits) s.waits c :=
    ⟨begun.others, begun.mine, begun.parentLock, begun.state, begun.begun, begun.first⟩
  have apart : ∀ d, some c ≠ some d → d ≠ c := by
    intro d other same
    exact other (congrArg some same.symm)
  refine ⟨⟨issues, ?_, ?_, ?_, ?_, ?_⟩, starts⟩
  · intro d other locked
    rw [starts.parentLock d (apart d other)]
    exact locked
  · intro d other gone
    rw [starts.parentLock d (apart d other)]
    exact gone.unlocked
  · intro w d other mine
    by_cases new : w = s.waits
    · rw [new] at mine
      exact absurd (starts.mine d mine) (apart d other)
    · rw [← starts.others w new]
      exact mine
  · intro w d other mine
    have made := starts_made rightful.sound.accounted.queued mine
    exact Or.inl ((starts.others w (Nat.ne_of_lt made)).trans mine)
  · intro d other begun
    rw [starts.state d (apart d other)]
    exact begun

/-- A wait comes to nothing. -/
theorem Deals.told (issues : Issues s t) {exception : GateException} (told : t.wait w = .rejected exception)
    (others : ∀ y, y ≠ w → (t.wait y).starts = (s.wait y).starts) (parentLock : t.parentLock = s.parentLock)
    (begun : ∀ c, x ≠ some c → s.state c ≠ .notStarted → t.state c ≠ .notStarted) : Deals x s t := by
  refine ⟨issues, ?_, ?_, ?_, ?_, begun⟩
  · intro d _ locked
    rw [parentLock]
    exact locked
  · intro d _ gone
    rw [parentLock]
    exact gone.unlocked
  · intro y d _ now
    by_cases same : y = w
    · rw [same, told] at now
      cases now
    · rw [← others y same]
      exact now
  · intro y d _ before
    by_cases same : y = w
    · rw [same]
      exact Or.inr (Or.inl ⟨exception, told⟩)
    · exact Or.inl ((others y same).trans before)

theorem Deals.resume (rightful : Rightful s) (w : Nat) : Deals x s (s.resume w) := by
  have issues := Issues.resume rightful w
  have none : Deals x s s :=
    .frame (.frame rightful.bounded rfl (Nat.le_refl _) rfl (fun _ => Iff.rfl) rfl) (fun _ => rfl) (fun _ _ => rfl)
      fun _ _ => id
  unfold InputGates.resume at issues ⊢
  cases status : s.wait w with
  | linked g starts => exact none
  | resolved lock => exact none
  | rejected exception => exact none
  | granted c lock =>
    simp only [status] at issues ⊢
    obtain ⟨others, mine, parentLock⟩ := enter_sections s c lock w (s.aborted w)
    have state := enter_state s c lock w (s.aborted w)
    have starts : (s.wait w).starts = some c := by
      rw [status]
      rfl
    refine ⟨issues, ?_, ?_, ?_, ?_, ?_⟩
    · intro d _ locked
      rw [parentLock]
      by_cases same : d = c
      · rw [same, Function.update_self]
        simp
      · rw [Function.update_of_ne same]
        exact locked
    · intro d _ gone
      have apart : d ≠ c := by
        intro same
        rw [← same] at starts
        exact gone.nobody w starts
      rw [parentLock, Function.update_of_ne apart]
      exact gone.unlocked
    · intro y d _ now
      by_cases same : y = w
      · rw [same, mine] at now
        cases now
      · rw [others y same] at now
        exact now
    · intro y d _ before
      by_cases same : y = w
      · rw [same, starts] at before
        cases before
        refine Or.inr (Or.inr ?_)
        rw [parentLock, Function.update_self]
        simp
      · refine Or.inl ?_
        rw [others y same]
        exact before
    · intro d _ begun
      rw [state]
      by_cases same : d = c
      · rw [same, Function.update_self]
        simp
      · rw [Function.update_of_ne same]
        exact begun
  | refused c exception =>
    cases exception with
    | canceled =>
      simp only [status] at issues ⊢
      apply Deals.told issues (Function.update_self ..) ?_ rfl fun _ _ => id
      intro y other
      exact congrArg WaitStatus.starts (Function.update_of_ne other ..)
    | error message =>
      simp only [status] at issues ⊢
      have broken := Settles.setBroken (s.withState c .running) c (.error message)
      apply Deals.told issues (Function.update_self ..) ?_ broken.parentLock ?_
      · intro y other
        have still : (((s.withState c .running).setBroken c (.error message)).settle w
            (.rejected (.error message))).wait y = ((s.withState c .running).setBroken c (.error message)).wait y :=
          Function.update_of_ne other ..
        change ((((s.withState c .running).setBroken c (.error message)).settle w
          (.rejected (.error message))).wait y).starts = _
        rw [still, broken.starts]
        rfl
      · intro d _ begun
        change ((s.withState c .running).setBroken c (.error message)).state d ≠ _
        rw [broken.state]
        by_cases same : d = c
        · rw [same]
          simp [withState]
        · simp [withState, same, begun]

theorem Deals.reparent (bounded : Bounded s) (c : Nat) : Deals none s (s.reparent c) := by
  apply Deals.frame (.reparent bounded c) (reparent_starts s c) (fun _ _ => rfl)
  intro d _ begun
  by_cases same : d = c
  · rw [same]
    simp [InputGates.reparent]
  · simp [InputGates.reparent, same, begun]

theorem Deals.newSection (bounded : Bounded s) (parent : Nat) : Deals none s (s.newSection parent) := by
  have issues : Issues s (s.newSection parent) := .quiet (t := s.newSection parent) bounded (Nat.le_succ _)
    (Nat.le_refl _) rfl (fun _ => Iff.rfl) (fun _ _ => Iff.rfl) fun _ _ => id
  exact .frame issues (fun _ => rfl) (fun _ _ => rfl) fun _ _ => id

/-- A lock that is in nobody's hands is released. -/
theorem Deals.unlock (bounded : Bounded s) {l : Nat} (free : s.given l = false) (gate : Nat) :
    Deals x s (s.unlock l gate) := by
  have kept : ∀ i, (s.unlock l gate).InHand i ↔ s.InHand i := by
    intro i
    unfold InHand
    by_cases same : i = l
    · rw [same]
      change s.given l = true ∧ _ ↔ _
      rw [free]
      simp
    · have other : (s.unlock l gate).gateOf i = s.gateOf i := Function.update_of_ne same ..
      rw [other]
      rfl
  have issues : Issues s (s.unlock l gate) := .frame bounded rfl (Nat.le_refl _) rfl kept rfl
  exact .frame issues (fun _ => rfl) (fun _ _ => rfl) fun _ _ => id

theorem Deals.failed (bounded : Bounded s) (accounted : Accounted s) (fuel c : Nat) (exception : GateException) :
    Deals x s (s.failed fuel c exception) :=
  .settles bounded (.failed s fuel c exception) (failed_refused accounted fuel c exception)

theorem Deals.dropped (bounded : Bounded s) (accounted : Accounted s) (c : Nat) : Deals x s (s.dropped c) := by
  have settles := Settles.dropped s c
  unfold InputGates.dropped at settles ⊢
  split
  · exact .failed bounded accounted c c _
  · exact .frame (.frame bounded rfl (Nat.le_refl _) rfl (fun _ => Iff.rfl) rfl) (fun _ => rfl) (fun _ _ => rfl)
      fun _ _ => id

/-- What a dropped section does with the lock it had in its parent. -/
theorem Deals.disowned (rightful : Rightful s) (exclusive : Exclusive s) (c : Nat) :
    Deals none ((s.dropped c).disown c) (drop c s).2 := by
  have accounted := rightful.sound.accounted
  have dropped := Deals.dropped (x := none) rightful.bounded accounted c
  have settles := Settles.dropped s c
  have bounded : Bounded ((s.dropped c).disown c) := by
    intro w l resolved
    rcases dropped.fresh w l resolved with before | ⟨_, made⟩
    · exact Nat.lt_of_lt_of_le (rightful.bounded w l before) dropped.locks
    · exact made
  have stays : Deals none ((s.dropped c).disown c) ((s.dropped c).disown c) :=
    .frame (.frame bounded rfl (Nat.le_refl _) rfl (fun _ => Iff.rfl) rfl) (fun _ => rfl) (fun _ _ => rfl)
      fun _ _ => id
  rw [drop_state]
  split
  · rename_i unlocked
    have same : (s.dropped c).disown c = s.dropped c := by
      unfold disown
      rw [settles.parentLock, ← unlocked, Function.update_eq_self, ← settles.parentLock]
    rw [same] at stays
    rw [same]
    exact stays
  · rename_i lock has
    have free : ((s.dropped c).disown c).given lock = false := by
      change (s.dropped c).given lock = false
      rw [settles.given]
      exact exclusive.kept (.inl c) c lock (by simp [lockOf, has])
    have accounted' := (accounted.dropped c).disown c
    cases held : ((s.dropped c).disown c).gateOf lock with
    | none =>
      rw [release_none held]
      exact stays
    | some h =>
      rw [release_run accounted' held]
      have unlocked := Deals.unlock (x := none) bounded free (((s.dropped c).disown c).adopter h)
      have freed := Deals.freed (x := none) bounded accounted'.queued lock (((s.dropped c).disown c).adopter h)
      exact unlocked.trans accounted'.queued freed

theorem Issues.drop (rightful : Rightful s) (exclusive : Exclusive s) (c : Nat) : Issues s (drop c s).2 := by
  have dropped := (Deals.dropped (x := none) rightful.bounded rightful.sound.accounted c).toIssues
  have bounded : Bounded (s.dropped c) := by
    intro w l resolved
    rcases dropped.fresh w l resolved with before | ⟨_, made⟩
    · exact Nat.lt_of_lt_of_le (rightful.bounded w l before) dropped.locks
    · exact made
  have disowned : Issues (s.dropped c) ((s.dropped c).disown c) :=
    .frame bounded rfl (Nat.le_refl _) rfl (fun _ => Iff.rfl) rfl
  exact dropped.trans (disowned.trans (Deals.disowned rightful exclusive c).toIssues)

end Dealing

/-- A lock that is in nobody's hands is that of a section, and a section that has not begun has none. -/
structure Owned (s : InputGates) : Prop where
  owner : ∀ l, s.gateOf l ≠ none → s.given l = false → ∃ o c, s.lockOf o = some (c, l)
  unentered : ∀ c, s.state c = .notStarted ∨ s.state c = .initialWait → s.parentLock c = none

section Owning

variable {s t : InputGates} {w c : Nat}

theorem Owned.frame (owned : Owned s)
    (old : ∀ l, t.gateOf l ≠ none → t.given l = false → s.gateOf l ≠ none ∧ s.given l = false)
    (parentLock : t.parentLock = s.parentLock) (granted : ∀ w c l, s.wait w = .granted c l → t.wait w = .granted c l)
    (state : ∀ c, t.state c = .notStarted ∨ t.state c = .initialWait →
      s.state c = .notStarted ∨ s.state c = .initialWait) : Owned t := by
  constructor
  · intro l held free
    obtain ⟨held, free⟩ := old l held free
    obtain ⟨o, c, has⟩ := owned.owner l held free
    refine ⟨o, c, ?_⟩
    cases o with
    | inl d =>
      simp only [lockOf] at has ⊢
      rw [parentLock]
      exact has
    | inr w =>
      rw [lockOf_inr] at has ⊢
      exact granted w c l has
  · intro c unbegun
    rw [parentLock]
    exact owned.unentered c (state c unbegun)

theorem Owned.settles (owned : Owned s) (settles : Settles s t) : Owned t := by
  apply owned.frame
  · intro l held free
    rw [settles.gateOf] at held
    rw [settles.given] at free
    exact ⟨held, free⟩
  · exact settles.parentLock
  · intro w c l granted
    rw [settles.free w (by simp [granted, WaitStatus.Linked])]
    exact granted
  · intro c unbegun
    rw [settles.state] at unbegun
    exact unbegun

theorem Owned.newLock (owned : Owned s) (gate : Nat) : Owned (s.newLock gate true) := by
  refine owned.frame ?_ rfl (fun _ _ _ granted => granted) fun _ unbegun => unbegun
  intro l held free
  by_cases new : l = s.locks
  · rw [new] at free
    simp [InputGates.newLock] at free
  · simp only [InputGates.newLock, Function.update_of_ne new] at held free
    exact ⟨held, free⟩

theorem Owned.settle (owned : Owned s) (free : ∀ c l, s.wait w ≠ .granted c l) (status : WaitStatus) :
    Owned (s.settle w status) := by
  refine owned.frame (fun _ held free => ⟨held, free⟩) rfl ?_ fun _ unbegun => unbegun
  intro x c l granted
  have other : x ≠ w := by
    intro mine
    rw [mine] at granted
    exact free c l granted
  exact (Function.update_of_ne other ..).trans granted

theorem Owned.gateWait (owned : Owned s) (free : ∀ c l, s.wait w ≠ .granted c l) (gate : Nat) (aborted : Bool) :
    Owned (s.gateWait gate w aborted) := by
  unfold InputGates.gateWait
  split
  · exact owned.settle free _
  · split
    · exact owned.settle free _
    · split
      · exact (owned.newLock gate).settle free _
      · have waits : Owned { s with waiters := Function.update s.waiters gate (s.waiters gate ++ [w]) } :=
          owned.frame (fun _ held free => ⟨held, free⟩) rfl (fun _ _ _ granted => granted) fun _ unbegun => unbegun
        exact waits.settle free _

/-- A section goes on under a lock that was its own to get. -/
theorem Owned.enter (state : s.state c = .notStarted ∨ s.state c = .initialWait) {lock : Nat}
    (unentered : ∀ d, s.state d = .notStarted ∨ s.state d = .initialWait → s.parentLock d = none)
    (owner : ∀ l, l ≠ lock → s.gateOf l ≠ none → s.given l = false → ∃ o d, s.lockOf o = some (d, l))
    (mine : ∀ d l, s.wait w = .granted d l → l = lock) (aborted : Bool) : Owned (s.enter c lock w aborted) := by
  have entered : Owned ({ s with
      state := Function.update s.state c .running
      parentLock := Function.update s.parentLock c (some lock) }.settle w (.rejected .canceled)) := by
    constructor
    · intro l held free
      by_cases own : l = lock
      · refine ⟨.inl c, c, ?_⟩
        rw [own]
        simp [lockOf, InputGates.settle]
      · obtain ⟨o, d, has⟩ := owner l own held free
        refine ⟨o, d, ?_⟩
        cases o with
        | inl e =>
          have other : e ≠ c := by
            intro same
            rw [same] at has
            simp [lockOf, unentered c state] at has
          simp only [lockOf, InputGates.settle, Function.update_of_ne other]
          exact has
        | inr x =>
          rw [lockOf_inr] at has ⊢
          have other : x ≠ w := by
            intro same
            rw [same] at has
            exact own (mine d l has)
          exact (Function.update_of_ne other ..).trans has
    · intro d unbegun
      have other : d ≠ c := by
        intro same
        rw [same] at unbegun
        simp [InputGates.settle] at unbegun
      simp only [InputGates.settle, Function.update_of_ne other] at unbegun ⊢
      exact unentered d unbegun
  unfold InputGates.enter
  rw [← gateWait_forget _ c w aborted (.rejected .canceled)]
  apply entered.gateWait
  intro d l granted
  simp [InputGates.settle] at granted

theorem Owned.call (owned : Owned s) (accounted : Accounted s) (gate : Nat) (aborted : Bool) :
    Owned (s.call gate aborted) := by
  have counted := accounted.counted
  obtain ⟨exception, fresh⟩ := accounted.queued.later s.waits (Nat.le_refl _)
  have free : ∀ c l, (s.asking gate aborted).wait s.waits ≠ .granted c l := by
    intro c l granted
    change s.wait s.waits = _ at granted
    rw [fresh] at granted
    cases granted
  have asking : Owned (s.asking gate aborted) :=
    owned.frame (fun _ held free => ⟨held, free⟩) rfl (fun _ _ _ granted => granted) fun _ unbegun => unbegun
  change Owned ((s.asking gate aborted).waitOn gate gate s.waits aborted)
  rw [waitOn_adopter (s := s.asking gate aborted) (counted.same ⟨rfl, rfl, rfl, rfl, rfl, rfl⟩) (Nat.le_refl gate)]
  unfold InputGates.waitOn
  split
  · exact asking.gateWait free 0 aborted
  · split
    · exact asking.settle free _
    · split
      · rename_i state
        have begun : Owned ((s.asking gate aborted).withState ((s.asking gate aborted).adopter gate) .initialWait) := by
          refine asking.frame (fun _ held free => ⟨held, free⟩) rfl (fun _ _ _ granted => granted) ?_
          intro c unbegun
          by_cases same : c = (s.asking gate aborted).adopter gate
          · rw [same]
            exact Or.inl state
          · simp only [withState, Function.update_of_ne same] at unbegun
            exact unbegun
        rw [start_eq]
        generalize s.asking gate aborted = u at asking begun free state
        have initial : (u.withState (u.adopter gate) .initialWait).state (u.adopter gate) = .initialWait :=
          Function.update_self ..
        unfold begin
        split
        · have broken := Settles.setBroken (u.withState (u.adopter gate) .initialWait) (u.adopter gate) (by assumption)
          apply (begun.settles broken).settle
          intro c l granted
          exact free c l (broken.granted _ c l granted)
        · split
          · apply Owned.enter (s := (u.withState (u.adopter gate) .initialWait).newLock _ false) (Or.inr initial)
              begun.unentered
            · intro l other held ungiven
              have old : (u.withState (u.adopter gate) .initialWait).gateOf l ≠ none ∧
                  (u.withState (u.adopter gate) .initialWait).given l = false := by
                simp only [InputGates.newLock, Function.update_of_ne other] at held ungiven
                exact ⟨held, ungiven⟩
              exact begun.owner l old.1 old.2
            · intro d l granted
              exact absurd granted (free d l)
          · have waits : Owned { u.withState (u.adopter gate) .initialWait with
                waitingChildren := Function.update u.waitingChildren
                  ((u.withState (u.adopter gate) .initialWait).parentAsInputGate (u.adopter gate))
                  (u.waitingChildren ((u.withState (u.adopter gate) .initialWait).parentAsInputGate (u.adopter gate)) ++
                    [s.waits]) } :=
              begun.frame (fun _ held free => ⟨held, free⟩) rfl (fun _ _ _ granted => granted) fun _ unbegun => unbegun
            exact waits.settle free _
      · exact asking.settle free _
      · exact asking.gateWait free _ aborted
      · exact asking

theorem Owned.resume (owned : Owned s) (starting : Starting s) (w : Nat) : Owned (s.resume w) := by
  unfold InputGates.resume
  cases status : s.wait w with
  | linked g starts => exact owned
  | resolved lock => exact owned
  | rejected exception => exact owned
  | granted c lock =>
    obtain ⟨initial, _⟩ := starting.initial w c (by rw [status]; rfl)
    apply Owned.enter (Or.inr initial) owned.unentered fun l _ => owned.owner l
    intro d l granted
    rw [status] at granted
    cases granted
    rfl
  | refused c exception =>
    have free : ∀ d l, s.wait w ≠ .granted d l := by
      intro d l granted
      rw [status] at granted
      cases granted
    cases exception with
    | canceled => exact owned.settle free _
    | error message =>
      obtain ⟨initial, _⟩ := starting.initial w c (by rw [status]; rfl)
      have running : Owned (s.withState c .running) := by
        refine owned.frame (fun _ held free => ⟨held, free⟩) rfl (fun _ _ _ granted => granted) ?_
        intro d unbegun
        by_cases same : d = c
        · rw [same]
          exact Or.inr initial
        · simp only [withState, Function.update_of_ne same] at unbegun
          exact unbegun
      have broken := Settles.setBroken (s.withState c .running) c (.error message)
      apply (running.settles broken).settle
      intro d l granted
      exact free d l (broken.granted w d l granted)

theorem Owned.fulfill (owned : Owned s) {gate : Nat} {starts : Option Nat} (linked : s.wait w = .linked gate starts) :
    Owned ((s.newLock gate starts.isNone).fulfill w s.locks) := by
  have taken : ∀ status, (starts.isNone = false → ∃ c, status = .granted c s.locks) →
      Owned (((s.newLock gate starts.isNone).unlink w).settle w status) := by
    intro status granted
    obtain ⟨_, gateOf, given⟩ := unlink_locks (s.newLock gate starts.isNone) w status
    obtain ⟨state, _, _⟩ := unlink_state (s.newLock gate starts.isNone) w status
    have parentLock : (((s.newLock gate starts.isNone).unlink w).settle w status).parentLock = s.parentLock := by
      unfold InputGates.unlink
      split <;> rfl
    constructor
    · intro l held free
      rw [gateOf] at held
      rw [given] at free
      by_cases new : l = s.locks
      · rw [new] at free ⊢
        have ungiven : starts.isNone = false := by
          simpa [InputGates.newLock] using free
        obtain ⟨c, is⟩ := granted ungiven
        refine ⟨.inr w, c, ?_⟩
        rw [lockOf_inr, unlink_wait, if_pos rfl]
        exact is
      · simp only [InputGates.newLock, Function.update_of_ne new] at held free
        obtain ⟨o, c, has⟩ := owned.owner l held free
        refine ⟨o, c, ?_⟩
        cases o with
        | inl d =>
          simp only [lockOf] at has ⊢
          rw [parentLock]
          exact has
        | inr x =>
          rw [lockOf_inr] at has ⊢
          have other : x ≠ w := by
            intro same
            rw [same, linked] at has
            cases has
          rw [unlink_wait, if_neg other]
          exact has
    · intro c unbegun
      rw [state] at unbegun
      rw [parentLock]
      exact owned.unentered c unbegun
  cases starts with
  | none =>
    rw [fulfill_waiter (s := s.newLock gate _) linked]
    apply taken
    intro never
    cases never
  | some c =>
    rw [fulfill_child (s := s.newLock gate _) linked]
    apply taken
    intro _
    exact ⟨c, rfl⟩

theorem Owned.grantNext (owned : Owned s) (queued : Queued s) (gate : Nat) : Owned (s.grantNext gate) := by
  unfold InputGates.grantNext
  split
  · rename_i child rest children
    obtain ⟨c, linked⟩ := (queued.child gate child).1 (by simp [children])
    exact owned.fulfill linked
  · split
    · rename_i waiter rest waiters
      exact owned.fulfill ((queued.waiter gate waiter).1 (by simp [waiters]))
    · exact owned

/-- The locks of a gate that are let go, `l` among them. -/
theorem Owned.freed {l gate : Nat} (queued : Queued s)
    (owner : ∀ i, i ≠ l → s.gateOf i ≠ none → s.given i = false → ∃ o c, s.lockOf o = some (c, i))
    (unentered : ∀ c, s.state c = .notStarted ∨ s.state c = .initialWait → s.parentLock c = none) :
    Owned (s.freed l gate) := by
  have unlocked : Owned (s.unlock l gate) := by
    constructor
    · intro i held free
      by_cases same : i = l
      · rw [same] at held
        simp [unlock] at held
      · simp only [unlock, Function.update_of_ne same] at held
        exact owner i same held free
    · exact unentered
  unfold InputGates.freed
  split
  · exact unlocked.grantNext (s := s.unlock l gate) { queued with } gate
  · exact unlocked

theorem Owned.release (owned : Owned s) (accounted : Accounted s) (l : Nat) : Owned (release l s).2 := by
  cases held : s.gateOf l with
  | none =>
    rw [release_none held]
    exact owned
  | some h =>
    rw [release_run accounted held]
    exact Owned.freed accounted.queued (fun i _ => owned.owner i) owned.unentered

theorem Owned.drop (owned : Owned s) (accounted : Accounted s) (c : Nat) : Owned (drop c s).2 := by
  have dropped := owned.settles (.dropped s c)
  rw [drop_state]
  split
  · exact dropped
  · rename_i lock has
    have unentered : ∀ d, (s.dropped c).state d = .notStarted ∨ (s.dropped c).state d = .initialWait →
        ((s.dropped c).disown c).parentLock d = none := by
      intro d unbegun
      by_cases same : d = c
      · rw [same]
        exact Function.update_self ..
      · exact (Function.update_of_ne same ..).trans (dropped.unentered d unbegun)
    have owner : ∀ l, l ≠ lock → ((s.dropped c).disown c).gateOf l ≠ none →
        ((s.dropped c).disown c).given l = false → ∃ o d, ((s.dropped c).disown c).lockOf o = some (d, l) := by
      intro l other held free
      obtain ⟨o, d, owns⟩ := dropped.owner l held free
      refine ⟨o, d, ?_⟩
      cases o with
      | inl e =>
        have apart : e ≠ c := by
          intro same
          rw [same] at owns
          simp only [lockOf, (Settles.dropped s c).parentLock, has, Option.map_some, Option.some.injEq,
            Prod.mk.injEq] at owns
          exact other owns.2.symm
        simp only [lockOf, disown, Function.update_of_ne apart]
        exact owns
      | inr w =>
        rw [lockOf_inr] at owns ⊢
        exact owns
    have disowned := (accounted.dropped c).disown c
    cases held : ((s.dropped c).disown c).gateOf lock with
    | none =>
      rw [release_none held]
      constructor
      · intro l live
        have other : l ≠ lock := by
          intro same
          rw [same] at live
          exact live held
        exact owner l other live
      · exact unentered
    | some h =>
      rw [release_run disowned held]
      exact Owned.freed disowned.queued owner unentered

theorem Owned.succeeded (owned : Owned s) (c : Nat) : Owned (succeeded c s).2 := by
  by_cases running : s.state c = .running
  · have moved : Owned (s.reparent c) := by
      refine owned.frame (fun _ held free => ⟨held, free⟩) rfl ?_ ?_
      · intro w d l granted
        rw [reparent_wait, granted]
      · intro d unbegun
        by_cases same : d = c
        · rw [same] at unbegun
          simp [reparent] at unbegun
        · simp only [reparent, Function.update_of_ne same] at unbegun
          exact unbegun
    rw [succeeded_state running]
    split
    · exact moved
    · rename_i lock has
      constructor
      · intro l held free
        have other : l ≠ lock := by
          intro same
          rw [same] at free
          simp at free
        simp only [Function.update_of_ne other] at free
        obtain ⟨o, d, owns⟩ := moved.owner l held free
        refine ⟨o, d, ?_⟩
        cases o with
        | inl e =>
          have apart : e ≠ c := by
            intro same
            rw [same] at owns
            change (s.parentLock c).map _ = _ at owns
            rw [has] at owns
            simp only [Option.map_some, Option.some.injEq, Prod.mk.injEq] at owns
            exact other owns.2.symm
          simp only [lockOf, Function.update_of_ne apart]
          exact owns
        | inr w =>
          rw [lockOf_inr] at owns ⊢
          exact owns
      · intro d unbegun
        by_cases same : d = c
        · rw [same]
          exact Function.update_self ..
        · exact (Function.update_of_ne same ..).trans (moved.unentered d unbegun)
  · rw [succeeded_refused running]
    exact owned

theorem step_owned {event : Event} (accounted : Accounted s) (starting : Starting s) (owned : Owned s)
    (stepped : step s event = some t) : Owned t := by
  cases event <;> simp only [step, Option.ite_none_right_eq_some, Option.some.injEq] at stepped <;>
    obtain ⟨admitted, rfl⟩ := stepped
  case wait gate aborted => exact owned.call accounted gate aborted
  case abort w => exact owned.settles (.abort s w)
  case resume w => exact owned.resume starting w
  case addRef l =>
    rw [addRef_state]
    split
    · exact owned
    · exact owned.newLock _
  case release l => exact owned.release accounted l
  case startCriticalSection l =>
    rw [startCriticalSection_state]
    split
    · exact owned
    · exact owned.frame (fun _ held free => ⟨held, free⟩) rfl (fun _ _ _ granted => granted) fun _ unbegun => unbegun
  case succeeded c => exact owned.succeeded c
  case failed c exception => exact owned.settles (.failed s c c exception)
  case setBroken g exception => exact owned.settles (.setBroken s g exception)
  case drop c => exact owned.drop accounted c

theorem opened_owned : Owned opened := by
  constructor
  · intro l held
    exact absurd rfl held
  · intro c _
    rfl

end Owning

section Making

variable {s t : InputGates} {c : Nat}

/-- No section has begun before it is made, and the root is none. -/
def Blank (s : InputGates) : Prop := ∀ c, c = 0 ∨ s.gates ≤ c → s.state c = .notStarted

theorem waitOn_later (s : InputGates) (older : ∀ g, 0 < g → s.parent g < g) (fuel gate w : Nat)
    (later : c = 0 ∨ gate < c) (aborted : Bool) : (s.waitOn fuel gate w aborted).state c = s.state c := by
  induction fuel generalizing gate with
  | zero =>
    unfold waitOn
    split
    · rw [(gateWait_rest s 0 w aborted).1]
    · split
      · rfl
      · split
        · exact start_state s (by omega) w
        · rfl
        · rw [(gateWait_rest s gate w aborted).1]
        · rfl
  | succ fuel ih =>
    unfold waitOn
    split
    · rw [(gateWait_rest s 0 w aborted).1]
    · rename_i positive
      split
      · rfl
      · split
        · exact start_state s (by omega) w
        · rfl
        · rw [(gateWait_rest s gate w aborted).1]
        · have above := older gate (Nat.pos_of_ne_zero positive)
          exact ih (s.parent gate) (by omega)

theorem resume_later (starting : Starting s) (sections : Sections s) (w : Nat) (later : c = 0 ∨ s.gates ≤ c) :
    (s.resume w).state c = s.state c := by
  have known : ∀ d, (s.wait w).starts = some d → c ≠ d := by
    intro d starts same
    have made := (starting.initial w d starts).2
    have first := sections w d starts
    omega
  unfold resume
  split
  · rename_i d l status
    rw [enter_state, Function.update_of_ne (known d (by rw [status]; rfl))]
  · rfl
  · rename_i d exception _ status
    change ((s.withState d .running).setBroken d exception).state c = _
    rw [(Settles.setBroken _ d exception).state]
    exact Function.update_of_ne (known d (by rw [status]; rfl)) ..
  · rfl

theorem step_blank {event : Event} (sound : Sound s) (sections : Sections s) (blank : Blank s)
    (stepped : step s event = some t) : Blank t := by
  have grows := step_gates sound stepped
  intro c later
  have old : c = 0 ∨ s.gates ≤ c := by omega
  have before := blank c old
  obtain ⟨accounted, starting, _⟩ := sound
  cases event <;> simp only [step, Option.ite_none_right_eq_some, Option.some.injEq] at stepped <;>
    obtain ⟨known, rfl⟩ := stepped
  case wait gate aborted =>
    have above : c = 0 ∨ gate < c := by omega
    exact (waitOn_later (s.asking gate aborted) accounted.counted.older gate gate s.waits above aborted).trans before
  case abort w => rw [(Settles.abort s w).state, before]
  case resume w => rw [resume_later starting sections w old, before]
  case addRef l =>
    rw [addRef_state]
    split
    · exact before
    · exact before
  case release l => rw [release_state accounted, before]
  case startCriticalSection l =>
    rw [startCriticalSection_state]
    split
    · exact before
    · exact before
  case succeeded d =>
    by_cases running : s.state d = .running
    · have apart : c ≠ d := by omega
      have moved : (s.reparent d).state c = .notStarted := (Function.update_of_ne apart ..).trans before
      rw [succeeded_state running]
      split
      · exact moved
      · exact moved
    · rw [succeeded_refused running]
      exact before
  case failed d exception => rw [(Settles.failed s d d exception).state, before]
  case setBroken gate exception => rw [(Settles.setBroken s gate exception).state, before]
  case drop d =>
    have dropped : (s.dropped d).state c = .notStarted := by rw [(Settles.dropped s d).state, before]
    rw [drop_state]
    split
    · exact dropped
    · rw [release_state (s := (s.dropped d).disown d) ((accounted.dropped d).disown d)]
      exact dropped

end Making

end DoRuntime.Io.InputGates
