import DoRuntime.Io.InputGate

namespace DoRuntime.Io

/-- The section whose first `wait` the call is, as long as it is under way. -/
def WaitStatus.starts : WaitStatus → Option Nat
  | .linked _ starts => starts
  | .granted c _ | .refused c _ => some c
  | _ => none

def WaitStatus.Linked (status : WaitStatus) : Prop := ∃ g starts, status = .linked g starts

namespace InputGates

open Forwarding Prog Transition

/-- The lock is unreleased, and its gate forwards to `g`. -/
def Holds (s : InputGates) (l g : Nat) : Prop := ∃ h, s.gateOf l = some h ∧ s.adopter h = g

instance (s : InputGates) (l g : Nat) : Decidable (s.Holds l g) :=
  match held : s.gateOf l with
  | none => isFalse (by simp [Holds, held])
  | some h => decidable_of_iff (s.adopter h = g) (by simp [Holds, held])

/-- The number of unreleased locks whose gate forwards to `g`. -/
def outstanding (s : InputGates) (g : Nat) : Nat := ((Finset.range s.locks).filter fun l => s.Holds l g).card

/-- The lists of waiters and the promises of the calls agree. -/
structure Queued (s : InputGates) : Prop where
  waiter : ∀ g w, w ∈ s.waiters g ↔ s.wait w = .linked g none
  child : ∀ g w, w ∈ s.waitingChildren g ↔ ∃ c, s.wait w = .linked g (some c)
  waitersNodup : ∀ g, (s.waiters g).Nodup
  childrenNodup : ∀ g, (s.waitingChildren g).Nodup
  later : ∀ w, s.waits ≤ w → ∃ exception, s.wait w = .rejected exception

/-- The sections whose first `wait` is under way. -/
structure Starting (s : InputGates) : Prop where
  initial : ∀ w c, (s.wait w).starts = some c → s.state c = .initialWait ∧ c < s.gates
  once : ∀ w w' c, (s.wait w).starts = some c → (s.wait w').starts = some c → w = w'

/-- The counts of the locks. -/
structure Counted (s : InputGates) : Prop where
  older : ∀ g, 0 < g → s.parent g < g
  fresh : ∀ g, s.gates ≤ g → s.isReparented g = false
  gate : ∀ l g, s.gateOf l = some g → g < s.gates
  unmade : ∀ l, s.locks ≤ l → s.gateOf l = none
  counts : ∀ g, s.isReparented g = false → s.lockCount g = s.outstanding g
  emptied : ∀ g, s.isReparented g = true → s.lockCount g = 0

/-- A gate that nobody has locked has no waiters. -/
def IdleAt (s : InputGates) (g : Nat) : Prop := s.lockCount g = 0 → s.waiters g = [] ∧ s.waitingChildren g = []

structure Accounted (s : InputGates) : Prop where
  queued : Queued s
  counted : Counted s
  idle : ∀ g, s.IdleAt g

section Tree

variable {s : InputGates} {g : Nat}

theorem isReparented_pos (gone : s.isReparented g = true) : 0 < g ∧ s.state g = .reparented := by
  simpa [isReparented] using gone

theorem Counted.below (counted : Counted s) (g : Nat) (gone : s.isReparented g = true) : s.parent g < g :=
  counted.older g (isReparented_pos gone).1

theorem Counted.adopter_stays (counted : Counted s) (g : Nat) : s.isReparented (s.adopter g) = false :=
  heir_stays counted.below g

theorem Counted.parent_stays (counted : Counted s) (c : Nat) : s.isReparented (s.parentAsInputGate c) = false :=
  counted.adopter_stays _

theorem adopter_of_stays (stays : s.isReparented g = false) : s.adopter g = g := heir_of_stays stays

/-- The gate that a lock of `g` counts at. -/
theorem Counted.gateToLock (counted : Counted s) (g : Nat) :
    (if s.isReparented g then s.parentAsInputGate g else g) = s.adopter g := by
  by_cases gone : s.isReparented g
  · simp only [gone, if_true]
    exact (heir_of_gone counted.below gone).symm
  · simp only [gone, Bool.false_eq_true, if_false]
    exact (adopter_of_stays (by simpa using gone)).symm

theorem parent_lt (counted : Counted s) {c : Nat} (section_ : 0 < c) : s.parentAsInputGate c < c :=
  Nat.lt_of_le_of_lt (heir_le counted.below _) (counted.older c section_)

end Tree

section Counts

variable {s : InputGates} {g : Nat}

theorem newLock_lockCount (counted : Counted s) (gate : Nat) (given : Bool) : (s.newLock gate given).lockCount =
    Function.update s.lockCount (s.adopter gate) (s.lockCount (s.adopter gate) + 1) := by
  simp only [newLock, counted.gateToLock]

theorem newLock_outstanding (counted : Counted s) (gate : Nat) (given : Bool) (g : Nat) :
    (s.newLock gate given).outstanding g = s.outstanding g + if s.adopter gate = g then 1 else 0 := by
  have old : ∀ l, l < s.locks → ((s.newLock gate given).Holds l g ↔ s.Holds l g) := by
    intro l made
    simp only [Holds, newLock, Function.update_of_ne (Nat.ne_of_lt made)]
    rfl
  have new : (s.newLock gate given).Holds s.locks g ↔ s.adopter gate = g := by
    simp only [Holds, newLock, Function.update_self, Option.some.injEq, exists_eq_left']
    rfl
  have rest : (Finset.range s.locks).filter (fun l => (s.newLock gate given).Holds l g) =
      (Finset.range s.locks).filter fun l => s.Holds l g :=
    Finset.filter_congr fun l member => old l (Finset.mem_range.1 member)
  change ((Finset.range (s.locks + 1)).filter _).card = _
  rw [Finset.range_add_one, Finset.filter_insert, rest]
  by_cases mine : s.adopter gate = g
  · rw [if_pos (new.2 mine), Finset.card_insert_of_notMem (by simp), if_pos mine]
    rfl
  · rw [if_neg (fun held => mine (new.1 held)), if_neg mine]
    rfl

theorem Counted.newLock (counted : Counted s) {gate : Nat} (made : gate < s.gates) (given : Bool) :
    Counted (s.newLock gate given) := by
  refine ⟨counted.older, counted.fresh, ?_, ?_, ?_, ?_⟩
  · intro l g held
    simp only [InputGates.newLock] at held ⊢
    by_cases new : l = s.locks
    · subst new
      simp only [Function.update_self, Option.some.injEq] at held
      exact held ▸ made
    · rw [Function.update_of_ne new] at held
      exact counted.gate l g held
  · intro l later
    simp only [InputGates.newLock] at later ⊢
    rw [Function.update_of_ne (by omega)]
    exact counted.unmade l (by omega)
  · intro g stays
    have count := counted.counts g stays
    rw [newLock_outstanding counted, newLock_lockCount counted]
    by_cases mine : s.adopter gate = g
    · subst mine
      rw [Function.update_self, if_pos rfl, count]
    · rw [Function.update_of_ne (Ne.symm mine), if_neg mine, count, Nat.add_zero]
  · intro g gone
    have other : g ≠ s.adopter gate := by
      rintro rfl
      have stays := counted.adopter_stays gate
      change s.isReparented _ = true at gone
      simp [stays] at gone
    rw [newLock_lockCount counted, Function.update_of_ne other]
    exact counted.emptied g gone

/-- The lock is released, its gate not yet told. -/
def without (s : InputGates) (l : Nat) : InputGates := { s with gateOf := Function.update s.gateOf l none }

theorem without_holds (l i g : Nat) : (s.without l).Holds i g ↔ i ≠ l ∧ s.Holds i g := by
  unfold Holds without
  by_cases same : i = l
  · simp [same]
  · simp only [Function.update_of_ne same, ne_eq, same, not_false_eq_true, true_and]
    rfl

/-- One lock less at the gate that the lock forwards to. -/
theorem without_outstanding {l h : Nat} (counted : Counted s) (held : s.gateOf l = some h) (g : Nat) :
    s.outstanding g = (s.without l).outstanding g + if s.adopter h = g then 1 else 0 := by
  have made : l < s.locks := by
    by_contra later
    simp [counted.unmade l (Nat.le_of_not_lt later)] at held
  have erased : (Finset.range s.locks).filter (fun i => (s.without l).Holds i g) =
      ((Finset.range s.locks).filter fun i => s.Holds i g).erase l := by
    ext i
    rw [Finset.mem_filter, Finset.mem_erase, Finset.mem_filter, without_holds]
    tauto
  change _ = ((Finset.range s.locks).filter fun i => (s.without l).Holds i g).card + _
  unfold outstanding
  rw [erased]
  by_cases mine : s.adopter h = g
  · have member : l ∈ (Finset.range s.locks).filter fun i => s.Holds i g :=
      Finset.mem_filter.2 ⟨Finset.mem_range.2 made, h, held, mine⟩
    have some_held := Finset.card_pos.2 ⟨l, member⟩
    rw [if_pos mine, Finset.card_erase_of_mem member]
    omega
  · have absent : l ∉ (Finset.range s.locks).filter fun i => s.Holds i g := by
      intro member
      obtain ⟨h', held', forwards⟩ := (Finset.mem_filter.1 member).2
      rw [held] at held'
      exact mine (Option.some.inj held' ▸ forwards)
    rw [if_neg mine, Finset.erase_eq_of_notMem absent]
    rfl

/-- The locks of a section that is done count at its parent. -/
theorem reparent_adopter (counted : Counted s) {c : Nat} (section_ : 0 < c) (stays : s.isReparented c = false)
    (h : Nat) : (s.reparent c).adopter h = if s.adopter h = c then s.parentAsInputGate c else s.adopter h := by
  refine heir_leave counted.below (counted.older c section_) stays (fun x => ?_) h
  simp only [isReparented, InputGates.reparent]
  by_cases mine : x = c
  · subst mine
    simp [section_]
  · simp [Function.update_of_ne mine, mine]

theorem reparent_outstanding (counted : Counted s) {c : Nat} (section_ : 0 < c) (stays : s.isReparented c = false)
    (g : Nat) : (s.reparent c).outstanding g =
      if g = c then 0
      else if g = s.parentAsInputGate c then s.outstanding g + s.outstanding c else s.outstanding g := by
  have other : s.parentAsInputGate c ≠ c := Nat.ne_of_lt (parent_lt counted section_)
  have holds : ∀ l, (s.reparent c).Holds l g ↔
      g ≠ c ∧ (s.Holds l g ∨ g = s.parentAsInputGate c ∧ s.Holds l c) := by
    intro l
    unfold Holds
    change (∃ h, s.gateOf l = some h ∧ (s.reparent c).adopter h = g) ↔ _
    constructor
    · rintro ⟨h, held, forwards⟩
      rw [reparent_adopter counted section_ stays] at forwards
      by_cases mine : s.adopter h = c
      · rw [if_pos mine] at forwards
        exact ⟨forwards ▸ other, .inr ⟨forwards.symm, h, held, mine⟩⟩
      · rw [if_neg mine] at forwards
        exact ⟨forwards ▸ mine, .inl ⟨h, held, forwards⟩⟩
    · rintro ⟨apart, ⟨h, held, forwards⟩ | ⟨target, h, held, forwards⟩⟩
      · refine ⟨h, held, ?_⟩
        rw [reparent_adopter counted section_ stays, forwards, if_neg apart]
      · refine ⟨h, held, ?_⟩
        rw [reparent_adopter counted section_ stays, if_pos forwards, target]
  change ((Finset.range s.locks).filter fun l => (s.reparent c).Holds l g).card = _
  simp only [holds]
  by_cases mine : g = c
  · simp [mine]
  · by_cases target : g = s.parentAsInputGate c
    · subst target
      simp only [ne_eq, mine, not_false_eq_true, true_and, if_false, if_true]
      rw [Finset.filter_or, Finset.card_union_of_disjoint]
      · rfl
      · rw [Finset.disjoint_filter]
        rintro l _ ⟨h, held, forwards⟩ ⟨h', held', forwards'⟩
        rw [held] at held'
        rw [← Option.some.inj held', forwards] at forwards'
        exact other forwards'
    · simp only [ne_eq, mine, not_false_eq_true, true_and, target, false_and, or_false, if_false]
      rfl

end Counts

section Waiters

variable {s : InputGates} {w : Nat} {status : WaitStatus}

/-- A call that is not linked settles otherwise. -/
theorem Queued.settle (queued : Queued s) (free : ¬ (s.wait w).Linked) (out : ¬ status.Linked) (made : w < s.waits) :
    Queued (s.settle w status) := by
  refine ⟨?_, ?_, queued.waitersNodup, queued.childrenNodup, ?_⟩
  · intro g x
    rw [show (s.settle w status).waiters = s.waiters from rfl, queued.waiter]
    by_cases mine : x = w
    · subst mine
      simp only [InputGates.settle, Function.update_self]
      exact ⟨fun linked => absurd ⟨g, none, linked⟩ free, fun linked => absurd ⟨g, none, linked⟩ out⟩
    · simp only [InputGates.settle, Function.update_of_ne mine]
  · intro g x
    rw [show (s.settle w status).waitingChildren = s.waitingChildren from rfl, queued.child]
    by_cases mine : x = w
    · subst mine
      simp only [InputGates.settle, Function.update_self]
      exact ⟨fun ⟨c, linked⟩ => absurd ⟨g, some c, linked⟩ free, fun ⟨c, linked⟩ => absurd ⟨g, some c, linked⟩ out⟩
    · simp only [InputGates.settle, Function.update_of_ne mine]
  · intro x later
    change s.waits ≤ x at later
    simp only [InputGates.settle, Function.update_of_ne (show x ≠ w by omega)]
    exact queued.later x later

/-- A call leaves the list it is in, if it is in one. -/
theorem Queued.leave (queued : Queued s) (out : ¬ status.Linked) (made : w < s.waits) :
    Queued ((s.unlink w).settle w status) := by
  unfold unlink
  split
  · rename_i g c linked
    have gone : ∀ g', w ∉ (Function.update s.waitingChildren g ((s.waitingChildren g).erase w)) g' := by
      intro g'
      by_cases mine : g' = g
      · subst mine
        rw [Function.update_self]
        exact fun member => ((queued.childrenNodup g').mem_erase_iff.1 member).1 rfl
      · rw [Function.update_of_ne mine, queued.child]
        rintro ⟨c', other⟩
        rw [linked] at other
        cases other
        exact mine rfl
    refine ⟨?_, ?_, queued.waitersNodup, ?_, ?_⟩
    · intro g' x
      by_cases mine : x = w
      · subst mine
        simp only [InputGates.settle, Function.update_self, queued.waiter, linked]
        exact ⟨fun other => (by cases other), fun other => absurd ⟨g', none, other⟩ out⟩
      · simp only [InputGates.settle, Function.update_of_ne mine, queued.waiter]
    · intro g' x
      by_cases mine : x = w
      · subst mine
        simp only [InputGates.settle, Function.update_self]
        exact ⟨fun member => absurd member (gone g'), fun ⟨c', other⟩ => absurd ⟨g', some c', other⟩ out⟩
      · simp only [InputGates.settle, Function.update_of_ne mine, ← queued.child]
        by_cases there : g' = g
        · subst there
          rw [Function.update_self, (queued.childrenNodup g').mem_erase_iff]
          exact ⟨fun both => both.2, fun member => ⟨mine, member⟩⟩
        · rw [Function.update_of_ne there]
    · intro g'
      by_cases there : g' = g
      · subst there
        simp only [InputGates.settle, Function.update_self]
        exact (queued.childrenNodup g').erase w
      · simp only [InputGates.settle, Function.update_of_ne there]
        exact queued.childrenNodup g'
    · intro x later
      change s.waits ≤ x at later
      simp only [InputGates.settle, Function.update_of_ne (show x ≠ w by omega)]
      exact queued.later x later
  · rename_i g linked
    have gone : ∀ g', w ∉ (Function.update s.waiters g ((s.waiters g).erase w)) g' := by
      intro g'
      by_cases mine : g' = g
      · subst mine
        rw [Function.update_self]
        exact fun member => ((queued.waitersNodup g').mem_erase_iff.1 member).1 rfl
      · rw [Function.update_of_ne mine, queued.waiter]
        intro other
        rw [linked] at other
        cases other
        exact mine rfl
    refine ⟨?_, ?_, ?_, queued.childrenNodup, ?_⟩
    · intro g' x
      by_cases mine : x = w
      · subst mine
        simp only [InputGates.settle, Function.update_self]
        exact ⟨fun member => absurd member (gone g'), fun other => absurd ⟨g', none, other⟩ out⟩
      · simp only [InputGates.settle, Function.update_of_ne mine, ← queued.waiter]
        by_cases there : g' = g
        · subst there
          rw [Function.update_self, (queued.waitersNodup g').mem_erase_iff]
          exact ⟨fun both => both.2, fun member => ⟨mine, member⟩⟩
        · rw [Function.update_of_ne there]
    · intro g' x
      by_cases mine : x = w
      · subst mine
        simp only [InputGates.settle, Function.update_self, queued.child, linked]
        exact ⟨fun ⟨_, other⟩ => (by cases other), fun ⟨c', other⟩ => absurd ⟨g', some c', other⟩ out⟩
      · simp only [InputGates.settle, Function.update_of_ne mine, queued.child]
    · intro g'
      by_cases there : g' = g
      · subst there
        simp only [InputGates.settle, Function.update_self]
        exact (queued.waitersNodup g').erase w
      · simp only [InputGates.settle, Function.update_of_ne there]
        exact queued.waitersNodup g'
    · intro x later
      change s.waits ≤ x at later
      simp only [InputGates.settle, Function.update_of_ne (show x ≠ w by omega)]
      exact queued.later x later
  · rename_i none_child none_waiter
    refine queued.settle ?_ out made
    rintro ⟨g, starts, linked⟩
    cases starts with
    | none => exact none_waiter g linked
    | some c => exact none_child g c linked

/-- A call that is not linked joins a list. -/
theorem Queued.join (queued : Queued s) (free : ¬ (s.wait w).Linked) (made : w < s.waits) (g : Nat)
    (starts : Option Nat) : Queued (s.newWaiterPromise g starts w) := by
  have later : ∀ x, s.waits ≤ x → ∃ exception, (s.newWaiterPromise g starts w).wait x = .rejected exception := by
    intro x later
    cases starts <;>
      simp only [newWaiterPromise, InputGates.settle, Function.update_of_ne (show x ≠ w by omega)] <;>
      exact queued.later x later
  cases starts with
  | some c =>
    have absent : w ∉ s.waitingChildren g := fun member =>
      let ⟨c', linked⟩ := (queued.child g w).1 member
      free ⟨g, some c', linked⟩
    refine ⟨?_, ?_, queued.waitersNodup, ?_, later⟩
    · intro g' x
      by_cases mine : x = w
      · subst mine
        simp only [newWaiterPromise, InputGates.settle, Function.update_self, queued.waiter]
        exact ⟨fun linked => absurd ⟨g', none, linked⟩ free, fun other => (by cases other)⟩
      · simp only [newWaiterPromise, InputGates.settle, Function.update_of_ne mine, queued.waiter]
    · intro g' x
      by_cases there : g' = g
      · subst there
        by_cases mine : x = w
        · subst mine
          simp [newWaiterPromise, InputGates.settle]
        · simp [newWaiterPromise, InputGates.settle, mine, queued.child]
      · by_cases mine : x = w
        · subst mine
          simp only [newWaiterPromise, InputGates.settle, Function.update_of_ne there, Function.update_self, queued.child]
          refine ⟨fun ⟨c', linked⟩ => absurd ⟨g', some c', linked⟩ free, fun ⟨c', other⟩ => ?_⟩
          cases other
          exact absurd rfl there
        · simp only [newWaiterPromise, InputGates.settle, Function.update_of_ne there, Function.update_of_ne mine,
            queued.child]
    · intro g'
      by_cases there : g' = g
      · subst there
        simp only [newWaiterPromise, InputGates.settle, Function.update_self]
        rw [List.nodup_append]
        refine ⟨queued.childrenNodup g', by simp, ?_⟩
        rintro x member y new rfl
        exact absent (List.mem_singleton.1 new ▸ member)
      · simp only [newWaiterPromise, InputGates.settle, Function.update_of_ne there]
        exact queued.childrenNodup g'
  | none =>
    have absent : w ∉ s.waiters g := fun member => free ⟨g, none, (queued.waiter g w).1 member⟩
    refine ⟨?_, ?_, ?_, queued.childrenNodup, later⟩
    · intro g' x
      by_cases there : g' = g
      · subst there
        by_cases mine : x = w
        · subst mine
          simp [newWaiterPromise, InputGates.settle]
        · simp [newWaiterPromise, InputGates.settle, mine, queued.waiter]
      · by_cases mine : x = w
        · subst mine
          simp only [newWaiterPromise, InputGates.settle, Function.update_of_ne there, Function.update_self,
            queued.waiter]
          refine ⟨fun linked => absurd ⟨g', none, linked⟩ free, fun other => ?_⟩
          cases other
          exact absurd rfl there
        · simp only [newWaiterPromise, InputGates.settle, Function.update_of_ne there, Function.update_of_ne mine,
            queued.waiter]
    · intro g' x
      by_cases mine : x = w
      · subst mine
        simp only [newWaiterPromise, InputGates.settle, Function.update_self, queued.child]
        exact ⟨fun ⟨c', linked⟩ => absurd ⟨g', some c', linked⟩ free, fun ⟨_, other⟩ => (by cases other)⟩
      · simp only [newWaiterPromise, InputGates.settle, Function.update_of_ne mine, queued.child]
    · intro g'
      by_cases there : g' = g
      · subst there
        simp only [newWaiterPromise, InputGates.settle, Function.update_self]
        rw [List.nodup_append]
        refine ⟨queued.waitersNodup g', by simp, ?_⟩
        rintro x member y new rfl
        exact absent (List.mem_singleton.1 new ▸ member)
      · simp only [newWaiterPromise, InputGates.settle, Function.update_of_ne there]
        exact queued.waitersNodup g'

end Waiters

section Frames

variable {s t : InputGates}

/-- Nothing that the counts depend on differs. -/
structure SameLocks (s t : InputGates) : Prop where
  parent : t.parent = s.parent
  gone : t.isReparented = s.isReparented
  gates : t.gates = s.gates
  gateOf : t.gateOf = s.gateOf
  locks : t.locks = s.locks
  lockCount : t.lockCount = s.lockCount

theorem SameLocks.adopter (same : SameLocks s t) (g : Nat) : t.adopter g = s.adopter g := by
  rw [InputGates.adopter, same.parent, same.gone]
  rfl

theorem SameLocks.outstanding (same : SameLocks s t) (g : Nat) : t.outstanding g = s.outstanding g := by
  have holds : ∀ l, t.Holds l g ↔ s.Holds l g := by
    intro l
    simp only [Holds, same.gateOf, same.adopter]
  unfold InputGates.outstanding
  rw [same.locks]
  simp only [holds]

theorem Counted.same (counted : Counted s) (same : SameLocks s t) : Counted t := by
  refine ⟨?_, ?_, ?_, ?_, ?_, ?_⟩
  · rw [same.parent]
    exact counted.older
  · rw [same.gates, same.gone]
    exact counted.fresh
  · rw [same.gateOf, same.gates]
    exact counted.gate
  · rw [same.gateOf, same.locks]
    exact counted.unmade
  · intro g stays
    rw [same.gone] at stays
    rw [same.lockCount, same.outstanding, counted.counts g stays]
  · rw [same.gone, same.lockCount]
    exact counted.emptied

theorem SameLocks.unlink (s : InputGates) (w : Nat) (status : WaitStatus) :
    SameLocks s ((s.unlink w).settle w status) := by
  unfold InputGates.unlink
  split <;> exact ⟨rfl, rfl, rfl, rfl, rfl, rfl⟩

theorem SameLocks.join (s : InputGates) (g : Nat) (starts : Option Nat) (w : Nat) :
    SameLocks s (s.newWaiterPromise g starts w) := by
  unfold newWaiterPromise
  split <;> exact ⟨rfl, rfl, rfl, rfl, rfl, rfl⟩

theorem unlink_waiters (s : InputGates) (w : Nat) (status : WaitStatus) (g : Nat) :
    (((s.unlink w).settle w status).waiters g).Sublist (s.waiters g) ∧
      (((s.unlink w).settle w status).waitingChildren g).Sublist (s.waitingChildren g) := by
  unfold InputGates.unlink
  split
  · rename_i g' _ _
    refine ⟨List.Sublist.refl _, ?_⟩
    by_cases there : g = g'
    · subst there
      simp only [InputGates.settle, Function.update_self]
      exact List.erase_sublist
    · simp only [InputGates.settle, Function.update_of_ne there]
      exact List.Sublist.refl _
  · rename_i g' _
    refine ⟨?_, List.Sublist.refl _⟩
    by_cases there : g = g'
    · subst there
      simp only [InputGates.settle, Function.update_self]
      exact List.erase_sublist
    · simp only [InputGates.settle, Function.update_of_ne there]
      exact List.Sublist.refl _
  · exact ⟨List.Sublist.refl _, List.Sublist.refl _⟩

theorem IdleAt.unlink {g : Nat} (idle : s.IdleAt g) (w : Nat) (status : WaitStatus) :
    ((s.unlink w).settle w status).IdleAt g := by
  intro free
  rw [(SameLocks.unlink s w status).lockCount] at free
  obtain ⟨none_wait, no_child⟩ := idle free
  obtain ⟨waiters, children⟩ := unlink_waiters s w status g
  rw [none_wait] at waiters
  rw [no_child] at children
  exact ⟨List.sublist_nil.1 waiters, List.sublist_nil.1 children⟩

theorem IdleAt.newLock {g : Nat} (idle : s.IdleAt g) (counted : Counted s) (gate : Nat) (given : Bool) :
    (s.newLock gate given).IdleAt g := by
  intro free
  rw [newLock_lockCount counted] at free
  by_cases mine : g = s.adopter gate
  · subst mine
    simp at free
  · rw [Function.update_of_ne mine] at free
    exact idle free

theorem unlink_wait (s : InputGates) (w : Nat) (status : WaitStatus) (x : Nat) :
    ((s.unlink w).settle w status).wait x = if x = w then status else s.wait x := by
  unfold InputGates.unlink
  split <;> by_cases mine : x = w <;> simp [InputGates.settle, mine]

theorem unlink_state (s : InputGates) (w : Nat) (status : WaitStatus) :
    ((s.unlink w).settle w status).state = s.state ∧ ((s.unlink w).settle w status).gates = s.gates ∧
      ((s.unlink w).settle w status).waits = s.waits := by
  unfold InputGates.unlink
  split <;> exact ⟨rfl, rfl, rfl⟩

/-- Every call starts what it started before, and the sections are where they were. -/
theorem Starting.same (starting : Starting s) (starts : ∀ x, (t.wait x).starts = (s.wait x).starts)
    (state : t.state = s.state) (gates : t.gates = s.gates) : Starting t := by
  refine ⟨fun x c first => ?_, fun x y c first second => ?_⟩
  · rw [starts] at first
    rw [state, gates]
    exact starting.initial x c first
  · rw [starts] at first second
    exact starting.once x y c first second

theorem Queued.made {w : Nat} (queued : Queued s) (linked : (s.wait w).Linked) : w < s.waits := by
  by_contra later
  obtain ⟨exception, rejected⟩ := queued.later w (Nat.le_of_not_lt later)
  obtain ⟨g, starts, linked⟩ := linked
  rw [rejected] at linked
  cases linked

theorem Accounted.unlink {w : Nat} {status : WaitStatus} (accounted : Accounted s) (out : ¬ status.Linked)
    (made : w < s.waits) : Accounted ((s.unlink w).settle w status) :=
  ⟨accounted.queued.leave out made, accounted.counted.same (.unlink s w status),
    fun g => (accounted.idle g).unlink w status⟩

theorem not_linked {status : WaitStatus} (other : ∀ g starts, status ≠ .linked g starts) : ¬ status.Linked := by
  rintro ⟨g, starts, linked⟩
  exact other g starts linked

/-- A call that is not linked settles. -/
theorem Accounted.settle {w : Nat} {status : WaitStatus} (accounted : Accounted s) (free : ¬ (s.wait w).Linked)
    (out : ¬ status.Linked) (made : w < s.waits) : Accounted (s.settle w status) :=
  ⟨accounted.queued.settle free out made, accounted.counted.same ⟨rfl, rfl, rfl, rfl, rfl, rfl⟩, accounted.idle⟩

theorem Accounted.reject (accounted : Accounted s) (w : Nat) (exception : GateException) :
    Accounted (s.reject w exception) := by
  unfold InputGates.reject
  split
  · rename_i g c linked
    exact accounted.unlink (not_linked fun _ _ => by simp) (accounted.queued.made ⟨g, _, linked⟩)
  · rename_i g linked
    exact accounted.unlink (not_linked fun _ _ => by simp) (accounted.queued.made ⟨g, _, linked⟩)
  · exact accounted

theorem Accounted.rejects (exception : GateException) (ws : List Nat) {s : InputGates} (accounted : Accounted s) :
    Accounted (ws.foldl (fun s w => s.reject w exception) s) := by
  induction ws generalizing s with
  | nil => exact accounted
  | cons w rest ih => exact ih (accounted.reject w exception)

theorem Accounted.setBroken (accounted : Accounted s) (gate : Nat) (exception : GateException) :
    Accounted (s.setBroken gate exception) := by
  obtain ⟨queued, counted, idle⟩ := Accounted.rejects exception
    (((s.waitingChildren gate).foldl (fun s w => s.reject w exception) s).waiters gate)
    (accounted.rejects exception (s.waitingChildren gate))
  exact ⟨{ queued with }, counted.same ⟨rfl, rfl, rfl, rfl, rfl, rfl⟩, idle⟩

/-- What a step leaves alone of the sections, the locks and the calls that are not linked. -/
structure Settles (s t : InputGates) : Prop where
  state : t.state = s.state
  parent : t.parent = s.parent
  gates : t.gates = s.gates
  waits : t.waits = s.waits
  locks : t.locks = s.locks
  gateOf : t.gateOf = s.gateOf
  given : t.given = s.given
  parentLock : t.parentLock = s.parentLock
  starts : ∀ x, (t.wait x).starts = (s.wait x).starts
  free : ∀ x, ¬ (s.wait x).Linked → t.wait x = s.wait x
  granted : ∀ x c l, t.wait x = .granted c l → s.wait x = .granted c l
  linked : ∀ x g c, t.wait x = .linked g c → s.wait x = .linked g c

theorem Settles.refl (s : InputGates) : Settles s s :=
  ⟨rfl, rfl, rfl, rfl, rfl, rfl, rfl, rfl, fun _ => rfl, fun _ _ => rfl, fun _ _ _ => id, fun _ _ _ => id⟩

theorem Settles.trans {u : InputGates} (first : Settles s t) (second : Settles t u) : Settles s u := by
  refine ⟨second.state.trans first.state, second.parent.trans first.parent, second.gates.trans first.gates,
    second.waits.trans first.waits, second.locks.trans first.locks, second.gateOf.trans first.gateOf,
    second.given.trans first.given, second.parentLock.trans first.parentLock,
    fun x => (second.starts x).trans (first.starts x), fun x free => ?_,
    fun x c l granted => first.granted x c l (second.granted x c l granted),
    fun x g c linked => first.linked x g c (second.linked x g c linked)⟩
  have same := first.free x free
  exact (second.free x (same ▸ free)).trans same

theorem Settles.unlink {w : Nat} {status : WaitStatus} (linked : (s.wait w).Linked)
    (starts : status.starts = (s.wait w).starts) (refused : ∀ c l, status ≠ .granted c l) (out : ¬ status.Linked) :
    Settles s ((s.unlink w).settle w status) := by
  obtain ⟨state, gates, waits⟩ := unlink_state s w status
  have same := SameLocks.unlink s w status
  have locks : ((s.unlink w).settle w status).given = s.given ∧
      ((s.unlink w).settle w status).parentLock = s.parentLock := by
    unfold InputGates.unlink
    split <;> exact ⟨rfl, rfl⟩
  refine ⟨state, same.parent, gates, waits, same.locks, same.gateOf, locks.1, locks.2, fun x => ?_, fun x free => ?_,
    fun x c l granted => ?_, fun x g c there => ?_⟩
  · rw [unlink_wait]
    split
    · rename_i mine
      rw [mine, starts]
    · rfl
  · rw [unlink_wait, if_neg]
    rintro rfl
    exact free linked
  · rw [unlink_wait] at granted
    split at granted
    · exact absurd granted (refused c l)
    · exact granted
  · rw [unlink_wait] at there
    split at there
    · exact absurd ⟨g, c, there⟩ out
    · exact there

theorem Settles.reject (s : InputGates) (w : Nat) (exception : GateException) : Settles s (s.reject w exception) := by
  unfold InputGates.reject
  split
  · rename_i g c linked
    exact .unlink ⟨g, _, linked⟩ (by rw [linked]; rfl) (fun _ _ => by simp) (not_linked fun _ _ => by simp)
  · rename_i g linked
    exact .unlink ⟨g, _, linked⟩ (by rw [linked]; rfl) (fun _ _ => by simp) (not_linked fun _ _ => by simp)
  · exact .refl s

theorem Settles.rejects (exception : GateException) (ws : List Nat) (s : InputGates) :
    Settles s (ws.foldl (fun s w => s.reject w exception) s) := by
  induction ws generalizing s with
  | nil => exact .refl s
  | cons w rest ih => exact (Settles.reject s w exception).trans (ih _)

theorem Settles.setBroken (s : InputGates) (gate : Nat) (exception : GateException) :
    Settles s (s.setBroken gate exception) := by
  have done := (Settles.rejects exception (s.waitingChildren gate) s).trans
    (.rejects exception (((s.waitingChildren gate).foldl (fun s w => s.reject w exception) s).waiters gate) _)
  exact { done with }

theorem Starting.settles (starting : Starting s) (settles : Settles s t) : Starting t :=
  starting.same settles.starts settles.state settles.gates

theorem Settles.failed (s : InputGates) (fuel c : Nat) (exception : GateException) :
    Settles s (s.failed fuel c exception) := by
  induction fuel generalizing s c with
  | zero =>
    unfold InputGates.failed
    dsimp only
    split
    · exact .refl s
    · split
      · exact (Settles.setBroken s c exception).trans (.setBroken _ 0 exception)
      · exact .setBroken s c exception
  | succ fuel ih =>
    unfold InputGates.failed
    dsimp only
    split
    · exact .refl s
    · split
      · exact (Settles.setBroken s c exception).trans (.setBroken _ 0 exception)
      · exact (Settles.setBroken s c exception).trans (ih _ _)

theorem Accounted.failed (accounted : Accounted s) (fuel c : Nat) (exception : GateException) :
    Accounted (s.failed fuel c exception) := by
  induction fuel generalizing s c with
  | zero =>
    unfold InputGates.failed
    dsimp only
    split
    · exact accounted
    · split
      · exact (accounted.setBroken c exception).setBroken 0 exception
      · exact accounted.setBroken c exception
  | succ fuel ih =>
    unfold InputGates.failed
    dsimp only
    split
    · exact accounted
    · split
      · exact (accounted.setBroken c exception).setBroken 0 exception
      · exact ih (accounted.setBroken c exception) _

theorem Accounted.abort (accounted : Accounted s) (w : Nat) : Accounted (s.abort w) := by
  have flagged : Accounted { s with aborted := Function.update s.aborted w true } :=
    ⟨{ accounted.queued with }, accounted.counted.same ⟨rfl, rfl, rfl, rfl, rfl, rfl⟩, accounted.idle⟩
  exact flagged.reject w .canceled

theorem Settles.abort (s : InputGates) (w : Nat) : Settles s (s.abort w) := by
  have flagged : Settles s { s with aborted := Function.update s.aborted w true } :=
    ⟨rfl, rfl, rfl, rfl, rfl, rfl, rfl, rfl, fun _ => rfl, fun _ _ => rfl, fun _ _ _ => id,
      fun _ _ _ => id⟩
  exact flagged.trans (.reject _ w .canceled)

/-- What `InputGate.wait` does to the promise of the call, and to nothing else of its kind. -/
theorem gateWait_wait (s : InputGates) (gate w : Nat) (aborted : Bool) :
    (∀ x, x ≠ w → (s.gateWait gate w aborted).wait x = s.wait x) ∧
      ((s.gateWait gate w aborted).wait w).starts = none := by
  unfold gateWait
  split
  · exact ⟨fun x other => by simp [InputGates.settle, other], by simp [InputGates.settle, WaitStatus.starts]⟩
  · split
    · exact ⟨fun x other => by simp [InputGates.settle, other], by simp [InputGates.settle, WaitStatus.starts]⟩
    · split
      · exact ⟨fun x other => by simp [InputGates.settle, newLock, other],
          by simp [InputGates.settle, WaitStatus.starts]⟩
      · exact ⟨fun x other => by simp [newWaiterPromise, InputGates.settle, other],
          by simp [newWaiterPromise, InputGates.settle, WaitStatus.starts]⟩

theorem gateWait_rest (s : InputGates) (gate w : Nat) (aborted : Bool) :
    (s.gateWait gate w aborted).state = s.state ∧ (s.gateWait gate w aborted).gates = s.gates ∧
      (s.gateWait gate w aborted).waits = s.waits := by
  unfold gateWait
  split
  · exact ⟨rfl, rfl, rfl⟩
  · split
    · exact ⟨rfl, rfl, rfl⟩
    · split <;> exact ⟨rfl, rfl, rfl⟩

/-- The first `wait` of a section is over, or the call never was one. -/
theorem Starting.finish {w c : Nat} (starting : Starting s) (only : ∀ x, (s.wait x).starts = some c → x = w)
    (state : ∀ c', c' ≠ c → t.state c' = s.state c') (gates : s.gates ≤ t.gates)
    (rest : ∀ x, x ≠ w → (t.wait x).starts = (s.wait x).starts) (done : (t.wait w).starts = none) : Starting t := by
  have before : ∀ x c', (t.wait x).starts = some c' → x ≠ w ∧ (s.wait x).starts = some c' := by
    intro x c' starts
    have other : x ≠ w := by
      rintro rfl
      rw [done] at starts
      cases starts
    exact ⟨other, rest x other ▸ starts⟩
  refine ⟨fun x c' starts => ?_, fun x y c' first second => ?_⟩
  · obtain ⟨other, starts⟩ := before x c' starts
    obtain ⟨initial, made⟩ := starting.initial x c' starts
    have apart : c' ≠ c := by
      rintro rfl
      exact other (only x starts)
    exact ⟨(state c' apart).trans initial, Nat.lt_of_lt_of_le made gates⟩
  · exact starting.once x y c' (before x c' first).2 (before y c' second).2

theorem Queued.gateWait {gate w : Nat} (queued : Queued s) (free : ¬ (s.wait w).Linked) (made : w < s.waits)
    (aborted : Bool) : Queued (s.gateWait gate w aborted) := by
  unfold InputGates.gateWait
  split
  · exact queued.settle free (not_linked fun _ _ => by simp) made
  · split
    · exact queued.settle free (not_linked fun _ _ => by simp) made
    · split
      · have locked : Queued (s.newLock gate true) := { queued with }
        exact locked.settle free (not_linked fun _ _ => by simp) made
      · exact queued.join free made gate none

theorem SameLocks.settle (s : InputGates) (w : Nat) (status : WaitStatus) : SameLocks s (s.settle w status) :=
  ⟨rfl, rfl, rfl, rfl, rfl, rfl⟩

theorem Counted.gateWait {gate w : Nat} (counted : Counted s) (known : gate < s.gates) (aborted : Bool) :
    Counted (s.gateWait gate w aborted) := by
  unfold InputGates.gateWait
  split
  · exact counted.same (.settle s w _)
  · split
    · exact counted.same (.settle s w _)
    · split
      · exact (counted.newLock known true).same (.settle _ w _)
      · exact counted.same (.join s gate none w)

theorem IdleAt.join {g gate w : Nat} {starts : Option Nat} (idle : s.IdleAt g) (busy : s.lockCount gate ≠ 0) :
    (s.newWaiterPromise gate starts w).IdleAt g := by
  intro free
  rw [(SameLocks.join s gate starts w).lockCount] at free
  have other : g ≠ gate := fun same => busy (same ▸ free)
  obtain ⟨waiters, children⟩ := idle free
  unfold newWaiterPromise
  split <;> simp only [InputGates.settle, Function.update_of_ne other] <;> exact ⟨waiters, children⟩

theorem IdleAt.gateWait {g gate w : Nat} (idle : s.IdleAt g) (counted : Counted s) (aborted : Bool) :
    (s.gateWait gate w aborted).IdleAt g := by
  unfold InputGates.gateWait
  split
  · exact idle
  · split
    · exact idle
    · split
      · exact idle.newLock counted gate true
      · rename_i busy
        exact idle.join busy

theorem Accounted.gateWait {gate w : Nat} (accounted : Accounted s) (free : ¬ (s.wait w).Linked) (made : w < s.waits)
    (known : gate < s.gates) (aborted : Bool) : Accounted (s.gateWait gate w aborted) :=
  ⟨accounted.queued.gateWait free made aborted, accounted.counted.gateWait known aborted,
    fun g => (accounted.idle g).gateWait accounted.counted aborted⟩

theorem Starting.gateWait {gate w : Nat} (starting : Starting s) (ended : (s.wait w).starts = none) (aborted : Bool) :
    Starting (s.gateWait gate w aborted) := by
  obtain ⟨others, mine⟩ := gateWait_wait s gate w aborted
  obtain ⟨state, gates, _⟩ := gateWait_rest s gate w aborted
  refine starting.same (fun x => ?_) state gates
  by_cases same : x = w
  · rw [same, mine, ended]
  · rw [others x same]

/-- A section that has not come to be reparented changes its state otherwise. -/
theorem SameLocks.setState {c : Nat} {state : SectionState} (stays : s.state c ≠ .reparented)
    (out : state ≠ .reparented) (parentLock : Nat → Option Nat) :
    SameLocks s { s with state := Function.update s.state c state, parentLock } := by
  refine ⟨rfl, ?_, rfl, rfl, rfl, rfl⟩
  funext g
  by_cases same : g = c
  · subst same
    simp [isReparented, stays, out]
  · simp [isReparented, Function.update_of_ne same]

theorem Accounted.setState {c : Nat} {state : SectionState} (accounted : Accounted s) (stays : s.state c ≠ .reparented)
    (out : state ≠ .reparented) (parentLock : Nat → Option Nat) :
    Accounted { s with state := Function.update s.state c state, parentLock } :=
  ⟨{ accounted.queued with }, accounted.counted.same (.setState stays out parentLock), accounted.idle⟩

theorem Accounted.enter {c lock w : Nat} (accounted : Accounted s) (free : ¬ (s.wait w).Linked) (made : w < s.waits)
    (initial : s.state c = .initialWait) (known : c < s.gates) (aborted : Bool) :
    Accounted (s.enter c lock w aborted) := by
  have entered := accounted.setState (c := c) (by simp [initial]) (show SectionState.running ≠ .reparented by simp)
    (Function.update s.parentLock c (some lock))
  exact entered.gateWait free made known aborted

theorem Starting.enter {c lock w : Nat} (starting : Starting s) (only : ∀ x, (s.wait x).starts = some c → x = w)
    (aborted : Bool) : Starting (s.enter c lock w aborted) := by
  obtain ⟨others, mine⟩ := gateWait_wait { s with
      state := Function.update s.state c .running
      parentLock := Function.update s.parentLock c (some lock) } c w aborted
  obtain ⟨state, gates, _⟩ := gateWait_rest { s with
      state := Function.update s.state c .running
      parentLock := Function.update s.parentLock c (some lock) } c w aborted
  refine starting.finish only ?_ (Nat.le_of_eq gates.symm) (fun x other => by rw [InputGates.enter, others x other])
    mine
  intro c' apart
  rw [InputGates.enter, state]
  exact Function.update_of_ne apart _ _

end Frames

section Waits

variable {s : InputGates}

theorem not_linked_of_rejected {status : WaitStatus} {exception : GateException}
    (rejected : status = .rejected exception) : ¬ status.Linked ∧ status.starts = none := by
  subst rejected
  exact ⟨not_linked fun _ _ => by simp, rfl⟩

/-- The call makes no section wait, and what it does is not yet known. -/
structure Idle (s : InputGates) (w : Nat) : Prop where
  made : w < s.waits
  free : ¬ (s.wait w).Linked
  ended : (s.wait w).starts = none

theorem Settles.idle {t : InputGates} {w : Nat} (settles : Settles s t) (idle : s.Idle w) : t.Idle w := by
  have same := settles.free w idle.free
  exact ⟨settles.waits ▸ idle.made, same ▸ idle.free, same ▸ idle.ended⟩

def withState (s : InputGates) (c : Nat) (state : SectionState) : InputGates :=
  { s with state := Function.update s.state c state }

/-- A section whose first `wait` begins. -/
theorem Starting.begin (starting : Starting s) {c : Nat} (fresh : s.state c = .notStarted) :
    Starting (s.withState c .initialWait) ∧ ∀ x, (s.wait x).starts ≠ some c := by
  have nobody : ∀ x, (s.wait x).starts ≠ some c := by
    intro x starts
    have initial := (starting.initial x c starts).1
    simp [fresh] at initial
  refine ⟨⟨fun x c' starts => ?_, starting.once⟩, nobody⟩
  obtain ⟨initial, made⟩ := starting.initial x c' starts
  refine ⟨?_, made⟩
  have apart : c' ≠ c := by
    rintro rfl
    exact nobody x starts
  simpa [withState, apart] using initial

theorem settle_starts (s : InputGates) {w : Nat} {status : WaitStatus} (same : status.starts = (s.wait w).starts)
    (x : Nat) : ((s.settle w status).wait x).starts = (s.wait x).starts := by
  by_cases mine : x = w
  · subst mine
    simpa [settle] using same
  · simp [settle, mine]

/-- The first `wait` of a section, from its change of state on. -/
def begin (s : InputGates) (c w : Nat) : InputGates :=
  match s.brokenState (s.parentAsInputGate c) with
  | some exception => (s.setBroken c exception).settle w (.rejected exception)
  | none =>
    if s.lockCount (s.parentAsInputGate c) = 0 then
      (s.newLock (s.parentAsInputGate c) false).enter c s.locks w false
    else s.newWaiterPromise (s.parentAsInputGate c) (some c) w

theorem start_eq (s : InputGates) (c w : Nat) : s.start c w = (s.withState c .initialWait).begin c w := rfl

theorem Counted.parent_known (counted : Counted s) {c : Nat} (first : 0 < c) (known : c < s.gates) :
    s.parentAsInputGate c < s.gates := Nat.lt_trans (parent_lt counted first) known

theorem begin_kept {c w : Nat} (accounted : Accounted s) (starting : Starting s) (idle : s.Idle w) (first : 0 < c)
    (known : c < s.gates) (initial : s.state c = .initialWait) (nobody : ∀ x, (s.wait x).starts ≠ some c) :
    Accounted (s.begin c w) ∧ Starting (s.begin c w) := by
  unfold begin
  split
  · rename_i exception broken
    have settles := Settles.setBroken s c exception
    have idle' := settles.idle idle
    refine ⟨(accounted.setBroken c exception).settle idle'.free (not_linked fun _ _ => by simp) idle'.made, ?_⟩
    exact (starting.settles settles).same (settle_starts _ (by rw [idle'.ended]; rfl)) rfl rfl
  · have target := accounted.counted.parent_known first known
    split
    · have locked : Accounted (s.newLock (s.parentAsInputGate c) false) :=
        ⟨{ accounted.queued with }, accounted.counted.newLock target false,
          fun g => (accounted.idle g).newLock accounted.counted _ false⟩
      have same : Starting (s.newLock (s.parentAsInputGate c) false) := starting.same (fun _ => rfl) rfl rfl
      exact ⟨locked.enter idle.free idle.made initial known false, same.enter (fun x starts => absurd starts (nobody x)) false⟩
    · rename_i busy
      refine ⟨⟨accounted.queued.join idle.free idle.made _ _, accounted.counted.same (.join s _ _ w),
        fun g => (accounted.idle g).join busy⟩, ?_⟩
      have status : ∀ x, (s.newWaiterPromise (s.parentAsInputGate c) (some c) w).wait x =
          if x = w then .linked (s.parentAsInputGate c) (some c) else s.wait x := by
        intro x
        by_cases mine : x = w <;> simp [newWaiterPromise, settle, mine]
      refine ⟨fun x c' starts => ?_, fun x y c' starts starts' => ?_⟩
      · change s.state c' = _ ∧ c' < s.gates
        rw [status] at starts
        split at starts
        · cases starts
          exact ⟨initial, known⟩
        · exact starting.initial x c' starts
      · rw [status] at starts starts'
        split at starts <;> split at starts' <;> rename_i mine mine'
        · rw [mine, mine']
        · cases starts
          exact absurd starts' (nobody y)
        · cases starts'
          exact absurd starts (nobody x)
        · exact starting.once x y c' starts starts'

theorem start_kept {c w : Nat} (accounted : Accounted s) (starting : Starting s) (idle : s.Idle w) (first : 0 < c)
    (known : c < s.gates) (fresh : s.state c = .notStarted) : Accounted (s.start c w) ∧ Starting (s.start c w) := by
  have begun : Accounted (s.withState c .initialWait) :=
    accounted.setState (by simp [fresh]) (by simp) s.parentLock
  obtain ⟨waiting, nobody⟩ := starting.begin fresh
  rw [start_eq]
  exact begin_kept begun waiting ⟨idle.made, idle.free, idle.ended⟩ first known (by simp [withState]) nobody

theorem waitOn_kept {gate w : Nat} (accounted : Accounted s) (starting : Starting s) (idle : s.Idle w)
    (known : gate < s.gates) (fuel : Nat) (aborted : Bool) :
    Accounted (s.waitOn fuel gate w aborted) ∧ Starting (s.waitOn fuel gate w aborted) := by
  have rejected : ∀ exception, Accounted (s.settle w (.rejected exception)) ∧
      Starting (s.settle w (.rejected exception)) := fun exception =>
    ⟨accounted.settle idle.free (not_linked fun _ _ => by simp) idle.made,
      starting.same (settle_starts _ (by rw [idle.ended]; rfl)) rfl rfl⟩
  have waited : ∀ gate < s.gates, Accounted (s.gateWait gate w aborted) ∧ Starting (s.gateWait gate w aborted) :=
    fun gate known =>
      ⟨accounted.gateWait idle.free idle.made known aborted, starting.gateWait idle.ended aborted⟩
  induction gate using Nat.strong_induction_on generalizing fuel with
  | _ gate ih =>
    unfold InputGates.waitOn
    split
    · rename_i root
      exact waited 0 (root ▸ known)
    · rename_i section_
      have first := Nat.pos_of_ne_zero section_
      split
      · exact rejected _
      · split
        · rename_i fresh
          exact start_kept accounted starting idle first known fresh
        · exact rejected _
        · exact waited gate known
        · cases fuel with
          | zero => exact ⟨accounted, starting⟩
          | succ fuel =>
            have below := accounted.counted.older gate first
            exact ih _ below (Nat.lt_trans below known) fuel

theorem resume_kept {w : Nat} (accounted : Accounted s) (starting : Starting s) (made : w < s.waits) :
    Accounted (s.resume w) ∧ Starting (s.resume w) := by
  unfold resume
  split
  · rename_i c lock status
    have starts : (s.wait w).starts = some c := by rw [status]; rfl
    obtain ⟨initial, known⟩ := starting.initial w c starts
    have free : ¬ (s.wait w).Linked := not_linked fun _ _ => by simp [status]
    exact ⟨accounted.enter free made initial known _,
      starting.enter (fun x other => starting.once x w c other starts) _⟩
  · rename_i c status
    have free : ¬ (s.wait w).Linked := not_linked fun _ _ => by simp [status]
    have starts : (s.wait w).starts = some c := by rw [status]; rfl
    refine ⟨accounted.settle free (not_linked fun _ _ => by simp) made, ?_⟩
    refine starting.finish (w := w) (c := c) (fun x other => starting.once x w c other starts) (fun _ _ => rfl)
      (Nat.le_refl _) (fun x other => by simp [settle, other]) (by simp [settle, WaitStatus.starts])
  · rename_i c exception other status
    have free : ¬ (s.wait w).Linked := not_linked fun _ _ => by simp [status]
    have starts : (s.wait w).starts = some c := by rw [status]; rfl
    obtain ⟨initial, known⟩ := starting.initial w c starts
    have running : Accounted (s.withState c .running) := accounted.setState (by simp [initial]) (by simp) s.parentLock
    have settles := Settles.setBroken (s.withState c .running) c exception
    have same := settles.free w free
    have broken := running.setBroken c exception
    refine ⟨broken.settle (same ▸ free) (not_linked fun _ _ => by simp) (settles.waits ▸ made), ?_⟩
    refine starting.finish (w := w) (c := c) (fun x other => starting.once x w c other starts) ?_
      (Nat.le_of_eq settles.gates.symm) ?_ (by simp [settle, WaitStatus.starts])
    · intro c' apart
      change ((s.withState c .running).setBroken c exception).state c' = _
      rw [settles.state]
      simp [withState, apart]
    · intro x apart
      change ((((s.withState c .running).setBroken c exception).settle w _).wait x).starts = _
      rw [show (((s.withState c .running).setBroken c exception).settle w (.rejected exception)).wait x =
        ((s.withState c .running).setBroken c exception).wait x by simp [settle, apart], settles.starts]
      rfl
  · exact ⟨accounted, starting⟩

theorem call_kept {gate : Nat} (accounted : Accounted s) (starting : Starting s) (known : gate < s.gates)
    (aborted : Bool) : Accounted (s.call gate aborted) ∧ Starting (s.call gate aborted) := by
  obtain ⟨exception, rejected⟩ := accounted.queued.later s.waits (Nat.le_refl _)
  obtain ⟨free, ended⟩ := not_linked_of_rejected rejected
  have queued : Queued { s with
      asked := Function.update s.asked s.waits gate
      aborted := Function.update s.aborted s.waits aborted
      waits := s.waits + 1 } :=
    ⟨accounted.queued.waiter, accounted.queued.child, accounted.queued.waitersNodup, accounted.queued.childrenNodup,
      fun w later => accounted.queued.later w (Nat.le_of_succ_le later)⟩
  have asked : Accounted { s with
      asked := Function.update s.asked s.waits gate
      aborted := Function.update s.aborted s.waits aborted
      waits := s.waits + 1 } :=
    ⟨queued, accounted.counted.same ⟨rfl, rfl, rfl, rfl, rfl, rfl⟩, accounted.idle⟩
  exact waitOn_kept asked { starting with } ⟨Nat.lt_succ_self _, free, ended⟩ known gate aborted

end Waits

section Locks

variable {s : InputGates}

theorem fulfill_child {gate child c lock : Nat} (linked : s.wait child = .linked gate (some c)) :
    s.fulfill child lock = (s.unlink child).settle child (.granted c lock) := by
  simp [fulfill, linked]

theorem fulfill_waiter {gate waiter lock : Nat} (linked : s.wait waiter = .linked gate none) :
    s.fulfill waiter lock = (s.unlink waiter).settle waiter (.resolved lock) := by
  simp [fulfill, linked]

/-- A gate that has just come free goes to the next in line, if there is one. -/
theorem grantNext_kept {gate : Nat} (queued : Queued s) (counted : Counted s) (starting : Starting s)
    (known : gate < s.gates) (stays : s.isReparented gate = false) (idle : ∀ g, g ≠ gate → s.IdleAt g) :
    Accounted (s.grantNext gate) ∧ Starting (s.grantNext gate) := by
  have granted : ∀ w status given, ¬ status.Linked → status.starts = (s.wait w).starts → (s.wait w).Linked →
      Accounted (((s.newLock gate given).unlink w).settle w status) ∧
        Starting (((s.newLock gate given).unlink w).settle w status) := by
    intro w status given out starts linked
    have locked : Queued (s.newLock gate given) := { queued with }
    have counts := counted.newLock known given
    refine ⟨⟨locked.leave out (queued.made linked), counts.same (.unlink _ w status), fun g => ?_⟩, ?_⟩
    · by_cases mine : g = gate
      · intro free
        rw [(SameLocks.unlink _ w status).lockCount, newLock_lockCount counted, adopter_of_stays stays, mine,
          Function.update_self] at free
        exact absurd free (Nat.succ_ne_zero _)
      · exact ((idle g mine).newLock counted gate given).unlink w status
    · obtain ⟨state, gates, _⟩ := unlink_state (s.newLock gate given) w status
      refine starting.same (fun x => ?_) state gates
      rw [unlink_wait]
      split
      · rename_i mine
        rw [mine, starts]
      · rfl
  unfold grantNext
  split
  · rename_i child rest children
    obtain ⟨c, linked⟩ := (queued.child gate child).1 (by simp [children])
    rw [fulfill_child (s := s.newLock gate false) linked]
    exact granted child _ false (not_linked fun _ _ => by simp) (by rw [linked]; rfl) ⟨gate, _, linked⟩
  · rename_i children
    split
    · rename_i waiter rest waiters
      have linked := (queued.waiter gate waiter).1 (by simp [waiters])
      rw [fulfill_waiter (s := s.newLock gate true) linked]
      exact granted waiter _ true (not_linked fun _ _ => by simp) (by rw [linked]; rfl) ⟨gate, _, linked⟩
    · rename_i waiters
      refine ⟨⟨queued, counted, fun g => ?_⟩, starting⟩
      by_cases mine : g = gate
      · exact fun _ => mine ▸ ⟨waiters, children⟩
      · exact idle g mine

/-- A lock released, and no longer counted at a gate. -/
def unlock (s : InputGates) (l gate : Nat) : InputGates :=
  { s with
    gateOf := Function.update s.gateOf l none
    lockCount := Function.update s.lockCount gate (s.lockCount gate - 1) }

def freed (s : InputGates) (l gate : Nat) : InputGates :=
  if (s.unlock l gate).lockCount gate = 0 then (s.unlock l gate).grantNext gate else s.unlock l gate

theorem Accounted.locked {l h : Nat} (accounted : Accounted s) (held : s.gateOf l = some h) :
    s.lockCount (s.adopter h) ≠ 0 := by
  have counted := accounted.counted
  rw [counted.counts _ (counted.adopter_stays h)]
  have one := without_outstanding counted held (s.adopter h)
  rw [if_pos rfl] at one
  omega

theorem release_run {l h : Nat} (accounted : Accounted s) (held : s.gateOf l = some h) :
    release l s = (.ok (), s.freed l (s.adopter h)) := by
  have counted := accounted.counted
  have busy := accounted.locked held
  have opened : ∀ gate, s.lockCount gate ≠ 0 → releaseOpen gate (s.without l) = (.ok (), s.freed l gate) := by
    intro gate busy
    have busy' : (s.without l).lockCount gate ≠ 0 := busy
    unfold releaseOpen
    rw [state_bind, if_neg busy']
    rfl
  unfold release
  rw [state_bind]
  simp only [held, update_bind]
  change releaseLock h (s.without l) = _
  unfold releaseLock
  rw [state_bind]
  by_cases gone : s.isReparented h
  · have empty := accounted.idle h (counted.emptied h gone)
    have still : ¬ ((s.without l).waitingChildren h ≠ [] ∨ (s.without l).waiters h ≠ [] ∨ (s.without l).lockCount h ≠ 0) := by
      rintro (child | waiter | count)
      · exact child empty.2
      · exact waiter empty.1
      · exact count (counted.emptied h gone)
    have gone' : (s.without l).isReparented h = true := gone
    have target : s.adopter h = s.parentAsInputGate h := heir_of_gone counted.below gone
    rw [if_pos gone', if_neg still]
    exact target ▸ opened _ busy
  · have gone' : ¬ (s.without l).isReparented h = true := gone
    rw [if_neg gone']
    rw [adopter_of_stays (by simpa using gone)] at busy ⊢
    exact opened h busy

theorem Counted.unlock {l h : Nat} (counted : Counted s) (held : s.gateOf l = some h) :
    Counted (s.unlock l (s.adopter h)) := by
  refine ⟨counted.older, counted.fresh, ?_, ?_, ?_, ?_⟩
  · intro i g at_gate
    by_cases same : i = l
    · subst same
      simp [InputGates.unlock] at at_gate
    · simp only [InputGates.unlock, Function.update_of_ne same] at at_gate
      exact counted.gate i g at_gate
  · intro i later
    by_cases same : i = l
    · subst same
      simp [InputGates.unlock]
    · simp only [InputGates.unlock, Function.update_of_ne same]
      exact counted.unmade i later
  · intro g stays
    have count := counted.counts g stays
    have one := without_outstanding counted held g
    change Function.update s.lockCount (s.adopter h) _ g = (s.without l).outstanding g
    by_cases mine : g = s.adopter h
    · rw [if_pos mine.symm] at one
      rw [mine, Function.update_self, ← mine]
      omega
    · rw [if_neg (Ne.symm mine)] at one
      rw [Function.update_of_ne mine]
      omega
  · intro g gone
    have other : g ≠ s.adopter h := by
      rintro rfl
      have stays := counted.adopter_stays h
      change s.isReparented _ = true at gone
      simp [stays] at gone
    change Function.update s.lockCount (s.adopter h) _ g = 0
    rw [Function.update_of_ne other]
    exact counted.emptied g gone

theorem freed_kept {l h : Nat} (accounted : Accounted s) (starting : Starting s) (held : s.gateOf l = some h) :
    Accounted (s.freed l (s.adopter h)) ∧ Starting (s.freed l (s.adopter h)) := by
  have counted := accounted.counted
  have known : s.adopter h < s.gates := Nat.lt_of_le_of_lt (heir_le counted.below h) (counted.gate l h held)
  have unlocked := counted.unlock held
  have idle : ∀ g, g ≠ s.adopter h → (s.unlock l (s.adopter h)).IdleAt g := by
    intro g other free
    change Function.update s.lockCount (s.adopter h) _ g = 0 at free
    rw [Function.update_of_ne other] at free
    exact accounted.idle g free
  unfold freed
  split
  · exact grantNext_kept { accounted.queued with } unlocked { starting with } known (counted.adopter_stays h) idle
  · rename_i still
    refine ⟨⟨{ accounted.queued with }, unlocked, fun g => ?_⟩, { starting with }⟩
    by_cases mine : g = s.adopter h
    · exact fun free => absurd (mine ▸ free) still
    · exact idle g mine

theorem Counted.newSection {parent : Nat} (counted : Counted s) (known : parent < s.gates) :
    Counted (s.newSection parent) := by
  have apart : ∀ g, s.isReparented g = true → g ≠ s.gates := by
    rintro g gone rfl
    simp [counted.fresh s.gates (Nat.le_refl _)] at gone
  have adopter : ∀ g, (s.newSection parent).adopter g = s.adopter g := fun g =>
    heir_congr counted.below (fun x gone => Function.update_of_ne (apart x gone) _ _) g
  have outstanding : ∀ g, (s.newSection parent).outstanding g = s.outstanding g := by
    intro g
    have holds : ∀ l, (s.newSection parent).Holds l g ↔ s.Holds l g := by
      intro l
      simp only [Holds, adopter]
      rfl
    unfold InputGates.outstanding
    simp only [holds]
    rfl
  refine ⟨?_, ?_, ?_, counted.unmade, ?_, counted.emptied⟩
  · intro g first
    change Function.update s.parent s.gates parent g < g
    by_cases mine : g = s.gates
    · rw [mine, Function.update_self]
      exact known
    · rw [Function.update_of_ne mine]
      exact counted.older g first
  · intro g later
    exact counted.fresh g (Nat.le_of_succ_le later)
  · intro l g at_gate
    exact Nat.lt_succ_of_lt (counted.gate l g at_gate)
  · intro g stays
    rw [outstanding]
    exact counted.counts g stays

theorem newSection_kept {parent : Nat} (accounted : Accounted s) (starting : Starting s) (known : parent < s.gates) :
    Accounted (s.newSection parent) ∧ Starting (s.newSection parent) := by
  refine ⟨⟨{ accounted.queued with }, accounted.counted.newSection known, accounted.idle⟩, ?_, starting.once⟩
  intro w c starts
  obtain ⟨initial, made⟩ := starting.initial w c starts
  exact ⟨initial, Nat.lt_succ_of_lt made⟩

end Locks

section Sections

variable {s : InputGates} {c : Nat}

theorem reparent_wait (s : InputGates) (c w : Nat) : (s.reparent c).wait w =
    match s.wait w with
    | .linked g starts =>
      if w ∈ s.waitingChildren c ++ s.waiters c then .linked (s.parentAsInputGate c) starts else .linked g starts
    | status => status := by
  simp only [reparent]
  split <;> simp_all

theorem Queued.moved (queued : Queued s) {g w : Nat} {starts : Option Nat} (linked : s.wait w = .linked g starts) :
    w ∈ s.waitingChildren c ++ s.waiters c ↔ g = c := by
  rw [List.mem_append, queued.child, queued.waiter, linked]
  constructor
  · rintro (⟨_, same⟩ | same) <;> cases same <;> rfl
  · rintro rfl
    cases starts with
    | none => exact .inr rfl
    | some c => exact .inl ⟨c, rfl⟩

/-- Where a call that a section had is once the section is done. -/
theorem Queued.reparent_linked (queued : Queued s) (w g : Nat) (starts : Option Nat) :
    (s.reparent c).wait w = .linked g starts ↔
      (s.wait w = .linked g starts ∧ g ≠ c) ∨ (s.wait w = .linked c starts ∧ g = s.parentAsInputGate c) := by
  rw [reparent_wait]
  cases status : s.wait w with
  | linked g' starts' =>
    have moved := queued.moved (c := c) status
    by_cases mine : g' = c
    · subst mine
      simp only [moved.2 rfl, if_true, WaitStatus.linked.injEq, true_and]
      constructor
      · rintro ⟨rfl, rfl⟩
        exact .inr ⟨rfl, rfl⟩
      · rintro (⟨⟨rfl, rfl⟩, apart⟩ | ⟨rfl, rfl⟩)
        · exact absurd rfl apart
        · exact ⟨rfl, rfl⟩
    · have stays : w ∉ s.waitingChildren c ++ s.waiters c := fun member => mine (moved.1 member)
      simp only [stays, if_false, WaitStatus.linked.injEq]
      constructor
      · rintro ⟨rfl, rfl⟩
        exact .inl ⟨⟨rfl, rfl⟩, mine⟩
      · rintro (⟨same, _⟩ | ⟨⟨same, _⟩, _⟩)
        · exact same
        · exact absurd same mine
  | granted => simp
  | refused => simp
  | resolved => simp
  | rejected => simp

theorem reparent_starts (s : InputGates) (c x : Nat) : ((s.reparent c).wait x).starts = (s.wait x).starts := by
  rw [reparent_wait]
  cases s.wait x with
  | linked g starts =>
    dsimp only
    split <;> rfl
  | granted => rfl
  | refused => rfl
  | resolved => rfl
  | rejected => rfl

theorem Queued.reparent (queued : Queued s) (other : s.parentAsInputGate c ≠ c) : Queued (s.reparent c) := by
  have appended : ∀ (lists : Nat → List Nat) (g w : Nat),
      w ∈ Function.update (Function.update lists (s.parentAsInputGate c) (lists (s.parentAsInputGate c) ++ lists c)) c []
        g ↔ (w ∈ lists g ∧ g ≠ c) ∨ (w ∈ lists c ∧ g = s.parentAsInputGate c) := by
    intro lists g w
    by_cases mine : g = c
    · subst mine
      simp [Ne.symm other]
    · by_cases target : g = s.parentAsInputGate c
      · subst target
        simp [mine]
      · simp [mine, target]
  have nodup : ∀ (lists : Nat → List Nat), (∀ g, (lists g).Nodup) →
      (∀ w, w ∈ lists (s.parentAsInputGate c) → w ∉ lists c) → ∀ g,
      (Function.update (Function.update lists (s.parentAsInputGate c) (lists (s.parentAsInputGate c) ++ lists c)) c []
        g).Nodup := by
    intro lists each apart g
    by_cases mine : g = c
    · subst mine
      simp
    · rw [Function.update_of_ne mine]
      by_cases target : g = s.parentAsInputGate c
      · subst target
        rw [Function.update_self, List.nodup_append]
        refine ⟨each _, each c, ?_⟩
        rintro x held y moved rfl
        exact apart x held moved
      · rw [Function.update_of_ne target]
        exact each g
  refine ⟨fun g w => ?_, fun g w => ?_, ?_, ?_, ?_⟩
  · rw [queued.reparent_linked]
    change w ∈ Function.update (Function.update s.waiters _ _) c [] g ↔ _
    rw [appended, queued.waiter, queued.waiter]
  · simp only [queued.reparent_linked]
    change w ∈ Function.update (Function.update s.waitingChildren _ _) c [] g ↔ _
    rw [appended, queued.child, queued.child]
    constructor
    · rintro (⟨⟨c', linked⟩, apart⟩ | ⟨⟨c', linked⟩, target⟩)
      · exact ⟨c', .inl ⟨linked, apart⟩⟩
      · exact ⟨c', .inr ⟨linked, target⟩⟩
    · rintro ⟨c', ⟨linked, apart⟩ | ⟨linked, target⟩⟩
      · exact .inl ⟨⟨c', linked⟩, apart⟩
      · exact .inr ⟨⟨c', linked⟩, target⟩
  · refine nodup s.waiters queued.waitersNodup fun w there here => ?_
    rw [queued.waiter] at there here
    rw [there] at here
    exact other (WaitStatus.linked.inj here).1
  · refine nodup s.waitingChildren queued.childrenNodup fun w there here => ?_
    rw [queued.child] at there here
    obtain ⟨_, there⟩ := there
    obtain ⟨_, here⟩ := here
    rw [there] at here
    exact other (WaitStatus.linked.inj here).1
  · intro w later
    obtain ⟨exception, rejected⟩ := queued.later w later
    exact ⟨exception, by rw [reparent_wait, rejected]⟩

theorem Counted.reparent (counted : Counted s) (section_ : 0 < c) (known : c < s.gates)
    (stays : s.isReparented c = false) : Counted (s.reparent c) := by
  have other : s.parentAsInputGate c ≠ c := Nat.ne_of_lt (parent_lt counted section_)
  have gone : ∀ x, (s.reparent c).isReparented x = (s.isReparented x || x == c) := by
    intro x
    simp only [isReparented, InputGates.reparent]
    by_cases mine : x = c
    · subst mine
      simp [section_]
    · simp [Function.update_of_ne mine, mine]
  refine ⟨counted.older, ?_, counted.gate, counted.unmade, ?_, ?_⟩
  · intro g later
    change s.gates ≤ g at later
    rw [gone, counted.fresh g later]
    simp [show g ≠ c by omega]
  · intro g still
    rw [gone] at still
    simp only [Bool.or_eq_false_iff, beq_eq_false_iff_ne, ne_eq] at still
    rw [reparent_outstanding counted section_ stays, if_neg still.2]
    change Function.update (Function.update s.lockCount _ _) c 0 g = _
    rw [Function.update_of_ne still.2]
    by_cases target : g = s.parentAsInputGate c
    · subst target
      rw [Function.update_self, if_pos rfl, counted.counts _ still.1, counted.counts c stays]
    · rw [Function.update_of_ne target, if_neg target, counted.counts g still.1]
  · intro g left
    rw [gone] at left
    change Function.update (Function.update s.lockCount _ _) c 0 g = 0
    by_cases mine : g = c
    · rw [mine, Function.update_self]
    · have before : s.isReparented g = true := by simpa [mine] using left
      have apart : g ≠ s.parentAsInputGate c := by
        rintro rfl
        simp [counted.parent_stays c] at before
      rw [Function.update_of_ne mine, Function.update_of_ne apart]
      exact counted.emptied g before

theorem reparent_kept (accounted : Accounted s) (starting : Starting s) (section_ : 0 < c) (known : c < s.gates)
    (running : s.state c = .running) : Accounted (s.reparent c) ∧ Starting (s.reparent c) := by
  have counted := accounted.counted
  have stays : s.isReparented c = false := by simp [isReparented, running]
  have other : s.parentAsInputGate c ≠ c := Nat.ne_of_lt (parent_lt counted section_)
  refine ⟨⟨accounted.queued.reparent other, counted.reparent section_ known stays, fun g free => ?_⟩, ?_, ?_⟩
  · change Function.update (Function.update s.lockCount _ _) c 0 g = 0 at free
    change Function.update (Function.update s.waiters _ _) c [] g = [] ∧
      Function.update (Function.update s.waitingChildren _ _) c [] g = []
    by_cases mine : g = c
    · subst mine
      simp
    · rw [Function.update_of_ne mine] at free
      rw [Function.update_of_ne mine, Function.update_of_ne mine]
      by_cases target : g = s.parentAsInputGate c
      · subst target
        rw [Function.update_self] at free
        obtain ⟨waiters, children⟩ := accounted.idle _ (Nat.add_eq_zero_iff.1 free).1
        obtain ⟨waiters', children'⟩ := accounted.idle c (Nat.add_eq_zero_iff.1 free).2
        simp [waiters, children, waiters', children']
      · rw [Function.update_of_ne target] at free
        rw [Function.update_of_ne target, Function.update_of_ne target]
        exact accounted.idle g free
  · intro w c' starts
    rw [reparent_starts] at starts
    obtain ⟨initial, made⟩ := starting.initial w c' starts
    have apart : c' ≠ c := by
      rintro rfl
      rw [running] at initial
      cases initial
    exact ⟨by simpa [reparent, apart] using initial, made⟩
  · intro w w' c' first second
    rw [reparent_starts] at first second
    exact starting.once w w' c' first second

theorem release_kept (accounted : Accounted s) (starting : Starting s) (l : Nat) :
    Accounted (release l s).2 ∧ Starting (release l s).2 := by
  cases held : s.gateOf l with
  | none =>
    have refused : (release l s).2 = s := by
      unfold release
      rw [state_bind]
      simp only [held, raise_run]
    rw [refused]
    exact ⟨accounted, starting⟩
  | some h =>
    rw [release_run accounted held]
    exact freed_kept accounted starting held

/-- What `succeeded` leaves of a running section. -/
theorem succeeded_state (running : s.state c = .running) : (succeeded c s).2 =
    match s.parentLock c with
    | none => s.reparent c
    | some lock =>
      { s.reparent c with
        parentLock := Function.update s.parentLock c none
        given := Function.update s.given lock true } := by
  unfold succeeded
  rw [state_bind]
  simp only [running, ne_eq, not_true_eq_false, if_false, update_bind]
  cases s.parentLock c <;> rfl

theorem succeeded_refused (idle : s.state c ≠ .running) : (succeeded c s).2 = s := by
  unfold succeeded
  rw [state_bind]
  simp only [ne_eq, idle, not_false_eq_true, if_true, raise_run]

/-- A section gives up the lock it has in its parent. -/
def disown (s : InputGates) (c : Nat) : InputGates := { s with parentLock := Function.update s.parentLock c none }

/-- What a dropped section leaves before its parent's lock is released. -/
def dropped (s : InputGates) (c : Nat) : InputGates :=
  if s.state c = .running then s.failed c c (.error neverCompletes) else s

theorem drop_state (s : InputGates) (c : Nat) : (drop c s).2 =
    match s.parentLock c with
    | none => s.dropped c
    | some lock => (release lock ((s.dropped c).disown c)).2 := by
  unfold drop dropped
  rw [state_bind]
  by_cases running : s.state c = .running
  · simp only [running, if_true, update_bind]
    cases s.parentLock c <;> rfl
  · simp only [running, if_false]
    cases s.parentLock c <;> rfl

theorem dropped_kept (accounted : Accounted s) (starting : Starting s) (c : Nat) :
    Accounted (s.dropped c) ∧ Starting (s.dropped c) := by
  unfold dropped
  split
  · exact ⟨accounted.failed _ _ _, starting.settles (.failed s _ _ _)⟩
  · exact ⟨accounted, starting⟩

theorem step_kept {event : Event} {t : InputGates} (accounted : Accounted s) (starting : Starting s)
    (stepped : step s event = some t) : Accounted t ∧ Starting t := by
  cases event <;> simp only [step, Option.ite_none_right_eq_some, Option.some.injEq] at stepped <;>
    obtain ⟨admitted, rfl⟩ := stepped
  case wait gate aborted => exact call_kept accounted starting admitted aborted
  case abort w => exact ⟨accounted.abort w, starting.settles (.abort s w)⟩
  case resume w => exact resume_kept accounted starting admitted
  case addRef l =>
    cases held : s.gateOf l with
    | none =>
      have refused : (addRef l s).2 = s := by
        unfold addRef
        rw [state_bind]
        simp only [held, raise_run]
      rw [refused]
      exact ⟨accounted, starting⟩
    | some g =>
      have added : (addRef l s).2 = s.newLock g true := by
        unfold addRef
        rw [state_bind]
        simp only [held, update_run]
      rw [added]
      refine ⟨⟨{ accounted.queued with }, accounted.counted.newLock (accounted.counted.gate l g held) true,
        fun g' => (accounted.idle g').newLock accounted.counted g true⟩, starting.same (fun _ => rfl) rfl rfl⟩
  case release l => exact release_kept accounted starting l
  case startCriticalSection l =>
    cases held : s.gateOf l with
    | none =>
      have refused : (startCriticalSection l s).2 = s := by
        unfold startCriticalSection
        rw [state_bind]
        simp only [held, raise_run]
      rw [refused]
      exact ⟨accounted, starting⟩
    | some g =>
      have added : (startCriticalSection l s).2 = s.newSection g := by
        unfold startCriticalSection
        rw [state_bind]
        simp only [held, update_run]
      rw [added]
      exact newSection_kept accounted starting (accounted.counted.gate l g held)
  case succeeded c =>
    by_cases running : s.state c = .running
    · have done := reparent_kept accounted starting admitted.1 admitted.2 running
      rw [succeeded_state running]
      split
      · exact done
      · exact ⟨⟨{ done.1.queued with }, done.1.counted.same ⟨rfl, rfl, rfl, rfl, rfl, rfl⟩, done.1.idle⟩,
          { done.2 with }⟩
    · rw [succeeded_refused running]
      exact ⟨accounted, starting⟩
  case failed c exception => exact ⟨accounted.failed _ _ _, starting.settles (.failed s _ _ _)⟩
  case setBroken gate exception => exact ⟨accounted.setBroken _ _, starting.settles (.setBroken s _ _)⟩
  case drop c =>
    have done := dropped_kept accounted starting c
    rw [drop_state]
    split
    · exact done
    · have disowned : Accounted ((s.dropped c).disown c) :=
        ⟨{ done.1.queued with }, done.1.counted.same ⟨rfl, rfl, rfl, rfl, rfl, rfl⟩, done.1.idle⟩
      have same : Starting ((s.dropped c).disown c) := { done.2 with }
      exact release_kept disowned same _

end Sections

end InputGates

end DoRuntime.Io
