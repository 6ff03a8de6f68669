import DoRuntime.Io.IoContext
import DoRuntime.Io.LockHands

namespace DoRuntime.Io

open Prog Transition

namespace InputGates

/-- What every state of the gates keeps while their sections succeed under a lock. -/
structure Healthy (s : InputGates) : Prop where
  rightful : Rightful s
  exclusive : Exclusive s
  owned : Owned s
  sections : Sections s
  blank : Blank s

theorem Healthy.step {s t : InputGates} {event : Event} (healthy : Healthy s) (orderly : Orderly s event)
    (stepped : s.step event = some t) : Healthy t :=
  ⟨step_rightful healthy.rightful stepped, step_exclusive healthy.rightful.sound healthy.exclusive orderly stepped,
    step_owned healthy.rightful.sound.accounted healthy.rightful.sound.starting healthy.owned stepped,
    step_sections healthy.rightful.sound healthy.sections stepped,
    step_blank healthy.rightful.sound healthy.sections healthy.blank stepped⟩

theorem drop_counts {s : InputGates} (healthy : Healthy s) (c : Nat) :
    (drop c s).2.gates = s.gates ∧ (drop c s).2.waits = s.waits := by
  have settles := Settles.dropped s c
  have accounted := (healthy.rightful.sound.accounted.dropped c).disown c
  rw [drop_state]
  split
  · exact ⟨settles.gates, settles.waits⟩
  · rename_i l _
    exact ⟨(release_gates accounted l).trans settles.gates, (release_leaves accounted l).2.2.waits.trans settles.waits⟩

theorem abort_refused (s : InputGates) (w : Nat) : Refused s (s.abort w) := by
  intro x
  unfold InputGates.abort
  rw [reject_wait]
  split
  · exact Or.inr ⟨.canceled, rfl⟩
  · exact Or.inl rfl

end InputGates

open InputGates (Healthy Issues Deals InHand LetGo FirstWait)

def ContextCall.wait : ContextCall → Option Nat
  | .admission w | .firstLock _ w => some w
  | _ => none

def ContextCall.section : ContextCall → Option Nat
  | .firstLock c _ | .callback c | .closing c => some c
  | _ => none

/-- The call has no lock and none to wait for. -/
def ContextCall.Empty (k : ContextCall) : Prop := k.wait = none ∧ ∀ l, k ≠ .awaiting (.lock l)

namespace IoContext

/-- The lock that a call has for its slice. -/
def heldBy (s : IoContext) (a : Nat) : Option Nat :=
  match s.call a with
  | .awaiting (.lock lock) => some lock
  | .admission w | .firstLock _ w =>
    match s.gates.wait w with
    | .resolved lock => some lock
    | _ => none
  | _ => none

/-- Each lock in the hands of the context is that of one slice or of one call, or is the one on its way. -/
structure Custody (s : IoContext) (loose : Option Nat) : Prop where
  stack : s.currentInputLocks.Nodup
  ends : s.checkpointEnds.Perm s.currentInputLocks
  hand : ∀ l, s.gates.InHand l ↔ l ∈ s.currentInputLocks ∨ (∃ a, s.heldBy a = some l) ∨ loose = some l
  aside : ∀ a l, s.heldBy a = some l → l ∉ s.currentInputLocks ∧ loose ≠ some l
  apart : ∀ l, loose = some l → l ∉ s.currentInputLocks
  once : ∀ a b l, s.heldBy a = some l → s.heldBy b = some l → a = b
  unmade : ∀ a, s.calls ≤ a → s.call a = .done
  single : ∀ a b w, (s.call a).wait = some w → (s.call b).wait = some w → a = b
  settled : ∀ w, w < s.gates.waits → (∃ a, (s.call a).wait = some w) ∨ (∃ l, s.gates.wait w = .resolved l) ∨
    ∃ exception, s.gates.wait w = .rejected exception

section Locks

variable {s : IoContext} {g : InputGates} {loose : Option Nat} {a l w : Nat}

theorem heldBy_iff : s.heldBy a = some l ↔
    s.call a = .awaiting (.lock l) ∨ ∃ w, (s.call a).wait = some w ∧ s.gates.wait w = .resolved l := by
  unfold heldBy
  cases call : s.call a with
  | awaiting input => cases input <;> simp [ContextCall.wait]
  | admission w => cases status : s.gates.wait w <;> simp [ContextCall.wait, status]
  | firstLock c w => cases status : s.gates.wait w <;> simp [ContextCall.wait, status]
  | callback c => simp [ContextCall.wait]
  | closing c => simp [ContextCall.wait]
  | done => simp [ContextCall.wait]

/-- The gates give out locks to waits only. -/
theorem Custody.issues (custody : Custody s loose) (counted : s.gates.Counted) (bounded : s.gates.Bounded)
    (accounted : g.Accounted) (issues : Issues s.gates g)
    (waits : ∀ w, w < g.waits → w < s.gates.waits ∨ ∃ a, (s.call a).wait = some w) :
    Custody { s with gates := g } loose := by
  have made : ∀ l, s.gates.InHand l → l < s.gates.locks := fun l => InHand.made counted
  have held : ∀ a l, heldBy { s with gates := g } a = some l →
      s.heldBy a = some l ∨ s.gates.locks ≤ l ∧ l < g.locks ∧ ∃ w, (s.call a).wait = some w ∧ g.wait w = .resolved l := by
    intro a l has
    rcases heldBy_iff.1 has with direct | ⟨w, waiting, resolved⟩
    · exact Or.inl (heldBy_iff.2 (Or.inl direct))
    · rcases issues.fresh w l resolved with before | ⟨old, new⟩
      · exact Or.inl (heldBy_iff.2 (Or.inr ⟨w, waiting, before⟩))
      · exact Or.inr ⟨old, new, w, waiting, resolved⟩
  have still : ∀ a l, s.heldBy a = some l → heldBy { s with gates := g } a = some l := by
    intro a l has
    rcases heldBy_iff.1 has with direct | ⟨w, waiting, resolved⟩
    · exact heldBy_iff.2 (Or.inl direct)
    · exact heldBy_iff.2 (Or.inr ⟨w, waiting, issues.resolved w l resolved⟩)
  refine ⟨custody.stack, custody.ends, ?_, ?_, custody.apart, ?_, custody.unmade, custody.single, ?_⟩
  · intro l
    change g.InHand l ↔ l ∈ s.currentInputLocks ∨ _
    by_cases old : l < s.gates.locks
    · rw [issues.kept l old, custody.hand l]
      constructor
      · rintro (member | ⟨a, has⟩ | floats)
        · exact Or.inl member
        · exact Or.inr (Or.inl ⟨a, still a l has⟩)
        · exact Or.inr (Or.inr floats)
      · rintro (member | ⟨a, has⟩ | floats)
        · exact Or.inl member
        · rcases held a l has with before | ⟨later, _⟩
          · exact Or.inr (Or.inl ⟨a, before⟩)
          · omega
        · exact Or.inr (Or.inr floats)
    · have unheld : ¬ s.gates.InHand l := fun has => old (made l has)
      constructor
      · intro has
        obtain ⟨w, resolved⟩ := (issues.issued l (Nat.le_of_not_lt old) (has.made accounted.counted)).1 has
        have unresolved : ∀ k, s.gates.wait w ≠ .resolved k := by
          intro k before
          have same := issues.resolved w k before
          rw [resolved] at same
          cases same
          exact old (bounded w l before)
        have known : w < g.waits := by
          by_contra later
          obtain ⟨exception, rejected⟩ := accounted.queued.later w (Nat.le_of_not_lt later)
          rw [resolved] at rejected
          cases rejected
        have waiting : ∃ a, (s.call a).wait = some w := by
          rcases waits w known with made | waiting
          · rcases custody.settled w made with waiting | ⟨k, before⟩ | ⟨exception, before⟩
            · exact waiting
            · exact absurd before (unresolved k)
            · have same := issues.rejected w exception made before
              rw [resolved] at same
              cases same
          · exact waiting
        obtain ⟨a, waiting⟩ := waiting
        exact Or.inr (Or.inl ⟨a, heldBy_iff.2 (Or.inr ⟨w, waiting, resolved⟩)⟩)
      · rintro (member | ⟨a, has⟩ | floats)
        · exact absurd ((custody.hand l).2 (Or.inl member)) unheld
        · rcases held a l has with before | ⟨later, new, w, _, resolved⟩
          · exact absurd ((custody.hand l).2 (Or.inr (Or.inl ⟨a, before⟩))) unheld
          · exact (issues.issued l later new).2 ⟨w, resolved⟩
        · exact absurd ((custody.hand l).2 (Or.inr (Or.inr floats))) unheld
  · intro a l has
    rcases held a l has with before | ⟨later, _⟩
    · exact custody.aside a l before
    · constructor
      · intro member
        have before := made l ((custody.hand l).2 (Or.inl member))
        omega
      · intro floats
        have before := made l ((custody.hand l).2 (Or.inr (Or.inr floats)))
        omega
  · intro a b l has has'
    rcases held a l has with before | ⟨later, new, w, waiting, resolved⟩
    · rcases held b l has' with before' | ⟨later, _⟩
      · exact custody.once a b l before before'
      · have before := made l ((custody.hand l).2 (Or.inr (Or.inl ⟨a, before⟩)))
        omega
    · rcases held b l has' with before' | ⟨_, _, w', waiting', resolved'⟩
      · have before := made l ((custody.hand l).2 (Or.inr (Or.inl ⟨b, before'⟩)))
        omega
      · have same := issues.once w w' l later resolved resolved'
        rw [same] at waiting
        exact custody.single a b w' waiting waiting'
  · intro w known
    rcases waits w known with made | waiting
    · rcases custody.settled w made with waiting | ⟨k, before⟩ | ⟨exception, before⟩
      · exact Or.inl waiting
      · exact Or.inr (Or.inl ⟨k, issues.resolved w k before⟩)
      · exact Or.inr (Or.inr ⟨exception, issues.rejected w exception made before⟩)
    · exact Or.inl waiting

/-- A lock that no slice and no call has is released. -/
theorem Custody.release (custody : Custody s (some l)) (healthy : Healthy s.gates) :
    Custody { s with gates := (InputGates.release l s.gates).2 } none := by
  have accounted := healthy.rightful.sound.accounted
  obtain ⟨given, live⟩ := (custody.hand l).2 (Or.inr (Or.inr rfl))
  obtain ⟨h, held⟩ := Option.ne_none_iff_exists'.1 live
  have released := InputGates.release_run accounted held
  have kept := InputGates.release_kept accounted healthy.rightful.sound.starting l
  rw [released] at kept ⊢
  have unlocked : Custody { s with gates := s.gates.unlock l (s.gates.adopter h) } none := by
    have still : ∀ a, heldBy { s with gates := s.gates.unlock l (s.gates.adopter h) } a = s.heldBy a := fun _ => rfl
    refine ⟨custody.stack, custody.ends, ?_, ?_, ?_, custody.once, custody.unmade, custody.single,
      custody.settled⟩
    · intro i
      have hand := custody.hand i
      by_cases same : i = l
      · rw [same]
        constructor
        · intro has
          exact absurd (Function.update_self ..) has.2
        · rintro (member | ⟨a, has⟩ | floats)
          · exact absurd member (custody.apart l rfl)
          · exact absurd rfl (custody.aside a l has).2
          · cases floats
      · have other : (s.gates.unlock l (s.gates.adopter h)).InHand i ↔ s.gates.InHand i := by
          have gate : (s.gates.unlock l (s.gates.adopter h)).gateOf i = s.gates.gateOf i :=
            Function.update_of_ne same ..
          unfold InHand
          rw [gate]
          rfl
        change (s.gates.unlock l (s.gates.adopter h)).InHand i ↔ _
        rw [other, hand]
        simp only [still, Option.some.injEq, reduceCtorEq, or_false]
        constructor
        · rintro (member | has | mine)
          · exact Or.inl member
          · exact Or.inr has
          · exact absurd mine.symm same
        · rintro (member | has)
          · exact Or.inl member
          · exact Or.inr (Or.inl has)
    · intro a i has
      exact ⟨(custody.aside a i has).1, by simp⟩
    · intro i floats
      cases floats
  exact unlocked.issues (accounted.counted.unlock held) healthy.rightful.bounded kept.1
    (InputGates.Issues.freed healthy.rightful.bounded accounted.queued l _) fun w known => Or.inl (by
      rw [InputGates.freed_waits accounted.queued] at known
      exact known)

theorem Custody.addRef (custody : Custody s none) (counted : s.gates.Counted) (gate : Nat) :
    Custody { s with gates := s.gates.newLock gate true } (some s.gates.locks) := by
  have made : ∀ i, s.gates.InHand i → i < s.gates.locks := fun i => InHand.made counted
  have hands : ∀ i, (s.gates.newLock gate true).InHand i ↔ s.gates.InHand i ∨ i = s.gates.locks := by
    intro i
    by_cases new : i = s.gates.locks
    · rw [new]
      simp [InHand, InputGates.newLock]
    · simp [InHand, InputGates.newLock, new]
  refine ⟨custody.stack, custody.ends, ?_, ?_, ?_, custody.once, custody.unmade, custody.single,
    custody.settled⟩
  · intro i
    change (s.gates.newLock gate true).InHand i ↔ _
    rw [hands, custody.hand i]
    simp only [reduceCtorEq, or_false, Option.some.injEq]
    rw [or_assoc, eq_comm (a := s.gates.locks)]
    rfl
  · intro a i has
    refine ⟨(custody.aside a i has).1, ?_⟩
    intro floats
    cases floats
    exact absurd (made _ ((custody.hand _).2 (Or.inr (Or.inl ⟨a, has⟩)))) (Nat.lt_irrefl _)
  · intro i floats member
    cases floats
    exact absurd (made _ ((custody.hand _).2 (Or.inl member))) (Nat.lt_irrefl _)

/-- A slice begins. -/
theorem Custody.push (custody : Custody s (some l)) :
    Custody { s with
      currentInputLocks := l :: s.currentInputLocks
      checkpointEnds := s.checkpointEnds ++ [l] } none := by
  refine ⟨List.nodup_cons.2 ⟨custody.apart l rfl, custody.stack⟩, ?_, ?_, ?_, ?_, custody.once, custody.unmade,
    custody.single, custody.settled⟩
  · exact List.perm_append_singleton l _ |>.trans (custody.ends.cons l)
  · intro i
    change s.gates.InHand i ↔ i ∈ l :: s.currentInputLocks ∨ (∃ a, s.heldBy a = some i) ∨ _
    rw [custody.hand i, List.mem_cons, Option.some.injEq, eq_comm (a := l)]
    simp only [reduceCtorEq, or_false]
    tauto
  · intro a i has
    obtain ⟨out, other⟩ := custody.aside a i has
    refine ⟨?_, by simp⟩
    intro member
    rcases List.mem_cons.1 member with same | member
    · exact other (congrArg some same.symm)
    · exact out member
  · intro i floats
    cases floats

/-- The end of a slice. -/
theorem Custody.pop {rest : List Nat} (custody : Custody s none) (ends : s.checkpointEnds = l :: rest) :
    l ∈ s.currentInputLocks ∧ Custody { s with
      currentInputLocks := s.currentInputLocks.erase l
      checkpointEnds := rest } (some l) := by
  have perm := custody.ends
  rw [ends] at perm
  have member : l ∈ s.currentInputLocks := perm.subset List.mem_cons_self
  have mem : ∀ i, i ∈ s.currentInputLocks.erase l ↔ i ≠ l ∧ i ∈ s.currentInputLocks := fun i =>
    custody.stack.mem_erase_iff
  refine ⟨member, custody.stack.erase l, ?_, ?_, ?_, ?_, custody.once, custody.unmade, custody.single,
    custody.settled⟩
  · exact (List.cons_perm_iff_perm_erase.1 perm).2
  · intro i
    change s.gates.InHand i ↔ i ∈ s.currentInputLocks.erase l ∨ (∃ a, s.heldBy a = some i) ∨ _
    rw [custody.hand i, mem, Option.some.injEq]
    simp only [reduceCtorEq, or_false]
    constructor
    · rintro (there | has)
      · by_cases same : i = l
        · exact Or.inr (Or.inr same.symm)
        · exact Or.inl ⟨same, there⟩
      · exact Or.inr (Or.inl has)
    · rintro (⟨_, there⟩ | has | same)
      · exact Or.inl there
      · exact Or.inr has
      · rw [← same]
        exact Or.inl member
  · intro a i has
    obtain ⟨out, _⟩ := custody.aside a i has
    constructor
    · intro there
      exact out ((mem i).1 there).2
    · intro same
      cases same
      exact out member
  · intro i same there
    cases same
    exact ((mem l).1 there).1 rfl

/-- A call goes over to `k`. -/
theorem Custody.replace {loose' : Option Nat} {k : ContextCall} {calls : Nat} (custody : Custody s loose)
    (grows : s.calls ≤ calls) (known : a < calls ∨ k = .done)
    (left : ∀ w, (s.call a).wait = some w → k.wait = some w ∨ (∃ l, s.gates.wait w = .resolved l) ∨
      ∃ exception, s.gates.wait w = .rejected exception)
    (alone : ∀ b w, b ≠ a → k.wait = some w → (s.call b).wait ≠ some w)
    (moves : ∀ l, loose' = some l ∨ heldBy { s with call := Function.update s.call a k } a = some l ↔
      loose = some l ∨ s.heldBy a = some l)
    (one : ∀ l, loose' = some l → heldBy { s with call := Function.update s.call a k } a ≠ some l) :
    Custody { s with
      call := Function.update s.call a k
      calls := calls } loose' := by
  have mine : Function.update s.call a k a = k := Function.update_self ..
  have other : ∀ b, b ≠ a → Function.update s.call a k b = s.call b := fun b apart => Function.update_of_ne apart ..
  have still : ∀ b, b ≠ a → heldBy { s with call := Function.update s.call a k, calls := calls } b = s.heldBy b := by
    intro b apart
    unfold heldBy
    simp only [other b apart]
  have same : heldBy { s with call := Function.update s.call a k, calls := calls } a =
      heldBy { s with call := Function.update s.call a k } a := rfl
  have back : ∀ b l, heldBy { s with call := Function.update s.call a k, calls := calls } b = some l →
      s.heldBy b = some l ∧ b ≠ a ∨ b = a ∧ (loose = some l ∨ s.heldBy a = some l) := by
    intro b l has
    by_cases apart : b = a
    · rw [apart, same] at has
      exact Or.inr ⟨apart, (moves l).1 (Or.inr has)⟩
    · rw [still b apart] at has
      exact Or.inl ⟨has, apart⟩
  refine ⟨custody.stack, custody.ends, ?_, ?_, ?_, ?_, ?_, ?_, ?_⟩
  · intro l
    change s.gates.InHand l ↔ l ∈ s.currentInputLocks ∨
      (∃ b, heldBy { s with call := Function.update s.call a k, calls := calls } b = some l) ∨ loose' = some l
    rw [custody.hand l]
    constructor
    · rintro (member | ⟨b, has⟩ | floats)
      · exact Or.inl member
      · by_cases apart : b = a
        · rw [apart] at has
          rcases (moves l).2 (Or.inr has) with floats | held
          · exact Or.inr (Or.inr floats)
          · exact Or.inr (Or.inl ⟨a, held⟩)
        · refine Or.inr (Or.inl ⟨b, ?_⟩)
          rw [still b apart]
          exact has
      · rcases (moves l).2 (Or.inl floats) with floats | held
        · exact Or.inr (Or.inr floats)
        · exact Or.inr (Or.inl ⟨a, held⟩)
    · rintro (member | ⟨b, has⟩ | floats)
      · exact Or.inl member
      · rcases back b l has with ⟨before, _⟩ | ⟨_, floats | before⟩
        · exact Or.inr (Or.inl ⟨b, before⟩)
        · exact Or.inr (Or.inr floats)
        · exact Or.inr (Or.inl ⟨a, before⟩)
      · rcases (moves l).1 (Or.inl floats) with floats | before
        · exact Or.inr (Or.inr floats)
        · exact Or.inr (Or.inl ⟨a, before⟩)
  · intro b l has
    have out : l ∉ s.currentInputLocks := by
      rcases back b l has with ⟨before, _⟩ | ⟨_, floats | before⟩
      · exact (custody.aside b l before).1
      · exact custody.apart l floats
      · exact (custody.aside a l before).1
    refine ⟨out, ?_⟩
    intro floats
    by_cases apart : b = a
    · rw [apart, same] at has
      exact one l floats has
    · rw [still b apart] at has
      rcases (moves l).1 (Or.inl floats) with floats | before
      · exact (custody.aside b l has).2 floats
      · exact apart (custody.once b a l has before)
  · intro l floats
    rcases (moves l).1 (Or.inl floats) with floats | before
    · exact custody.apart l floats
    · exact (custody.aside a l before).1
  · intro b b' l has has'
    rcases back b l has with ⟨before, apart⟩ | ⟨mine, moved⟩
    · rcases back b' l has' with ⟨before', _⟩ | ⟨_, moved⟩
      · exact custody.once b b' l before before'
      · rcases moved with floats | before'
        · exact absurd floats (custody.aside b l before).2
        · exact absurd (custody.once b a l before before') apart
    · rcases back b' l has' with ⟨before', apart⟩ | ⟨mine', _⟩
      · rcases moved with floats | before
        · exact absurd floats (custody.aside b' l before').2
        · exact absurd (custody.once b' a l before' before) apart
      · rw [mine, mine']
  · intro b later
    change Function.update s.call a k b = .done
    by_cases apart : b = a
    · rw [apart, mine]
      rcases known with made | done
      · rw [apart] at later
        exact absurd made (Nat.not_lt.2 later)
      · exact done
    · rw [other b apart]
      exact custody.unmade b (Nat.le_trans grows later)
  · intro b b' w waiting waiting'
    change (Function.update s.call a k b).wait = some w at waiting
    change (Function.update s.call a k b').wait = some w at waiting'
    by_cases apart : b = a
    · by_cases apart' : b' = a
      · rw [apart, apart']
      · rw [apart, mine] at waiting
        rw [other b' apart'] at waiting'
        exact absurd waiting' (alone b' w apart' waiting)
    · rw [other b apart] at waiting
      by_cases apart' : b' = a
      · rw [apart', mine] at waiting'
        exact absurd waiting (alone b w apart waiting')
      · rw [other b' apart'] at waiting'
        exact custody.single b b' w waiting waiting'
  · intro w made
    change (∃ b, (Function.update s.call a k b).wait = some w) ∨ _
    rcases custody.settled w made with ⟨b, waiting⟩ | ended
    · by_cases apart : b = a
      · rw [apart] at waiting
        rcases left w waiting with still | ended
        · refine Or.inl ⟨a, ?_⟩
          rw [mine]
          exact still
        · exact Or.inr ended
      · refine Or.inl ⟨b, ?_⟩
        rw [other b apart]
        exact waiting
    · exact Or.inr ended

theorem empty_handed (empty : (s.call a).Empty) (l : Nat) : s.heldBy a ≠ some l := by
  intro has
  rcases heldBy_iff.1 has with direct | ⟨w, waiting, _⟩
  · exact empty.2 l direct
  · rw [empty.1] at waiting
    cases waiting

theorem empty_updated {k : ContextCall} (empty : k.Empty) (l : Nat) :
    heldBy { s with call := Function.update s.call a k } a ≠ some l := by
  apply empty_handed
  change (Function.update s.call a k a).Empty
  rw [Function.update_self]
  exact empty

theorem Custody.fresh (custody : Custody s loose) : (s.call s.calls).Empty := by
  rw [custody.unmade s.calls (Nat.le_refl _)]
  exact ⟨rfl, by simp⟩

/-- A call that has done with its wait or has none, goes on without one. -/
theorem Custody.leave {k : ContextCall} (custody : Custody s none) (known : a < s.calls ∨ k = .done) (empty : k.Empty)
    (left : ∀ w, (s.call a).wait = some w → (∃ l, s.gates.wait w = .resolved l) ∨
      ∃ exception, s.gates.wait w = .rejected exception) : Custody (s.setCall a k) (s.heldBy a) := by
  apply custody.replace (Nat.le_refl _) known (fun w waiting => Or.inr (left w waiting))
  · intro b w _ waiting
    rw [empty.1] at waiting
    cases waiting
  · intro l
    constructor
    · rintro (held | held)
      · exact Or.inr held
      · exact absurd held (empty_updated empty l)
    · rintro (floats | held)
      · cases floats
      · exact Or.inl held
  · intro l _
    exact empty_updated empty l

/-- A call that has nothing goes on without. -/
theorem Custody.stay {k : ContextCall} {calls : Nat} (custody : Custody s loose) (grows : s.calls ≤ calls)
    (known : a < calls ∨ k = .done) (empty : k.Empty) (before : (s.call a).Empty) :
    Custody { s with
      call := Function.update s.call a k
      calls := calls } loose := by
  apply custody.replace grows known
  · intro w waiting
    rw [before.1] at waiting
    cases waiting
  · intro b w _ waiting
    rw [empty.1] at waiting
    cases waiting
  · intro l
    constructor
    · rintro (floats | held)
      · exact Or.inl floats
      · exact absurd held (empty_updated empty l)
    · rintro (floats | held)
      · exact Or.inl floats
      · exact absurd held (empty_handed before l)
  · intro l _
    exact empty_updated empty l

/-- A new call keeps the lock that is on its way. -/
theorem Custody.keep (custody : Custody s (some l)) : Custody (s.addCall (.awaiting (.lock l))) none := by
  have fresh := custody.fresh
  have mine : heldBy { s with call := Function.update s.call s.calls (.awaiting (.lock l)) } s.calls = some l := by
    rw [heldBy_iff]
    exact Or.inl (Function.update_self ..)
  apply custody.replace (Nat.le_succ _) (Or.inl (Nat.lt_succ_self _))
  · intro w waiting
    rw [fresh.1] at waiting
    cases waiting
  · intro b w _ waiting
    cases waiting
  · intro i
    rw [mine]
    constructor
    · rintro (floats | held)
      · cases floats
      · exact Or.inl held
    · rintro (floats | held)
      · exact Or.inr floats
      · exact absurd held (empty_handed fresh i)
  · intro i floats
    cases floats

/-- A call takes to waiting on the gate. -/
theorem Custody.ask {k : ContextCall} {calls : Nat} (custody : Custody s loose) (healthy : Healthy s.gates)
    (accounted : g.Accounted) (issues : Issues s.gates g) (waits : g.waits = s.gates.waits + 1)
    (grows : s.calls ≤ calls) (known : a < calls) (waiting : k.wait = some s.gates.waits)
    (made : ∀ b w, (s.call b).wait = some w → w < s.gates.waits) (empty : (s.call a).Empty) :
    Custody { s with
      gates := g
      call := Function.update s.call a k
      calls := calls } loose := by
  have call : Function.update s.call a k a = k := Function.update_self ..
  have sound := healthy.rightful.sound.accounted
  obtain ⟨exception, fresh⟩ := sound.queued.later s.gates.waits (Nat.le_refl _)
  have after : ∀ l, heldBy { s with call := Function.update s.call a k } a ≠ some l := by
    intro l has
    rcases heldBy_iff.1 has with direct | ⟨w, waits, resolved⟩
    · have same := call.symm.trans direct
      rw [same] at waiting
      cases waiting
    · change (Function.update s.call a k a).wait = some w at waits
      rw [call, waiting] at waits
      cases waits
      change s.gates.wait s.gates.waits = _ at resolved
      rw [fresh] at resolved
      cases resolved
  have asked : Custody { s with
      call := Function.update s.call a k
      calls := calls } loose := by
    apply custody.replace grows (Or.inl known)
    · intro w waits
      rw [empty.1] at waits
      cases waits
    · intro b w _ waits same
      rw [waiting] at waits
      cases waits
      exact Nat.lt_irrefl _ (made b _ same)
    · intro l
      constructor
      · rintro (floats | held)
        · exact Or.inl floats
        · exact absurd held (after l)
      · rintro (floats | held)
        · exact Or.inl floats
        · exact absurd held (empty_handed empty l)
    · intro l _
      exact after l
  apply asked.issues sound.counted healthy.rightful.bounded accounted issues
  intro w known
  by_cases new : w = s.gates.waits
  · refine Or.inr ⟨a, ?_⟩
    change (Function.update s.call a k a).wait = some w
    rw [call, new]
    exact waiting
  · left
    change w < s.gates.waits
    omega

end Locks

/-- Each section is that of the one `blockConcurrencyWhile` that is to let go of it, or is let go of. -/
structure Guarded (s : IoContext) : Prop where
  known : ∀ a c, (s.call a).section = some c → 0 < c ∧ c < s.gates.gates
  alone : ∀ a b c, (s.call a).section = some c → (s.call b).section = some c → a = b
  begun : ∀ c, 0 < c → c < s.gates.gates → s.gates.state c ≠ .notStarted
  letGo : ∀ c, 0 < c → c < s.gates.gates → s.gates.LetGo c ∨ ∃ a, (s.call a).section = some c
  starts : ∀ w c, (s.gates.wait w).starts = some c → ∃ a, s.call a = .firstLock c w
  first : ∀ a c w, s.call a = .firstLock c w → s.gates.FirstWait w c
  running : ∀ a c, s.call a = .callback c → s.gates.parentLock c ≠ none
  closing : ∀ a c, s.call a = .closing c → s.gates.LetGo c
  made : ∀ a w, (s.call a).wait = some w → w < s.gates.waits
  asks : ∀ a gate, s.call a = .awaiting (.gate gate) → gate < s.gates.gates
  root : 0 < s.gates.gates

section Sections

variable {s : IoContext} {g : InputGates} {a c w : Nat}

theorem Guarded.deals (guarded : Guarded s) (deals : Deals none s.gates g) (gates : g.gates = s.gates.gates) :
    Guarded { s with gates := g } := by
  refine ⟨?_, guarded.alone, ?_, ?_, ?_, ?_, ?_, ?_, ?_, ?_, ?_⟩
  · intro a c mine
    change 0 < c ∧ c < g.gates
    rw [gates]
    exact guarded.known a c mine
  · intro c first known
    change c < g.gates at known
    rw [gates] at known
    exact deals.begun c (by simp) (guarded.begun c first known)
  · intro c first known
    change c < g.gates at known
    rw [gates] at known
    rcases guarded.letGo c first known with gone | mine
    · exact Or.inl (deals.letGo (by simp) gone)
    · exact Or.inr mine
  · intro w c starts
    exact guarded.starts w c (deals.starts w c (by simp) starts)
  · intro a c w call
    have made := guarded.made a w (by rw [call]; rfl)
    exact deals.firstWait (by simp) made (guarded.first a c w call)
  · intro a c call
    exact deals.parentLock c (by simp) (guarded.running a c call)
  · intro a c call
    exact deals.letGo (by simp) (guarded.closing a c call)
  · intro a w waiting
    exact Nat.lt_of_lt_of_le (guarded.made a w waiting) deals.waits
  · intro a gate call
    exact Nat.lt_of_lt_of_le (guarded.asks a gate call) (Nat.le_of_eq gates.symm)
  · exact Nat.lt_of_lt_of_le guarded.root (Nat.le_of_eq gates.symm)

theorem Guarded.frame (guarded : Guarded s) (parentLock : g.parentLock = s.gates.parentLock)
    (wait : g.wait = s.gates.wait) (state : g.state = s.gates.state) (gates : g.gates = s.gates.gates)
    (waits : g.waits = s.gates.waits) : Guarded { s with gates := g } := by
  have letGo : ∀ c, s.gates.LetGo c → g.LetGo c := by
    intro c gone
    refine ⟨?_, ?_, ?_⟩
    · rw [parentLock]
      exact gone.unlocked
    · rw [wait]
      exact gone.nobody
    · rw [state]
      exact gone.begun
  have first : ∀ w c, s.gates.FirstWait w c → g.FirstWait w c := by
    intro w c first
    unfold FirstWait at first ⊢
    rw [wait, parentLock]
    exact first
  refine ⟨?_, guarded.alone, ?_, ?_, ?_, fun a c w call => first w c (guarded.first a c w call), ?_,
    fun a c call => letGo c (guarded.closing a c call), ?_, ?_, ?_⟩
  · intro a c mine
    change 0 < c ∧ c < g.gates
    rw [gates]
    exact guarded.known a c mine
  · intro c positive known
    change g.state c ≠ _
    change c < g.gates at known
    rw [gates] at known
    rw [state]
    exact guarded.begun c positive known
  · intro c positive known
    change c < g.gates at known
    rw [gates] at known
    exact (guarded.letGo c positive known).imp_left (letGo c)
  · intro w c starts
    change (g.wait w).starts = _ at starts
    rw [wait] at starts
    exact guarded.starts w c starts
  · intro a c call
    change g.parentLock c ≠ none
    rw [parentLock]
    exact guarded.running a c call
  · intro a w waiting
    change w < g.waits
    rw [waits]
    exact guarded.made a w waiting
  · intro a gate call
    exact Nat.lt_of_lt_of_le (guarded.asks a gate call) (Nat.le_of_eq gates.symm)
  · exact Nat.lt_of_lt_of_le guarded.root (Nat.le_of_eq gates.symm)

/-- A call goes over to `k`, of the same section or of none. -/
theorem Guarded.replace {k : ContextCall} {calls : Nat} (guarded : Guarded s)
    (same : k.section = (s.call a).section) (before : ∀ c w, s.call a = .firstLock c w →
      ∃ l, s.gates.wait w = .resolved l)
    (fresh : ∀ c w, k ≠ .firstLock c w) (running : ∀ c, k = .callback c → s.gates.parentLock c ≠ none)
    (closing : ∀ c, k = .closing c → s.gates.LetGo c) (made : ∀ w, k.wait = some w → w < s.gates.waits)
    (asks : ∀ gate, k = .awaiting (.gate gate) → gate < s.gates.gates) : Guarded { s with
      call := Function.update s.call a k
      calls := calls } := by
  have mine : Function.update s.call a k a = k := Function.update_self ..
  have other : ∀ b, b ≠ a → Function.update s.call a k b = s.call b := fun b apart => Function.update_of_ne apart ..
  have sections : ∀ b, (Function.update s.call a k b).section = (s.call b).section := by
    intro b
    by_cases apart : b = a
    · rw [apart, mine, same]
    · rw [other b apart]
  refine ⟨?_, ?_, guarded.begun, ?_, ?_, ?_, ?_, ?_, ?_, ?_, guarded.root⟩
  · intro b c is
    exact guarded.known b c ((sections b).symm.trans is)
  · intro b b' c is is'
    exact guarded.alone b b' c ((sections b).symm.trans is) ((sections b').symm.trans is')
  · intro c first known
    rcases guarded.letGo c first known with gone | ⟨b, is⟩
    · exact Or.inl gone
    · exact Or.inr ⟨b, (sections b).trans is⟩
  · intro w c starts
    obtain ⟨b, call⟩ := guarded.starts w c starts
    refine ⟨b, ?_⟩
    have apart : b ≠ a := by
      intro here
      rw [here] at call
      obtain ⟨l, resolved⟩ := before c w call
      rw [resolved] at starts
      cases starts
    exact (other b apart).trans call
  · intro b c w call
    change Function.update s.call a k b = _ at call
    by_cases apart : b = a
    · rw [apart, mine] at call
      exact absurd call (fresh c w)
    · rw [other b apart] at call
      exact guarded.first b c w call
  · intro b c call
    change Function.update s.call a k b = _ at call
    by_cases apart : b = a
    · rw [apart, mine] at call
      exact running c call
    · rw [other b apart] at call
      exact guarded.running b c call
  · intro b c call
    change Function.update s.call a k b = _ at call
    by_cases apart : b = a
    · rw [apart, mine] at call
      exact closing c call
    · rw [other b apart] at call
      exact guarded.closing b c call
  · intro b w waiting
    change (Function.update s.call a k b).wait = _ at waiting
    by_cases apart : b = a
    · rw [apart, mine] at waiting
      exact made w waiting
    · rw [other b apart] at waiting
      exact guarded.made b w waiting
  · intro b gate call
    change Function.update s.call a k b = _ at call
    by_cases apart : b = a
    · rw [apart, mine] at call
      exact asks gate call
    · rw [other b apart] at call
      exact guarded.asks b gate call

/-- The lock of a section goes, and with it the call that had to let go of the section goes over to its end. -/
theorem Guarded.close {k : ContextCall} (guarded : Guarded s) (mine : (s.call a).section = some c)
    (nobody : ∀ w, (s.gates.wait w).starts ≠ some c) (ends : k = .done ∨ k = .closing c)
    (parentLock : g.parentLock = Function.update s.gates.parentLock c none) (wait : g.wait = s.gates.wait)
    (state : g.state = s.gates.state) (gates : g.gates = s.gates.gates) (waits : g.waits = s.gates.waits) :
    Guarded { s with
      gates := g
      call := Function.update s.call a k } := by
  obtain ⟨first, known⟩ := guarded.known a c mine
  have here : Function.update s.call a k a = k := Function.update_self ..
  have other : ∀ b, b ≠ a → Function.update s.call a k b = s.call b := fun b apart => Function.update_of_ne apart ..
  have letGo : ∀ d, s.gates.LetGo d ∨ d = c → g.LetGo d := by
    rintro d either
    by_cases same : d = c
    · rw [same]
      refine ⟨?_, ?_, ?_⟩
      · rw [parentLock, Function.update_self]
      · rw [wait]
        exact nobody
      · rw [state]
        exact guarded.begun c first known
    · have gone := either.resolve_right same
      refine ⟨?_, ?_, ?_⟩
      · rw [parentLock, Function.update_of_ne same]
        exact gone.unlocked
      · rw [wait]
        exact gone.nobody
      · rw [state]
        exact gone.begun
  have kSection : ∀ d, k.section = some d → d = c := by
    intro d is
    rcases ends with rfl | rfl
    · cases is
    · exact (Option.some.inj is).symm
  have mineOnly : ∀ b d, b ≠ a → (s.call b).section = some d → d ≠ c := by
    intro b d apart is same
    rw [same] at is
    exact apart (guarded.alone b a c is mine)
  refine ⟨?_, ?_, ?_, ?_, ?_, ?_, ?_, ?_, ?_, ?_, Nat.lt_of_lt_of_le guarded.root (Nat.le_of_eq gates.symm)⟩
  · intro b d is
    change (Function.update s.call a k b).section = some d at is
    change 0 < d ∧ d < g.gates
    rw [gates]
    by_cases apart : b = a
    · rw [apart, here] at is
      rw [kSection d is]
      exact ⟨first, known⟩
    · rw [other b apart] at is
      exact guarded.known b d is
  · intro b b' d is is'
    change (Function.update s.call a k b).section = some d at is
    change (Function.update s.call a k b').section = some d at is'
    by_cases apart : b = a
    · by_cases apart' : b' = a
      · rw [apart, apart']
      · rw [apart, here] at is
        rw [other b' apart'] at is'
        exact absurd (kSection d is) (mineOnly b' d apart' is')
    · rw [other b apart] at is
      by_cases apart' : b' = a
      · rw [apart', here] at is'
        exact absurd (kSection d is') (mineOnly b d apart is)
      · rw [other b' apart'] at is'
        exact guarded.alone b b' d is is'
  · intro d first known
    change d < g.gates at known
    rw [gates] at known
    change g.state d ≠ _
    rw [state]
    exact guarded.begun d first known
  · intro d first known
    change d < g.gates at known
    rw [gates] at known
    by_cases same : d = c
    · exact Or.inl (letGo d (Or.inr same))
    · rcases guarded.letGo d first known with gone | ⟨b, is⟩
      · exact Or.inl (letGo d (Or.inl gone))
      · refine Or.inr ⟨b, ?_⟩
        have apart : b ≠ a := by
          intro same'
          rw [same', mine] at is
          exact same (Option.some.inj is).symm
        change (Function.update s.call a k b).section = some d
        rw [other b apart]
        exact is
  · intro w d starts
    change (g.wait w).starts = some d at starts
    rw [wait] at starts
    obtain ⟨b, call⟩ := guarded.starts w d starts
    refine ⟨b, ?_⟩
    have apart : b ≠ a := by
      intro same
      rw [same] at call
      rw [call] at mine
      cases mine
      exact nobody w starts
    exact (other b apart).trans call
  · intro b d w call
    change Function.update s.call a k b = _ at call
    have apart : b ≠ a := by
      intro same
      rw [same, here] at call
      rcases ends with rfl | rfl <;> cases call
    rw [other b apart] at call
    have foreign := mineOnly b d apart (by rw [call]; rfl)
    have before := guarded.first b d w call
    unfold FirstWait at before ⊢
    change (g.wait w).starts = _ ∨ (∃ exception, g.wait w = _) ∨ g.parentLock d ≠ none
    rw [wait, parentLock, Function.update_of_ne foreign]
    exact before
  · intro b d call
    change Function.update s.call a k b = _ at call
    have apart : b ≠ a := by
      intro same
      rw [same, here] at call
      rcases ends with rfl | rfl <;> cases call
    rw [other b apart] at call
    have foreign := mineOnly b d apart (by rw [call]; rfl)
    change g.parentLock d ≠ none
    rw [parentLock, Function.update_of_ne foreign]
    exact guarded.running b d call
  · intro b d call
    change Function.update s.call a k b = _ at call
    by_cases apart : b = a
    · rw [apart, here] at call
      exact letGo d (Or.inr (kSection d (by rw [call]; rfl)))
    · rw [other b apart] at call
      exact letGo d (Or.inl (guarded.closing b d call))
  · intro b w waiting
    change (Function.update s.call a k b).wait = _ at waiting
    change w < g.waits
    rw [waits]
    by_cases apart : b = a
    · rw [apart, here] at waiting
      rcases ends with rfl | rfl <;> cases waiting
    · rw [other b apart] at waiting
      exact guarded.made b w waiting
  · intro b gate call
    change Function.update s.call a k b = _ at call
    change gate < g.gates
    rw [gates]
    by_cases apart : b = a
    · rw [apart, here] at call
      rcases ends with rfl | rfl <;> cases call
    · rw [other b apart] at call
      exact guarded.asks b gate call

/-- A section is begun, and its call waits for the first lock. -/
theorem Guarded.begin {h : InputGates} {calls : Nat} (guarded : Guarded s) (rightful : InputGates.Rightful h)
    (fresh : s.call a = .done) (newer : Deals none s.gates h)
    (gates : h.gates = s.gates.gates + 1) (starting : ∀ w, (s.gates.wait w).starts ≠ some s.gates.gates)
    (same : h.wait = s.gates.wait) (notStarted : h.state s.gates.gates = .notStarted) :
    Guarded { s with
      gates := h.call s.gates.gates false
      call := Function.update s.call a (.firstLock s.gates.gates h.waits)
      calls := calls } := by
  have known : s.gates.gates < h.gates := by omega
  obtain ⟨deals, starts⟩ := InputGates.Deals.start rightful guarded.root known notStarted
  have called : InputGates.step h (.wait s.gates.gates false) = some (h.call s.gates.gates false) := if_pos known
  have count : (h.call s.gates.gates false).gates = h.gates :=
    InputGates.waitOn_gates (h.recorded s.gates.gates false) s.gates.gates s.gates.gates h.waits false
  have mine : Function.update s.call a (.firstLock s.gates.gates h.waits) a = .firstLock s.gates.gates h.waits :=
    Function.update_self ..
  have other : ∀ b, b ≠ a → Function.update s.call a (.firstLock s.gates.gates h.waits) b = s.call b := fun b apart =>
    Function.update_of_ne apart ..
  have foreign : ∀ b d, (s.call b).section = some d → some s.gates.gates ≠ some d := by
    intro b d is equal
    have below := (guarded.known b d is).2
    rw [Option.some.inj equal] at below
    exact Nat.lt_irrefl _ below
  have apart : ∀ b, s.call b ≠ .done → b ≠ a := by
    intro b busy equal
    rw [equal] at busy
    exact busy fresh
  have split : ∀ d, d < h.gates → d = s.gates.gates ∨ d < s.gates.gates ∧ some s.gates.gates ≠ some d := by
    intro d below
    by_cases equal : d = s.gates.gates
    · exact Or.inl equal
    · refine Or.inr ⟨by omega, ?_⟩
      intro same
      exact equal (Option.some.inj same).symm
  refine ⟨?_, ?_, ?_, ?_, ?_, ?_, ?_, ?_, ?_, ?_, ?_⟩
  · intro b d is
    change (Function.update s.call a (.firstLock s.gates.gates h.waits) b).section = some d at is
    change 0 < d ∧ d < (h.call s.gates.gates false).gates
    rw [count, gates]
    by_cases here : b = a
    · rw [here, mine] at is
      cases is
      exact ⟨guarded.root, Nat.lt_succ_self _⟩
    · rw [other b here] at is
      have below := guarded.known b d is
      omega
  · intro b b' d is is'
    change (Function.update s.call a (.firstLock s.gates.gates h.waits) b).section = some d at is
    change (Function.update s.call a (.firstLock s.gates.gates h.waits) b').section = some d at is'
    by_cases here : b = a
    · by_cases here' : b' = a
      · rw [here, here']
      · rw [here, mine] at is
        rw [other b' here'] at is'
        exact absurd is (foreign b' d is')
    · rw [other b here] at is
      by_cases here' : b' = a
      · rw [here', mine] at is'
        exact absurd is' (foreign b d is)
      · rw [other b' here'] at is'
        exact guarded.alone b b' d is is'
  · intro d positive below
    change d < (h.call s.gates.gates false).gates at below
    rw [count] at below
    rcases split d below with new | ⟨old, distinct⟩
    · rw [new]
      exact starts.begun
    · exact deals.begun d distinct (newer.begun d (by simp) (guarded.begun d positive old))
  · intro d positive below
    change d < (h.call s.gates.gates false).gates at below
    rw [count] at below
    rcases split d below with new | ⟨old, distinct⟩
    · refine Or.inr ⟨a, ?_⟩
      change (Function.update s.call a (.firstLock s.gates.gates h.waits) a).section = some d
      rw [mine, new]
      rfl
    · rcases guarded.letGo d positive old with gone | ⟨b, is⟩
      · exact Or.inl (deals.letGo distinct (newer.letGo (by simp) gone))
      · refine Or.inr ⟨b, ?_⟩
        change (Function.update s.call a (.firstLock s.gates.gates h.waits) b).section = some d
        rw [other b (apart b (fun done => by rw [done] at is; cases is))]
        exact is
  · intro w d begins
    change ((h.call s.gates.gates false).wait w).starts = some d at begins
    by_cases new : w = h.waits
    · refine ⟨a, ?_⟩
      change Function.update s.call a (.firstLock s.gates.gates h.waits) a = _
      rw [new] at begins
      rw [mine, starts.mine d begins, new]
    · rw [starts.others w new, same] at begins
      obtain ⟨b, call⟩ := guarded.starts w d begins
      refine ⟨b, ?_⟩
      change Function.update s.call a (.firstLock s.gates.gates h.waits) b = _
      rw [other b (apart b (by rw [call]; simp))]
      exact call
  · intro b d w call
    change Function.update s.call a (.firstLock s.gates.gates h.waits) b = _ at call
    by_cases here : b = a
    · rw [here, mine] at call
      cases call
      exact starts.first
    · rw [other b here] at call
      have made := guarded.made b w (by rw [call]; rfl)
      have distinct := foreign b d (by rw [call]; rfl)
      exact deals.firstWait distinct (Nat.lt_of_lt_of_le made newer.waits)
        (newer.firstWait (by simp) made (guarded.first b d w call))
  · intro b d call
    change Function.update s.call a (.firstLock s.gates.gates h.waits) b = _ at call
    by_cases here : b = a
    · rw [here, mine] at call
      cases call
    · rw [other b here] at call
      exact deals.parentLock d (foreign b d (by rw [call]; rfl)) (newer.parentLock d (by simp) (guarded.running b d call))
  · intro b d call
    change Function.update s.call a (.firstLock s.gates.gates h.waits) b = _ at call
    by_cases here : b = a
    · rw [here, mine] at call
      cases call
    · rw [other b here] at call
      exact deals.letGo (foreign b d (by rw [call]; rfl)) (newer.letGo (by simp) (guarded.closing b d call))
  · intro b w waiting
    change (Function.update s.call a (.firstLock s.gates.gates h.waits) b).wait = some w at waiting
    change w < (h.call s.gates.gates false).waits
    have later := (InputGates.call_asked h s.gates.gates false).2
    by_cases here : b = a
    · rw [here, mine] at waiting
      cases waiting
      exact later
    · rw [other b here] at waiting
      have made := guarded.made b w waiting
      have grows := newer.waits
      omega
  · intro b gate call
    change Function.update s.call a (.firstLock s.gates.gates h.waits) b = _ at call
    change gate < (h.call s.gates.gates false).gates
    by_cases here : b = a
    · rw [here, mine] at call
      cases call
    · rw [other b here] at call
      have before := guarded.asks b gate call
      rw [count]
      omega
  · change 0 < (h.call s.gates.gates false).gates
    rw [count]
    omega

end Sections

/-- What every state of the context keeps, `loose` being a lock on its way from one holder to the next. -/
structure Good (s : IoContext) (loose : Option Nat) : Prop where
  healthy : Healthy s.gates
  custody : Custody s loose
  guarded : Guarded s

section Operations

variable {s : IoContext} {loose : Option Nat} {a c l : Nat}

theorem Good.live (good : Good s (some l)) : s.gates.given l = true ∧ ∃ h, s.gates.gateOf l = some h := by
  obtain ⟨given, live⟩ := (good.custody.hand l).2 (Or.inr (Or.inr rfl))
  exact ⟨given, Option.ne_none_iff_exists'.1 live⟩

theorem Good.release (good : Good s (some l)) :
    Good { s with gates := (InputGates.release l s.gates).2 } none := by
  obtain ⟨given, h, held⟩ := good.live
  have accounted := good.healthy.rightful.sound.accounted
  have bounded := good.healthy.rightful.bounded
  have stepped : s.gates.step (.release l) = some (InputGates.release l s.gates).2 := if_pos given
  have orderly : InputGates.Orderly s.gates (.release l) := trivial
  refine ⟨good.healthy.step orderly stepped, good.custody.release good.healthy, ?_⟩
  have released := InputGates.release_run accounted held
  have unlocked : Guarded { s with gates := s.gates.unlock l (s.gates.adopter h) } :=
    good.guarded.frame rfl rfl rfl rfl rfl
  have gates := InputGates.release_gates accounted l
  rw [released] at gates ⊢
  exact unlocked.deals (InputGates.Deals.freed bounded accounted.queued l _) gates

theorem release_ensures (f : Nat → ContextCall) :
    Ensures (fun s => Good s (some l) ∧ s.call = f) (onGates (InputGates.release l))
      (fun _ s => Good s none ∧ s.call = f) fun s => Good s none ∧ s.call = f := by
  intro s ⟨good, same⟩
  have done := good.release
  unfold onGates
  rcases ran : InputGates.release l s.gates with ⟨_ | _, g⟩ <;> rw [ran] at done <;> exact ⟨done, same⟩

theorem runImpl_ensures (f : Nat → ContextCall) :
    Ensures (fun s => Good s (some l) ∧ s.call = f) (runImpl l)
      (fun _ s => Good s none ∧ s.call = f) fun s => Good s none ∧ s.call = f := by
  unfold runImpl
  apply Ensures.state
  intro s ⟨good, same⟩
  obtain ⟨_, h, held⟩ := good.live
  rw [if_neg (by rw [held]; simp)]
  cases s.abortException with
  | none =>
    apply Ensures.update
    intro t ⟨is, _⟩
    rw [is]
    exact ⟨⟨good.healthy, good.custody.push, { good.guarded with }⟩, same⟩
  | some exception =>
    apply Ensures.bind
    · apply Ensures.weaken (release_ensures f)
      · intro t ⟨_, kept⟩
        exact kept
      · intro _ t kept
        exact kept
      · intro t kept
        exact kept
    · intro _
      exact Ensures.raise fun _ kept => kept

/-- A call of no section is over. -/
theorem Good.finish (good : Good s none) (known : a < s.calls) (outside : (s.call a).section = none)
    (left : ∀ w, (s.call a).wait = some w → (∃ l, s.gates.wait w = .resolved l) ∨
      ∃ exception, s.gates.wait w = .rejected exception) : Good (s.setCall a .done) (s.heldBy a) := by
  refine ⟨good.healthy, good.custody.leave (Or.inl known) ⟨rfl, by simp⟩ left, ?_⟩
  apply good.guarded.replace (k := .done) outside.symm
  · intro c w call
    rw [call] at outside
    cases outside
  · simp
  · simp
  · simp
  · intro w waiting
    cases waiting
  · simp

/-- A call waits on the gate. -/
theorem Good.ask (good : Good s none) (known : a < s.calls) (idle : s.call a = .done) {gate : Nat}
    (there : gate < s.gates.gates) (aborted : Bool) :
    Good ({ s with gates := s.gates.call gate aborted }.setCall a (.admission s.gates.waits)) none := by
  have rightful := good.healthy.rightful
  have counted := rightful.sound.accounted.counted
  have stepped : s.gates.step (.wait gate aborted) = some (s.gates.call gate aborted) := if_pos there
  have orderly : InputGates.Orderly s.gates (.wait gate aborted) := trivial
  have healthy := good.healthy.step orderly stepped
  have count : (s.gates.call gate aborted).gates = s.gates.gates :=
    InputGates.waitOn_gates (s.gates.recorded gate aborted) gate gate s.gates.waits aborted
  have below : s.gates.adopter gate ≤ gate := Forwarding.heir_le counted.below gate
  have deals : Deals none s.gates (s.gates.call gate aborted) := by
    apply InputGates.Deals.call rightful there
    intro positive
    exact good.guarded.begun _ positive (Nat.lt_of_le_of_lt below there)
  have waits : (s.gates.call gate aborted).waits = s.gates.waits + 1 :=
    (InputGates.Aside.waitOn (s.gates.asking gate aborted) gate gate s.gates.waits aborted).waits
  have empty : (s.call a).Empty := by
    rw [idle]
    exact ⟨rfl, by simp⟩
  refine ⟨healthy, ?_, ?_⟩
  · exact good.custody.ask good.healthy healthy.rightful.sound.accounted deals.toIssues waits (Nat.le_refl _) known rfl
      good.guarded.made empty
  · apply (good.guarded.deals deals count).replace
    · change none = (s.call a).section
      rw [idle]
      rfl
    · intro c w call
      change s.call a = _ at call
      rw [idle] at call
      cases call
    · simp
    · simp
    · simp
    · intro w waiting
      cases waiting
      change s.gates.waits < (s.gates.call gate aborted).waits
      omega
    · simp

theorem run_kept {input : SliceInput} (custody : ∀ l, input = .lock l → Good s (some l))
    (there : ∀ gate, input = .gate gate → Good s none ∧ gate < s.gates.gates) (known : a < s.calls)
    (idle : s.call a = .done) (aborted : Bool) : Good (run a input aborted s).2 none := by
  have still : s.setCall a .done = s := by
    unfold setCall
    rw [← idle, Function.update_eq_self]
  unfold run
  rw [state_bind, update_bind, still]
  cases input with
  | gate gate =>
    obtain ⟨good, there⟩ := there gate rfl
    cases s.abortException with
    | some exception => exact good
    | none => exact good.ask known idle there aborted
  | lock lock =>
    have good := custody lock rfl
    cases s.abortException with
    | none => exact ((runImpl_ensures s.call).reached ⟨good, rfl⟩).1
    | some exception =>
      have released : Ensures (fun t => Good t (some lock) ∧ t.call = s.call)
          (onGates (InputGates.release lock) >>= fun _ => (raise exception : Act Unit))
          (fun _ t => Good t none ∧ t.call = s.call) fun t => Good t none ∧ t.call = s.call :=
        .bind (release_ensures s.call) fun _ => .raise fun _ kept => kept
      exact (released.reached ⟨good, rfl⟩).1

theorem settled_kept {input : SliceInput} (good : Good s none) (call : s.call a = .awaiting input) :
    Good (run a input false s).2 none := by
  have known : a < s.calls := by
    by_contra later
    rw [good.custody.unmade a (Nat.le_of_not_lt later)] at call
    cases call
  have waitless : (s.call a).wait = none := by rw [call]; rfl
  have finished := good.finish known (by rw [call]; rfl) fun w waiting => by rw [waitless] at waiting; cases waiting
  have forgets : run a input false s = run a input false (s.setCall a .done) := by
    unfold run
    rw [state_bind, update_bind, state_bind, update_bind]
    have twice : (s.setCall a .done).setCall a .done = s.setCall a .done := by
      simp [setCall]
    rw [twice]
    rfl
  rw [forgets]
  have idle : (s.setCall a .done).call a = .done := Function.update_self ..
  apply run_kept (s := s.setCall a .done) ?_ ?_ known idle
  · intro l is
    rw [is] at call
    rw [heldBy_iff.2 (Or.inl call)] at finished
    exact finished
  · intro gate is
    rw [is] at call
    have empty : (s.call a).Empty := by
      rw [call]
      exact ⟨rfl, by simp⟩
    rw [Option.eq_none_iff_forall_ne_some.2 (empty_handed empty)] at finished
    exact ⟨finished, good.guarded.asks a gate call⟩

theorem enter_kept {w : Nat} (good : Good s none) (call : s.call a = .admission w) : Good (enter a w s).2 none := by
  have known : a < s.calls := by
    by_contra later
    rw [good.custody.unmade a (Nat.le_of_not_lt later)] at call
    cases call
  unfold enter
  rw [state_bind]
  have finish : (∃ l, s.gates.wait w = .resolved l) ∨ (∃ exception, s.gates.wait w = .rejected exception) →
      Good (s.setCall a .done) (s.heldBy a) := by
    intro ended
    apply good.finish known (by rw [call]; rfl)
    intro w' waiting
    rw [call] at waiting
    cases waiting
    exact ended
  cases status : s.gates.wait w with
  | linked g starts => exact good
  | granted c lock => exact good
  | refused c exception => exact good
  | rejected exception =>
    have done := finish (Or.inr ⟨exception, status⟩)
    have empty : s.heldBy a = none := by
      rw [Option.eq_none_iff_forall_ne_some]
      intro l has
      rcases heldBy_iff.1 has with direct | ⟨w', waiting, resolved⟩
      · rw [call] at direct
        cases direct
      · rw [call] at waiting
        cases waiting
        rw [status] at resolved
        cases resolved
    rw [empty] at done
    exact done
  | resolved lock =>
    have done := finish (Or.inl ⟨lock, status⟩)
    have held : s.heldBy a = some lock := heldBy_iff.2 (Or.inr ⟨w, by rw [call]; rfl, status⟩)
    rw [held] at done
    exact ((runImpl_ensures _).reached ⟨done, rfl⟩).1

theorem addCall_kept {k : ContextCall} {loose : Option Nat} (good : Good s loose) (empty : k.Empty)
    (outside : k.section = none) (asks : ∀ gate, k = .awaiting (.gate gate) → gate < s.gates.gates) :
    Good (s.addCall k) loose := by
  have fresh := good.custody.unmade s.calls (Nat.le_refl _)
  refine ⟨good.healthy, good.custody.stay (Nat.le_succ _) (Or.inl (Nat.lt_succ_self _)) empty good.custody.fresh, ?_⟩
  have inside : ∀ c, k.section ≠ some c := by
    intro c is
    rw [outside] at is
    cases is
  apply good.guarded.replace
  · rw [outside, fresh]
    rfl
  · intro c w call
    rw [fresh] at call
    cases call
  · intro c w is
    exact inside c (by rw [is]; rfl)
  · intro c is
    exact absurd (by rw [is]; rfl) (inside c)
  · intro c is
    exact absurd (by rw [is]; rfl) (inside c)
  · intro w waiting
    rw [empty.1] at waiting
    cases waiting
  · exact asks

theorem awaitIo_kept (good : Good s none) : Good (awaitIo s).2 none := by
  have awaits : ∀ gate, gate < s.gates.gates → getCriticalSection s = (.ok gate, s) → Good (awaitIo s).2 none := by
    intro gate there ran
    unfold awaitIo
    rw [bind_run_ok ran]
    apply addCall_kept good ⟨rfl, by simp⟩ rfl
    intro gate' is
    cases is
    exact there
  cases stack : s.currentInputLocks with
  | nil =>
    apply awaits 0 good.guarded.root
    unfold getCriticalSection
    rw [state_bind, stack]
    rfl
  | cons lock rest =>
    cases held : s.gates.gateOf lock with
    | none =>
      have thrown : getCriticalSection s = (.error "InputGate::Lock was used after release", s) := by
        unfold getCriticalSection
        rw [state_bind, stack]
        simp only [held, raise_run]
      unfold awaitIo
      rw [bind_run_error thrown]
      exact good
    | some gate =>
      apply awaits gate (good.healthy.rightful.sound.accounted.counted.gate lock gate held)
      unfold getCriticalSection
      rw [state_bind, stack]
      simp only [held, pure_run]

/-- `getInputLock` throws, or leaves a new lock of the gate of the slice on its way. -/
theorem getInputLock_run (good : Good s none) : (∃ e, getInputLock s = (.error e, s)) ∨
    ∃ gate, gate < s.gates.gates ∧
      getInputLock s = (.ok s.gates.locks, { s with gates := s.gates.newLock gate true }) ∧
      Good { s with gates := s.gates.newLock gate true } (some s.gates.locks) := by
  have counted := good.healthy.rightful.sound.accounted.counted
  cases stack : s.currentInputLocks with
  | nil =>
    refine Or.inl ⟨"no input lock available in this context", ?_⟩
    have thrown : requireCurrent s = (.error "no input lock available in this context", s) := by
      unfold requireCurrent
      rw [state_bind, stack]
      rfl
    unfold getInputLock
    rw [bind_run_error thrown]
  | cons lock rest =>
    have current : requireCurrent s = (.ok lock, s) := by
      unfold requireCurrent
      rw [state_bind, stack]
      rfl
    have member : lock ∈ s.currentInputLocks := by
      rw [stack]
      exact List.mem_cons_self
    obtain ⟨given, live⟩ := (good.custody.hand lock).2 (Or.inl member)
    obtain ⟨gate, held⟩ := Option.ne_none_iff_exists'.1 live
    have added : InputGates.addRef lock s.gates = (.ok (), s.gates.newLock gate true) := by
      unfold InputGates.addRef
      rw [state_bind]
      simp only [held, update_run]
    rw [← stack]
    refine Or.inr ⟨gate, counted.gate lock gate held, ?_, ?_, ?_, ?_⟩
    · unfold getInputLock
      rw [bind_run_ok current, state_bind]
      have ran : onGates (InputGates.addRef lock) s = (.ok (), { s with gates := s.gates.newLock gate true }) := by
        unfold onGates
        rw [added]
      rw [bind_run_ok ran]
      rfl
    · have stepped : s.gates.step (.addRef lock) = some (s.gates.newLock gate true) :=
        (if_pos given).trans (congrArg (fun ran => some ran.2) added)
      have orderly : InputGates.Orderly s.gates (.addRef lock) := trivial
      exact good.healthy.step orderly stepped
    · exact good.custody.addRef counted gate
    · exact good.guarded.frame rfl rfl rfl rfl rfl

theorem awaitIoWithInputLock_kept (good : Good s none) : Good (awaitIoWithInputLock s).2 none := by
  unfold awaitIoWithInputLock
  rcases getInputLock_run good with ⟨e, thrown⟩ | ⟨gate, _, ran, held⟩
  · rw [bind_run_error thrown]
    exact good
  · rw [bind_run_ok ran]
    refine ⟨held.healthy, held.custody.keep, ?_⟩
    have fresh := held.custody.unmade s.calls (Nat.le_refl _)
    apply held.guarded.replace
    · change none = _
      rw [fresh]
      rfl
    · intro c w call
      rw [fresh] at call
      cases call
    · simp
    · simp
    · simp
    · intro w waiting
      cases waiting
    · simp

/-- A call makes a section, and waits for its first lock. -/
theorem Good.begin (good : Good s (some l)) {gate : Nat} (held : s.gates.gateOf l = some gate) :
    Good { s with
      gates := (s.gates.newSection gate).call s.gates.gates false
      call := Function.update s.call s.calls (.firstLock s.gates.gates s.gates.waits)
      calls := s.calls + 1 } (some l) := by
  obtain ⟨given, _⟩ := good.live
  have rightful := good.healthy.rightful
  have known : s.gates.gates < (s.gates.newSection gate).gates := Nat.lt_succ_self _
  have made : s.gates.step (.startCriticalSection l) = some (s.gates.newSection gate) := by
    have started : InputGates.startCriticalSection l s.gates = (.ok (), s.gates.newSection gate) := by
      unfold InputGates.startCriticalSection
      rw [state_bind]
      simp only [held, update_run]
    exact (if_pos given).trans (congrArg (fun ran => some ran.2) started)
  have asked : (s.gates.newSection gate).step (.wait s.gates.gates false) =
      some ((s.gates.newSection gate).call s.gates.gates false) := if_pos known
  have first : InputGates.Orderly s.gates (.startCriticalSection l) := trivial
  have second : InputGates.Orderly (s.gates.newSection gate) (.wait s.gates.gates false) := trivial
  have newer := InputGates.Deals.newSection rightful.bounded gate
  have healthy := good.healthy.step first made
  have last := healthy.step second asked
  have waits : ((s.gates.newSection gate).call s.gates.gates false).waits = s.gates.waits + 1 :=
    (InputGates.Aside.waitOn ((s.gates.newSection gate).asking s.gates.gates false) s.gates.gates s.gates.gates
      s.gates.waits false).waits
  have fresh := good.custody.unmade s.calls (Nat.le_refl _)
  refine ⟨last, ?_, ?_⟩
  · have issues := newer.toIssues.trans (InputGates.Issues.call healthy.rightful known false)
    exact good.custody.ask good.healthy last.rightful.sound.accounted issues waits (Nat.le_succ _) (Nat.lt_succ_self _) rfl
      good.guarded.made good.custody.fresh
  · apply good.guarded.begin healthy.rightful fresh newer rfl ?_ rfl (good.healthy.blank _ (Or.inr (Nat.le_refl _)))
    intro w starts
    exact Nat.lt_irrefl _ (rightful.sound.starting.initial w _ starts).2

theorem blockConcurrencyWhile_kept (good : Good s none) : Good (blockConcurrencyWhile s).2 none := by
  unfold blockConcurrencyWhile
  rcases getInputLock_run good with ⟨e, thrown⟩ | ⟨gate, _, ran, held⟩
  · rw [bind_run_error thrown]
    exact good
  · have mine : (s.gates.newLock gate true).gateOf s.gates.locks = some gate := Function.update_self ..
    have begun := held.begin mine
    have started : onGates (InputGates.startCriticalSection s.gates.locks) { s with gates := s.gates.newLock gate true } =
        (.ok (), { s with gates := (s.gates.newLock gate true).newSection gate }) := by
      unfold onGates InputGates.startCriticalSection
      rw [state_bind]
      simp only [mine, update_run]
    rw [bind_run_ok ran, state_bind, bind_run_ok started]
    exact begun.release

/-- Nobody else begins the section of a call that has its first lock, or will not have it. -/
theorem Guarded.nobody (guarded : Guarded s) (mine : (s.call a).section = some c)
    (ended : ∀ w, s.call a = .firstLock c w → (s.gates.wait w).starts = none) (w : Nat) :
    (s.gates.wait w).starts ≠ some c := by
  intro starts
  obtain ⟨b, call⟩ := guarded.starts w c starts
  have same := guarded.alone b a c (by rw [call]; rfl) mine
  rw [same] at call
  have none := ended w call
  rw [starts] at none
  cases none

/-- What is let go of a section with its call. -/
theorem Good.drop (good : Good s none) (known : a < s.calls) (mine : (s.call a).section = some c)
    (nobody : ∀ w, (s.gates.wait w).starts ≠ some c) (empty : s.heldBy a = none)
    (left : ∀ w, (s.call a).wait = some w → (∃ l, s.gates.wait w = .resolved l) ∨
      ∃ exception, s.gates.wait w = .rejected exception) :
    Good { s with
      gates := (InputGates.drop c s.gates).2
      call := Function.update s.call a .done } none := by
  have rightful := good.healthy.rightful
  have accounted := rightful.sound.accounted
  have stepped : s.gates.step (.drop c) = some (InputGates.drop c s.gates).2 := if_pos (good.guarded.known a c mine)
  have orderly : InputGates.Orderly s.gates (.drop c) := trivial
  have healthy := good.healthy.step orderly stepped
  obtain ⟨gates, waits⟩ := InputGates.drop_counts good.healthy c
  have settles := InputGates.Settles.dropped s.gates c
  refine ⟨healthy, ?_, ?_⟩
  · have issues := InputGates.Issues.drop rightful good.healthy.exclusive c
    have gone := good.custody.leave (k := .done) (Or.inl known) ⟨rfl, by simp⟩ left
    rw [empty] at gone
    apply gone.issues accounted.counted rightful.bounded healthy.rightful.sound.accounted issues
    intro w below
    left
    change w < s.gates.waits
    omega
  · have dropped : Deals none s.gates (s.gates.dropped c) := .dropped rightful.bounded accounted c
    have guarded := good.guarded.deals dropped settles.gates
    have closed : Guarded { s with
        gates := (s.gates.dropped c).disown c
        call := Function.update s.call a .done } := by
      apply guarded.close (k := .done) (g := (s.gates.dropped c).disown c) mine ?_ (Or.inl rfl) rfl rfl rfl rfl rfl
      intro w starts
      exact nobody w (dropped.starts w c (by simp) starts)
    exact closed.deals (InputGates.Deals.disowned rightful good.healthy.exclusive c) (gates.trans settles.gates.symm)

theorem sectionFailed_kept (good : Good s none) (known : a < s.calls) (mine : (s.call a).section = some c)
    (nobody : ∀ w, (s.gates.wait w).starts ≠ some c) (empty : s.heldBy a = none)
    (left : ∀ w, (s.call a).wait = some w → (∃ l, s.gates.wait w = .resolved l) ∨
      ∃ exception, s.gates.wait w = .rejected exception) (broken : GateException) :
    Good (sectionFailed a c broken s).2 none := by
  have rightful := good.healthy.rightful
  have accounted := rightful.sound.accounted
  have stepped : s.gates.step (.failed c broken) = some (s.gates.failed c c broken) :=
    if_pos (good.guarded.known a c mine)
  have orderly : InputGates.Orderly s.gates (.failed c broken) := trivial
  have healthy := good.healthy.step orderly stepped
  have settles := InputGates.Settles.failed s.gates c c broken
  have refused := InputGates.failed_refused accounted c c broken
  have deals : Deals none s.gates (s.gates.failed c c broken) := .failed rightful.bounded accounted c c broken
  have failed : Good { s with gates := s.gates.failed c c broken } none := by
    refine ⟨healthy, ?_, good.guarded.deals deals settles.gates⟩
    apply good.custody.issues accounted.counted rightful.bounded healthy.rightful.sound.accounted deals.toIssues
    intro w below
    rw [settles.waits] at below
    exact Or.inl below
  apply failed.drop known mine
  · intro w starts
    exact nobody w (deals.starts w c (by simp) starts)
  · rw [Option.eq_none_iff_forall_ne_some]
    intro l has
    rcases heldBy_iff.1 has with direct | ⟨w, waiting, resolved⟩
    · exact absurd (empty.symm.trans (heldBy_iff.2 (Or.inl direct))) (by simp)
    · have before : s.gates.wait w = .resolved l := by
        rcases refused w with same | ⟨exception, told⟩
        · exact same.symm.trans resolved
        · exact InputGates.refuse_resolved (told.symm.trans resolved)
      exact absurd (empty.symm.trans (heldBy_iff.2 (Or.inr ⟨w, waiting, before⟩))) (by simp)
  · intro w waiting
    rcases left w waiting with ⟨l, resolved⟩ | ⟨exception, rejected⟩
    · exact Or.inl ⟨l, deals.resolved w l resolved⟩
    · exact Or.inr ⟨exception, deals.rejected w exception (good.guarded.made a w waiting) rejected⟩

/-- A call of a section whose first lock is no question any more fails with it. -/
theorem Good.failing (good : Good s none) (known : a < s.calls)
    (call : s.call a = .callback c ∨ s.call a = .closing c) (broken : GateException) :
    Good (sectionFailed a c broken s).2 none := by
  have mine : (s.call a).section = some c := by
    rcases call with is | is <;> rw [is] <;> rfl
  have empty : (s.call a).Empty := by
    rcases call with is | is <;> rw [is] <;> exact ⟨rfl, by simp⟩
  apply sectionFailed_kept good known mine
  · apply good.guarded.nobody mine
    intro w is
    rw [is] at empty
    cases empty.1
  · exact Option.eq_none_iff_forall_ne_some.2 (empty_handed empty)
  · intro w waiting
    rw [empty.1] at waiting
    cases waiting

theorem known_of_call {k : ContextCall} (custody : Custody s loose) (call : s.call a = k) (busy : k ≠ .done) :
    a < s.calls := by
  by_contra later
  rw [custody.unmade a (Nat.le_of_not_lt later)] at call
  exact busy call.symm

theorem startCallback_kept {w : Nat} (good : Good s none) (call : s.call a = .firstLock c w) (broken : GateException) :
    Good (startCallback a c w broken s).2 none := by
  have known := known_of_call good.custody call (by simp)
  have mine : (s.call a).section = some c := by
    rw [call]
    rfl
  have waits : ∀ y, (s.call a).wait = some y → y = w := by
    intro y waiting
    rw [call] at waiting
    exact (Option.some.inj waiting).symm
  unfold startCallback
  rw [state_bind]
  cases status : s.gates.wait w with
  | linked g starts => exact good
  | granted d lock => exact good
  | refused d exception => exact good
  | rejected exception =>
    apply sectionFailed_kept good known mine
    · apply good.guarded.nobody mine
      intro y is
      rw [waits y (by rw [is]; rfl), status]
      rfl
    · rw [Option.eq_none_iff_forall_ne_some]
      intro l has
      rcases heldBy_iff.1 has with direct | ⟨y, waiting, resolved⟩
      · rw [call] at direct
        cases direct
      · rw [waits y waiting, status] at resolved
        cases resolved
    · intro y waiting
      rw [waits y waiting]
      exact Or.inr ⟨exception, status⟩
  | resolved lock =>
    have held : s.heldBy a = some lock := heldBy_iff.2 (Or.inr ⟨w, by rw [call]; rfl, status⟩)
    have entered : Good (s.setCall a (.callback c)) (some lock) := by
      have custody := good.custody.leave (k := .callback c) (Or.inl known) ⟨rfl, by simp⟩ (by
        intro y waiting
        rw [waits y waiting]
        exact Or.inl ⟨lock, status⟩)
      rw [held] at custody
      refine ⟨good.healthy, custody, ?_⟩
      apply good.guarded.replace (k := .callback c) mine.symm
      · intro d y is
        rw [waits y (by rw [is]; rfl)]
        exact ⟨lock, status⟩
      · simp
      · intro d is
        cases is
        rcases good.guarded.first a c w call with starts | ⟨exception, rejected⟩ | locked
        · rw [status] at starts
          cases starts
        · rw [status] at rejected
          cases rejected
        · exact locked
      · simp
      · intro y waiting
        cases waiting
      · simp
    have ran := runImpl_ensures (l := lock) (s.setCall a (.callback c)).call (s.setCall a (.callback c)) ⟨entered, rfl⟩
    show Good (attempt _ _ s).2 none
    rcases result : runImpl lock (s.setCall a (.callback c)) with ⟨e | u, t⟩
    · rw [result] at ran
      have thrown : (update (fun s => s.setCall a (.callback c)) >>= fun _ => runImpl lock : Act Unit) s =
          (.error e, t) := result
      rw [attempt_run_error thrown]
      have here : t.call a = .callback c := by
        rw [ran.2]
        exact Function.update_self ..
      exact ran.1.failing (known_of_call ran.1.custody here (by simp)) (Or.inl here) broken
    · rw [result] at ran
      have returned : (update (fun s => s.setCall a (.callback c)) >>= fun _ => runImpl lock : Act Unit) s =
          (.ok u, t) := result
      rw [attempt_run_ok returned]
      exact ran.1

/-- A lock that was in nobody's hands comes to be on its way. -/
theorem Custody.hands (custody : Custody s none) (kept : s.gates.given l = false) (live : s.gates.gateOf l ≠ none)
    (gateOf : g.gateOf = s.gates.gateOf) (given : g.given = Function.update s.gates.given l true)
    (wait : g.wait = s.gates.wait) (waits : g.waits = s.gates.waits) : Custody { s with gates := g } (some l) := by
  have still : ∀ b, heldBy { s with gates := g } b = s.heldBy b := by
    intro b
    unfold heldBy
    simp only [wait]
  have hands : ∀ i, g.InHand i ↔ s.gates.InHand i ∨ i = l := by
    intro i
    unfold InHand
    rw [gateOf, given]
    by_cases same : i = l
    · rw [same]
      simp [live]
    · simp [Function.update_of_ne same, same]
  have free : ¬ s.gates.InHand l := by
    intro has
    rw [has.1] at kept
    cases kept
  refine ⟨custody.stack, custody.ends, ?_, ?_, ?_, ?_, custody.unmade, custody.single, ?_⟩
  · intro i
    change g.InHand i ↔ i ∈ s.currentInputLocks ∨ (∃ b, heldBy { s with gates := g } b = some i) ∨ _
    rw [hands, custody.hand i]
    simp only [still, reduceCtorEq, or_false, Option.some.injEq]
    rw [or_assoc, eq_comm (a := l)]
  · intro b i has
    rw [still] at has
    refine ⟨(custody.aside b i has).1, ?_⟩
    intro same
    cases same
    exact free ((custody.hand l).2 (Or.inr (Or.inl ⟨b, has⟩)))
  · intro i same member
    cases same
    exact free ((custody.hand l).2 (Or.inl member))
  · intro b b' i has has'
    rw [still] at has has'
    exact custody.once b b' i has has'
  · intro w below
    change w < g.waits at below
    change (∃ b, (s.call b).wait = some w) ∨ (∃ l, g.wait w = _) ∨ ∃ exception, g.wait w = _
    rw [waits] at below
    rw [wait]
    exact custody.settled w below

theorem callbackReturned_kept (good : Good s none) (call : s.call a = .callback c) (broken : GateException) :
    Good (callbackReturned a c broken s).2 none := by
  have known := known_of_call good.custody call (by simp)
  have mine : (s.call a).section = some c := by
    rw [call]
    rfl
  have rightful := good.healthy.rightful
  have accounted := rightful.sound.accounted
  unfold callbackReturned
  by_cases running : s.gates.state c = .running
  · obtain ⟨lock, has⟩ := Option.ne_none_iff_exists'.1 (good.guarded.running a c call)
    have handed : InputGates.succeeded c s.gates = (.ok lock, (InputGates.succeeded c s.gates).2) := by
      unfold InputGates.succeeded
      rw [state_bind, if_neg (not_not.2 running), update_bind, has]
      rfl
    have left := InputGates.succeeded_state running
    rw [has] at left
    dsimp only at left
    have stepped : s.gates.step (.succeeded c) = some (InputGates.succeeded c s.gates).2 :=
      if_pos (good.guarded.known a c mine)
    have orderly : InputGates.Orderly s.gates (.succeeded c) := fun _ => good.guarded.running a c call
    have healthy := good.healthy.step orderly stepped
    have owns : s.gates.lockOf (.inl c) = some (c, lock) := by
      change (s.gates.parentLock c).map _ = _
      rw [has]
      rfl
    have kept := good.healthy.exclusive.kept (.inl c) c lock owns
    have live : s.gates.gateOf lock ≠ none := by
      obtain ⟨h, held, _⟩ := good.healthy.exclusive.target (.inl c) c lock owns
      rw [held]
      simp
    have deals := InputGates.Deals.reparent rightful.bounded c
    have moved := InputGates.reparent_kept accounted rightful.sound.starting (good.guarded.known a c mine).1
      (good.guarded.known a c mine).2 running
    have custody : Custody { s with gates := s.gates.reparent c } none :=
      good.custody.issues accounted.counted rightful.bounded moved.1 deals.toIssues fun w below => Or.inl below
    have freed : Custody { s with gates := (InputGates.succeeded c s.gates).2 } (some lock) := by
      rw [left]
      exact custody.hands kept live rfl rfl rfl rfl
    have closing : Good ({ s with gates := (InputGates.succeeded c s.gates).2 }.setCall a (.closing c)) (some lock) := by
      refine ⟨healthy, ?_, ?_⟩
      · apply freed.stay (Nat.le_refl _) (Or.inl known) ⟨rfl, by simp⟩
        change (s.call a).Empty
        rw [call]
        exact ⟨rfl, by simp⟩
      · have guarded := good.guarded.deals deals rfl
        rw [left]
        apply guarded.close (g := { s.gates.reparent c with
          parentLock := Function.update s.gates.parentLock c none
          given := Function.update s.gates.given lock true }) mine ?_ (Or.inr rfl) rfl rfl rfl rfl rfl
        intro w starts
        apply good.guarded.nobody mine ?_ w (deals.starts w c (by simp) starts)
        intro y is
        rw [call] at is
        cases is
    have ran := runImpl_ensures _ _ ⟨closing, rfl⟩
    have first : onGates (InputGates.succeeded c) s =
        (.ok lock, { s with gates := (InputGates.succeeded c s.gates).2 }) := by
      unfold onGates
      rw [handed]
    rcases result : runImpl lock ({ s with gates := (InputGates.succeeded c s.gates).2 }.setCall a (.closing c)) with
      ⟨e | u, t⟩
    · rw [result] at ran
      have thrown : (onGates (InputGates.succeeded c) >>= fun parentLock =>
          update (fun s => s.setCall a (.closing c)) >>= fun _ => runImpl parentLock : Act Unit) s = (.error e, t) := by
        rw [bind_run_ok first, update_bind]
        exact result
      rw [attempt_run_error thrown]
      have here : t.call a = .closing c := by
        rw [ran.2]
        exact Function.update_self ..
      exact ran.1.failing (known_of_call ran.1.custody here (by simp)) (Or.inr here) broken
    · rw [result] at ran
      have returned : (onGates (InputGates.succeeded c) >>= fun parentLock =>
          update (fun s => s.setCall a (.closing c)) >>= fun _ => runImpl parentLock : Act Unit) s = (.ok u, t) := by
        rw [bind_run_ok first, update_bind]
        exact result
      rw [attempt_run_ok returned]
      exact ran.1
  · have refused : onGates (InputGates.succeeded c) s =
        (.error "CriticalSection::succeeded() requires a running critical section", s) := by
      unfold onGates InputGates.succeeded
      rw [state_bind, if_pos running]
      rfl
    have thrown : (onGates (InputGates.succeeded c) >>= fun parentLock =>
        update (fun s => s.setCall a (.closing c)) >>= fun _ => runImpl parentLock : Act Unit) s =
        (.error "CriticalSection::succeeded() requires a running critical section", s) := bind_run_error refused
    rw [attempt_run_error thrown]
    exact good.failing known (Or.inl call) broken

theorem close_kept (good : Good s none) (call : s.call a = .closing c) : Good (close a c s).2 none := by
  have known := known_of_call good.custody call (by simp)
  have mine : (s.call a).section = some c := by
    rw [call]
    rfl
  have empty : (s.call a).Empty := by
    rw [call]
    exact ⟨rfl, by simp⟩
  apply good.drop known mine (good.guarded.closing a c call).nobody
  · exact Option.eq_none_iff_forall_ne_some.2 (empty_handed empty)
  · intro w waiting
    rw [empty.1] at waiting
    cases waiting

theorem exit_kept {rest : List Nat} (good : Good s none) (ends : s.checkpointEnds = l :: rest) :
    Good (exit l { s with checkpointEnds := rest }).2 none := by
  obtain ⟨member, popped⟩ := good.custody.pop ends
  unfold exit
  rw [state_bind, if_pos member, update_bind]
  have loose : Good { s with
      currentInputLocks := s.currentInputLocks.erase l
      checkpointEnds := rest } (some l) := ⟨good.healthy, popped, { good.guarded with }⟩
  exact loose.release

theorem abort_kept (good : Good s none) (exception : String) : Good (s.abort exception) none := by
  unfold abort
  split
  · exact ⟨good.healthy, { good.custody with }, { good.guarded with }⟩
  · exact good

/-- What the gates do for waits alone. -/
theorem Good.deals (good : Good s none) (healthy : Healthy g) (deals : Deals none s.gates g)
    (gates : g.gates = s.gates.gates) (waits : g.waits = s.gates.waits) : Good { s with gates := g } none := by
  have rightful := good.healthy.rightful
  refine ⟨healthy, ?_, good.guarded.deals deals gates⟩
  apply good.custody.issues rightful.sound.accounted.counted rightful.bounded healthy.rightful.sound.accounted
    deals.toIssues
  intro w below
  rw [waits] at below
  exact Or.inl below

theorem step_good {t : IoContext} {event : Event} (good : Good s none) (stepped : s.step event = some t) :
    Good t none := by
  have rightful := good.healthy.rightful
  cases event <;> simp only [step] at stepped
  case run gate aborted =>
    obtain ⟨known, made⟩ := Option.ite_none_right_eq_some.1 stepped
    cases made
    have added := addCall_kept (k := .done) good ⟨rfl, by simp⟩ rfl (by simp)
    have idle : (s.addCall .done).call s.calls = .done := Function.update_self ..
    apply run_kept (s := s.addCall .done) (by simp) ?_ (Nat.lt_succ_self _) idle aborted
    intro gate' same
    cases same
    exact ⟨added, known⟩
  case awaitIo =>
    cases stepped
    exact awaitIo_kept good
  case awaitIoWithInputLock =>
    cases stepped
    exact awaitIoWithInputLock_kept good
  case blockConcurrencyWhile =>
    cases stepped
    exact blockConcurrencyWhile_kept good
  case settled a =>
    cases call : s.call a <;> rw [call] at stepped <;> cases stepped
    exact settled_kept good call
  case admitted a =>
    cases call : s.call a <;> rw [call] at stepped <;> cases stepped
    exact enter_kept good call
  case firstLock a broken =>
    cases call : s.call a <;> rw [call] at stepped <;> cases stepped
    exact startCallback_kept good call broken
  case callbackReturned a broken =>
    cases call : s.call a <;> rw [call] at stepped <;> cases stepped
    exact callbackReturned_kept good call broken
  case callbackFailed a broken =>
    cases call : s.call a <;> rw [call] at stepped <;> cases stepped
    exact good.failing (known_of_call good.custody call (by simp)) (Or.inl call) broken
  case closed a =>
    cases call : s.call a <;> rw [call] at stepped <;> cases stepped
    exact close_kept good call
  case checkpointEnd =>
    cases ends : s.checkpointEnds <;> rw [ends] at stepped <;> cases stepped
    exact exit_kept good ends
  case abort exception =>
    cases stepped
    exact abort_kept good exception
  case resume w =>
    obtain ⟨g, resumed, rfl⟩ := Option.map_eq_some_iff.1 stepped
    have orderly : InputGates.Orderly s.gates (.resume w) := trivial
    have healthy := good.healthy.step orderly resumed
    simp only [InputGates.step, Option.ite_none_right_eq_some, Option.some.injEq] at resumed
    obtain ⟨_, rfl⟩ := resumed
    exact good.deals healthy (.resume rightful w) (InputGates.resume_gates _ w) (InputGates.Aside.resume _ w).waits
  case cancel w =>
    obtain ⟨_, stepped⟩ := Option.ite_none_right_eq_some.1 stepped
    obtain ⟨g, aborted, rfl⟩ := Option.map_eq_some_iff.1 stepped
    have orderly : InputGates.Orderly s.gates (.abort w) := trivial
    have healthy := good.healthy.step orderly aborted
    simp only [InputGates.step, Option.ite_none_right_eq_some, Option.some.injEq] at aborted
    obtain ⟨_, rfl⟩ := aborted
    have settles := InputGates.Settles.abort s.gates w
    exact good.deals healthy (.settles rightful.bounded settles (InputGates.abort_refused s.gates w)) settles.gates
      settles.waits

theorem opened_good : Good opened none := by
  have healthy : Healthy InputGates.opened :=
    ⟨InputGates.opened_rightful, InputGates.opened_exclusive, InputGates.opened_owned, InputGates.opened_settled.sections,
      fun _ _ => rfl⟩
  have unheld : ∀ a l, heldBy opened a ≠ some l := by
    intro a l has
    cases has
  refine ⟨healthy, ⟨List.nodup_nil, List.Perm.nil, ?_, ?_, ?_, ?_, fun _ _ => rfl, ?_, ?_⟩, ?_⟩
  · intro l
    constructor
    · intro has
      exact absurd rfl has.2
    · rintro (member | ⟨a, has⟩ | floats)
      · cases member
      · exact absurd has (unheld a l)
      · cases floats
  · intro a l has
    exact absurd has (unheld a l)
  · intro l floats
    cases floats
  · intro a b l has
    exact absurd has (unheld a l)
  · intro a b w waiting
    cases waiting
  · intro w made
    cases made
  · constructor
    · intro a c is
      cases is
    · intro a b c is
      cases is
    · intro c first known
      change c < 1 at known
      omega
    · intro c first known
      change c < 1 at known
      omega
    · intro w c starts
      cases starts
    · intro a c w call
      cases call
    · intro a c call
      cases call
    · intro a c call
      cases call
    · intro a w waiting
      cases waiting
    · intro a gate call
      cases call
    · exact Nat.zero_lt_one

theorem reached_good {s : IoContext} (reached : Reaches step (fun _ _ => True) opened s) : Good s none :=
  reached.invariant opened_good fun _ _ _ good _ stepped => step_good good stepped

end Operations

/-- Who is to release a lock. -/
inductive Holder
  /-- The end of the checkpoint of the slice that runs under the lock. -/
  | slice
  | call (a : Nat)
  /-- The end of the section that a call runs. -/
  | section (a : Nat)

/-- A section has the lock of its parent from the grant on, which its first `wait` may still have to take over. -/
def has (s : IoContext) : Holder → Nat → Prop
  | .slice, l => l ∈ s.currentInputLocks
  | .call a, l => s.heldBy a = some l
  | .section a, l => ∃ c, (s.call a).section = some c ∧
      (s.gates.parentLock c = some l ∨ ∃ w, s.call a = .firstLock c w ∧ s.gates.wait w = .granted c l)

section Holding

variable {s : IoContext} {a l : Nat}

theorem Good.kept {h : Holder} (good : Good s none) (mine : s.has h l) : s.gates.gateOf l ≠ none ∧
    ((∀ a, h ≠ .section a) → s.gates.given l = true) ∧
    ∀ a, h = .section a → ∃ o c, s.gates.lockOf o = some (c, l) ∧ (s.call a).section = some c := by
  cases h with
  | slice =>
    obtain ⟨given, live⟩ := (good.custody.hand l).2 (Or.inl mine)
    exact ⟨live, fun _ => given, by simp⟩
  | call a =>
    obtain ⟨given, live⟩ := (good.custody.hand l).2 (Or.inr (Or.inl ⟨a, mine⟩))
    exact ⟨live, fun _ => given, by simp⟩
  | «section» a =>
    obtain ⟨c, is, mine⟩ := mine
    have owner : ∃ o, s.gates.lockOf o = some (c, l) := by
      rcases mine with locked | ⟨w, _, granted⟩
      · refine ⟨.inl c, ?_⟩
        change (s.gates.parentLock c).map _ = _
        rw [locked]
        rfl
      · exact ⟨.inr w, InputGates.lockOf_inr.2 granted⟩
    obtain ⟨o, owns⟩ := owner
    obtain ⟨h, held, _⟩ := good.healthy.exclusive.target o c l owns
    refine ⟨by rw [held]; simp, fun other => absurd rfl (other a), ?_⟩
    intro b same
    cases same
    exact ⟨o, c, owns, is⟩

theorem Good.holder (good : Good s none) (live : s.gates.gateOf l ≠ none) : ∃ h, s.has h l := by
  cases given : s.gates.given l with
  | true =>
    rcases (good.custody.hand l).1 ⟨given, live⟩ with member | ⟨a, held⟩ | floats
    · exact ⟨.slice, member⟩
    · exact ⟨.call a, held⟩
    · cases floats
  | false =>
    obtain ⟨o, c, owns⟩ := good.healthy.owned.owner l live given
    have known := good.healthy.exclusive.known o c l owns
    cases o with
    | inl d =>
      obtain ⟨lock, locked, same⟩ := Option.map_eq_some_iff.1 owns
      cases same
      have begun : 0 < c := by
        by_contra root
        have fresh := good.healthy.blank c (Or.inl (by omega))
        rw [good.healthy.owned.unentered c (Or.inl fresh)] at locked
        cases locked
      rcases good.guarded.letGo c begun known with gone | ⟨a, is⟩
      · rw [gone.unlocked] at locked
        cases locked
      · exact ⟨.section a, c, is, Or.inl locked⟩
    | inr w =>
      have granted := InputGates.lockOf_inr.1 owns
      obtain ⟨a, call⟩ := good.guarded.starts w c (by rw [granted]; rfl)
      exact ⟨.section a, c, by rw [call]; rfl, Or.inr ⟨w, call, granted⟩⟩

theorem Good.alone {h h' : Holder} (good : Good s none) (mine : s.has h l) (mine' : s.has h' l) : h = h' := by
  have apart : ∀ g a, (∀ b, g ≠ .section b) → s.has g l → ¬ s.has (.section a) l := by
    intro g a other given kept
    obtain ⟨o, c, owns, _⟩ := (good.kept kept).2.2 a rfl
    have free := good.healthy.exclusive.kept o c l owns
    rw [(good.kept given).2.1 other] at free
    cases free
  cases h with
  | slice =>
    cases h' with
    | slice => rfl
    | call b => exact absurd mine (good.custody.aside b l mine').1
    | «section» b => exact absurd mine' (apart .slice b (by simp) mine)
  | call a =>
    cases h' with
    | slice => exact absurd mine' (good.custody.aside a l mine).1
    | call b => rw [good.custody.once a b l mine mine']
    | «section» b => exact absurd mine' (apart (.call a) b (by simp) mine)
  | «section» a =>
    cases h' with
    | slice => exact absurd mine (apart .slice a (by simp) mine')
    | call b => exact absurd mine (apart (.call b) a (by simp) mine')
    | «section» b =>
      obtain ⟨o, c, owns, is⟩ := (good.kept mine).2.2 a rfl
      obtain ⟨o', c', owns', is'⟩ := (good.kept mine').2.2 b rfl
      have same := good.healthy.exclusive.once o o' c c' l owns owns'
      rw [same, owns'] at owns
      cases owns
      rw [good.guarded.alone a b c is is']

/-- Who waits, waits for a lock that somebody has. -/
theorem Good.blocked (good : Good s none) {w gate : Nat} {starts : Option Nat}
    (linked : s.gates.wait w = .linked gate starts) : ∃ h l, s.has h l ∧ s.gates.Holds l gate := by
  have accounted := good.healthy.rightful.sound.accounted
  have busy : s.gates.lockCount gate ≠ 0 := by
    intro free
    obtain ⟨waiters, children⟩ := accounted.idle gate free
    cases starts with
    | none =>
      have member := (accounted.queued.waiter gate w).2 linked
      rw [waiters] at member
      cases member
    | some c =>
      have member := (accounted.queued.child gate w).2 ⟨c, linked⟩
      rw [children] at member
      cases member
  have stays : s.gates.isReparented gate = false := by
    cases gone : s.gates.isReparented gate with
    | false => rfl
    | true => exact absurd (accounted.counted.emptied gate gone) busy
  rw [accounted.counted.counts gate stays] at busy
  obtain ⟨l, among⟩ := Finset.card_ne_zero.1 busy
  have holds := (Finset.mem_filter.1 among).2
  obtain ⟨h, mine⟩ := good.holder (l := l) (by obtain ⟨g, held, _⟩ := holds; rw [held]; simp)
  exact ⟨h, l, mine, holds⟩

end Holding

/-- A lock that is out has one holder, which has it until the release, and who waits at a gate waits for one of them. -/
theorem input_locks_conserved {s : IoContext} (reached : Reaches step (fun _ _ => True) opened s) :
    (∀ l, s.gates.gateOf l ≠ none ↔ ∃ h, s.has h l) ∧ (∀ l h h', s.has h l → s.has h' l → h = h') ∧
      s.checkpointEnds.Perm s.currentInputLocks ∧
      (∀ w gate starts, s.gates.wait w = .linked gate starts → ∃ h l, s.has h l ∧ s.gates.Holds l gate) ∧
      (s.currentInputLocks = [] → (∀ a, s.call a = .done) → ∀ gate, s.gates.lockCount gate = 0) := by
  have good := reached_good reached
  refine ⟨?_, fun l h h' => good.alone, good.custody.ends, fun w gate starts => good.blocked, ?_⟩
  · intro l
    constructor
    · exact good.holder
    · rintro ⟨h, mine⟩
      exact (good.kept mine).1
  · intro empty idle gate
    have counted := good.healthy.rightful.sound.accounted.counted
    cases gone : s.gates.isReparented gate with
    | true => exact counted.emptied gate gone
    | false =>
      rw [counted.counts gate gone]
      by_contra busy
      obtain ⟨l, among⟩ := Finset.card_ne_zero.1 busy
      obtain ⟨g, held, _⟩ := (Finset.mem_filter.1 among).2
      obtain ⟨h, mine⟩ := good.holder (l := l) (by rw [held]; simp)
      cases h with
      | slice =>
        change l ∈ s.currentInputLocks at mine
        rw [empty] at mine
        cases mine
      | call a =>
        change s.heldBy a = some l at mine
        unfold heldBy at mine
        rw [idle a] at mine
        cases mine
      | «section» a =>
        obtain ⟨c, is, _⟩ := mine
        rw [idle a] at is
        cases is

/-- An event that came while a slice ran waits behind the section that the slice has begun. -/
theorem input_locks_conserved_behind : ∃ s, Reaches step (fun _ _ => True) opened s ∧
    s.gates.wait 1 = .linked 0 none ∧ s.gates.wait 2 = .granted 1 2 ∧ ∃ h l, s.has h l ∧ s.gates.Holds l 0 := by
  have ran : (Transition.run step opened [.run 0 false, .admitted 0, .run 0 false, .blockConcurrencyWhile,
      .checkpointEnd]).map (fun s => (s.gates.wait 1, s.gates.wait 2)) = some (.linked 0 none, .granted 1 2) := by
    decide +kernel
  obtain ⟨s, ran, waits⟩ := Option.map_eq_some_iff.1 ran
  obtain ⟨behind, granted⟩ := Prod.mk.inj waits
  have reached := run_reaches _ ran
  exact ⟨s, reached, behind, granted, (input_locks_conserved reached).2.2.2.1 1 0 none behind⟩

end IoContext

end DoRuntime.Io
