import DoRuntime.Io.GateExclusion

namespace DoRuntime.Io.InputGates

open Forwarding Prog Transition

/-- A wait for the root is no section's first, and is in line nowhere else. -/
def AtRoot (s : InputGates) : Prop :=
  ∀ w, s.asked w = 0 → (s.wait w).starts = none ∧ ∀ g starts, s.wait w = .linked g starts → g = 0

/-- The waits for the root are in line in the order of their calls. -/
def InLine (s : InputGates) : Prop := (s.waiters 0).Pairwise fun a b => s.asked a = 0 → s.asked b = 0 → a < b

structure Lined (s : InputGates) : Prop where
  atRoot : AtRoot s
  inLine : InLine s

/-- The wait was given the root with nobody else on it and nobody before it in line. -/
structure GivenRoot (s : InputGates) (w l : Nat) : Prop where
  alone : s.lockCount 0 = 1
  held : s.gateOf l = some 0
  given : s.given l = true
  first : ∀ x, x < w → s.asked x = 0 → ¬ (s.wait x).Linked

/-- A step gives the root to this wait and to no other. -/
structure Granted (s t : InputGates) (w l : Nat) : Prop extends GivenRoot t w l where
  fresh : s.locks ≤ l
  sole : ∀ x, x ≠ w → t.asked x = 0 → ∀ i, t.wait x = .resolved i → s.wait x = .resolved i

/-- What a step does to the waits for the root. -/
structure Turns (s t : InputGates) : Prop where
  waits : s.waits ≤ t.waits
  asked : ∀ w, w < s.waits → t.asked w = s.asked w
  final : ∀ w, w < s.waits → s.asked w = 0 → ¬ (s.wait w).Linked → t.wait w = s.wait w
  granted : ∀ w, w < t.waits → t.asked w = 0 → ∀ l, t.wait w = .resolved l →
    (w < s.waits ∧ s.wait w = .resolved l) ∨ Granted s t w l

section Order

variable {s t : InputGates} {w : Nat}

/-- What is given in a later part of a step is given in the step. -/
theorem Granted.before {u : InputGates} {l : Nat} (granted : Granted t u w l) (locks : s.locks ≤ t.locks)
    (resolved : ∀ x i, t.wait x = .resolved i → s.wait x = .resolved i) : Granted s u w l where
  toGivenRoot := granted.toGivenRoot
  fresh := locks.trans granted.fresh
  sole x other root i given := resolved x i (granted.sole x other root i given)

theorem Turns.before {u : InputGates} (turns : Turns t u) (asked : t.asked = s.asked) (wait : t.wait = s.wait)
    (waits : t.waits = s.waits) (locks : s.locks ≤ t.locks) : Turns s u where
  waits := waits.ge.trans turns.waits
  asked x made := by rw [turns.asked x (made.trans_le waits.ge), asked]
  final x made root free := by
    rw [turns.final x (made.trans_le waits.ge) (by rw [asked]; exact root) (by rw [wait]; exact free), wait]
  granted x made root l resolved := by
    rcases turns.granted x made root l resolved with ⟨made, before⟩ | given
    · rw [waits] at made
      rw [wait] at before
      exact .inl ⟨made, before⟩
    · exact .inr (given.before locks fun y i before => by rw [wait] at before; exact before)

/-- Waits leave the line, and none of them is given a lock. -/
structure Rejects (s t : InputGates) : Prop extends Settles s t where
  asked : t.asked = s.asked
  resolved : ∀ x l, t.wait x = .resolved l → s.wait x = .resolved l
  waiters : (t.waiters 0).Sublist (s.waiters 0)

theorem Rejects.refl (s : InputGates) : Rejects s s :=
  ⟨.refl s, rfl, fun _ _ => id, List.Sublist.refl _⟩

theorem Rejects.trans {u : InputGates} (first : Rejects s t) (second : Rejects t u) : Rejects s u :=
  ⟨first.toSettles.trans second.toSettles, second.asked.trans first.asked,
    fun x l resolved => first.resolved x l (second.resolved x l resolved), second.waiters.trans first.waiters⟩

theorem unlink_asked (s : InputGates) (w : Nat) (status : WaitStatus) :
    ((s.unlink w).settle w status).asked = s.asked := by
  unfold InputGates.unlink
  split <;> rfl

theorem Rejects.reject (s : InputGates) (w : Nat) (exception : GateException) : Rejects s (s.reject w exception) := by
  have out : ∀ status : WaitStatus, (∀ l, status ≠ .resolved l) → ∀ x l,
      ((s.unlink w).settle w status).wait x = .resolved l → s.wait x = .resolved l := by
    intro status other x l resolved
    rw [unlink_wait] at resolved
    split at resolved
    · exact absurd resolved (other l)
    · exact resolved
  refine ⟨.reject s w exception, ?_, ?_, ?_⟩
  · unfold InputGates.reject
    split
    · exact unlink_asked ..
    · exact unlink_asked ..
    · rfl
  · unfold InputGates.reject
    split
    · exact out _ fun l => by simp
    · exact out _ fun l => by simp
    · exact fun _ _ => id
  · unfold InputGates.reject
    split
    · exact (unlink_waiters ..).1
    · exact (unlink_waiters ..).1
    · exact List.Sublist.refl _

theorem Rejects.rejects (exception : GateException) (ws : List Nat) (s : InputGates) :
    Rejects s (ws.foldl (fun s w => s.reject w exception) s) := by
  induction ws generalizing s with
  | nil => exact .refl s
  | cons w rest ih => exact (Rejects.reject s w exception).trans (ih _)

theorem Rejects.setBroken (s : InputGates) (gate : Nat) (exception : GateException) :
    Rejects s (s.setBroken gate exception) := by
  have done := (Rejects.rejects exception (s.waitingChildren gate) s).trans
    (.rejects exception (((s.waitingChildren gate).foldl (fun s w => s.reject w exception) s).waiters gate) _)
  exact ⟨.setBroken s gate exception, done.asked, done.resolved, done.waiters⟩

theorem Rejects.failed (s : InputGates) (fuel c : Nat) (exception : GateException) :
    Rejects s (s.failed fuel c exception) := by
  induction fuel generalizing s c with
  | zero =>
    unfold InputGates.failed
    dsimp only
    split
    · exact .refl s
    · split
      · exact (Rejects.setBroken s c exception).trans (.setBroken _ 0 exception)
      · exact .setBroken s c exception
  | succ fuel ih =>
    unfold InputGates.failed
    dsimp only
    split
    · exact .refl s
    · split
      · exact (Rejects.setBroken s c exception).trans (.setBroken _ 0 exception)
      · exact (Rejects.setBroken s c exception).trans (ih _ _)

theorem Rejects.dropped (s : InputGates) (c : Nat) : Rejects s (s.dropped c) := by
  unfold InputGates.dropped
  split
  · exact .failed s _ _ _
  · exact .refl s

theorem Rejects.abort (s : InputGates) (w : Nat) : Rejects s (s.abort w) := by
  have rejected := Rejects.reject { s with aborted := Function.update s.aborted w true } w .canceled
  exact ⟨.abort s w, rejected.asked, rejected.resolved, rejected.waiters⟩

theorem Rejects.other (rejects : Rejects s t) (x : Nat) : t.wait x = s.wait x ∨
    (t.wait x).starts = (s.wait x).starts ∧ ¬ (t.wait x).Linked ∧ ∀ l, t.wait x ≠ .resolved l := by
  by_cases linked : (s.wait x).Linked
  · by_cases still : (t.wait x).Linked
    · obtain ⟨g, c, there⟩ := still
      exact .inl (there.trans (rejects.linked x g c there).symm)
    · refine .inr ⟨rejects.starts x, still, fun l resolved => ?_⟩
      obtain ⟨g, c, there⟩ := linked
      rw [rejects.resolved x l resolved] at there
      cases there
  · exact .inl (rejects.free x linked)

/-- A step changes one call that is not for the root, and may reject others. -/
structure Aside (s t : InputGates) (w : Nat) : Prop where
  asked : t.asked = s.asked
  waits : t.waits = s.waits
  others : ∀ x, x ≠ w → t.wait x = s.wait x ∨
    (t.wait x).starts = (s.wait x).starts ∧ ¬ (t.wait x).Linked ∧ ∀ l, t.wait x ≠ .resolved l
  finals : ∀ x, x ≠ w → ¬ (s.wait x).Linked → t.wait x = s.wait x
  waiters : (t.waiters 0).Sublist (s.waiters 0 ++ [w])

theorem Lined.aside (lined : Lined s) (aside : Aside s t w) (other : s.asked w ≠ 0) : Lined t ∧ Turns s t := by
  have apart : ∀ x, t.asked x = 0 → x ≠ w ∧ s.asked x = 0 := by
    intro x root
    rw [aside.asked] at root
    exact ⟨fun same => other (same ▸ root), root⟩
  refine ⟨⟨fun x root => ?_, ?_⟩, aside.waits.ge, fun x _ => by rw [aside.asked], fun x _ root free => ?_,
    fun x made root l resolved => ?_⟩
  · obtain ⟨different, root⟩ := apart x root
    obtain ⟨starts, place⟩ := lined.atRoot x root
    rcases aside.others x different with same | ⟨kept, out, _⟩
    · rw [same]
      exact ⟨starts, place⟩
    · exact ⟨kept.trans starts, fun g c linked => absurd ⟨g, c, linked⟩ out⟩
  · refine List.Pairwise.sublist aside.waiters ?_
    rw [aside.asked]
    refine List.pairwise_append.2 ⟨lined.inLine, List.pairwise_singleton .., fun a _ b last _ root => ?_⟩
    rw [List.mem_singleton.1 last] at root
    exact absurd root other
  · exact aside.finals x (fun same => other (same ▸ root)) free
  · obtain ⟨different, _⟩ := apart x root
    rcases aside.others x different with same | ⟨_, _, unresolved⟩
    · rw [aside.waits] at made
      exact .inl ⟨made, same ▸ resolved⟩
    · exact absurd resolved (unresolved l)

theorem Lined.rejects (lined : Lined s) (rejects : Rejects s t) : Lined t ∧ Turns s t := by
  refine ⟨⟨fun x root => ?_, ?_⟩, rejects.waits.ge, fun x _ => by rw [rejects.asked], fun x _ _ free => rejects.free x free,
    fun x made root l resolved => ?_⟩
  · rw [rejects.asked] at root
    obtain ⟨starts, place⟩ := lined.atRoot x root
    exact ⟨(rejects.starts x).trans starts, fun g c linked => place g c (rejects.linked x g c linked)⟩
  · refine List.Pairwise.sublist rejects.waiters ?_
    rw [rejects.asked]
    exact lined.inLine
  · rw [rejects.waits] at made
    exact .inl ⟨made, rejects.resolved x l resolved⟩

theorem Aside.settle (s : InputGates) (w : Nat) (status : WaitStatus) : Aside s (s.settle w status) w where
  asked := rfl
  waits := rfl
  others x other := .inl (Function.update_of_ne other ..)
  finals x other _ := Function.update_of_ne other ..
  waiters := List.sublist_append_left ..

theorem Aside.gateWait (s : InputGates) (gate w : Nat) (aborted : Bool) : Aside s (s.gateWait gate w aborted) w := by
  have kept := (gateWait_wait s gate w aborted).1
  refine ⟨?_, (gateWait_rest s gate w aborted).2.2, fun x other => .inl (kept x other),
    fun x other _ => kept x other, ?_⟩
  · unfold InputGates.gateWait
    split
    · rfl
    · split
      · rfl
      · split <;> rfl
  · have before : (s.waiters 0).Sublist (s.waiters 0 ++ [w]) := List.sublist_append_left ..
    unfold InputGates.gateWait
    split
    · exact before
    · split
      · exact before
      · split
        · exact before
        · by_cases root : gate = 0
          · subst root
            simp [newWaiterPromise, InputGates.settle]
          · simp [newWaiterPromise, InputGates.settle, Function.update_of_ne (Ne.symm root)]

theorem Aside.enter (s : InputGates) (c lock w : Nat) (aborted : Bool) : Aside s (s.enter c lock w aborted) w :=
  have entered := Aside.gateWait { s with
    state := Function.update s.state c .running
    parentLock := Function.update s.parentLock c (some lock) } c w aborted
  ⟨entered.asked, entered.waits, entered.others, entered.finals, entered.waiters⟩

theorem Aside.rejectsSettle (rejects : Rejects s t) (w : Nat) (status : WaitStatus) :
    Aside s (t.settle w status) w where
  asked := rejects.asked
  waits := rejects.waits
  others x other := by
    rw [show (t.settle w status).wait x = t.wait x from Function.update_of_ne other ..]
    exact rejects.other x
  finals x other free := (Function.update_of_ne other ..).trans (rejects.free x free)
  waiters := rejects.waiters.trans (List.sublist_append_left ..)

theorem Aside.start (s : InputGates) (c w : Nat) : Aside s (s.start c w) w := by
  unfold InputGates.start
  dsimp only
  split
  · rename_i exception _
    have rejects := Aside.rejectsSettle (Rejects.setBroken { s with
      state := Function.update s.state c .initialWait } c exception) w (.rejected exception)
    exact ⟨rejects.asked, rejects.waits, rejects.others, rejects.finals, rejects.waiters⟩
  · split
    · have entered := Aside.enter ({ s with
        state := Function.update s.state c .initialWait }.newLock
          ({ s with state := Function.update s.state c .initialWait }.parentAsInputGate c) false) c s.locks w false
      exact ⟨entered.asked, entered.waits, entered.others, entered.finals, entered.waiters⟩
    · exact ⟨rfl, rfl, fun x other => .inl (Function.update_of_ne other ..), fun x other _ => Function.update_of_ne other ..,
        List.sublist_append_left ..⟩

theorem Aside.waitOn (s : InputGates) (fuel gate w : Nat) (aborted : Bool) : Aside s (s.waitOn fuel gate w aborted) w := by
  induction fuel generalizing gate with
  | zero =>
    unfold InputGates.waitOn
    split
    · exact .gateWait s 0 w aborted
    · split
      · exact .settle s w _
      · split
        · exact .start s gate w
        · exact .settle s w _
        · exact .gateWait s gate w aborted
        · exact ⟨rfl, rfl, fun _ _ => .inl rfl, fun _ _ _ => rfl, List.sublist_append_left ..⟩
  | succ fuel ih =>
    unfold InputGates.waitOn
    split
    · exact .gateWait s 0 w aborted
    · split
      · exact .settle s w _
      · split
        · exact .start s gate w
        · exact .settle s w _
        · exact .gateWait s gate w aborted
        · exact ih (s.parent gate)

/-- Nothing is in line for the root while nobody has it. -/
theorem Lined.empty (lined : Lined s) (accounted : Accounted s) (free : s.lockCount 0 = 0) (x : Nat)
    (root : s.asked x = 0) : ¬ (s.wait x).Linked := by
  intro linked
  obtain ⟨g, starts, there⟩ := linked
  obtain ⟨first, place⟩ := lined.atRoot x root
  rw [there] at first
  obtain rfl : starts = none := first
  rw [place g none there] at there
  have member := (accounted.queued.waiter 0 x).2 there
  rw [(accounted.idle 0 free).1] at member
  cases member

/-- A new call of `wait`, recorded. -/
def recorded (s : InputGates) (gate : Nat) (aborted : Bool) : InputGates :=
  { s with
    asked := Function.update s.asked s.waits gate
    aborted := Function.update s.aborted s.waits aborted
    waits := s.waits + 1 }

theorem Lined.recorded (lined : Lined s) (queued : Queued s) (gate : Nat) (aborted : Bool) :
    Lined (s.recorded gate aborted) := by
  obtain ⟨exception, rejected⟩ := queued.later s.waits le_rfl
  refine ⟨fun x root => ?_, ?_⟩
  · by_cases new : x = s.waits
    · rw [new, show (s.recorded gate aborted).wait = s.wait from rfl, rejected]
      exact ⟨rfl, fun g starts linked => by cases linked⟩
    · exact lined.atRoot x ((Function.update_of_ne new ..).symm.trans root)
  · have member : ∀ x ∈ s.waiters 0, x ≠ s.waits := by
      intro x inLine new
      have linked := (queued.waiter 0 x).1 inLine
      rw [new, rejected] at linked
      cases linked
    refine List.Pairwise.imp_of_mem (fun {a b} first second before rootA rootB => ?_) lined.inLine
    exact before ((Function.update_of_ne (member a first) ..).symm.trans rootA)
      ((Function.update_of_ne (member b second) ..).symm.trans rootB)

/-- What was said of the calls before holds of them once a new one is recorded. -/
theorem Turns.recorded {gate : Nat} {aborted : Bool} (turns : Turns (s.recorded gate aborted) t) (queued : Queued s) :
    Turns s t := by
  obtain ⟨exception, rejected⟩ := queued.later s.waits le_rfl
  have old : ∀ x, x < s.waits → (s.recorded gate aborted).asked x = s.asked x :=
    fun x made => Function.update_of_ne (Nat.ne_of_lt made) ..
  refine ⟨(Nat.le_succ _).trans turns.waits, fun x made => ?_, fun x made root free => ?_, fun x made root l resolved => ?_⟩
  · rw [turns.asked x (Nat.lt_succ_of_lt made), old x made]
  · exact turns.final x (Nat.lt_succ_of_lt made) ((old x made).trans root) free
  · rcases turns.granted x made root l resolved with ⟨made, before⟩ | given
    · rcases Nat.lt_succ_iff_lt_or_eq.1 made with older | new
      · exact .inl ⟨older, before⟩
      · rw [new, show (s.recorded gate aborted).wait = s.wait from rfl, rejected] at before
        cases before
    · exact .inr (given.before le_rfl fun _ _ before => before)

/-- The call of a wait for the root settles that wait or puts it last in line. -/
theorem Lined.newest (lined : Lined s) (queued : Queued s) (aborted : Bool)
    (asked : t.asked = (s.recorded 0 aborted).asked) (waits : t.waits = s.waits + 1)
    (others : ∀ x, x ≠ s.waits → t.wait x = s.wait x)
    (waiters : (t.waiters 0).Sublist (s.waiters 0 ++ [s.waits]))
    (place : (t.wait s.waits).starts = none ∧ ∀ g starts, t.wait s.waits = .linked g starts → g = 0)
    (given : ∀ l, t.wait s.waits = .resolved l → t.GivenRoot s.waits l ∧ s.locks ≤ l) : Lined t ∧ Turns s t := by
  have before := lined.recorded queued 0 aborted
  have old : ∀ x, x ≠ s.waits → t.asked x = s.asked x := by
    intro x other
    rw [asked]
    exact Function.update_of_ne other ..
  refine ⟨⟨fun x root => ?_, ?_⟩, by omega, fun x made => old x (Nat.ne_of_lt made), fun x made _ _ => others x (Nat.ne_of_lt made),
    fun x made root l resolved => ?_⟩
  · by_cases new : x = s.waits
    · rw [new]
      exact place
    · rw [others x new]
      exact lined.atRoot x ((old x new).symm.trans root)
  · refine List.Pairwise.sublist waiters (List.pairwise_append.2 ⟨?_, List.pairwise_singleton .., ?_⟩)
    · rw [asked]
      exact before.inLine
    · intro a member b last _ _
      rw [List.mem_singleton.1 last]
      exact queued.made ⟨0, none, (queued.waiter 0 a).1 member⟩
  · by_cases new : x = s.waits
    · rw [new] at resolved ⊢
      obtain ⟨root, fresh⟩ := given l resolved
      exact .inr ⟨root, fresh, fun y other _ i before => others y other ▸ before⟩
    · rw [others x new] at resolved
      exact .inl ⟨by omega, resolved⟩

theorem Lined.callRoot (lined : Lined s) (accounted : Accounted s) (aborted : Bool) :
    Lined (s.call 0 aborted) ∧ Turns s (s.call 0 aborted) := by
  have queued := accounted.queued
  have same : s.call 0 aborted = (s.recorded 0 aborted).gateWait 0 s.waits aborted := by
    unfold call InputGates.waitOn
    rw [if_pos rfl]
    rfl
  have before : (s.waiters 0).Sublist (s.waiters 0 ++ [s.waits]) := List.sublist_append_left ..
  have refused : ∀ exception, Lined ((s.recorded 0 aborted).settle s.waits (.rejected exception)) ∧
      Turns s ((s.recorded 0 aborted).settle s.waits (.rejected exception)) := by
    intro exception
    have status : ((s.recorded 0 aborted).settle s.waits (.rejected exception)).wait s.waits = .rejected exception :=
      Function.update_self ..
    refine lined.newest queued aborted rfl rfl (fun x other => Function.update_of_ne other ..) before ?_ ?_
    · rw [status]
      exact ⟨rfl, fun g starts linked => by cases linked⟩
    · intro l resolved
      rw [status] at resolved
      cases resolved
  rw [same]
  unfold InputGates.gateWait
  split
  · exact refused _
  · split
    · exact refused _
    · split
      · rename_i free
        have status : (((s.recorded 0 aborted).newLock 0 true).settle s.waits (.resolved s.locks)).wait s.waits =
            .resolved s.locks := Function.update_self ..
        refine lined.newest queued aborted rfl rfl (fun x other => Function.update_of_ne other ..) before ?_ ?_
        · refine ⟨congrArg WaitStatus.starts status, fun g starts linked => ?_⟩
          cases status.symm.trans linked
        · intro l resolved
          obtain rfl : s.locks = l := by
            cases status.symm.trans resolved
            rfl
          refine ⟨⟨?_, Function.update_self .., Function.update_self .., fun x earlier root => ?_⟩, le_rfl⟩
          · change Function.update s.lockCount 0 (s.lockCount 0 + 1) 0 = 1
            rw [Function.update_self, show s.lockCount 0 = 0 from free]
          · have other : x ≠ s.waits := Nat.ne_of_lt earlier
            have asked : s.asked x = 0 := (Function.update_of_ne other ..).symm.trans root
            have kept : (((s.recorded 0 aborted).newLock 0 true).settle s.waits
                (.resolved (s.recorded 0 aborted).locks)).wait x = s.wait x := Function.update_of_ne other ..
            rw [kept]
            exact lined.empty accounted free x asked
      · have status : ((s.recorded 0 aborted).newWaiterPromise 0 none s.waits).wait s.waits = .linked 0 none :=
          Function.update_self ..
        refine lined.newest queued aborted rfl rfl (fun x other => Function.update_of_ne other ..) ?_ ?_ ?_
        · simp [newWaiterPromise, InputGates.settle, InputGates.recorded]
        · rw [status]
          refine ⟨rfl, fun g starts linked => ?_⟩
          cases linked
          rfl
        · intro l resolved
          rw [status] at resolved
          cases resolved

theorem Lined.same (lined : Lined s) (asked : t.asked = s.asked) (wait : t.wait = s.wait) (waits : t.waits = s.waits)
    (waiters : t.waiters = s.waiters) : Lined t ∧ Turns s t := by
  refine ⟨⟨?_, ?_⟩, waits.ge, fun _ _ => by rw [asked], fun _ _ _ _ => by rw [wait], fun x made root l resolved => .inl ?_⟩
  · unfold AtRoot
    rw [asked, wait]
    exact lined.atRoot
  · unfold InLine
    rw [waiters, asked]
    exact lined.inLine
  · rw [waits] at made
    rw [wait] at resolved
    exact ⟨made, resolved⟩

/-- A call that is linked leaves the line, and only its promise settles. -/
theorem Aside.unlink (s : InputGates) (w : Nat) (status : WaitStatus) : Aside s ((s.unlink w).settle w status) w where
  asked := unlink_asked s w status
  waits := (unlink_state s w status).2.2
  others x other := by rw [unlink_wait, if_neg other]; exact .inl rfl
  finals x other _ := by rw [unlink_wait, if_neg other]
  waiters := (unlink_waiters s w status 0).1.trans (List.sublist_append_left ..)

theorem unlink_locks (s : InputGates) (w : Nat) (status : WaitStatus) :
    ((s.unlink w).settle w status).lockCount = s.lockCount ∧ ((s.unlink w).settle w status).gateOf = s.gateOf ∧
      ((s.unlink w).settle w status).given = s.given := by
  unfold InputGates.unlink
  split <;> exact ⟨rfl, rfl, rfl⟩

/-- The wait that is first in line for the root is given it once nobody else has it. -/
theorem Lined.served (lined : Lined s) (queued : Queued s) (free : s.lockCount 0 = 0) {rest : List Nat}
    (line : s.waiters 0 = w :: rest) (root : s.asked w = 0) :
    Lined (((s.newLock 0 true).unlink w).settle w (.resolved s.locks)) ∧
      Turns s (((s.newLock 0 true).unlink w).settle w (.resolved s.locks)) := by
  have aside : Aside s (((s.newLock 0 true).unlink w).settle w (.resolved s.locks)) w := by
    have aside := Aside.unlink (s.newLock 0 true) w (.resolved s.locks)
    exact ⟨aside.asked, aside.waits, aside.others, aside.finals, aside.waiters⟩
  have shorter := (unlink_waiters (s.newLock 0 true) w (.resolved s.locks) 0).1
  have mine : (((s.newLock 0 true).unlink w).settle w (.resolved s.locks)).wait w = .resolved s.locks := by
    rw [unlink_wait, if_pos rfl]
  have other : ∀ x, x ≠ w → (((s.newLock 0 true).unlink w).settle w (.resolved s.locks)).wait x = s.wait x := by
    intro x other
    rw [unlink_wait, if_neg other]
    rfl
  have linked : s.wait w = .linked 0 none := (queued.waiter 0 w).1 (by rw [line]; exact List.mem_cons_self ..)
  refine ⟨⟨fun x asked => ?_, ?_⟩, aside.waits.ge, fun x _ => by rw [aside.asked], fun x _ _ free => ?_,
    fun x made asked l resolved => ?_⟩
  · rw [aside.asked] at asked
    by_cases same : x = w
    · rw [same, mine]
      exact ⟨rfl, fun g starts linked => by cases linked⟩
    · rw [other x same]
      exact lined.atRoot x asked
  · refine List.Pairwise.sublist shorter ?_
    rw [aside.asked]
    exact lined.inLine
  · refine other x fun same => free ?_
    rw [same, linked]
    exact ⟨0, none, rfl⟩
  · by_cases same : x = w
    · rw [same] at resolved ⊢
      obtain rfl : s.locks = l := by
        rw [mine] at resolved
        cases resolved
        rfl
      obtain ⟨lockCount, gateOf, given⟩ := unlink_locks (s.newLock 0 true) w (.resolved s.locks)
      refine .inr ⟨⟨?_, ?_, ?_, fun y earlier asked linked => ?_⟩, le_rfl, fun y different _ i before =>
        other y different ▸ before⟩
      · rw [lockCount]
        change Function.update s.lockCount 0 (s.lockCount 0 + 1) 0 = 1
        rw [Function.update_self, free]
      · rw [gateOf]
        exact Function.update_self ..
      · rw [given]
        exact Function.update_self ..
      · have different : y ≠ w := Nat.ne_of_lt earlier
        rw [aside.asked] at asked
        rw [other y different] at linked
        obtain ⟨g, starts, there⟩ := linked
        obtain ⟨first, place⟩ := lined.atRoot y asked
        rw [there] at first
        obtain rfl : starts = none := first
        rw [place g none there] at there
        have member := (queued.waiter 0 y).2 there
        rw [line] at member
        have ordered := lined.inLine
        unfold InLine at ordered
        rw [line] at ordered
        have later := (List.pairwise_cons.1 ordered).1 y ((List.mem_cons.1 member).resolve_left different) root asked
        omega
    · rw [other x same] at resolved
      rw [aside.waits] at made
      exact .inl ⟨made, resolved⟩

theorem Lined.grantNext (lined : Lined s) (queued : Queued s) {gate : Nat} (free : s.lockCount gate = 0) :
    Lined (s.grantNext gate) ∧ Turns s (s.grantNext gate) := by
  unfold InputGates.grantNext
  split
  · rename_i child rest children
    obtain ⟨c, linked⟩ := (queued.child gate child).1 (by simp [children])
    rw [fulfill_child (s := s.newLock gate false) linked]
    have section_ : s.asked child ≠ 0 := by
      intro root
      have first := (lined.atRoot child root).1
      rw [linked] at first
      cases first
    have aside := Aside.unlink (s.newLock gate false) child (.granted c s.locks)
    exact lined.aside ⟨aside.asked, aside.waits, aside.others, aside.finals, aside.waiters⟩ section_
  · split
    · rename_i waiter rest waiters
      have linked := (queued.waiter gate waiter).1 (by simp [waiters])
      rw [fulfill_waiter (s := s.newLock gate true) linked]
      by_cases root : s.asked waiter = 0
      · have same := (lined.atRoot waiter root).2 gate none linked
        subst same
        exact lined.served queued free waiters root
      · have aside := Aside.unlink (s.newLock gate true) waiter (.resolved s.locks)
        exact lined.aside ⟨aside.asked, aside.waits, aside.others, aside.finals, aside.waiters⟩ root
    · exact lined.same rfl rfl rfl rfl

theorem Lined.release (lined : Lined s) (accounted : Accounted s) (l : Nat) :
    Lined (release l s).2 ∧ Turns s (release l s).2 := by
  cases held : s.gateOf l with
  | none =>
    have refused : (InputGates.release l s).2 = s := by
      unfold InputGates.release
      rw [state_bind]
      simp only [held, raise_run]
    rw [refused]
    exact lined.same rfl rfl rfl rfl
  | some h =>
    rw [release_run accounted held]
    obtain ⟨unlocked, _⟩ := lined.same (t := s.unlock l (s.adopter h)) rfl rfl rfl rfl
    dsimp only
    unfold freed
    split
    · rename_i free
      obtain ⟨kept, turns⟩ := unlocked.grantNext { accounted.queued with } free
      exact ⟨kept, turns.before rfl rfl rfl le_rfl⟩
    · exact lined.same rfl rfl rfl rfl

theorem Turns.quiet (asked : t.asked = s.asked) (waits : t.waits = s.waits)
    (same : ∀ x, s.asked x = 0 → t.wait x = s.wait x) : Turns s t := by
  refine ⟨waits.ge, fun _ _ => by rw [asked], fun x _ root _ => same x root, fun x made root l resolved => .inl ?_⟩
  rw [asked] at root
  rw [waits] at made
  exact ⟨made, same x root ▸ resolved⟩

theorem Lined.reparent (lined : Lined s) (queued : Queued s) {c : Nat} (section_ : 0 < c) :
    Lined (s.reparent c) ∧ ∀ x, s.asked x = 0 → (s.reparent c).wait x = s.wait x := by
  have apart : ∀ x, x ∈ s.waiters c → s.asked x ≠ 0 := by
    intro x member root
    have place := (lined.atRoot x root).2 c none ((queued.waiter c x).1 member)
    omega
  have same : ∀ x, s.asked x = 0 → (s.reparent c).wait x = s.wait x := by
    intro x root
    rw [reparent_wait]
    cases status : s.wait x with
    | linked g starts =>
      have place := (lined.atRoot x root).2 g starts status
      have stays : x ∉ s.waitingChildren c ++ s.waiters c := fun moved => by
        have there := (queued.moved (c := c) status).1 moved
        omega
      exact if_neg stays
    | granted => rfl
    | refused => rfl
    | resolved => rfl
    | rejected => rfl
  refine ⟨⟨fun x root => ?_, ?_⟩, same⟩
  · rw [same x root]
    exact lined.atRoot x root
  · have line : (s.reparent c).waiters 0 =
        Function.update s.waiters (s.parentAsInputGate c) (s.waiters (s.parentAsInputGate c) ++ s.waiters c) 0 :=
      Function.update_of_ne (Nat.ne_of_lt section_) ..
    unfold InLine
    rw [line]
    by_cases mine : s.parentAsInputGate c = 0
    · rw [mine, Function.update_self]
      refine List.pairwise_append.2 ⟨lined.inLine, ?_, fun a _ b member _ root => absurd root (apart b member)⟩
      exact List.Pairwise.imp_of_mem (fun {a _} member _ _ root => absurd root (apart a member))
        (List.pairwise_of_forall (l := s.waiters c) (R := fun _ _ => True) fun _ _ => trivial)
    · rw [Function.update_of_ne (Ne.symm mine)]
      exact lined.inLine

theorem Turns.afterRejects {u : InputGates} (rejects : Rejects s t) (turns : Turns t u) : Turns s u := by
  refine ⟨rejects.waits.ge.trans turns.waits, fun x made => ?_, fun x made root free => ?_, fun x made root l resolved => ?_⟩
  · rw [turns.asked x (made.trans_le rejects.waits.ge), rejects.asked]
  · have same := rejects.free x free
    exact (turns.final x (made.trans_le rejects.waits.ge) (rejects.asked ▸ root) (same ▸ free)).trans same
  · rcases turns.granted x made root l resolved with ⟨made, before⟩ | given
    · exact .inl ⟨rejects.waits ▸ made, rejects.resolved x l before⟩
    · exact .inr (given.before rejects.locks.ge rejects.resolved)

theorem Lined.resume (lined : Lined s) (w : Nat) : Lined (s.resume w) ∧ Turns s (s.resume w) := by
  have apart : (s.wait w).starts ≠ none → s.asked w ≠ 0 := fun starts root => starts (lined.atRoot w root).1
  unfold InputGates.resume
  split
  · rename_i c lock status
    exact lined.aside (.enter s c lock w (s.aborted w)) (apart (by rw [status]; simp [WaitStatus.starts]))
  · rename_i c status
    exact lined.aside (.settle s w _) (apart (by rw [status]; simp [WaitStatus.starts]))
  · rename_i c exception _ status
    have rejects := Aside.rejectsSettle (Rejects.setBroken { s with
      state := Function.update s.state c .running } c exception) w (.rejected exception)
    exact lined.aside ⟨rejects.asked, rejects.waits, rejects.others, rejects.finals, rejects.waiters⟩
      (apart (by rw [status]; simp [WaitStatus.starts]))
  · exact lined.same rfl rfl rfl rfl

/-- One step of the gates: the waits for the root stay in line, and one is given it only in its turn. -/
theorem step_lined {event : Event} (sound : Sound s) (lined : Lined s) (stepped : step s event = some t) :
    Lined t ∧ Turns s t := by
  obtain ⟨accounted, starting, _⟩ := sound
  cases event <;> simp only [step, Option.ite_none_right_eq_some, Option.some.injEq] at stepped <;>
    obtain ⟨admitted, rfl⟩ := stepped
  case wait gate aborted =>
    by_cases root : gate = 0
    · subst root
      exact lined.callRoot accounted aborted
    · have recorded := lined.recorded accounted.queued gate aborted
      have mine : (s.recorded gate aborted).asked s.waits = gate := Function.update_self ..
      obtain ⟨kept, turns⟩ := recorded.aside (.waitOn (s.recorded gate aborted) gate gate s.waits aborted)
        (by rw [mine]; exact root)
      exact ⟨kept, turns.recorded accounted.queued⟩
  case abort w => exact lined.rejects (.abort s w)
  case resume w => exact lined.resume w
  case addRef l =>
    rw [addRef_state]
    split
    · exact lined.same rfl rfl rfl rfl
    · exact lined.same rfl rfl rfl rfl
  case release l => exact lined.release accounted l
  case startCriticalSection l =>
    rw [startCriticalSection_state]
    split
    · exact lined.same rfl rfl rfl rfl
    · exact lined.same rfl rfl rfl rfl
  case succeeded c =>
    by_cases running : s.state c = .running
    · obtain ⟨kept, same⟩ := lined.reparent accounted.queued admitted.1
      rw [succeeded_state running]
      split
      · exact ⟨kept, .quiet rfl rfl same⟩
      · exact ⟨⟨kept.atRoot, kept.inLine⟩, .quiet rfl rfl same⟩
    · rw [succeeded_refused running]
      exact lined.same rfl rfl rfl rfl
  case failed c exception => exact lined.rejects (.failed s _ _ _)
  case setBroken gate exception => exact lined.rejects (.setBroken s _ _)
  case drop c =>
    have rejects := Rejects.dropped s c
    obtain ⟨kept, turns⟩ := lined.rejects rejects
    rw [drop_state]
    split
    · exact ⟨kept, turns⟩
    · rename_i lock _
      have accounted := (dropped_kept accounted starting c).1
      have disowned : Accounted ((s.dropped c).disown c) :=
        ⟨{ accounted.queued with }, accounted.counted.same ⟨rfl, rfl, rfl, rfl, rfl, rfl⟩, accounted.idle⟩
      have lined : Lined ((s.dropped c).disown c) := ⟨kept.atRoot, kept.inLine⟩
      obtain ⟨released, turns⟩ := lined.release disowned lock
      exact ⟨released, .afterRejects rejects (turns.before rfl rfl rfl le_rfl)⟩

end Order

end DoRuntime.Io.InputGates
