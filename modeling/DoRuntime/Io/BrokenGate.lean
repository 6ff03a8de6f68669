import DoRuntime.Io.GateExclusion

namespace DoRuntime.Io

/-- What a waiter becomes when its gate breaks. -/
def WaitStatus.refuse (exception : GateException) : WaitStatus → WaitStatus
  | .linked _ (some c) => .refused c exception
  | .linked _ none => .rejected exception
  | status => status

/-- The gate or section whose `wait` is under way. -/
def WaitStatus.awaits : WaitStatus → Option Nat
  | .linked g none => some g
  | .linked _ (some c) | .granted c _ | .refused c _ => some c
  | _ => none

theorem WaitStatus.awaits_iff {status : WaitStatus} {g : Nat} :
    status.awaits = some g ↔ status = .linked g none ∨ status.starts = some g := by
  cases status with
  | linked h starts => cases starts <;> simp [awaits, WaitStatus.starts]
  | granted => simp [awaits, WaitStatus.starts]
  | refused => simp [awaits, WaitStatus.starts]
  | resolved => simp [awaits, WaitStatus.starts]
  | rejected => simp [awaits, WaitStatus.starts]

/-- A call that is in a list may be refused or be given a lock. -/
inductive WaitStatus.Leaves : WaitStatus → WaitStatus → Prop
  | stays (status : WaitStatus) : Leaves status status
  | refused (g c : Nat) (exception : GateException) : Leaves (.linked g (some c)) (.refused c exception)
  | rejected (g : Nat) (exception : GateException) : Leaves (.linked g none) (.rejected exception)
  | granted (g c lock : Nat) : Leaves (.linked g (some c)) (.granted c lock)
  | resolved (g lock : Nat) : Leaves (.linked g none) (.resolved lock)

theorem WaitStatus.refuse_leaves (status : WaitStatus) (exception : GateException) :
    Leaves status (status.refuse exception) := by
  cases status with
  | linked g starts =>
    cases starts with
    | none => exact .rejected g exception
    | some c => exact .refused g c exception
  | granted => exact .stays _
  | refused => exact .stays _
  | resolved => exact .stays _
  | rejected => exact .stays _

theorem WaitStatus.refuse_unresolved {status : WaitStatus} (unresolved : ∀ l, status ≠ .resolved l)
    (exception : GateException) (l : Nat) : status.refuse exception ≠ .resolved l := by
  cases status with
  | linked g starts => cases starts <;> simp [refuse]
  | granted => simp [refuse]
  | refused => simp [refuse]
  | resolved lock => exact unresolved l
  | rejected => simp [refuse]

theorem WaitStatus.Leaves.awaits {before after : WaitStatus} (leaves : Leaves before after) {g : Nat}
    (awaits : after.awaits = some g) : before.awaits = some g := by
  cases leaves with
  | stays => exact awaits
  | refused => exact awaits
  | granted => exact awaits
  | rejected => cases awaits
  | resolved => cases awaits

theorem WaitStatus.Leaves.linked {before after : WaitStatus} (leaves : Leaves before after) {g : Nat}
    {starts : Option Nat} (linked : after = .linked g starts) : before = .linked g starts := by
  cases leaves with
  | stays => exact linked
  | refused => cases linked
  | granted => cases linked
  | rejected => cases linked
  | resolved => cases linked

namespace InputGates

open Forwarding Prog Transition

def Broken (s : InputGates) (g : Nat) : Prop := s.brokenState g ≠ none

/-- No section with waiters succeeds under a broken gate; and a section that is reparented, or is
    about to be, is not broken alone. -/
def Contained (s : InputGates) : Event → Prop
  | .succeeded c => s.state c = .running →
      (s.Broken (s.parentAsInputGate c) → s.waiters c = [] ∧ s.waitingChildren c = []) ∧
      (s.Broken c → s.Broken (s.parentAsInputGate c))
  | .setBroken g _ => s.isReparented g = true → s.Broken (s.parentAsInputGate g)
  | _ => True

/-- The call is rejected, or it is the first `wait` of a section that is still to reject it. -/
def Refuses (s : InputGates) (w : Nat) : Prop :=
  (∃ exception, s.wait w = .rejected exception) ∨ (∃ c exception, s.wait w = .refused c exception) ∨
    ∃ c, (s.wait w).starts = some c ∧ s.Broken c

theorem Refuses.not_resolved {s : InputGates} {w : Nat} (refuses : s.Refuses w) (l : Nat) : s.wait w ≠ .resolved l := by
  intro resolved
  rcases refuses with ⟨_, rejected⟩ | ⟨_, _, refused⟩ | ⟨_, starts, _⟩
  · simp [resolved] at rejected
  · simp [resolved] at refused
  · simp [resolved, WaitStatus.starts] at starts

/-- Nothing waits on a broken gate. -/
def Quiet (s : InputGates) : Prop := ∀ g, s.Broken g → ∀ w starts, s.wait w ≠ .linked g starts

/-- Nothing waits on a broken gate, and a broken section that is reparented is under a broken gate. -/
structure Shut (s : InputGates) : Prop where
  quiet : Quiet s
  above : ∀ g, s.Broken g → s.isReparented g = true → s.Broken (s.adopter g)

/-- Each call is for the gate it was made on, or for the one that has taken over from this gate. -/
def Asks (s : InputGates) : Prop := ∀ w g, (s.wait w).awaits = some g → g = s.adopter (s.asked w)

/-- The broken gates stay broken, and refuse what is pending on them and what comes later. -/
structure Closes (s t : InputGates) : Prop where
  broken : ∀ g, s.Broken g → t.Broken g
  refuses : ∀ w, w < s.waits → s.Refuses w → t.Refuses w
  pending : ∀ w g starts, s.wait w = .linked g starts → t.Broken g → t.Refuses w
  denied : ∀ w, w < s.waits → t.Broken (s.asked w) → (∀ l, s.wait w ≠ .resolved l) → t.Refuses w
  waits : s.waits ≤ t.waits
  asked : ∀ w, w < s.waits → t.asked w = s.asked w
  later : ∀ w, s.waits ≤ w → w < t.waits → s.Broken (t.asked w) → t.Refuses w

section Breaking

variable {s : InputGates}

theorem reject_wait (s : InputGates) (w : Nat) (exception : GateException) (x : Nat) :
    (s.reject w exception).wait x = if x = w then (s.wait x).refuse exception else s.wait x := by
  unfold reject
  split
  · rename_i g c linked
    rw [unlink_wait]
    by_cases mine : x = w
    · simp [mine, linked, WaitStatus.refuse]
    · simp [mine]
  · rename_i g linked
    rw [unlink_wait]
    by_cases mine : x = w
    · simp [mine, linked, WaitStatus.refuse]
    · simp [mine]
  · rename_i none_child none_waiter
    by_cases mine : x = w
    · subst mine
      rw [if_pos rfl]
      cases status : s.wait x with
      | linked g starts =>
        cases starts with
        | none => exact absurd status (none_waiter g)
        | some c => exact absurd status (none_child g c)
      | granted => rfl
      | refused => rfl
      | resolved => rfl
      | rejected => rfl
    · rw [if_neg mine]

theorem refuse_refuse (status : WaitStatus) (exception : GateException) :
    (status.refuse exception).refuse exception = status.refuse exception := by
  cases status with
  | linked g starts => cases starts <;> rfl
  | granted => rfl
  | refused => rfl
  | resolved => rfl
  | rejected => rfl

theorem rejects_wait (exception : GateException) (ws : List Nat) (s : InputGates) (x : Nat) :
    (ws.foldl (fun s w => s.reject w exception) s).wait x =
      if x ∈ ws then (s.wait x).refuse exception else s.wait x := by
  induction ws generalizing s with
  | nil => simp
  | cons w rest ih =>
    rw [List.foldl_cons, ih, reject_wait]
    by_cases mine : x = w
    · simp [mine, refuse_refuse]
    · simp [mine]

/-- A gate that breaks refuses those that wait on it, and no others. -/
theorem setBroken_wait (accounted : Accounted s) (g : Nat) (exception : GateException) (x : Nat) :
    (∀ starts, s.wait x = .linked g starts → (s.setBroken g exception).wait x = (s.wait x).refuse exception) ∧
    ((∀ starts, s.wait x ≠ .linked g starts) → (s.setBroken g exception).wait x = s.wait x) := by
  have first := rejects_wait exception (s.waitingChildren g) s x
  have queued := (accounted.rejects exception (s.waitingChildren g)).queued
  have second := rejects_wait exception
    (((s.waitingChildren g).foldl (fun s w => s.reject w exception) s).waiters g)
    ((s.waitingChildren g).foldl (fun s w => s.reject w exception) s) x
  change (s.setBroken g exception).wait x = _ at second
  have child := accounted.queued.child g x
  have waiter := queued.waiter g x
  refine ⟨fun starts linked => ?_, fun apart => ?_⟩
  · cases starts with
    | none =>
      have out : x ∉ s.waitingChildren g := by
        rw [child, linked]
        simp
      rw [if_neg out] at first
      rw [first, linked] at waiter
      rw [second, first, if_pos (waiter.2 rfl)]
    | some c =>
      rw [if_pos (child.2 ⟨c, linked⟩)] at first
      have out : ¬ (s.wait x).refuse exception = .linked g none := by
        rw [linked]
        simp [WaitStatus.refuse]
      rw [second, if_neg (fun member => out (first ▸ waiter.1 member)), first]
  · have out : x ∉ s.waitingChildren g := fun member => (child.1 member).elim fun c linked => apart (some c) linked
    rw [if_neg out] at first
    rw [second, if_neg (fun member => apart none (first ▸ waiter.1 member)), first]

theorem unlink_rest (s : InputGates) (w : Nat) (status : WaitStatus) :
    ((s.unlink w).settle w status).brokenState = s.brokenState ∧ ((s.unlink w).settle w status).asked = s.asked := by
  unfold unlink
  split <;> exact ⟨rfl, rfl⟩

theorem reject_rest (s : InputGates) (w : Nat) (exception : GateException) :
    (s.reject w exception).brokenState = s.brokenState ∧ (s.reject w exception).asked = s.asked := by
  unfold reject
  split
  · exact unlink_rest s w _
  · exact unlink_rest s w _
  · exact ⟨rfl, rfl⟩

theorem rejects_rest (exception : GateException) (ws : List Nat) (s : InputGates) :
    (ws.foldl (fun s w => s.reject w exception) s).brokenState = s.brokenState ∧
      (ws.foldl (fun s w => s.reject w exception) s).asked = s.asked := by
  induction ws generalizing s with
  | nil => exact ⟨rfl, rfl⟩
  | cons w rest ih =>
    obtain ⟨broken, asked⟩ := reject_rest s w exception
    exact ⟨(ih _).1.trans broken, (ih _).2.trans asked⟩

theorem setBroken_broken (s : InputGates) (g : Nat) (exception : GateException) (h : Nat) :
    (s.setBroken g exception).Broken h ↔ h = g ∨ s.Broken h := by
  have same : (s.setBroken g exception).brokenState = Function.update s.brokenState g (some exception) := by
    unfold setBroken
    dsimp only
    rw [(rejects_rest _ _ _).1, (rejects_rest _ _ _).1]
  unfold Broken
  rw [same]
  by_cases mine : h = g
  · simp [mine]
  · simp [mine]

theorem setBroken_asked (s : InputGates) (g : Nat) (exception : GateException) :
    (s.setBroken g exception).asked = s.asked :=
  (rejects_rest _ _ _).2.trans (rejects_rest _ _ _).2

/-- Nothing leaves a list but to be refused. -/
def Refused (s t : InputGates) : Prop := ∀ x, t.wait x = s.wait x ∨ ∃ exception, t.wait x = (s.wait x).refuse exception

theorem Refused.trans {t u : InputGates} (first : Refused s t) (second : Refused t u) : Refused s u := by
  intro x
  rcases first x with same | ⟨exception, refused⟩
  · exact same ▸ second x
  · rcases second x with same' | ⟨exception', refused'⟩
    · exact .inr ⟨exception, same'.trans refused⟩
    · refine .inr ⟨exception, refused'.trans ?_⟩
      rw [refused]
      cases s.wait x with
      | linked g starts => cases starts <;> rfl
      | granted => rfl
      | refused => rfl
      | resolved => rfl
      | rejected => rfl

theorem setBroken_refused (accounted : Accounted s) (g : Nat) (exception : GateException) :
    Refused s (s.setBroken g exception) := by
  intro x
  obtain ⟨there, elsewhere⟩ := setBroken_wait accounted g exception x
  by_cases linked : ∃ starts, s.wait x = .linked g starts
  · obtain ⟨starts, linked⟩ := linked
    exact .inr ⟨exception, there starts linked⟩
  · exact .inl (elsewhere fun starts same => linked ⟨starts, same⟩)

theorem failed_refused (accounted : Accounted s) (fuel c : Nat) (exception : GateException) :
    Refused s (s.failed fuel c exception) := by
  have first := setBroken_refused accounted c exception
  induction fuel generalizing s c with
  | zero =>
    unfold failed
    dsimp only
    split
    · exact fun _ => .inl rfl
    · split
      · exact first.trans (setBroken_refused (accounted.setBroken c exception) 0 exception)
      · exact first
  | succ fuel ih =>
    unfold failed
    dsimp only
    split
    · exact fun _ => .inl rfl
    · split
      · exact first.trans (setBroken_refused (accounted.setBroken c exception) 0 exception)
      · have broken := accounted.setBroken c exception
        exact first.trans (ih broken _ (setBroken_refused broken _ exception))

theorem Quiet.setBroken (quiet : Quiet s) (accounted : Accounted s) (g : Nat) (exception : GateException) :
    Quiet (s.setBroken g exception) := by
  intro h broken w starts linked
  have before := (Settles.setBroken s g exception).linked w h starts linked
  rw [setBroken_broken] at broken
  rcases broken with rfl | broken
  · rw [(setBroken_wait accounted h exception w).1 starts before, before] at linked
    cases starts <;> cases linked
  · exact quiet h broken w starts before

theorem Settles.isReparented {t : InputGates} (settles : Settles s t) : t.isReparented = s.isReparented := by
  funext x
  simp only [InputGates.isReparented, settles.state]

theorem Settles.adopter {t : InputGates} (settles : Settles s t) (g : Nat) : t.adopter g = s.adopter g := by
  simp only [InputGates.adopter, settles.isReparented, settles.parent]

theorem Shut.setBroken (shut : Shut s) (accounted : Accounted s) {g : Nat} (exception : GateException)
    (above : s.isReparented g = true → s.Broken (s.adopter g)) : Shut (s.setBroken g exception) := by
  have settles := Settles.setBroken s g exception
  refine ⟨shut.quiet.setBroken accounted g exception, fun h broken departed => ?_⟩
  rw [settles.isReparented] at departed
  rw [settles.adopter, setBroken_broken]
  rw [setBroken_broken] at broken
  rcases broken with rfl | broken
  · exact .inr (above departed)
  · exact .inr (shut.above h broken departed)

/-- A section fails and so do its parents, up to one that is broken already. -/
theorem Quiet.failed (quiet : Quiet s) (accounted : Accounted s) {fuel c : Nat} (first : 0 < c) (enough : c ≤ fuel)
    (exception : GateException) (above : ∀ g, s.Broken g → s.isReparented g = true →
      s.Broken (s.adopter g) ∨ (c < g ∧ s.adopter g = s.adopter c)) :
    Shut (s.failed fuel c exception) := by
  induction fuel generalizing s c with
  | zero => exact absurd first (by omega)
  | succ fuel ih =>
    have older := accounted.counted.older c first
    unfold InputGates.failed
    dsimp only
    split
    · rename_i known
      have broken : s.Broken c := Option.isSome_iff_ne_none.1 known
      have under : s.Broken (s.adopter c) := by
        by_cases departed : s.isReparented c = true
        · exact (above c broken departed).resolve_right fun below => Nat.lt_irrefl c below.1
        · rw [adopter_of_stays (by simpa using departed)]
          exact broken
      refine ⟨quiet, fun g known departed => ?_⟩
      rcases above g known departed with covered | ⟨_, same⟩
      · exact covered
      · exact same ▸ under
    · have settles := Settles.setBroken s c exception
      have broken := accounted.setBroken c exception
      have still := quiet.setBroken accounted c exception
      have above' : ∀ g, (s.setBroken c exception).Broken g → (s.setBroken c exception).isReparented g = true →
          (s.setBroken c exception).Broken ((s.setBroken c exception).adopter g) ∨
            (s.parent c < g ∧ s.adopter g = s.adopter (s.parent c)) := by
        intro g known departed
        rw [settles.isReparented] at departed
        rw [settles.adopter, setBroken_broken]
        have up : s.isReparented c = true → s.adopter c = s.adopter (s.parent c) := heir_of_gone accounted.counted.below
        rw [setBroken_broken] at known
        rcases known with rfl | known
        · exact .inr ⟨older, up departed⟩
        · rcases above g known departed with covered | ⟨below, same⟩
          · exact .inl (.inr covered)
          · by_cases gone : s.isReparented c = true
            · exact .inr ⟨by omega, same.trans (up gone)⟩
            · rw [same, adopter_of_stays (by simpa using gone)]
              exact .inl (.inl rfl)
      split
      · rename_i root
        have settles' := Settles.setBroken (s.setBroken c exception) 0 exception
        refine ⟨still.setBroken broken 0 exception, fun g known departed => ?_⟩
        rw [settles'.isReparented] at departed
        rw [settles'.adopter, setBroken_broken]
        rw [setBroken_broken] at known
        rcases known with rfl | known
        · exact absurd (isReparented_pos departed).1 (Nat.lt_irrefl 0)
        · rcases above' g known departed with covered | ⟨_, same⟩
          · exact .inr covered
          · left
            rw [settles.parent] at root
            rw [settles.adopter, same, root]
            exact Nat.le_zero.1 (heir_le accounted.counted.below 0)
      · rename_i section_
        rw [settles.parent] at section_
        rw [settles.parent]
        refine ih still broken (Nat.pos_of_ne_zero section_) (by omega) fun g known departed => ?_
        rcases above' g known departed with covered | below
        · exact .inl covered
        · simp only [settles.adopter]
          exact .inr below

theorem Shut.failed (shut : Shut s) (accounted : Accounted s) {c : Nat} (first : 0 < c) (exception : GateException) :
    Shut (s.failed c c exception) :=
  shut.quiet.failed accounted first (Nat.le_refl c) exception fun g broken departed => .inl (shut.above g broken departed)

end Breaking

section Steps

variable {s t : InputGates} {w : Nat}

theorem Refuses.leave (refuses : s.Refuses w) (broken : ∀ g, s.Broken g → t.Broken g)
    (leaves : (s.wait w).Leaves (t.wait w)) : t.Refuses w := by
  unfold Refuses at refuses ⊢
  generalize s.wait w = before at refuses leaves
  generalize t.wait w = after at leaves ⊢
  cases leaves with
  | stays =>
    rcases refuses with rejected | refused | ⟨c, starts, known⟩
    · exact .inl rejected
    · exact .inr (.inl refused)
    · exact .inr (.inr ⟨c, starts, broken c known⟩)
  | refused g c exception => exact .inr (.inl ⟨c, exception, rfl⟩)
  | rejected g exception => exact .inl ⟨exception, rfl⟩
  | granted g c lock =>
    rcases refuses with ⟨_, rejected⟩ | ⟨_, _, refused⟩ | ⟨_, starts, known⟩
    · cases rejected
    · cases refused
    · cases starts
      exact .inr (.inr ⟨c, rfl, broken c known⟩)
  | resolved g lock =>
    rcases refuses with ⟨_, rejected⟩ | ⟨_, _, refused⟩ | ⟨_, starts, _⟩
    · cases rejected
    · cases refused
    · cases starts

theorem refuse_refuses {g : Nat} {starts : Option Nat} {exception : GateException} (linked : s.wait w = .linked g starts)
    (refused : t.wait w = (s.wait w).refuse exception) : t.Refuses w := by
  rw [linked] at refused
  cases starts with
  | none => exact .inl ⟨exception, refused⟩
  | some c => exact .inr (.inl ⟨c, exception, refused⟩)

theorem Refused.leaves (refused : Refused s t) (w : Nat) : (s.wait w).Leaves (t.wait w) := by
  rcases refused w with same | ⟨exception, same⟩
  · rw [same]
    exact .stays _
  · rw [same]
    exact WaitStatus.refuse_leaves _ _

theorem Refused.unresolved (refused : Refused s t) (unresolved : ∀ l, s.wait w ≠ .resolved l) (l : Nat) :
    t.wait w ≠ .resolved l := by
  rcases refused w with same | ⟨exception, same⟩
  · exact same ▸ unresolved l
  · rw [same]
    exact WaitStatus.refuse_unresolved unresolved exception l

/-- The sections are where they were, and the calls are those that there were. -/
structure SameTree (s t : InputGates) : Prop where
  gone : t.isReparented = s.isReparented
  adopter : ∀ g, t.adopter g = s.adopter g
  asked : t.asked = s.asked
  waits : t.waits = s.waits

theorem Asks.leave (asks : Asks s) (same : SameTree s t) (leaves : ∀ w, (s.wait w).Leaves (t.wait w)) : Asks t := by
  intro w g awaits
  rw [same.asked, same.adopter]
  exact asks w g ((leaves w).awaits awaits)

/-- A broken section that is reparented goes on refusing through the gate that has taken over. -/
theorem Shut.adopter (shut : Shut s) {g : Nat} (known : s.Broken g) : s.Broken (s.adopter g) := by
  by_cases gone : s.isReparented g = true
  · exact shut.above g known gone
  · rw [adopter_of_stays (by simpa using gone)]
    exact known

/-- A call on a broken gate that has no lock yet gets none. -/
theorem Shut.denied (shut : Shut s) (asks : Asks s) (known : s.Broken (s.asked w))
    (unresolved : ∀ l, s.wait w ≠ .resolved l) : s.Refuses w := by
  have broken := shut.adopter known
  have begun : ∀ c, (s.wait w).starts = some c → s.Refuses w := by
    intro c starts
    have mine := asks w c (WaitStatus.awaits_iff.2 (.inr starts))
    exact .inr (.inr ⟨c, starts, mine ▸ broken⟩)
  cases status : s.wait w with
  | linked g starts =>
    cases starts with
    | none =>
      have mine := asks w g (WaitStatus.awaits_iff.2 (.inl status))
      exact absurd status (shut.quiet g (mine ▸ broken) w none)
    | some c => exact begun c (by rw [status]; rfl)
  | granted c l => exact begun c (by rw [status]; rfl)
  | refused c exception => exact .inr (.inl ⟨c, exception, status⟩)
  | resolved l => exact absurd status (unresolved l)
  | rejected exception => exact .inl ⟨exception, status⟩

theorem Shut.leave (shut : Shut s) (same : SameTree s t) (broken : t.brokenState = s.brokenState)
    (leaves : ∀ w, (s.wait w).Leaves (t.wait w)) : Shut t := by
  have still : ∀ g, t.Broken g ↔ s.Broken g := by
    intro g
    simp only [Broken, broken]
  refine ⟨fun g known w starts linked => ?_, fun g known gone => ?_⟩
  · exact shut.quiet g ((still g).1 known) w starts ((leaves w).linked linked)
  · rw [same.gone] at gone
    rw [same.adopter, still]
    exact shut.above g ((still g).1 known) gone

/-- A step that breaks no gate. -/
theorem Closes.leave (shut : Shut s) (asks : Asks s) (same : SameTree s t) (broken : t.brokenState = s.brokenState)
    (leaves : ∀ w, (s.wait w).Leaves (t.wait w)) : Closes s t := by
  have still : ∀ g, t.Broken g ↔ s.Broken g := by
    intro g
    simp only [Broken, broken]
  have kept : ∀ w, s.Refuses w → t.Refuses w := fun w refuses => refuses.leave (fun g => (still g).2) (leaves w)
  exact ⟨fun g => (still g).2, fun w _ => kept w,
    fun w g starts linked known => absurd linked (shut.quiet g ((still g).1 known) w starts),
    fun w _ known unresolved => kept w (shut.denied asks ((still _).1 known) unresolved), Nat.le_of_eq same.waits.symm,
    fun w _ => by rw [same.asked], fun w old new => absurd (same.waits ▸ new) (Nat.not_lt.2 old)⟩

/-- A step that breaks gates and does no more than refuse those that wait on them. -/
theorem Closes.refuse (shut : Shut t) (asks : Asks s) (same : SameTree s t) (broken : ∀ g, s.Broken g → t.Broken g)
    (refused : Refused s t) : Closes s t := by
  refine ⟨broken, fun w _ refuses => refuses.leave broken (refused.leaves w), fun w g starts linked known => ?_,
    fun w _ known unresolved => ?_, Nat.le_of_eq same.waits.symm, fun w _ => by rw [same.asked],
    fun w old new => absurd (same.waits ▸ new) (Nat.not_lt.2 old)⟩
  · rcases refused w with still | ⟨exception, refused⟩
    · exact absurd (still.trans linked) (shut.quiet g known w starts)
    · exact refuse_refuses linked refused
  · exact shut.denied (asks.leave same refused.leaves) (same.asked ▸ known) (refused.unresolved unresolved)

/-- A call that goes on at the gate `g`, or begins the section `g`. -/
structure GoesOn (s t : InputGates) (w g : Nat) : Prop where
  same : SameTree s t
  shut : Shut t
  broken : ∀ h, s.Broken h → t.Broken h
  others : ∀ x, x ≠ w → t.wait x = s.wait x ∨ ∃ exception, t.wait x = (s.wait x).refuse exception
  awaits : ∀ h, (t.wait w).awaits = some h → h = g
  refuses : s.Broken g → t.Refuses w

theorem SameTree.trans {u : InputGates} (first : SameTree s t) (second : SameTree t u) : SameTree s u :=
  ⟨second.gone.trans first.gone, fun g => (second.adopter g).trans (first.adopter g),
    second.asked.trans first.asked, second.waits.trans first.waits⟩

theorem SameTree.withState {c : Nat} {state : SectionState} (stays : s.state c ≠ .reparented)
    (out : state ≠ .reparented) (parentLock : Nat → Option Nat) :
    SameTree s { s with state := Function.update s.state c state, parentLock } := by
  have same := SameLocks.setState stays out parentLock
  exact ⟨same.gone, same.adopter, rfl, rfl⟩

theorem GoesOn.from {u : InputGates} {g : Nat} (goes : GoesOn t u w g) (same : SameTree s t) (wait : t.wait = s.wait)
    (broken : t.brokenState = s.brokenState) : GoesOn s u w g := by
  have still : ∀ h, t.Broken h ↔ s.Broken h := by
    intro h
    simp only [Broken, broken]
  exact ⟨same.trans goes.same, goes.shut, fun h known => goes.broken h ((still h).2 known), wait ▸ goes.others,
    goes.awaits, fun known => goes.refuses ((still g).2 known)⟩

theorem Shut.same (shut : Shut s) (same : SameTree s t) (wait : t.wait = s.wait) (broken : t.brokenState = s.brokenState) :
    Shut t :=
  shut.leave same broken fun w => wait ▸ .stays _

/-- A call that settles. -/
theorem GoesOn.settle (shut : Shut s) {status : WaitStatus} (out : status.awaits = none) (w g : Nat)
    (refuses : s.Broken g → ∃ exception, status = .rejected exception) : GoesOn s (s.settle w status) w g := by
  have mine : (s.settle w status).wait w = status := by simp [InputGates.settle]
  have others : ∀ x, x ≠ w → (s.settle w status).wait x = s.wait x := fun x other => by simp [InputGates.settle, other]
  refine ⟨⟨rfl, fun _ => rfl, rfl, rfl⟩, ⟨fun h known x starts linked => ?_, shut.above⟩, fun _ => id,
    fun x other => .inl (others x other), fun h awaits => ?_, fun known => .inl ?_⟩
  · by_cases same : x = w
    · rw [same, mine] at linked
      rw [linked] at out
      cases starts <;> cases out
    · exact shut.quiet h known x starts (others x same ▸ linked)
  · rw [mine, out] at awaits
    cases awaits
  · rw [mine]
    exact refuses known

/-- A call that joins a list of a gate that is not broken. -/
theorem GoesOn.join (shut : Shut s) {gate g : Nat} {starts : Option Nat} (sane : ¬ s.Broken gate) (w : Nat)
    (awaits : (WaitStatus.linked gate starts).awaits = some g) (apart : starts = none → ¬ s.Broken g) :
    GoesOn s (s.newWaiterPromise gate starts w) w g := by
  have mine : (s.newWaiterPromise gate starts w).wait w = .linked gate starts := by
    unfold newWaiterPromise
    split <;> simp [InputGates.settle]
  have others : ∀ x, x ≠ w → (s.newWaiterPromise gate starts w).wait x = s.wait x := by
    intro x other
    unfold newWaiterPromise
    split <;> simp [InputGates.settle, other]
  have broken : (s.newWaiterPromise gate starts w).brokenState = s.brokenState := by
    unfold newWaiterPromise
    split <;> rfl
  have rest : (s.newWaiterPromise gate starts w).asked = s.asked ∧ (s.newWaiterPromise gate starts w).waits = s.waits := by
    unfold newWaiterPromise
    split <;> exact ⟨rfl, rfl⟩
  have locks := SameLocks.join s gate starts w
  have still : ∀ h, (s.newWaiterPromise gate starts w).Broken h ↔ s.Broken h := by
    intro h
    simp only [Broken, broken]
  refine ⟨⟨locks.gone, locks.adopter, rest.1, rest.2⟩, ⟨fun h known x starts' linked => ?_, fun h known gone => ?_⟩,
    fun h => (still h).2, fun x other => .inl (others x other), fun h same => ?_, fun known => ?_⟩
  · rw [still] at known
    by_cases same : x = w
    · rw [same, mine] at linked
      cases linked
      exact sane known
    · exact shut.quiet h known x starts' (others x same ▸ linked)
  · rw [locks.gone] at gone
    rw [locks.adopter, still]
    exact shut.above h ((still h).1 known) gone
  · rw [mine, awaits] at same
    exact (Option.some.inj same).symm
  · cases starts with
    | none => exact absurd known (apart rfl)
    | some c =>
      obtain rfl : c = g := Option.some.inj awaits
      exact .inr (.inr ⟨c, by rw [mine]; rfl, (still c).2 known⟩)

theorem GoesOn.gateWait (shut : Shut s) (g w : Nat) (aborted : Bool) : GoesOn s (s.gateWait g w aborted) w g := by
  unfold InputGates.gateWait
  split
  · exact .settle shut rfl w g fun _ => ⟨_, rfl⟩
  · split
    · exact .settle shut rfl w g fun _ => ⟨_, rfl⟩
    · rename_i sane
      have sane' : ¬ s.Broken g := fun broken => broken sane
      split
      · have locked : SameTree s (s.newLock g true) := ⟨rfl, fun _ => rfl, rfl, rfl⟩
        exact GoesOn.from (.settle (shut.same locked rfl rfl) rfl w g fun broken => absurd broken sane') locked rfl rfl
      · exact .join shut sane' w rfl fun _ => sane'

theorem GoesOn.enter (shut : Shut s) {c : Nat} (stays : s.state c ≠ .reparented) (lock w : Nat) (aborted : Bool) :
    GoesOn s (s.enter c lock w aborted) w c := by
  have same : SameTree s { s with
      state := Function.update s.state c .running
      parentLock := Function.update s.parentLock c (some lock) } := .withState stays (by simp) _
  exact GoesOn.from (.gateWait (shut.same same rfl rfl) c w aborted) same rfl rfl

theorem SameTree.settles (settles : Settles s t) (asked : t.asked = s.asked) : SameTree s t :=
  ⟨settles.isReparented, settles.adopter, asked, settles.waits⟩

/-- A section that is broken, which the call it makes wait is told. -/
theorem GoesOn.setBroken (shut : Shut s) (accounted : Accounted s) {c : Nat} (stays : s.state c ≠ .reparented) (w : Nat)
    (exception : GateException) : GoesOn s ((s.setBroken c exception).settle w (.rejected exception)) w c := by
  have above : s.isReparented c = true → s.Broken (s.adopter c) := fun gone => absurd (isReparented_pos gone).2 stays
  have told : GoesOn (s.setBroken c exception) ((s.setBroken c exception).settle w (.rejected exception)) w c :=
    .settle (shut.setBroken accounted exception above) rfl w c fun _ => ⟨_, rfl⟩
  have same : SameTree s (s.setBroken c exception) := .settles (.setBroken s c exception) (setBroken_asked s c exception)
  have broken : (s.setBroken c exception).Broken c := (setBroken_broken s c exception c).2 (.inl rfl)
  refine ⟨same.trans told.same, told.shut, fun h known => told.broken h ((setBroken_broken s c exception h).2 (.inr known)),
    fun x other => ?_, told.awaits, fun _ => told.refuses broken⟩
  rcases told.others x other with still | ⟨_, still⟩
  · rw [still]
    exact setBroken_refused accounted c exception x
  · have kept : ((s.setBroken c exception).settle w (.rejected exception)).wait x = (s.setBroken c exception).wait x := by
      simp [InputGates.settle, other]
    rw [kept]
    exact setBroken_refused accounted c exception x

theorem GoesOn.begin (shut : Shut s) (accounted : Accounted s) {c : Nat} (initial : s.state c = .initialWait) (w : Nat) :
    GoesOn s (s.begin c w) w c := by
  unfold InputGates.begin
  split
  · exact .setBroken shut accounted (by simp [initial]) w _
  · rename_i sane
    split
    · have locked : SameTree s (s.newLock (s.parentAsInputGate c) false) := ⟨rfl, fun _ => rfl, rfl, rfl⟩
      have entered := GoesOn.enter (s := s.newLock (s.parentAsInputGate c) false) (c := c) (shut.same locked rfl rfl)
        (by simp [newLock, initial]) s.locks w false
      exact entered.from locked rfl rfl
    · exact .join shut (fun broken => broken sane) w rfl fun none => by cases none

/-- A call goes on at the first gate up that is not reparented. -/
theorem waitOn_adopter (counted : Counted s) {fuel gate : Nat} (enough : gate ≤ fuel) (w : Nat) (aborted : Bool) :
    s.waitOn fuel gate w aborted = s.waitOn 0 (s.adopter gate) w aborted := by
  induction fuel generalizing gate with
  | zero =>
    obtain rfl := Nat.le_zero.1 enough
    rw [show s.adopter 0 = 0 from Nat.le_zero.1 (heir_le counted.below 0)]
  | succ fuel ih =>
    by_cases gone : s.isReparented gate = true
    · obtain ⟨first, state⟩ := isReparented_pos gone
      have up : s.adopter gate = s.adopter (s.parent gate) := heir_of_gone counted.below gone
      have older := counted.older gate first
      cases aborted with
      | false =>
        rw [up, ← ih (by omega)]
        conv_lhs => unfold waitOn
        simp [Nat.ne_of_gt first, state]
      | true =>
        unfold waitOn
        simp only [Nat.ne_of_gt first, if_false, if_true]
        split
        · rfl
        · rfl
    · rw [adopter_of_stays (by simpa using gone)]
      unfold waitOn
      split
      · rfl
      · split
        · rfl
        · split
          · rfl
          · rfl
          · rfl
          · rename_i section_ _ _ state
            exact absurd (by simp [isReparented, state, Nat.pos_of_ne_zero section_]) gone

theorem GoesOn.waitOn (shut : Shut s) (accounted : Accounted s) (gate w : Nat) (aborted : Bool) :
    GoesOn s (s.waitOn gate gate w aborted) w (s.adopter gate) := by
  rw [waitOn_adopter accounted.counted (Nat.le_refl gate)]
  unfold InputGates.waitOn
  split
  · rename_i root
    rw [root]
    exact .gateWait shut 0 w aborted
  · rename_i section_
    split
    · exact .settle shut rfl w _ fun _ => ⟨_, rfl⟩
    · split
      · rename_i fresh
        have same : SameTree s (s.withState (s.adopter gate) .initialWait) :=
          .withState (by simp [fresh]) (by simp) s.parentLock
        have begun : Accounted (s.withState (s.adopter gate) .initialWait) :=
          accounted.setState (by simp [fresh]) (by simp) s.parentLock
        rw [start_eq]
        exact GoesOn.from (.begin (shut.same same rfl rfl) begun (by simp [withState]) w) same rfl rfl
      · exact .settle shut rfl w _ fun _ => ⟨_, rfl⟩
      · exact .gateWait shut _ w aborted
      · rename_i state
        have stays := accounted.counted.adopter_stays gate
        simp [isReparented, state, Nat.pos_of_ne_zero section_] at stays

theorem GoesOn.asks {g : Nat} (goes : GoesOn s t w g) (asks : Asks s) (mine : g = s.adopter (s.asked w)) : Asks t := by
  intro x h awaits
  rw [goes.same.asked, goes.same.adopter]
  by_cases same : x = w
  · subst same
    exact (goes.awaits h awaits).trans mine
  · rcases goes.others x same with still | ⟨exception, refused⟩
    · exact asks x h (still ▸ awaits)
    · exact asks x h ((WaitStatus.refuse_leaves _ exception).awaits (refused ▸ awaits))

theorem GoesOn.other {g x : Nat} (goes : GoesOn s t w g) (other : x ≠ w) (refuses : s.Refuses x) : t.Refuses x := by
  refine refuses.leave goes.broken ?_
  rcases goes.others x other with still | ⟨exception, refused⟩
  · rw [still]
    exact .stays _
  · rw [refused]
    exact WaitStatus.refuse_leaves _ _

theorem GoesOn.unresolved {g x : Nat} (goes : GoesOn s t w g) (other : x ≠ w) (unresolved : ∀ l, s.wait x ≠ .resolved l)
    (l : Nat) : t.wait x ≠ .resolved l := by
  rcases goes.others x other with still | ⟨exception, refused⟩
  · exact still ▸ unresolved l
  · rw [refused]
    exact WaitStatus.refuse_unresolved unresolved exception l

theorem GoesOn.pending {g x h : Nat} {starts : Option Nat} (goes : GoesOn s t w g) (other : x ≠ w)
    (linked : s.wait x = .linked h starts) (known : t.Broken h) : t.Refuses x := by
  rcases goes.others x other with still | ⟨exception, refused⟩
  · exact absurd (still.trans linked) (goes.shut.quiet h known x starts)
  · exact refuse_refuses linked refused

def asking (s : InputGates) (gate : Nat) (aborted : Bool) : InputGates :=
  { s with
    asked := Function.update s.asked s.waits gate
    aborted := Function.update s.aborted s.waits aborted
    waits := s.waits + 1 }

/-- A new call. -/
theorem Closes.call (shut : Shut s) (asks : Asks s) (accounted : Accounted s) (gate : Nat) (aborted : Bool) :
    Shut (s.call gate aborted) ∧ Asks (s.call gate aborted) ∧ Closes s (s.call gate aborted) := by
  obtain ⟨exception, fresh⟩ := accounted.queued.later s.waits (Nat.le_refl _)
  have asked : Accounted (s.asking gate aborted) :=
    ⟨{ accounted.queued with later := fun x later => accounted.queued.later x (Nat.le_of_succ_le later) },
      accounted.counted.same ⟨rfl, rfl, rfl, rfl, rfl, rfl⟩, accounted.idle⟩
  have still : Shut (s.asking gate aborted) := { shut with }
  have goes : GoesOn (s.asking gate aborted) (s.call gate aborted) s.waits (s.adopter gate) :=
    .waitOn still asked gate s.waits aborted
  have waits : (s.call gate aborted).waits = s.waits + 1 := goes.same.waits
  have asks' : Asks (s.asking gate aborted) := by
    intro x g awaits
    change (s.wait x).awaits = some g at awaits
    change g = s.adopter (Function.update s.asked s.waits gate x)
    by_cases same : x = s.waits
    · rw [same, fresh] at awaits
      cases awaits
    · rw [Function.update_of_ne same]
      exact asks x g awaits
  have mine : s.adopter gate = (s.asking gate aborted).adopter ((s.asking gate aborted).asked s.waits) := by
    change _ = s.adopter (Function.update s.asked s.waits gate s.waits)
    rw [Function.update_self]
  refine ⟨goes.shut, goes.asks asks' mine, goes.broken, fun x old refuses => goes.other (Nat.ne_of_lt old) refuses,
    fun x h starts linked known => ?_, fun x old known unresolved => ?_, waits ▸ Nat.le_succ _, fun x old => ?_,
    fun x later new known => ?_⟩
  · have other : x ≠ s.waits := by
      rintro rfl
      rw [fresh] at linked
      cases linked
    exact goes.pending other linked known
  · have asked : (s.call gate aborted).asked x = s.asked x := by
      rw [goes.same.asked]
      exact Function.update_of_ne (Nat.ne_of_lt old) _ _
    exact goes.shut.denied (goes.asks asks' mine) (asked ▸ known) (goes.unresolved (Nat.ne_of_lt old) unresolved)
  · rw [goes.same.asked]
    exact Function.update_of_ne (Nat.ne_of_lt old) _ _
  · rw [waits] at new
    obtain rfl : x = s.waits := Nat.le_antisymm (Nat.le_of_lt_succ new) later
    rw [goes.same.asked] at known
    change s.Broken (Function.update s.asked s.waits gate s.waits) at known
    rw [Function.update_self] at known
    exact goes.refuses (shut.adopter known)

theorem gateWait_brokenState (s : InputGates) (g w : Nat) (aborted : Bool) :
    (s.gateWait g w aborted).brokenState = s.brokenState := by
  unfold InputGates.gateWait
  split
  · rfl
  · split
    · rfl
    · split <;> rfl

/-- The first `wait` of a section goes on. -/
theorem Closes.resume (shut : Shut s) (asks : Asks s) (accounted : Accounted s) (starting : Starting s) (w : Nat) :
    Shut (s.resume w) ∧ Asks (s.resume w) ∧ Closes s (s.resume w) := by
  have goes_on : ∀ {t : InputGates} {c : Nat}, GoesOn s t w c → (s.wait w).awaits = some c → (∀ g starts, s.wait w ≠ .linked g starts) →
      (s.Refuses w → t.Refuses w) → (t.Broken (s.asked w) → t.Refuses w) → Shut t ∧ Asks t ∧ Closes s t := by
    intro t c goes awaits free mine asked
    have asks' := goes.asks asks (asks w c awaits)
    refine ⟨goes.shut, asks', goes.broken, fun x _ refuses => ?_, fun x h starts linked known => ?_,
      fun x _ known unresolved => ?_, Nat.le_of_eq goes.same.waits.symm, fun x _ => by rw [goes.same.asked],
      fun x old new => absurd (goes.same.waits ▸ new) (Nat.not_lt.2 old)⟩
    · by_cases same : x = w
      · exact same ▸ mine (same ▸ refuses)
      · exact goes.other same refuses
    · have other : x ≠ w := by
        rintro rfl
        exact free h _ linked
      exact goes.pending other linked known
    · by_cases same : x = w
      · exact same ▸ asked (same ▸ known)
      · exact goes.shut.denied asks' (goes.same.asked ▸ known) (goes.unresolved same unresolved)
  unfold InputGates.resume
  split
  · rename_i c lock status
    obtain ⟨initial, _⟩ := starting.initial w c (by rw [status]; rfl)
    have goes := GoesOn.enter shut (c := c) (by simp [initial]) lock w (s.aborted w)
    have mine : s.Refuses w → (s.enter c lock w (s.aborted w)).Refuses w := by
      intro refuses
      rcases refuses with ⟨_, rejected⟩ | ⟨_, _, refused⟩ | ⟨_, starts, known⟩
      · simp [status] at rejected
      · simp [status] at refused
      · rw [status] at starts
        cases starts
        exact goes.refuses known
    refine goes_on goes (by rw [status]; rfl) (by simp [status]) mine fun known => mine (shut.denied asks ?_ (by simp [status]))
    unfold Broken InputGates.enter at known
    rw [gateWait_brokenState] at known
    exact known
  · rename_i c status
    have told : (s.settle w (.rejected .canceled)).Refuses w := .inl ⟨.canceled, by simp [settle]⟩
    exact goes_on (.settle shut rfl w c fun _ => ⟨_, rfl⟩) (by rw [status]; rfl) (by simp [status]) (fun _ => told)
      fun _ => told
  · rename_i c exception _ status
    obtain ⟨initial, _⟩ := starting.initial w c (by rw [status]; rfl)
    have running : SameTree s (s.withState c .running) := .withState (by simp [initial]) (by simp) s.parentLock
    have accounted' : Accounted (s.withState c .running) := accounted.setState (by simp [initial]) (by simp) s.parentLock
    have told : GoesOn (s.withState c .running) (((s.withState c .running).setBroken c exception).settle w
        (.rejected exception)) w c := .setBroken (shut.same running rfl rfl) accounted' (by simp [withState]) w exception
    have mine : (((s.withState c .running).setBroken c exception).settle w (.rejected exception)).Refuses w :=
      .inl ⟨exception, by simp [settle]⟩
    exact goes_on (told.from running rfl rfl) (by rw [status]; rfl) (by simp [status]) (fun _ => mine) fun _ => mine
  · exact ⟨shut, asks, Closes.leave shut asks ⟨rfl, fun _ => rfl, rfl, rfl⟩ rfl fun _ => .stays _⟩

theorem grantNext_leaves (queued : Queued s) (gate : Nat) :
    (∀ w, (s.wait w).Leaves ((s.grantNext gate).wait w)) ∧ (s.grantNext gate).brokenState = s.brokenState ∧
      SameTree s (s.grantNext gate) := by
  have given : ∀ w status given, (s.wait w).Leaves status →
      (∀ x, (s.wait x).Leaves ((((s.newLock gate given).unlink w).settle w status).wait x)) ∧
        (((s.newLock gate given).unlink w).settle w status).brokenState = s.brokenState ∧
          SameTree s (((s.newLock gate given).unlink w).settle w status) := by
    intro w status given leaves
    obtain ⟨broken, asked⟩ := unlink_rest (s.newLock gate given) w status
    have locks := SameLocks.unlink (s.newLock gate given) w status
    refine ⟨fun x => ?_, broken, locks.gone, locks.adopter, asked, (unlink_state _ w status).2.2⟩
    rw [unlink_wait]
    split
    · rename_i same
      exact same ▸ leaves
    · exact .stays _
  unfold grantNext
  split
  · rename_i child rest children
    obtain ⟨c, linked⟩ := (queued.child gate child).1 (by simp [children])
    rw [fulfill_child (s := s.newLock gate false) linked]
    exact given child _ false (linked ▸ .granted gate c _)
  · split
    · rename_i waiter rest waiters
      have linked := (queued.waiter gate waiter).1 (by simp [waiters])
      rw [fulfill_waiter (s := s.newLock gate true) linked]
      exact given waiter _ true (linked ▸ .resolved gate _)
    · exact ⟨fun _ => .stays _, rfl, rfl, fun _ => rfl, rfl, rfl⟩

theorem release_leaves (accounted : Accounted s) (l : Nat) :
    (∀ w, (s.wait w).Leaves ((release l s).2.wait w)) ∧ (release l s).2.brokenState = s.brokenState ∧
      SameTree s (release l s).2 := by
  cases held : s.gateOf l with
  | none =>
    have refused : (release l s).2 = s := by
      unfold release
      rw [state_bind]
      simp only [held, raise_run]
    rw [refused]
    exact ⟨fun _ => .stays _, rfl, rfl, fun _ => rfl, rfl, rfl⟩
  | some h =>
    rw [release_run accounted held]
    dsimp only
    unfold freed
    split
    · obtain ⟨leaves, broken, same⟩ := grantNext_leaves (s := s.unlock l (s.adopter h)) { accounted.queued with } (s.adopter h)
      exact ⟨leaves, broken, same.gone, same.adopter, same.asked, same.waits⟩
    · exact ⟨fun _ => .stays _, rfl, rfl, fun _ => rfl, rfl, rfl⟩

/-- A section that succeeds where no waiter of its own comes to a broken gate. -/
theorem Closes.reparent (shut : Shut s) (asks : Asks s) (accounted : Accounted s) (starting : Starting s) {c : Nat}
    (first : 0 < c) (running : s.state c = .running) (contained : s.Contained (.succeeded c)) :
    Shut (s.reparent c) ∧ Asks (s.reparent c) ∧ Closes s (s.reparent c) := by
  obtain ⟨nobody, under⟩ := contained running
  have queued := accounted.queued
  have counted := accounted.counted
  have stays : s.isReparented c = false := by simp [isReparented, running]
  have quiet : Quiet (s.reparent c) := by
    intro g known w starts linked
    rcases (queued.reparent_linked w g starts).1 linked with ⟨before, _⟩ | ⟨before, target⟩
    · exact shut.quiet g known w starts before
    · obtain ⟨waiters, children⟩ := nobody (target ▸ known)
      have member := (queued.moved (c := c) before).2 rfl
      simp [waiters, children] at member
  have kept : ∀ w, s.Refuses w → (s.reparent c).Refuses w := by
    intro w refuses
    rcases refuses with ⟨exception, rejected⟩ | ⟨c', exception, refused⟩ | ⟨c', starts, known⟩
    · exact .inl ⟨exception, by rw [reparent_wait, rejected]⟩
    · exact .inr (.inl ⟨c', exception, by rw [reparent_wait, refused]⟩)
    · exact .inr (.inr ⟨c', (reparent_starts s c w).trans starts, known⟩)
  refine ⟨⟨quiet, fun g known gone => ?_⟩, fun w g awaits => ?_, fun _ => id, fun w _ => kept w,
    fun w g starts linked known => absurd linked (shut.quiet g known w starts),
    fun w _ known unresolved => kept w (shut.denied asks known unresolved), Nat.le_refl _, fun _ _ => rfl,
    fun w old new => absurd new (Nat.not_lt.2 old)⟩
  · change s.Broken ((s.reparent c).adopter g)
    rw [reparent_adopter counted first stays]
    split
    · rename_i mine
      exact under (mine ▸ shut.adopter known)
    · exact shut.adopter known
  · change g = (s.reparent c).adopter (s.asked w)
    rw [reparent_adopter counted first stays]
    rcases WaitStatus.awaits_iff.1 awaits with linked | starts
    · rcases (queued.reparent_linked w g none).1 linked with ⟨before, apart⟩ | ⟨before, target⟩
      · have mine := asks w g (WaitStatus.awaits_iff.2 (.inl before))
        rw [← mine, if_neg apart]
      · have mine := asks w c (WaitStatus.awaits_iff.2 (.inl before))
        rw [← mine, if_pos rfl, target]
    · rw [reparent_starts] at starts
      have mine := asks w g (WaitStatus.awaits_iff.2 (.inr starts))
      have apart : g ≠ c := by
        rintro rfl
        have initial := (starting.initial w g starts).1
        simp [running] at initial
      rw [← mine, if_neg apart]

/-- What a state needs to keep its broken gates shut. -/
structure Fenced (s : InputGates) : Prop where
  sound : Sound s
  shut : Shut s
  asks : Asks s

theorem Closes.free (fenced : Fenced s) (same : SameTree s t) (broken : t.brokenState = s.brokenState)
    (leaves : ∀ w, (s.wait w).Leaves (t.wait w)) : Shut t ∧ Asks t ∧ Closes s t := by
  exact ⟨fenced.shut.leave same broken leaves, fenced.asks.leave same leaves,
    .leave fenced.shut fenced.asks same broken leaves⟩

/-- The calls are those that there were, and the gates that were broken still are. -/
def Breaks (s t : InputGates) : Prop := t.asked = s.asked ∧ ∀ g, s.Broken g → t.Broken g

theorem Breaks.trans {u : InputGates} (first : Breaks s t) (second : Breaks t u) : Breaks s u :=
  ⟨second.1.trans first.1, fun g known => second.2 g (first.2 g known)⟩

theorem Breaks.setBroken (s : InputGates) (g : Nat) (exception : GateException) : Breaks s (s.setBroken g exception) :=
  ⟨setBroken_asked s g exception, fun h known => (setBroken_broken s g exception h).2 (.inr known)⟩

theorem Breaks.failed (s : InputGates) (fuel c : Nat) (exception : GateException) :
    Breaks s (s.failed fuel c exception) := by
  induction fuel generalizing s c with
  | zero =>
    unfold InputGates.failed
    dsimp only
    split
    · exact ⟨rfl, fun _ => id⟩
    · split
      · exact (Breaks.setBroken s c exception).trans (.setBroken _ 0 exception)
      · exact .setBroken s c exception
  | succ fuel ih =>
    unfold InputGates.failed
    dsimp only
    split
    · exact ⟨rfl, fun _ => id⟩
    · split
      · exact (Breaks.setBroken s c exception).trans (.setBroken _ 0 exception)
      · exact (Breaks.setBroken s c exception).trans (ih _ _)

theorem Closes.failed (fenced : Fenced s) {c : Nat} (first : 0 < c) (exception : GateException) :
    Shut (s.failed c c exception) ∧ Asks (s.failed c c exception) ∧ Closes s (s.failed c c exception) := by
  have accounted := fenced.sound.accounted
  have refused := failed_refused accounted c c exception
  obtain ⟨asked, broken⟩ := Breaks.failed s c c exception
  have same : SameTree s (s.failed c c exception) := .settles (.failed s c c exception) asked
  have shut := fenced.shut.failed accounted first exception
  exact ⟨shut, fenced.asks.leave same refused.leaves, .refuse shut fenced.asks same broken refused⟩

/-- A step and then one that breaks no gate. -/
theorem Closes.then {u : InputGates} (first : Closes s t) (queued : Queued s) (second : Closes t u)
    (broken : u.brokenState = t.brokenState) : Closes s u := by
  refine ⟨fun g known => second.broken g (first.broken g known), fun w old refuses => ?_,
    fun w g starts linked known => ?_, fun w old known unresolved => ?_, Nat.le_trans first.waits second.waits,
    fun w old => ?_, fun w old new known => ?_⟩
  · exact second.refuses w (Nat.lt_of_lt_of_le old first.waits) (first.refuses w old refuses)
  · have before : t.Broken g := by
      unfold Broken at known ⊢
      exact broken ▸ known
    have old : w < s.waits := queued.made ⟨g, starts, linked⟩
    exact second.refuses w (Nat.lt_of_lt_of_le old first.waits) (first.pending w g starts linked before)
  · have before : t.Broken (s.asked w) := by
      unfold Broken at known ⊢
      exact broken ▸ known
    exact second.refuses w (Nat.lt_of_lt_of_le old first.waits) (first.denied w old before unresolved)
  · exact (second.asked w (Nat.lt_of_lt_of_le old first.waits)).trans (first.asked w old)
  · by_cases between : w < t.waits
    · rw [second.asked w between] at known
      exact second.refuses w between (first.later w old between known)
    · exact second.later w (Nat.le_of_not_lt between) new (first.broken _ known)

theorem Sound.disown (sound : Sound s) (c : Nat) : Sound (s.disown c) := by
  obtain ⟨⟨queued, counted, idle⟩, starting, placed⟩ := sound
  exact ⟨⟨{ queued with }, counted.same ⟨rfl, rfl, rfl, rfl, rfl, rfl⟩, idle⟩, { starting with }, placed⟩

theorem Fenced.dropped (fenced : Fenced s) {c : Nat} (first : 0 < c) :
    Fenced (s.dropped c) ∧ Closes s (s.dropped c) := by
  obtain ⟨accounted, starting⟩ := dropped_kept fenced.sound.accounted fenced.sound.starting c
  have sound : Sound (s.dropped c) := ⟨accounted, starting, fenced.sound.placed.settles (.dropped s c)⟩
  unfold InputGates.dropped at sound ⊢
  split
  · rename_i running
    rw [if_pos running] at sound
    obtain ⟨shut, asks, closes⟩ := Closes.failed fenced first (.error neverCompletes)
    exact ⟨⟨sound, shut, asks⟩, closes⟩
  · obtain ⟨shut, asks, closes⟩ := Closes.free fenced ⟨rfl, fun _ => rfl, rfl, rfl⟩ rfl fun w => .stays (s.wait w)
    exact ⟨⟨fenced.sound, shut, asks⟩, closes⟩

theorem step_closes {event : Event} (fenced : Fenced s) (contained : s.Contained event) (stepped : step s event = some t) :
    Fenced t ∧ Closes s t := by
  have sound := step_sound fenced.sound stepped
  obtain ⟨⟨accounted, starting, _⟩, shut, asks⟩ := fenced
  have fenced : Fenced s := ⟨⟨accounted, starting, by assumption⟩, shut, asks⟩
  suffices done : Shut t ∧ Asks t ∧ Closes s t from ⟨⟨sound, done.1, done.2.1⟩, done.2.2⟩
  cases event <;> simp only [step, Option.ite_none_right_eq_some, Option.some.injEq] at stepped <;>
    obtain ⟨admitted, rfl⟩ := stepped
  case wait gate aborted => exact Closes.call shut asks accounted gate aborted
  case abort w =>
    have refused : Refused s (s.abort w) := by
      intro x
      unfold InputGates.abort
      rw [reject_wait]
      split
      · exact .inr ⟨.canceled, rfl⟩
      · exact .inl rfl
    obtain ⟨broken, asked⟩ := reject_rest { s with aborted := Function.update s.aborted w true } w .canceled
    exact Closes.free fenced (.settles (.abort s w) asked) broken refused.leaves
  case resume w => exact Closes.resume shut asks accounted starting w
  case addRef l =>
    rw [addRef_state]
    split
    · exact Closes.free fenced ⟨rfl, fun _ => rfl, rfl, rfl⟩ rfl fun _ => .stays _
    · exact Closes.free fenced ⟨rfl, fun _ => rfl, rfl, rfl⟩ rfl fun _ => .stays _
  case release l =>
    obtain ⟨leaves, broken, same⟩ := release_leaves accounted l
    exact Closes.free fenced same broken leaves
  case startCriticalSection l =>
    rw [startCriticalSection_state]
    split
    · exact Closes.free fenced ⟨rfl, fun _ => rfl, rfl, rfl⟩ rfl fun _ => .stays _
    · exact Closes.free fenced ⟨rfl, newSection_adopter accounted.counted _, rfl, rfl⟩ rfl fun _ => .stays _
  case succeeded c =>
    by_cases running : s.state c = .running
    · have done := Closes.reparent shut asks accounted starting admitted.1 running contained
      rw [succeeded_state running]
      split
      · exact done
      · exact ⟨{ done.1 with }, done.2.1, { done.2.2 with }⟩
    · rw [succeeded_refused running]
      exact Closes.free fenced ⟨rfl, fun _ => rfl, rfl, rfl⟩ rfl fun _ => .stays _
  case failed c exception => exact Closes.failed fenced admitted.1 exception
  case setBroken g exception =>
    have refused := setBroken_refused accounted g exception
    obtain ⟨asked, broken⟩ := Breaks.setBroken s g exception
    have same : SameTree s (s.setBroken g exception) := .settles (.setBroken s g exception) asked
    have above : s.isReparented g = true → s.Broken (s.adopter g) := fun gone => by
      rw [show s.adopter g = s.parentAsInputGate g from heir_of_gone accounted.counted.below gone]
      exact contained gone
    have shut' := shut.setBroken accounted exception above
    exact ⟨shut', asks.leave same refused.leaves, .refuse shut' asks same broken refused⟩
  case drop c =>
    have dropped := fenced.dropped admitted.1
    rw [drop_state]
    split
    · exact ⟨dropped.1.shut, dropped.1.asks, dropped.2⟩
    · rename_i l has
      have disowned : Fenced ((s.dropped c).disown c) :=
        ⟨dropped.1.sound.disown c, { dropped.1.shut with }, dropped.1.asks⟩
      obtain ⟨leaves, broken, same⟩ := release_leaves disowned.sound.accounted l
      obtain ⟨shut', asks', closes⟩ := Closes.free disowned same broken leaves
      have before : Closes s ((s.dropped c).disown c) := { dropped.2 with }
      exact ⟨shut', asks', before.then accounted.queued closes broken⟩

end Steps

section Runs

variable {s t u : InputGates} {g w : Nat}

theorem opened_fenced : Fenced opened := by
  refine ⟨opened_sound, ⟨fun g known => ?_, fun g known => ?_⟩, fun w g awaits => ?_⟩
  · exact absurd rfl known
  · exact absurd rfl known
  · cases awaits

theorem reaches_fenced (reached : Reaches step Contained opened s) : Fenced s :=
  reached.invariant opened_fenced fun _ _ _ kept contained stepped => (step_closes kept contained stepped).1

/-- In a run a broken gate goes on refusing what it refuses, and refuses what comes later. -/
theorem run_closes (fenced : Fenced s) (broken : s.Broken g) (run : Reaches step Contained s t) :
    Fenced t ∧ t.Broken g ∧ s.waits ≤ t.waits ∧
      ∀ w, w < t.waits → (w < s.waits ∧ s.Refuses w) ∨ (s.waits ≤ w ∧ t.asked w = g) → t.Refuses w := by
  induction run with
  | refl =>
    refine ⟨fenced, broken, Nat.le_refl _, fun w made refuses => ?_⟩
    exact refuses.elim (fun old => old.2) fun later => absurd made (Nat.not_lt.2 later.1)
  | tail _ last ih =>
    obtain ⟨event, contained, stepped⟩ := last
    obtain ⟨fenced, broken, more, refused⟩ := ih
    obtain ⟨fenced', closes⟩ := step_closes fenced contained stepped
    refine ⟨fenced', closes.broken g broken, Nat.le_trans more closes.waits, fun w made refuses => ?_⟩
    rename_i v t _
    by_cases old : w < v.waits
    · exact closes.refuses w old (refused w old (closes.asked w old ▸ refuses))
    · rcases refuses with ⟨before, _⟩ | ⟨_, mine⟩
      · exact absurd (Nat.lt_of_lt_of_le before more) old
      · exact closes.later w (Nat.le_of_not_lt old) made (mine ▸ broken)

theorem gateWait_rejected (broken : s.Broken g) (w : Nat) (aborted : Bool) :
    ∃ exception, (s.gateWait g w aborted).wait w = .rejected exception := by
  unfold gateWait
  split
  · exact ⟨.canceled, by simp [settle]⟩
  · split
    · rename_i exception _
      exact ⟨exception, by simp [settle]⟩
    · rename_i sane
      exact absurd sane broken

/-- A call that is refused and in no list is rejected as soon as it goes on. -/
theorem Refuses.resumed (refuses : s.Refuses w) (free : ¬ (s.wait w).Linked) :
    ∃ exception, (s.resume w).wait w = .rejected exception := by
  have told : ∀ c exception, s.wait w = .refused c exception → ∃ exception, (s.resume w).wait w = .rejected exception := by
    intro c exception refused
    unfold resume
    rw [refused]
    cases exception with
    | canceled => exact ⟨.canceled, by simp [settle]⟩
    | error message => exact ⟨.error message, by simp [settle]⟩
  rcases refuses with ⟨exception, rejected⟩ | ⟨c, exception, refused⟩ | ⟨c, starts, known⟩
  · refine ⟨exception, ?_⟩
    unfold resume
    rw [rejected]
    exact rejected
  · exact told c exception refused
  · cases status : s.wait w with
    | linked g starts => exact absurd ⟨g, starts, status⟩ free
    | granted c' lock =>
      obtain rfl : c' = c := by
        rw [status] at starts
        exact Option.some.inj starts
      unfold resume
      rw [status]
      exact gateWait_rejected (s := { s with
        state := Function.update s.state c' .running
        parentLock := Function.update s.parentLock c' (some lock) }) known w _
    | refused c' exception => exact told c' exception status
    | resolved lock => simp [status, WaitStatus.starts] at starts
    | rejected exception => simp [status, WaitStatus.starts] at starts

/-- In a run in which no section with waiters succeeds under a broken gate, nothing waits on a broken
    gate. What was pending on it when it broke, and what comes later, gets no lock and is
    rejected once it goes on. -/
theorem broken_gate_grants_nothing (reached : Reaches step Contained opened s) (broken : s.Broken g) :
    (∀ w starts, s.wait w ≠ .linked g starts) ∧
    (∀ u event, Reaches step Contained opened u → u.Contained event → step u event = some s →
      ∀ w, w < u.waits → (∃ starts, u.wait w = .linked g starts) ∨ (u.asked w = g ∧ ∀ l, u.wait w ≠ .resolved l) →
        s.Refuses w) ∧
    ∀ t, Reaches step Contained s t → ∀ w, w < t.waits → (w < s.waits ∧ s.Refuses w) ∨ (s.waits ≤ w ∧ t.asked w = g) →
      t.Refuses w ∧ (∀ l, t.wait w ≠ .resolved l) ∧
        (¬ (t.wait w).Linked → ∃ exception, (t.resume w).wait w = .rejected exception) := by
  have fenced := reaches_fenced reached
  refine ⟨fenced.shut.quiet g broken, fun u event before contained stepped w made pending => ?_,
    fun t run w made refuses => ?_⟩
  · obtain ⟨_, closes⟩ := step_closes (reaches_fenced before) contained stepped
    rcases pending with ⟨starts, linked⟩ | ⟨asked, unresolved⟩
    · exact closes.pending w g starts linked broken
    · exact closes.denied w made (asked ▸ broken) unresolved
  · obtain ⟨fenced', _, _, refused⟩ := run_closes fenced broken run
    have refuses' := refused w made refuses
    exact ⟨refuses', refuses'.not_resolved, refuses'.resumed⟩

/-- A gate that breaks while a call waits on it. -/
theorem broken_gate_grants_nothing_root : ∃ s : InputGates, Reaches step Contained opened s ∧ s.Broken 0 ∧
    ∀ l, s.wait 1 ≠ .resolved l := by
  have start : Reaches step Contained opened opened := .refl
  have locked := start.then (.wait 0 false) trivial rfl
  have waiting := locked.then (.wait 0 false) trivial rfl
  have contained : ∀ s : InputGates, s.isReparented 0 = false → s.Contained (.setBroken 0 (.error "broken")) := by
    intro s stays gone
    simp [stays] at gone
  have reached := waiting.then (.setBroken 0 (.error "broken")) (contained _ rfl) rfl
  have broken := broken_gate_grants_nothing reached (g := 0) (by simp [Broken, setBroken])
  have refuses := broken.2.1 _ _ waiting (contained _ rfl) rfl 1 (by decide) (.inl ⟨none, rfl⟩)
  exact ⟨_, reached, by simp [Broken, setBroken], (broken.2.2 _ .refl 1 (by decide) (.inl ⟨by decide, refuses⟩)).2.1⟩

/-- A section fails while one in it runs, which then succeeds and hands on a call that waits. -/
theorem succeeded_waits_on_broken_gate : ¬ ∀ s, Reaches step (fun _ _ => True) opened s → ∀ g, s.Broken g →
    ∀ t, Reaches step (fun _ _ => True) s t → ∀ w, s.wait w = .linked g none → ∀ l, t.wait w ≠ .resolved l := by
  intro shut
  refine shut _
    (.head (.wait 0 false) trivial rfl <|
    .head (.startCriticalSection 0) trivial rfl <|
    .head (.wait 1 false) trivial rfl <|
    .head (.release 0) trivial rfl <|
    .head (.resume 1) trivial rfl <|
    .head (.startCriticalSection 2) trivial rfl <|
    .head (.wait 2 false) trivial rfl <|
    .head (.release 2) trivial rfl <|
    .head (.resume 2) trivial rfl <|
    .head (.wait 2 false) trivial rfl <|
    .head (.failed 1 (.error "failed")) trivial rfl <|
    .head (.succeeded 2) trivial rfl .refl) 1 ?_ _
    (.head (.release 4) trivial rfl <|
    .head (.release 3) trivial rfl .refl) 3 rfl 5 rfl
  intro sane
  cases sane

end Runs

end InputGates

end DoRuntime.Io
