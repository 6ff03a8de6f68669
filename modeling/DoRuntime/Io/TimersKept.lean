import DoRuntime.Io.AskedGate
import DoRuntime.Io.Timeouts

namespace DoRuntime.Io.Timeouts

open Transition

/-- The port's delay is not over, or what was chained to it has not run. -/
def Delayed (s : Timeouts) (a : Nat) : Prop := s.phase a = .delayed ∨ s.phase a = .elapsed ∨ s.phase a = .failed

/-- The timer's entry is there, and the arming is the one that it knows. -/
def ArmedAs (state : TimeoutState) (a : Nat) : Prop :=
  state.callback = true ∧ state.isCanceled = false ∧ state.armed = some a

/-- A timer is armed once, each firing waits on the section of its arming, and a callback runs under a lock
    of the gate that is now this section's. -/
structure Wired (s : Timeouts) : Prop where
  rightful : s.gates.Rightful
  lined : s.gates.Lined
  root : 0 < s.gates.gates
  sections : ∀ a, a < s.armings → s.criticalSection a < s.gates.gates
  timers : ∀ a, a < s.armings → 0 < s.timerOf a ∧ s.timerOf a < s.nextId
  unmade : ∀ a, s.armings ≤ a → s.phase a = .done
  alone : ∀ a b, s.phase a ≠ .done → s.phase b ≠ .done → s.timerOf a = s.timerOf b → a = b
  waits : ∀ a w, s.phase a = .admission w → w < s.gates.waits ∧ s.gates.asked w = s.criticalSection a
  callback : ∀ a, s.phase a = .callback → ∃ l, s.running = some (a, l)
  running : ∀ a l, s.running = some (a, l) → s.phase a = .callback ∧ l ∈ s.currentInputLocks ∧
    ∃ g, s.gates.gateOf l = some g ∧ s.gates.adopter g = s.gates.adopter (s.criticalSection a)
  armed : ∀ a, s.Delayed a → s.wakeAborted a = true ∨ ArmedAs (s.state (s.timerOf a)) a
  interval : ∀ id, (s.state id).repeats = true → (s.state id).isCanceled = false → (s.state id).callback = true
  nextId : 0 < s.nextId

section Wiring

variable {s t : Timeouts} {a : Nat}

theorem Wired.made (wired : Wired s) (going : s.phase a ≠ .done) : a < s.armings := by
  by_contra later
  exact going (wired.unmade a (Nat.le_of_not_lt later))

theorem Delayed.going (delayed : s.Delayed a) : s.phase a ≠ .done := by
  rcases delayed with pending | elapsed | failed
  · rw [pending]
    decide
  · rw [elapsed]
    decide
  · rw [failed]
    decide

/-- The gates go on, and leave the lock of the callback that runs. -/
theorem Wired.gate (wired : Wired s) {gates : InputGates} (advances : s.gates.Advances gates)
    (spared : s.spares gates = true) : Wired { s with gates } := by
  refine ⟨advances.rightful, advances.lined, Nat.lt_of_lt_of_le wired.root advances.gates, ?_, wired.timers,
    wired.unmade, wired.alone, ?_, wired.callback, ?_,
    wired.armed, wired.interval, wired.nextId⟩
  · intro a made
    exact Nat.lt_of_lt_of_le (wired.sections a made) advances.gates
  · intro a w waiting
    obtain ⟨known, asked⟩ := wired.waits a w waiting
    exact ⟨Nat.lt_of_lt_of_le known advances.waits, (advances.asked w known).trans asked⟩
  · intro a l runs
    change s.running = some (a, l) at runs
    obtain ⟨phase, stacked, g, held, right⟩ := wired.running a l runs
    unfold spares at spared
    rw [runs] at spared
    have kept : gates.gateOf l = s.gates.gateOf l := of_decide_eq_true spared
    exact ⟨phase, stacked, g, kept.trans held, advances.serves.merges _ _ right⟩

theorem setPhase_mine (s : Timeouts) (a : Nat) (phase : FiringPhase) : (s.setPhase a phase).phase a = phase :=
  Function.update_self ..

theorem setPhase_other (s : Timeouts) {a b : Nat} (apart : b ≠ a) (phase : FiringPhase) :
    (s.setPhase a phase).phase b = s.phase b := Function.update_of_ne apart ..

theorem updateState_mine (s : Timeouts) (id : Nat) (f : TimeoutState → TimeoutState) :
    (s.updateState id f).state id = f (s.state id) := Function.update_self ..

theorem updateState_other (s : Timeouts) {id i : Nat} (apart : i ≠ id) (f : TimeoutState → TimeoutState) :
    (s.updateState id f).state i = s.state i := Function.update_of_ne apart ..

/-- One arming goes on. -/
theorem Wired.moves (wired : Wired s) {phase : FiringPhase} (running : Option (Nat × Nat))
    (going : phase ≠ .done → s.phase a ≠ .done)
    (waits : ∀ w, phase = .admission w → w < s.gates.waits ∧ s.gates.asked w = s.criticalSection a)
    (delayed : (s.setPhase a phase).Delayed a → s.Delayed a)
    (callback : ∀ b, (s.setPhase a phase).phase b = .callback → ∃ l, running = some (b, l))
    (runs : ∀ b l, running = some (b, l) → (s.setPhase a phase).phase b = .callback ∧ l ∈ s.currentInputLocks ∧
      ∃ g, s.gates.gateOf l = some g ∧ s.gates.adopter g = s.gates.adopter (s.criticalSection b)) :
    Wired { s.setPhase a phase with running } := by
  have pending : ∀ b, (s.setPhase a phase).phase b ≠ .done → s.phase b ≠ .done := by
    intro b still
    by_cases same : b = a
    · rw [same, setPhase_mine] at still
      rw [same]
      exact going still
    · rw [setPhase_other s same] at still
      exact still
  refine ⟨wired.rightful, wired.lined, wired.root, wired.sections, wired.timers, ?_, ?_, ?_, callback, runs, ?_, wired.interval,
    wired.nextId⟩
  · intro b later
    by_contra still
    exact pending b still (wired.unmade b later)
  · intro b c first second same
    exact wired.alone b c (pending b first) (pending c second) same
  · intro b w waiting
    change (s.setPhase a phase).phase b = .admission w at waiting
    by_cases same : b = a
    · rw [same, setPhase_mine] at waiting
      rw [same]
      exact waits w waiting
    · rw [setPhase_other s same] at waiting
      exact wired.waits b w waiting
  · intro b either
    change (s.setPhase a phase).Delayed b at either
    refine wired.armed b ?_
    by_cases same : b = a
    · rw [same] at either ⊢
      exact delayed either
    · unfold Delayed at either
      rw [setPhase_other s same] at either
      exact either

/-- An arming goes on that is not the one whose callback runs. -/
theorem Wired.passes (wired : Wired s) {phase : FiringPhase} (other : ∀ l, s.running ≠ some (a, l))
    (going : phase ≠ .done → s.phase a ≠ .done) (calls : phase ≠ .callback)
    (waits : ∀ w, phase = .admission w → w < s.gates.waits ∧ s.gates.asked w = s.criticalSection a)
    (delayed : (s.setPhase a phase).Delayed a → s.Delayed a) : Wired (s.setPhase a phase) := by
  refine wired.moves s.running going waits delayed ?_ ?_
  · intro b called
    by_cases same : b = a
    · rw [same, setPhase_mine] at called
      exact absurd called calls
    · rw [setPhase_other s same] at called
      exact wired.callback b called
  · intro b l runs
    have apart : b ≠ a := by
      intro same
      rw [same] at runs
      exact other l runs
    rw [setPhase_other s apart]
    exact wired.running b l runs

/-- The first promise of an arming's race is over. -/
theorem Wired.done (wired : Wired s) (other : ∀ l, s.running ≠ some (a, l)) : Wired (s.setPhase a .done) := by
  apply wired.passes other
  · intro still
    exact absurd rfl still
  · decide
  · intro w waiting
    cases waiting
  · intro delayed
    exact absurd (setPhase_mine s a .done) delayed.going

/-- The port settles. -/
theorem Wired.port (wired : Wired s) (pending : s.phase a = .delayed) {phase : FiringPhase}
    (settled : phase = .elapsed ∨ phase = .failed) : Wired (s.setPhase a phase) := by
  apply wired.passes
  · intro l runs
    have calls := (wired.running a l runs).1
    rw [pending] at calls
    cases calls
  · intro _
    rw [pending]
    decide
  · rcases settled with rfl | rfl <;> decide
  · intro w waiting
    rcases settled with rfl | rfl <;> cases waiting
  · intro _
    exact Or.inl pending

theorem Wired.keeps (wired : Wired s) {state : Nat → TimeoutState} {timeouts : List Nat} {notes : List TimeoutNote}
    {wakeAborted : Nat → Bool} {aborted : Bool}
    (armed : ∀ a, s.Delayed a → wakeAborted a = true ∨ ArmedAs (state (s.timerOf a)) a)
    (interval : ∀ id, (state id).repeats = true → (state id).isCanceled = false → (state id).callback = true) :
    Wired { s with state, timeouts, notes, wakeAborted, aborted } := { wired with armed, interval }

theorem Wired.cancel (wired : Wired s) (id : Nat) : Wired (s.cancel id) := by
  apply wired.keeps
  · intro a delayed
    rcases wired.armed a delayed with woken | armed
    · left
      cases (s.state id).armed with
      | none => exact woken
      | some b =>
        dsimp only
        by_cases same : a = b
        · rw [same, Function.update_self]
        · rw [Function.update_of_ne same]
          exact woken
    · by_cases mine : s.timerOf a = id
      · left
        rw [← mine, armed.2.2]
        exact Function.update_self ..
      · right
        rw [updateState_other s mine]
        exact armed
  · intro i repeats pending
    by_cases mine : i = id
    · rw [mine, updateState_mine] at pending
      cases pending
    · rw [updateState_other s mine] at repeats pending ⊢
      exact wired.interval i repeats pending

theorem Wired.cancels (ids : List Nat) (wired : Wired s) : Wired (ids.foldl Timeouts.cancel s) := by
  induction ids generalizing s with
  | nil => exact wired
  | cons id rest ih => exact ih (wired.cancel id)

theorem Wired.push (wired : Wired s) (lock : Nat) :
    Wired { s with currentInputLocks := lock :: s.currentInputLocks } := by
  refine { wired with running := ?_ }
  intro a l runs
  obtain ⟨phase, stacked, right⟩ := wired.running a l runs
  exact ⟨phase, List.mem_cons_of_mem _ stacked, right⟩

theorem Wired.exit (wired : Wired s) (idle : s.running = none) (lock : Nat) : Wired (s.exit lock) := by
  have spared : s.spares (InputGates.release lock s.gates).2 = true := by
    unfold spares
    rw [idle]
  have released := wired.gate (InputGates.release_advances wired.rightful wired.lined lock) spared
  refine { released with running := ?_ }
  intro a l runs
  change s.running = some (a, l) at runs
  rw [idle] at runs
  cases runs

theorem getCriticalSection_known (wired : Wired s) {g : Nat} (current : s.getCriticalSection = some g) :
    g < s.gates.gates := by
  unfold getCriticalSection at current
  split at current
  · cases current
    exact wired.root
  · exact wired.rightful.sound.accounted.counted.gate _ g current

/-- A timer with no firing under way is armed. -/
theorem Wired.arm (wired : Wired s) {id : Nat} (first : 0 < id) (known : id < s.nextId)
    (called : (s.state id).callback = true) (pending : (s.state id).isCanceled = false)
    (idle : ∀ a, s.phase a ≠ .done → s.timerOf a ≠ id) : Wired (s.arm id) := by
  unfold Timeouts.arm
  split
  · exact wired
  · rename_i g current
    have bound := getCriticalSection_known wired current
    have old : ∀ a, s.phase a ≠ .done → a ≠ s.armings := by
      intro a going same
      exact going (wired.unmade a (Nat.le_of_eq same.symm))
    have phases : ∀ a, Function.update s.phase s.armings .delayed a ≠ .done → a ≠ s.armings → s.phase a ≠ .done := by
      intro a going apart
      rw [Function.update_of_ne apart] at going
      exact going
    refine ⟨wired.rightful, wired.lined, wired.root, ?_, ?_, ?_, ?_, ?_, ?_, ?_, ?_, ?_, wired.nextId⟩
    · intro a made
      change Function.update s.criticalSection s.armings g a < s.gates.gates
      by_cases new : a = s.armings
      · rw [new, Function.update_self]
        exact bound
      · rw [Function.update_of_ne new]
        exact wired.sections a (Nat.lt_of_le_of_ne (Nat.le_of_lt_succ made) new)
    · intro a made
      change 0 < Function.update s.timerOf s.armings id a ∧ Function.update s.timerOf s.armings id a < s.nextId
      by_cases new : a = s.armings
      · rw [new, Function.update_self]
        exact ⟨first, known⟩
      · rw [Function.update_of_ne new]
        exact wired.timers a (Nat.lt_of_le_of_ne (Nat.le_of_lt_succ made) new)
    · intro a later
      change Function.update s.phase s.armings .delayed a = .done
      have new : a ≠ s.armings := Nat.ne_of_gt later
      rw [Function.update_of_ne new]
      exact wired.unmade a (Nat.le_of_lt later)
    · intro a b first second same
      change Function.update s.timerOf s.armings id a = Function.update s.timerOf s.armings id b at same
      by_cases newA : a = s.armings
      · by_cases newB : b = s.armings
        · rw [newA, newB]
        · rw [newA, Function.update_self, Function.update_of_ne newB] at same
          exact absurd same.symm (idle b (phases b second newB))
      · by_cases newB : b = s.armings
        · rw [newB, Function.update_self, Function.update_of_ne newA] at same
          exact absurd same (idle a (phases a first newA))
        · rw [Function.update_of_ne newA, Function.update_of_ne newB] at same
          exact wired.alone a b (phases a first newA) (phases b second newB) same
    · intro a w waiting
      change Function.update s.phase s.armings .delayed a = .admission w at waiting
      change w < s.gates.waits ∧ s.gates.asked w = Function.update s.criticalSection s.armings g a
      by_cases new : a = s.armings
      · rw [new, Function.update_self] at waiting
        cases waiting
      · rw [Function.update_of_ne new] at waiting ⊢
        exact wired.waits a w waiting
    · intro a called
      change Function.update s.phase s.armings .delayed a = .callback at called
      by_cases new : a = s.armings
      · rw [new, Function.update_self] at called
        cases called
      · rw [Function.update_of_ne new] at called
        exact wired.callback a called
    · intro a l runs
      obtain ⟨called, stacked, right⟩ := wired.running a l runs
      have new := old a (by rw [called]; decide)
      change Function.update s.phase s.armings .delayed a = .callback ∧ l ∈ s.currentInputLocks ∧
        ∃ h, s.gates.gateOf l = some h ∧
          s.gates.adopter h = s.gates.adopter (Function.update s.criticalSection s.armings g a)
      rw [Function.update_of_ne new, Function.update_of_ne new]
      exact ⟨called, stacked, right⟩
    · intro a delayed
      change Function.update s.wakeAborted s.armings false a = true ∨
        ArmedAs (Function.update s.state id _ (Function.update s.timerOf s.armings id a)) a
      by_cases new : a = s.armings
      · right
        rw [new, Function.update_self, Function.update_self]
        exact ⟨called, pending, rfl⟩
      · have before : s.Delayed a := by
          unfold Delayed at delayed
          change Function.update s.phase s.armings .delayed a = .delayed ∨
            Function.update s.phase s.armings .delayed a = .elapsed ∨
              Function.update s.phase s.armings .delayed a = .failed at delayed
          rw [Function.update_of_ne new] at delayed
          exact delayed
        rw [Function.update_of_ne new, Function.update_of_ne new, Function.update_of_ne (idle a before.going)]
        exact wired.armed a before
    · intro i repeats still
      by_cases mine : i = id
      · rw [mine]
        change (Function.update s.state id _ id).callback = true
        rw [Function.update_self]
        exact called
      · change (Function.update s.state id _ i).repeats = true at repeats
        change (Function.update s.state id _ i).isCanceled = false at still
        change (Function.update s.state id _ i).callback = true
        rw [Function.update_of_ne mine] at repeats still ⊢
        exact wired.interval i repeats still

/-- A new timer, not armed yet. -/
def registered (s : Timeouts) (repeats : Bool) : Timeouts :=
  { s with
    nextId := s.nextId + 1
    state := Function.update s.state s.nextId { repeats, callback := true, isCanceled := false, armed := none }
    timeouts := s.timeouts ++ [s.nextId]
    notes := s.notes ++ [TimeoutNote.set s.nextId] }

theorem Wired.register (wired : Wired s) (repeats : Bool) : Wired (s.registered repeats) := by
  have timers : ∀ a, a < s.armings → 0 < s.timerOf a ∧ s.timerOf a < s.nextId + 1 := by
    intro a made
    obtain ⟨first, known⟩ := wired.timers a made
    exact ⟨first, Nat.lt_succ_of_lt known⟩
  refine { wired with timers, armed := ?_, interval := ?_, nextId := Nat.succ_pos _ }
  · intro a delayed
    have known := (wired.timers a (wired.made delayed.going)).2
    change s.wakeAborted a = true ∨ ArmedAs (Function.update s.state s.nextId _ (s.timerOf a)) a
    rw [Function.update_of_ne (Nat.ne_of_lt known)]
    exact wired.armed a delayed
  · intro id again still
    change (Function.update s.state s.nextId _ id).repeats = true at again
    change (Function.update s.state s.nextId _ id).isCanceled = false at still
    change (Function.update s.state s.nextId _ id).callback = true
    by_cases new : id = s.nextId
    · rw [new, Function.update_self]
    · rw [Function.update_of_ne new] at again still ⊢
      exact wired.interval id again still

theorem Wired.setTimeout (wired : Wired s) (repeats : Bool) : Wired (s.setTimeout repeats) := by
  apply (wired.register repeats).arm wired.nextId (Nat.lt_succ_self _)
  · change (Function.update s.state s.nextId _ s.nextId).callback = true
    rw [Function.update_self]
  · change (Function.update s.state s.nextId _ s.nextId).isCanceled = false
    rw [Function.update_self]
  · intro a going same
    have known := (wired.timers a (wired.made going)).2
    exact Nat.ne_of_lt known same

theorem Wired.clearTimeout (wired : Wired s) (id : Nat) : Wired (s.clearTimeout id) := by
  unfold Timeouts.clearTimeout
  split
  · exact wired.cancel id
  · exact wired

theorem Wired.abort (wired : Wired s) : Wired s.abort := by
  unfold Timeouts.abort
  split
  · exact wired
  · have flagged : Wired { s with aborted := true } := wired.keeps wired.armed wired.interval
    exact flagged.cancels s.timeouts

/-- A firing has taken its arming. -/
theorem Wired.disarm (wired : Wired s) {id : Nat} (apart : ∀ b, s.Delayed b → s.timerOf b ≠ id) :
    Wired (s.updateState id fun state => { state with armed := none }) := by
  apply wired.keeps
  · intro b delayed
    rw [Function.update_of_ne (apart b delayed)]
    exact wired.armed b delayed
  · intro i repeats pending
    by_cases mine : i = id
    · rw [mine, Function.update_self] at repeats pending
      rw [mine, Function.update_self]
      exact wired.interval id repeats pending
    · rw [Function.update_of_ne mine] at repeats pending ⊢
      exact wired.interval i repeats pending

/-- A one-shot timer is done with its entry. -/
theorem Wired.spend (wired : Wired s) {id : Nat} (single : (s.state id).repeats = false)
    (apart : ∀ b, s.Delayed b → s.timerOf b ≠ id) {timeouts : List Nat} {notes : List TimeoutNote} :
    Wired { s.updateState id fun state => { state with callback := false } with timeouts, notes } := by
  apply wired.keeps
  · intro b delayed
    rw [updateState_other s (apart b delayed)]
    exact wired.armed b delayed
  · intro i repeats pending
    by_cases mine : i = id
    · rw [mine, updateState_mine, single] at repeats
      cases repeats
    · rw [updateState_other s mine] at repeats pending ⊢
      exact wired.interval i repeats pending

/-- No callback runs, so no arming is the one whose callback runs. -/
theorem idle_other (idle : s.running = none) (a l : Nat) : s.running ≠ some (a, l) := by
  rw [idle]
  intro never
  cases never

theorem Wired.wake (wired : Wired s) (idle : s.running = none) (elapsed : s.phase a = .elapsed) :
    Wired (s.wake a) := by
  have going : s.phase a ≠ .done := by
    rw [elapsed]
    decide
  have made := wired.made going
  unfold Timeouts.wake
  dsimp only
  split
  · exact wired.done (idle_other idle a)
  · split
    · refine (wired.done (idle_other idle a)).disarm ?_
      intro b delayed same
      have apart : b ≠ a := by
        intro equal
        rw [equal] at delayed
        exact absurd (setPhase_mine s a .done) delayed.going
      have before := delayed.going
      rw [setPhase_other s apart] at before
      exact apart (wired.alone b a before going same)
    · have waits : s.gates.step (.wait (s.criticalSection a) false) = some (s.gates.call (s.criticalSection a) false) :=
        if_pos (wired.sections a made)
      have called := InputGates.step_advances wired.rightful wired.lined waits
      have spared : s.spares (s.gates.call (s.criticalSection a) false) = true := by
        unfold spares
        rw [idle]
      have asked : (s.gates.call (s.criticalSection a) false).asked s.gates.waits = s.criticalSection a ∧
          s.gates.waits < (s.gates.call (s.criticalSection a) false).waits := InputGates.call_asked _ _ _
      have waiting : Wired ({ s with gates := s.gates.call (s.criticalSection a) false }.setPhase a
          (.admission s.gates.waits)) := by
        apply (wired.gate called spared).passes (idle_other idle a) (fun _ => going)
        · exact FiringPhase.noConfusion
        · intro w same
          cases same
          exact ⟨asked.2, asked.1⟩
        · intro delayed
          exact Or.inr (Or.inl elapsed)
      refine waiting.disarm ?_
      intro b delayed same
      have apart : b ≠ a := by
        intro equal
        rw [equal] at delayed
        have mine := setPhase_mine { s with gates := s.gates.call (s.criticalSection a) false } a (.admission s.gates.waits)
        unfold Delayed at delayed
        rw [mine] at delayed
        rcases delayed with never | never | never <;> cases never
      have before := delayed.going
      rw [setPhase_other _ apart] at before
      exact apart (wired.alone b a before going same)

theorem Wired.letIn (wired : Wired s) (idle : s.running = none) {w lock : Nat} (waiting : s.phase a = .admission w)
    (resolved : s.gates.wait w = .resolved lock) : Wired (s.letIn a lock) := by
  have pushed := wired.push lock
  unfold Timeouts.letIn
  dsimp only
  split
  · exact wired.done (idle_other idle a)
  · rename_i g held
    split
    · have spared : s.spares (InputGates.release lock s.gates).2 = true := by
        unfold spares
        rw [idle]
      exact (wired.gate (InputGates.release_advances wired.rightful wired.lined lock) spared).done (idle_other idle a)
    · split
      · exact pushed.done (idle_other idle a)
      · split
        · exact pushed.done (idle_other idle a)
        · have right := (wired.rightful.given w lock resolved).2 g held
          rw [(wired.waits a w waiting).2] at right
          have begun : Wired { { s with currentInputLocks := lock :: s.currentInputLocks }.setPhase a .callback with
              running := some (a, lock) } := by
            apply pushed.moves (some (a, lock))
            · intro _
              change s.phase a ≠ .done
              rw [waiting]
              exact FiringPhase.noConfusion
            · intro w same
              cases same
            · intro delayed
              unfold Delayed at delayed
              rw [setPhase_mine] at delayed
              rcases delayed with never | never | never <;> cases never
            · intro b called
              by_cases same : b = a
              · exact ⟨lock, by rw [same]⟩
              · rw [setPhase_other _ same] at called
                obtain ⟨l, runs⟩ := wired.callback b called
                exact absurd runs (idle_other idle b l)
            · intro b l same
              cases same
              exact ⟨setPhase_mine .., List.mem_cons_self .., g, held, right⟩
          split
          · exact begun.keeps begun.armed begun.interval
          · rename_i single
            apply begun.spend (Bool.eq_false_iff.2 single)
            intro b delayed same
            have mine := begun.alone b a delayed.going (by rw [setPhase_mine]; exact FiringPhase.noConfusion) same
            rw [mine] at delayed
            unfold Delayed at delayed
            rw [setPhase_mine] at delayed
            rcases delayed with never | never | never <;> cases never

theorem Wired.finish (wired : Wired s) {lock : Nat} (runs : s.running = some (a, lock)) : Wired (s.finish a) := by
  have called := (wired.running a lock runs).1
  have going : s.phase a ≠ .done := by
    rw [called]
    exact FiringPhase.noConfusion
  obtain ⟨first, known⟩ := wired.timers a (wired.made going)
  have ended : Wired { s.setPhase a .done with running := none } := by
    apply wired.moves none
    · intro still
      exact absurd rfl still
    · intro w waiting
      cases waiting
    · intro delayed
      exact absurd (setPhase_mine s a .done) delayed.going
    · intro b still
      by_cases same : b = a
      · rw [same, setPhase_mine] at still
        cases still
      · rw [setPhase_other s same] at still
        obtain ⟨l, other⟩ := wired.callback b still
        rw [runs] at other
        cases other
        exact absurd rfl same
    · intro b l none
      cases none
  unfold Timeouts.finish
  dsimp only
  split
  · rename_i again
    apply ended.arm first known (wired.interval _ again.1 again.2) again.2
    intro b still same
    have apart : b ≠ a := by
      intro equal
      rw [equal] at still
      exact still (setPhase_mine { s with running := none } a .done)
    rw [setPhase_other _ apart] at still
    exact apart (wired.alone b a still going same)
  · exact ended

theorem step_wired {e : Event} (wired : Wired s) (stepped : s.step e = some t) : Wired t := by
  cases e with
  | setTimeoutImpl repeats =>
    cases stepped
    exact wired.setTimeout repeats
  | clearTimeoutImpl id =>
    have cleared := wired.clearTimeout id
    dsimp only [step] at stepped
    split at stepped
    · cases stepped
      exact cleared.keeps cleared.armed cleared.interval
    · cases stepped
      exact cleared
  | portResolves a =>
    dsimp only [step] at stepped
    split at stepped
    · rename_i pending
      cases stepped
      exact wired.port pending (Or.inl rfl)
    · cases stepped
  | portRejects a =>
    dsimp only [step] at stepped
    split at stepped
    · rename_i pending
      cases stepped
      exact wired.port pending (Or.inr rfl)
    · cases stepped
  | settled a =>
    dsimp only [step] at stepped
    split at stepped
    · cases stepped
    · rename_i busy
      have idle : s.running = none := not_not.1 busy
      split at stepped
      · rename_i elapsed
        cases stepped
        exact wired.wake idle elapsed
      · cases stepped
        exact wired.done (idle_other idle a)
      · cases stepped
  | entered a =>
    dsimp only [step] at stepped
    split at stepped
    · cases stepped
    · rename_i busy
      have idle : s.running = none := not_not.1 busy
      split at stepped
      · rename_i w waiting
        split at stepped
        · rename_i lock resolved
          cases stepped
          exact wired.letIn idle waiting resolved
        · cases stepped
          exact wired.done (idle_other idle a)
        · cases stepped
      · cases stepped
  | callbackReturns =>
    dsimp only [step] at stepped
    split at stepped
    · rename_i a lock runs
      cases stepped
      exact wired.finish runs
    · cases stepped
  | callbackThrows =>
    dsimp only [step] at stepped
    split at stepped
    · rename_i a lock runs
      cases stepped
      exact wired.finish runs
    · cases stepped
  | abort =>
    dsimp only [step] at stepped
    split at stepped
    · cases stepped
      exact wired
    · cases stepped
      exact wired.abort.keeps wired.abort.armed wired.abort.interval
  | exit lock =>
    dsimp only [step] at stepped
    split at stepped
    · rename_i idle
      cases stepped
      exact wired.exit idle.1 lock
    · cases stepped
  | enter lock =>
    dsimp only [step] at stepped
    split at stepped
    · cases stepped
    · cases stepped
      exact wired.push lock
  | gate event =>
    obtain ⟨gates, moved, stepped⟩ := Option.bind_eq_some_iff.1 stepped
    split at stepped
    · rename_i spared
      cases stepped
      exact wired.gate (InputGates.step_advances wired.rightful wired.lined moved) spared
    · cases stepped

theorem opened_wired : Wired opened := by
  refine ⟨InputGates.opened_rightful, ?_, Nat.zero_lt_one, ?_, ?_, fun _ _ => rfl, ?_, ?_, ?_, ?_, ?_, ?_,
    Nat.zero_lt_one⟩
  · exact ⟨fun _ _ => ⟨rfl, fun _ _ linked => by cases linked⟩, List.Pairwise.nil⟩
  · intro a made
    cases made
  · intro a made
    cases made
  · intro a b going
    exact absurd rfl going
  · intro a w waiting
    cases waiting
  · intro a called
    cases called
  · intro a l runs
    cases runs
  · intro a delayed
    exact absurd rfl delayed.going
  · intro id repeats
    cases repeats

end Wiring

section Tally

/-- `y` comes after `x`. -/
def Later (notes : List TimeoutNote) (x y : TimeoutNote) : Prop := [x, y].Sublist notes

theorem later_append (notes : List TimeoutNote) (x y z : TimeoutNote) :
    Later (notes ++ [z]) x y ↔ Later notes x y ∨ x ∈ notes ∧ y = z := by
  unfold Later
  rw [List.sublist_append_iff]
  constructor
  · rintro ⟨front, back, split, sub, last⟩
    rcases List.sublist_singleton.1 last with rfl | rfl
    · rw [List.append_nil] at split
      rw [split]
      exact Or.inl sub
    · have ends : [x] ++ [y] = front ++ [z] := split
      obtain ⟨rfl, same⟩ := List.append_inj' ends rfl
      exact Or.inr ⟨List.singleton_sublist.1 sub, List.singleton_inj.1 same⟩
  · rintro (sub | ⟨member, rfl⟩)
    · exact ⟨[x, y], [], rfl, sub, List.nil_sublist _⟩
    · exact ⟨[x], [y], rfl, List.singleton_sublist.2 member, List.Sublist.refl _⟩

/-- The timer was cleared, the context was aborted after it was set, or it is a one-shot whose callback has
    started. -/
def Ended (s : Timeouts) (id : Nat) : Prop :=
  .cleared id ∈ s.notes ∨ Later s.notes (.set id) .aborted ∨ (s.state id).repeats = false ∧ .started id ∈ s.notes

structure Tallied (s : Timeouts) : Prop where
  count : ∀ id, id ∈ s.timeouts ↔ 0 < id ∧ id < s.nextId ∧ ¬ s.Ended id
  nodup : s.timeouts.Nodup
  callback : ∀ id, (s.state id).callback = true ↔ id ∈ s.timeouts
  aborted : s.aborted = true ↔ .aborted ∈ s.notes
  noted : ∀ id, .set id ∈ s.notes ↔ 0 < id ∧ id < s.nextId
  known : ∀ id, .cleared id ∈ s.notes ∨ .started id ∈ s.notes → id < s.nextId
  once : ∀ id, (s.state id).repeats = false → s.notes.count (.started id) ≤ 1
  order : ∀ id, ¬ Later s.notes (.cleared id) (.started id) ∧ ¬ Later s.notes .aborted (.started id)

variable {s t : Timeouts}

/-- A step that sets, starts and ends no timer. -/
theorem Tallied.frame (tallied : Tallied s) (timeouts : t.timeouts = s.timeouts) (nextId : t.nextId = s.nextId)
    (aborted : t.aborted = s.aborted) (notes : t.notes = s.notes)
    (state : ∀ id, (t.state id).callback = (s.state id).callback ∧ (t.state id).repeats = (s.state id).repeats) :
    Tallied t := by
  have ended : ∀ id, t.Ended id ↔ s.Ended id := by
    intro id
    unfold Ended
    rw [notes, (state id).2]
  refine ⟨?_, ?_, ?_, ?_, ?_, ?_, ?_, ?_⟩
  · intro id
    rw [timeouts, nextId, ended]
    exact tallied.count id
  · rw [timeouts]
    exact tallied.nodup
  · intro id
    rw [timeouts, (state id).1]
    exact tallied.callback id
  · rw [aborted, notes]
    exact tallied.aborted
  · intro id
    rw [notes, nextId]
    exact tallied.noted id
  · intro id
    rw [notes, nextId]
    exact tallied.known id
  · intro id
    rw [notes, (state id).2]
    exact tallied.once id
  · intro id
    rw [notes]
    exact tallied.order id

theorem Tallied.armed (tallied : Tallied s) (id : Nat) : Tallied (s.arm id) := by
  unfold arm
  split
  · exact tallied
  · refine tallied.frame rfl rfl rfl rfl ?_
    intro i
    by_cases mine : i = id
    · rw [mine]
      change (Function.update s.state id _ id).callback = _ ∧ (Function.update s.state id _ id).repeats = _
      rw [Function.update_self]
      exact ⟨rfl, rfl⟩
    · change (Function.update s.state id _ i).callback = _ ∧ (Function.update s.state id _ i).repeats = _
      rw [Function.update_of_ne mine]
      exact ⟨rfl, rfl⟩

theorem Tallied.register (tallied : Tallied s) (first : 0 < s.nextId) (repeats : Bool) :
    Tallied (s.registered repeats) := by
  have fresh : s.nextId ∉ s.timeouts := fun member => Nat.lt_irrefl _ ((tallied.count _).1 member).2.1
  have unset : TimeoutNote.set s.nextId ∉ s.notes := fun member => Nat.lt_irrefl _ ((tallied.noted _).1 member).2
  have unstarted : TimeoutNote.started s.nextId ∉ s.notes := fun member => Nat.lt_irrefl _ (tallied.known _ (Or.inr member))
  have uncleared : TimeoutNote.cleared s.nextId ∉ s.notes := fun member => Nat.lt_irrefl _ (tallied.known _ (Or.inl member))
  have mem : ∀ n, n ∈ s.notes ++ [TimeoutNote.set s.nextId] ↔ n ∈ s.notes ∨ n = .set s.nextId := by
    intro n
    rw [List.mem_append, List.mem_singleton]
  have state : ∀ id, id ≠ s.nextId → Function.update s.state s.nextId
      { repeats, callback := true, isCanceled := false, armed := none } id = s.state id := by
    intro id apart
    exact Function.update_of_ne apart ..
  refine ⟨?_, ?_, ?_, ?_, ?_, ?_, ?_, ?_⟩
  · intro id
    change id ∈ s.timeouts ++ [s.nextId] ↔ 0 < id ∧ id < s.nextId + 1 ∧
      ¬ (TimeoutNote.cleared id ∈ s.notes ++ [TimeoutNote.set s.nextId] ∨
      Later (s.notes ++ [TimeoutNote.set s.nextId]) (.set id) .aborted ∨
        (Function.update s.state s.nextId _ id).repeats = false ∧
          TimeoutNote.started id ∈ s.notes ++ [TimeoutNote.set s.nextId])
    rw [List.mem_append, List.mem_singleton, mem, mem, later_append]
    by_cases new : id = s.nextId
    · rw [new]
      have later : ¬ Later s.notes (.set s.nextId) .aborted := fun sub => unset (sub.subset (List.mem_cons_self ..))
      simp [uncleared, unstarted, later, first]
    · rw [state id new, tallied.count id]
      unfold Ended
      simp only [reduceCtorEq, or_false, and_false, new, Nat.lt_succ_iff_lt_or_eq]
  · exact List.nodup_append.2 ⟨tallied.nodup, List.nodup_singleton _, by simp [fresh]; grind⟩
  · intro id
    change (Function.update s.state s.nextId _ id).callback = true ↔ id ∈ s.timeouts ++ [s.nextId]
    rw [List.mem_append, List.mem_singleton]
    by_cases new : id = s.nextId
    · rw [new, Function.update_self]
      simp
    · rw [state id new, tallied.callback id]
      simp only [new, or_false]
  · change s.aborted = true ↔ TimeoutNote.aborted ∈ s.notes ++ [TimeoutNote.set s.nextId]
    rw [mem, tallied.aborted]
    simp only [reduceCtorEq, or_false]
  · intro id
    change TimeoutNote.set id ∈ s.notes ++ [TimeoutNote.set s.nextId] ↔ 0 < id ∧ id < s.nextId + 1
    rw [mem, tallied.noted, TimeoutNote.set.injEq]
    omega
  · intro id
    change TimeoutNote.cleared id ∈ s.notes ++ [TimeoutNote.set s.nextId] ∨
      TimeoutNote.started id ∈ s.notes ++ [TimeoutNote.set s.nextId] → id < s.nextId + 1
    rw [mem, mem]
    simp only [reduceCtorEq, or_false]
    intro either
    exact Nat.lt_succ_of_lt (tallied.known id either)
  · intro id
    change (Function.update s.state s.nextId _ id).repeats = false →
      (s.notes ++ [TimeoutNote.set s.nextId]).count (TimeoutNote.started id) ≤ 1
    rw [List.count_append, List.count_singleton, if_neg (by simp)]
    by_cases new : id = s.nextId
    · rw [new, List.count_eq_zero_of_not_mem unstarted]
      omega
    · rw [state id new]
      exact tallied.once id
  · intro id
    change ¬ Later (s.notes ++ [TimeoutNote.set s.nextId]) _ _ ∧ ¬ Later (s.notes ++ [TimeoutNote.set s.nextId]) _ _
    rw [later_append, later_append]
    simp only [reduceCtorEq, and_false, or_false]
    exact tallied.order id

/-- What a note ends. -/
def Ends (s : Timeouts) (n : TimeoutNote) (id : Nat) : Prop :=
  n = .cleared id ∨ n = .aborted ∨ (s.state id).repeats = false ∧ n = .started id

/-- A step that ends timers, or starts the callback of one that is not at its end. -/
theorem Tallied.ends (tallied : Tallied s) (n : TimeoutNote) (notes : t.notes = s.notes ++ [n]) (old : ∀ id, n ≠ .set id)
    (nextId : t.nextId = s.nextId) (repeats : ∀ id, (t.state id).repeats = (s.state id).repeats)
    (left : ∀ id, id ∈ t.timeouts ↔ id ∈ s.timeouts ∧ ¬ s.Ends n id) (nodup : t.timeouts.Nodup)
    (callback : ∀ id, (t.state id).callback = true ↔ id ∈ t.timeouts)
    (aborted : t.aborted = true ↔ s.aborted = true ∨ n = .aborted)
    (known : ∀ id, n = .cleared id ∨ n = .started id → id < s.nextId)
    (starts : ∀ id, n = .started id → id ∈ s.timeouts ∧ s.aborted = false) : Tallied t := by
  have mem : ∀ m, m ∈ t.notes ↔ m ∈ s.notes ∨ m = n := by
    intro m
    rw [notes, List.mem_append, List.mem_singleton]
  have later : ∀ x y, Later t.notes x y ↔ Later s.notes x y ∨ x ∈ s.notes ∧ y = n := by
    intro x y
    rw [notes, later_append]
  have pending : ∀ id, n = .started id → ¬ s.Ended id := fun id same => ((tallied.count id).1 (starts id same).1).2.2
  refine ⟨?_, nodup, callback, ?_, ?_, ?_, ?_, ?_⟩
  · intro id
    have ended : 0 < id ∧ id < s.nextId → (t.Ended id ↔ s.Ended id ∨ s.Ends n id) := by
      intro made
      have set := (tallied.noted id).2 made
      unfold Ended Ends
      rw [mem, mem, later, repeats]
      constructor
      · rintro ((cleared | same) | (sub | ⟨_, same⟩) | ⟨single, started | same⟩)
        · exact Or.inl (Or.inl cleared)
        · exact Or.inr (Or.inl same.symm)
        · exact Or.inl (Or.inr (Or.inl sub))
        · exact Or.inr (Or.inr (Or.inl same.symm))
        · exact Or.inl (Or.inr (Or.inr ⟨single, started⟩))
        · exact Or.inr (Or.inr (Or.inr ⟨single, same.symm⟩))
      · rintro ((cleared | sub | ⟨single, started⟩) | same | same | ⟨single, same⟩)
        · exact Or.inl (Or.inl cleared)
        · exact Or.inr (Or.inl (Or.inl sub))
        · exact Or.inr (Or.inr ⟨single, Or.inl started⟩)
        · exact Or.inl (Or.inr same.symm)
        · exact Or.inr (Or.inl (Or.inr ⟨set, same.symm⟩))
        · exact Or.inr (Or.inr ⟨single, Or.inr same.symm⟩)
    rw [left, nextId, tallied.count id]
    constructor
    · rintro ⟨⟨first, bound, still⟩, spared⟩
      refine ⟨first, bound, ?_⟩
      rw [ended ⟨first, bound⟩]
      exact not_or.2 ⟨still, spared⟩
    · rintro ⟨first, bound, still⟩
      rw [ended ⟨first, bound⟩] at still
      obtain ⟨still, spared⟩ := not_or.1 still
      exact ⟨⟨first, bound, still⟩, spared⟩
  · rw [aborted, mem, tallied.aborted, eq_comm (a := n)]
  · intro id
    rw [mem, nextId, ← tallied.noted id]
    constructor
    · rintro (before | same)
      · exact before
      · exact absurd same.symm (old id)
    · exact Or.inl
  · intro id either
    rw [mem, mem] at either
    rw [nextId]
    rcases either with (before | same) | (before | same)
    · exact tallied.known id (Or.inl before)
    · exact known id (Or.inl same.symm)
    · exact tallied.known id (Or.inr before)
    · exact known id (Or.inr same.symm)
  · intro id single
    rw [repeats] at single
    rw [notes, List.count_append, List.count_singleton]
    by_cases same : n = .started id
    · have unstarted : TimeoutNote.started id ∉ s.notes := fun started => pending id same (Or.inr (Or.inr ⟨single, started⟩))
      rw [List.count_eq_zero_of_not_mem unstarted]
      split <;> omega
    · rw [if_neg (by simp only [beq_iff_eq, same, not_false_eq_true])]
      exact tallied.once id single
  · intro id
    rw [later, later]
    obtain ⟨cleared, aborts⟩ := tallied.order id
    constructor
    · rintro (before | ⟨before, same⟩)
      · exact cleared before
      · exact pending id same.symm (Or.inl before)
    · rintro (before | ⟨before, same⟩)
      · exact aborts before
      · have flagged := tallied.aborted.2 before
        rw [(starts id same.symm).2] at flagged
        cases flagged

theorem cancel_state (s : Timeouts) (id i : Nat) :
    ((s.cancel id).state i).repeats = (s.state i).repeats ∧
      (((s.cancel id).state i).callback = true ↔ (s.state i).callback = true ∧ i ≠ id) := by
  by_cases mine : i = id
  · rw [mine]
    change (Function.update s.state id _ id).repeats = _ ∧ ((Function.update s.state id _ id).callback = true ↔ _)
    rw [Function.update_self]
    simp
  · change (Function.update s.state id _ i).repeats = _ ∧ ((Function.update s.state id _ i).callback = true ↔ _)
    rw [Function.update_of_ne mine]
    simp [mine]

theorem Tallied.clear (tallied : Tallied s) {id : Nat} (made : 0 < id ∧ id < s.nextId) :
    Tallied ((s.clearTimeout id).note (.cleared id)) := by
  have ends : ∀ i, s.Ends (.cleared id) i ↔ i = id := by
    intro i
    unfold Ends
    simp only [TimeoutNote.cleared.injEq, reduceCtorEq, and_false, or_false]
    exact eq_comm
  unfold clearTimeout
  split
  · apply tallied.ends (.cleared id)
    · rfl
    · exact fun _ => TimeoutNote.noConfusion
    · rfl
    · exact fun i => (cancel_state s id i).1
    · intro i
      change i ∈ s.timeouts.erase id ↔ _
      rw [ends, tallied.nodup.mem_erase_iff, and_comm]
    · exact tallied.nodup.erase id
    · intro i
      change ((s.cancel id).state i).callback = true ↔ i ∈ s.timeouts.erase id
      rw [(cancel_state s id i).2, tallied.callback, tallied.nodup.mem_erase_iff, and_comm]
    · change s.aborted = true ↔ _
      simp only [reduceCtorEq, or_false]
    · intro i either
      simp only [TimeoutNote.cleared.injEq, reduceCtorEq, or_false] at either
      rw [← either]
      exact made.2
    · intro i same
      cases same
  · rename_i gone
    apply tallied.ends (.cleared id)
    · rfl
    · exact fun _ => TimeoutNote.noConfusion
    · rfl
    · exact fun _ => rfl
    · intro i
      change i ∈ s.timeouts ↔ _
      rw [ends]
      constructor
      · intro member
        exact ⟨member, fun same => gone (same ▸ member)⟩
      · exact And.left
    · exact tallied.nodup
    · exact tallied.callback
    · change s.aborted = true ↔ _
      simp only [reduceCtorEq, or_false]
    · intro i either
      simp only [TimeoutNote.cleared.injEq, reduceCtorEq, or_false] at either
      rw [← either]
      exact made.2
    · intro i same
      cases same

theorem cancels_rest (ids : List Nat) (s : Timeouts) :
    (ids.foldl cancel s).notes = s.notes ∧ (ids.foldl cancel s).nextId = s.nextId ∧
      (ids.foldl cancel s).aborted = s.aborted ∧
      (∀ i, ((ids.foldl cancel s).state i).repeats = (s.state i).repeats) ∧
      (∀ i, ((ids.foldl cancel s).state i).callback = true ↔ (s.state i).callback = true ∧ i ∉ ids) ∧
      (ids.foldl cancel s).timeouts = s.timeouts.diff ids := by
  induction ids generalizing s with
  | nil => simp
  | cons id rest ih =>
    obtain ⟨notes, nextId, aborted, repeats, callback, timeouts⟩ := ih (s.cancel id)
    refine ⟨notes, nextId, aborted, ?_, ?_, ?_⟩
    · intro i
      exact (repeats i).trans (cancel_state s id i).1
    · intro i
      rw [List.foldl_cons, callback, (cancel_state s id i).2, List.mem_cons, not_or, and_assoc]
    · rw [List.foldl_cons, timeouts, List.diff_cons]
      rfl

theorem Tallied.abort (tallied : Tallied s) (first : s.aborted = false) : Tallied (s.abort.note .aborted) := by
  have ended : s.abort = s.timeouts.foldl cancel { s with aborted := true } := by
    unfold Timeouts.abort cancelAll
    rw [first]
    rfl
  obtain ⟨notes, nextId, aborted, repeats, callback, timeouts⟩ := cancels_rest s.timeouts { s with aborted := true }
  rw [← ended] at notes nextId aborted repeats callback timeouts
  have empty : s.abort.timeouts = [] := by
    rw [timeouts]
    apply List.eq_nil_iff_forall_not_mem.2
    intro id member
    rw [tallied.nodup.mem_diff_iff] at member
    exact member.2 member.1
  have ends : ∀ id, s.Ends .aborted id := fun id => Or.inr (Or.inl rfl)
  apply tallied.ends .aborted
  · exact congrArg (· ++ [TimeoutNote.aborted]) notes
  · exact fun _ => TimeoutNote.noConfusion
  · exact nextId
  · exact repeats
  · intro id
    change id ∈ s.abort.timeouts ↔ _
    rw [empty]
    simp only [List.not_mem_nil, ends, not_true_eq_false, and_false]
  · change s.abort.timeouts.Nodup
    rw [empty]
    exact List.nodup_nil
  · intro id
    change (s.abort.state id).callback = true ↔ id ∈ s.abort.timeouts
    rw [callback, empty]
    change (s.state id).callback = true ∧ id ∉ s.timeouts ↔ id ∈ []
    rw [tallied.callback]
    simp only [and_not_self, List.not_mem_nil]
  · change s.abort.aborted = true ↔ _
    rw [aborted]
    simp
  · intro id either
    rcases either with never | never <;> cases never
  · intro id never
    cases never

/-- A callback starts. -/
theorem Tallied.start (tallied : Tallied s) {id : Nat} (called : (s.state id).callback = true)
    (unaborted : s.aborted = false) (notes : t.notes = s.notes ++ [TimeoutNote.started id])
    (nextId : t.nextId = s.nextId) (aborted : t.aborted = s.aborted)
    (timeouts : t.timeouts = if (s.state id).repeats then s.timeouts else s.timeouts.erase id)
    (state : t.state = if (s.state id).repeats then s.state
      else Function.update s.state id { s.state id with callback := false }) : Tallied t := by
  have listed := (tallied.callback id).1 called
  have ends : ∀ i, s.Ends (.started id) i ↔ i = id ∧ (s.state id).repeats = false := by
    intro i
    unfold Ends
    simp only [TimeoutNote.started.injEq, reduceCtorEq, false_or]
    constructor
    · rintro ⟨single, rfl⟩
      exact ⟨rfl, single⟩
    · rintro ⟨rfl, single⟩
      exact ⟨single, rfl⟩
  have left : ∀ i, i ∈ t.timeouts ↔ i ∈ s.timeouts ∧ ¬ s.Ends (.started id) i := by
    intro i
    rw [ends, timeouts]
    split
    · rename_i again
      rw [again]
      simp
    · rename_i single
      rw [tallied.nodup.mem_erase_iff]
      simp [single, and_comm]
  apply tallied.ends (.started id) notes (fun _ => TimeoutNote.noConfusion) nextId ?_ left
  · rw [timeouts]
    split
    · exact tallied.nodup
    · exact tallied.nodup.erase id
  · intro i
    rw [left, ends, state, ← tallied.callback i]
    split
    · rename_i again
      rw [again]
      simp
    · rename_i single
      by_cases mine : i = id
      · rw [mine, Function.update_self]
        simp [single]
      · rw [Function.update_of_ne mine]
        simp [mine]
  · rw [aborted]
    simp only [reduceCtorEq, or_false]
  · intro i either
    simp only [reduceCtorEq, TimeoutNote.started.injEq, false_or] at either
    rw [← either]
    exact ((tallied.count id).1 listed).2.1
  · intro i same
    simp only [TimeoutNote.started.injEq] at same
    rw [← same]
    exact ⟨listed, unaborted⟩
  · intro i
    rw [state]
    split
    · rfl
    · by_cases mine : i = id
      · rw [mine, Function.update_self]
      · rw [Function.update_of_ne mine]

theorem Tallied.wake (tallied : Tallied s) (a : Nat) : Tallied (s.wake a) := by
  have state : ∀ id i, ((s.updateState id fun state => { state with armed := none }).state i).callback =
      (s.state i).callback ∧
        ((s.updateState id fun state => { state with armed := none }).state i).repeats = (s.state i).repeats := by
    intro id i
    by_cases mine : i = id
    · rw [mine, updateState_mine]
      exact ⟨rfl, rfl⟩
    · rw [updateState_other s mine]
      exact ⟨rfl, rfl⟩
  unfold Timeouts.wake
  dsimp only
  split
  · exact tallied.frame rfl rfl rfl rfl fun _ => ⟨rfl, rfl⟩
  · split
    · exact tallied.frame rfl rfl rfl rfl (state _)
    · exact tallied.frame rfl rfl rfl rfl (state _)

theorem Tallied.letIn (tallied : Tallied s) (a lock : Nat) : Tallied (s.letIn a lock) := by
  unfold Timeouts.letIn
  dsimp only
  split
  · exact tallied.frame rfl rfl rfl rfl fun _ => ⟨rfl, rfl⟩
  · split
    · exact tallied.frame rfl rfl rfl rfl fun _ => ⟨rfl, rfl⟩
    · rename_i pending
      split
      · exact tallied.frame rfl rfl rfl rfl fun _ => ⟨rfl, rfl⟩
      · split
        · exact tallied.frame rfl rfl rfl rfl fun _ => ⟨rfl, rfl⟩
        · rename_i called
          have called' : (s.state (s.timerOf a)).callback = true := Bool.eq_true_of_not_eq_false called
          have unaborted : s.aborted = false := Bool.eq_false_iff.2 pending
          split
          · rename_i again
            exact tallied.start called' unaborted rfl rfl rfl (if_pos again).symm (if_pos again).symm
          · rename_i single
            exact tallied.start called' unaborted rfl rfl rfl (if_neg single).symm (if_neg single).symm

theorem Tallied.finish (tallied : Tallied s) (a : Nat) : Tallied (s.finish a) := by
  have ended : Tallied ({ s with running := none }.setPhase a .done) :=
    tallied.frame rfl rfl rfl rfl fun _ => ⟨rfl, rfl⟩
  unfold Timeouts.finish
  dsimp only
  split
  · exact ended.armed _
  · exact ended

theorem step_tallied {e : Event} (wired : Wired s) (tallied : Tallied s) (stepped : s.step e = some t) :
    Tallied t := by
  have same : ∀ id : Nat, (s.state id).callback = (s.state id).callback ∧ (s.state id).repeats = (s.state id).repeats :=
    fun _ => ⟨rfl, rfl⟩
  cases e with
  | setTimeoutImpl repeats =>
    cases stepped
    exact (tallied.register wired.nextId repeats).armed _
  | clearTimeoutImpl id =>
    dsimp only [step] at stepped
    split at stepped
    · rename_i made
      cases stepped
      exact tallied.clear made
    · rename_i unmade
      cases stepped
      unfold clearTimeout
      split
      · rename_i listed
        obtain ⟨first, known, _⟩ := (tallied.count id).1 listed
        exact absurd ⟨first, known⟩ unmade
      · exact tallied
  | portResolves a =>
    dsimp only [step] at stepped
    split at stepped
    · cases stepped
      exact tallied.frame rfl rfl rfl rfl same
    · cases stepped
  | portRejects a =>
    dsimp only [step] at stepped
    split at stepped
    · cases stepped
      exact tallied.frame rfl rfl rfl rfl same
    · cases stepped
  | settled a =>
    dsimp only [step] at stepped
    split at stepped
    · cases stepped
    · split at stepped
      · cases stepped
        exact tallied.wake a
      · cases stepped
        exact tallied.frame rfl rfl rfl rfl same
      · cases stepped
  | entered a =>
    dsimp only [step] at stepped
    split at stepped
    · cases stepped
    · split at stepped
      · split at stepped
        · cases stepped
          exact tallied.letIn a _
        · cases stepped
          exact tallied.frame rfl rfl rfl rfl same
        · cases stepped
      · cases stepped
  | callbackReturns =>
    dsimp only [step] at stepped
    split at stepped
    · cases stepped
      exact tallied.finish _
    · cases stepped
  | callbackThrows =>
    dsimp only [step] at stepped
    split at stepped
    · cases stepped
      exact tallied.finish _
    · cases stepped
  | abort =>
    dsimp only [step] at stepped
    split at stepped
    · cases stepped
      exact tallied
    · rename_i pending
      cases stepped
      exact tallied.abort (Bool.eq_false_iff.2 pending)
  | exit lock =>
    dsimp only [step] at stepped
    split at stepped
    · cases stepped
      exact tallied.frame rfl rfl rfl rfl same
    · cases stepped
  | enter lock =>
    dsimp only [step] at stepped
    split at stepped
    · cases stepped
    · cases stepped
      exact tallied.frame rfl rfl rfl rfl same
  | gate event =>
    obtain ⟨gates, moved, stepped⟩ := Option.bind_eq_some_iff.1 stepped
    split at stepped
    · cases stepped
      exact tallied.frame rfl rfl rfl rfl same
    · cases stepped

theorem opened_tallied : Tallied opened := by
  refine ⟨?_, List.nodup_nil, ?_, ?_, ?_, ?_, ?_, ?_⟩
  · intro id
    constructor
    · intro never
      cases never
    · rintro ⟨first, known, _⟩
      change id < 1 at known
      omega
  · intro id
    simp [opened]
  · simp [opened]
  · intro id
    constructor
    · intro never
      cases never
    · rintro ⟨first, known⟩
      change id < 1 at known
      omega
  · intro id either
    rcases either with never | never <;> cases never
  · intro id _
    exact Nat.zero_le _
  · intro id
    constructor <;> intro never <;> cases never

end Tally

section Runs

variable {s t : Timeouts} {a : Nat}

instance (s : Timeouts) (id : Nat) : Decidable (s.Ended id) :=
  inferInstanceAs (Decidable (_ ∨ List.Sublist _ _ ∨ _))

/-- The entry of an arming in the wait-until tasks is settled. -/
def EntrySettled (s : Timeouts) (a : Nat) : Prop := s.wakeAborted a = true ∨ s.phase a = .done

theorem reaches_kept (reached : Reaches step (fun _ _ => True) opened s) : Wired s ∧ Tallied s :=
  reached.invariant (P := fun s => Wired s ∧ Tallied s) ⟨opened_wired, opened_tallied⟩
    fun _ _ _ kept _ stepped => ⟨step_wired kept.1 stepped, step_tallied kept.1 kept.2 stepped⟩

theorem Tallied.getTimeoutCount (tallied : Tallied s) :
    s.getTimeoutCount = ((Finset.range s.nextId).filter fun id => 0 < id ∧ ¬ s.Ended id).card := by
  unfold Timeouts.getTimeoutCount
  rw [← List.toFinset_card_of_nodup tallied.nodup]
  congr 1
  ext id
  rw [List.mem_toFinset, tallied.count, Finset.mem_filter, Finset.mem_range]
  tauto

/-- An entry that is pending is that of a timer not at its end, or its firing waits for a lock or runs. -/
theorem entry_pending (wired : Wired s) (tallied : Tallied s) (pending : ¬ s.EntrySettled a) :
    s.Delayed a ∧ ¬ s.Ended (s.timerOf a) ∨ (∃ w, s.phase a = .admission w) ∨ ∃ l, s.running = some (a, l) := by
  obtain ⟨unwoken, going⟩ := not_or.1 pending
  have delayed : s.Delayed a → ¬ s.Ended (s.timerOf a) := by
    intro delayed
    rcases wired.armed a delayed with woken | armed
    · exact absurd woken unwoken
    · exact ((tallied.count _).1 ((tallied.callback _).1 armed.1)).2.2
  cases phase : s.phase a with
  | delayed => exact Or.inl ⟨Or.inl phase, delayed (Or.inl phase)⟩
  | elapsed => exact Or.inl ⟨Or.inr (Or.inl phase), delayed (Or.inr (Or.inl phase))⟩
  | failed => exact Or.inl ⟨Or.inr (Or.inr phase), delayed (Or.inr (Or.inr phase))⟩
  | admission w => exact Or.inr (Or.inl ⟨w, rfl⟩)
  | callback => exact Or.inr (Or.inr (wired.callback a phase))
  | done => exact absurd phase going

theorem letIn_settles (s : Timeouts) (a lock : Nat) :
    (s.letIn a lock).EntrySettled a ∨ ∃ l, (s.letIn a lock).running = some (a, l) := by
  unfold letIn
  dsimp only
  split
  · exact Or.inl (Or.inr (setPhase_mine ..))
  · split
    · exact Or.inl (Or.inr (setPhase_mine ..))
    · split
      · exact Or.inl (Or.inr (setPhase_mine ..))
      · split
        · exact Or.inl (Or.inr (setPhase_mine ..))
        · split <;> exact Or.inr ⟨lock, rfl⟩

theorem arm_phase (s : Timeouts) (id : Nat) (made : a ≠ s.armings) : (s.arm id).phase a = s.phase a := by
  unfold arm
  split
  · rfl
  · exact Function.update_of_ne made ..

theorem finish_settles (wired : Wired s) {l : Nat} (runs : s.running = some (a, l)) : (s.finish a).EntrySettled a := by
  have made : a ≠ s.armings := by
    apply Nat.ne_of_lt (wired.made _)
    rw [(wired.running a l runs).1]
    exact FiringPhase.noConfusion
  right
  unfold finish
  dsimp only
  split
  · exact (arm_phase ({ s with running := none }.setPhase a .done) _ made).trans (setPhase_mine ..)
  · exact setPhase_mine ..

/-- A step arms on the critical section that is current. -/
def Captures (s t : Timeouts) : Prop :=
  (∀ a, a < s.armings → t.criticalSection a = s.criticalSection a) ∧
    ∀ a, s.armings ≤ a → a < t.armings → s.getCriticalSection = some (t.criticalSection a)

theorem Captures.still (armings : t.armings = s.armings) (sections : t.criticalSection = s.criticalSection) :
    Captures s t := by
  constructor
  · intro a _
    rw [sections]
  · intro a later made
    omega

theorem Captures.arm (s : Timeouts) (id : Nat) : Captures s (s.arm id) := by
  unfold Timeouts.arm
  split
  · exact .still rfl rfl
  · rename_i g current
    constructor
    · intro a made
      exact Function.update_of_ne (Nat.ne_of_lt made) ..
    · intro a later made
      have new : a = s.armings := Nat.le_antisymm (Nat.le_of_lt_succ made) later
      change s.getCriticalSection = some (Function.update s.criticalSection s.armings g a)
      rw [new, Function.update_self]
      exact current

theorem Captures.finish (s : Timeouts) (a : Nat) : Captures s (s.finish a) := by
  have ended : Captures s ({ s with running := none }.setPhase a .done) := .still rfl rfl
  have armed := Captures.arm ({ s with running := none }.setPhase a .done) (s.timerOf a)
  unfold Timeouts.finish
  dsimp only
  split
  · exact armed
  · exact ended

theorem cancels_armings (ids : List Nat) (s : Timeouts) :
    (ids.foldl cancel s).armings = s.armings ∧ (ids.foldl cancel s).criticalSection = s.criticalSection := by
  induction ids generalizing s with
  | nil => exact ⟨rfl, rfl⟩
  | cons id rest ih => exact ih (s.cancel id)

theorem step_captures {e : Event} (stepped : s.step e = some t) : Captures s t := by
  cases e with
  | setTimeoutImpl repeats =>
    cases stepped
    exact Captures.arm (s.registered repeats) s.nextId
  | clearTimeoutImpl id =>
    have cleared : (s.clearTimeout id).armings = s.armings ∧ (s.clearTimeout id).criticalSection = s.criticalSection := by
      unfold clearTimeout
      split <;> exact ⟨rfl, rfl⟩
    dsimp only [step] at stepped
    split at stepped <;> cases stepped <;> exact .still cleared.1 cleared.2
  | portResolves a =>
    dsimp only [step] at stepped
    split at stepped <;> cases stepped
    exact .still rfl rfl
  | portRejects a =>
    dsimp only [step] at stepped
    split at stepped <;> cases stepped
    exact .still rfl rfl
  | settled a =>
    dsimp only [step] at stepped
    split at stepped
    · cases stepped
    · split at stepped
      · cases stepped
        unfold wake
        dsimp only
        split
        · exact .still rfl rfl
        · split <;> exact .still rfl rfl
      · cases stepped
        exact .still rfl rfl
      · cases stepped
  | entered a =>
    dsimp only [step] at stepped
    split at stepped
    · cases stepped
    · split at stepped
      · split at stepped
        · cases stepped
          unfold letIn
          dsimp only
          split
          · exact .still rfl rfl
          · split
            · exact .still rfl rfl
            · split
              · exact .still rfl rfl
              · split
                · exact .still rfl rfl
                · split <;> exact .still rfl rfl
        · cases stepped
          exact .still rfl rfl
        · cases stepped
      · cases stepped
  | callbackReturns =>
    dsimp only [step] at stepped
    split at stepped
    · cases stepped
      exact .finish s _
    · cases stepped
  | callbackThrows =>
    dsimp only [step] at stepped
    split at stepped
    · cases stepped
      exact .finish s _
    · cases stepped
  | abort =>
    dsimp only [step] at stepped
    split at stepped
    · cases stepped
      exact .still rfl rfl
    · rename_i pending
      cases stepped
      have ended : s.abort = s.timeouts.foldl cancel { s with aborted := true } := by
        unfold Timeouts.abort cancelAll
        rw [if_neg pending]
      have rest := cancels_armings s.timeouts { s with aborted := true }
      rw [← ended] at rest
      exact .still rest.1 rest.2
  | exit lock =>
    dsimp only [step] at stepped
    split at stepped <;> cases stepped
    exact .still rfl rfl
  | enter lock =>
    dsimp only [step] at stepped
    split at stepped <;> cases stepped
    exact .still rfl rfl
  | gate event =>
    obtain ⟨gates, moved, stepped⟩ := Option.bind_eq_some_iff.1 stepped
    split at stepped <;> cases stepped
    exact .still rfl rfl

/-- In every run a one-shot starts at most once, a timer has at most one arming under way, nothing starts
    after its timer was cleared or the context aborted, a callback runs under a lock of the gate that is now
    its section's, the count is that of the timers not at their end, and what keeps an entry pending is a
    timer not at its end or a firing that waits for its lock or runs. -/
theorem timers_kept (reached : Reaches step (fun _ _ => True) opened s) :
    (∀ id, (s.state id).repeats = false → s.notes.count (.started id) ≤ 1) ∧
    (∀ a b, s.phase a ≠ .done → s.phase b ≠ .done → s.timerOf a = s.timerOf b → a = b) ∧
    (∀ id, ¬ Later s.notes (.cleared id) (.started id) ∧ ¬ Later s.notes .aborted (.started id)) ∧
    (∀ a l, s.running = some (a, l) → l ∈ s.currentInputLocks ∧
      ∃ g, s.gates.gateOf l = some g ∧ s.gates.adopter g = s.gates.adopter (s.criticalSection a)) ∧
    (∀ e t, s.step e = some t → Captures s t) ∧
    s.getTimeoutCount = ((Finset.range s.nextId).filter fun id => 0 < id ∧ ¬ s.Ended id).card ∧
    (∀ a, ¬ s.EntrySettled a →
      s.Delayed a ∧ ¬ s.Ended (s.timerOf a) ∨ (∃ w, s.phase a = .admission w) ∨ ∃ l, s.running = some (a, l)) ∧
    (∀ a w, s.phase a = .admission w → s.running = none →
      (∃ l, s.gates.wait w = .resolved l) ∨ (∃ exception, s.gates.wait w = .rejected exception) →
        ∃ t, s.step (.entered a) = some t ∧ (t.EntrySettled a ∨ ∃ l, t.running = some (a, l))) ∧
    ∀ a l, s.running = some (a, l) → ∀ e, e = .callbackReturns ∨ e = .callbackThrows →
      ∃ t, s.step e = some t ∧ t.EntrySettled a := by
  obtain ⟨wired, tallied⟩ := reaches_kept reached
  refine ⟨tallied.once, wired.alone, tallied.order, ?_, ?_, tallied.getTimeoutCount, ?_, ?_, ?_⟩
  · intro a l runs
    exact (wired.running a l runs).2
  · intro e t stepped
    exact step_captures stepped
  · intro a pending
    exact entry_pending wired tallied pending
  · intro a w waiting idle settled
    dsimp only [step]
    rw [if_neg (not_not.2 idle), waiting]
    dsimp only
    rcases settled with ⟨l, resolved⟩ | ⟨exception, rejected⟩
    · rw [resolved]
      exact ⟨_, rfl, letIn_settles s a l⟩
    · rw [rejected]
      exact ⟨_, rfl, Or.inl (Or.inr (setPhase_mine ..))⟩
  · intro a l runs e ends
    rcases ends with rfl | rfl
    · dsimp only [step]
      rw [runs]
      exact ⟨_, rfl, finish_settles wired runs⟩
    · dsimp only [step]
      rw [runs]
      exact ⟨_, rfl, finish_settles wired runs⟩

/-- A timer armed in a critical section fires once the section is done. -/
theorem fires_after_section : ∃ s : Timeouts, Reaches step (fun _ _ => True) opened s ∧ s.running = some (0, 3) ∧
    s.gates.gateOf 3 = some 0 ∧ s.criticalSection 0 = 1 := by
  have evaluated : (run step opened
      [.gate (.wait 0 false), .gate (.startCriticalSection 0), .gate (.wait 1 false), .gate (.release 0),
        .gate (.resume 1), .enter 2, .setTimeoutImpl false, .exit 2, .gate (.succeeded 1), .gate (.release 1),
        .portResolves 0, .settled 0, .entered 0]).map (fun s => (s.running, s.gates.gateOf 3, s.criticalSection 0)) =
      some (some (0, 3), some 0, 1) := by
    decide +kernel
  obtain ⟨s, ran, fields⟩ := Option.map_eq_some_iff.1 evaluated
  simp only [Prod.mk.injEq] at fields
  exact ⟨s, run_reaches _ ran, fields⟩

theorem timers_kept_after_section : ∃ s : Timeouts, s.running = some (0, 3) ∧ 3 ∈ s.currentInputLocks ∧
    s.getTimeoutCount = ((Finset.range s.nextId).filter fun id => 0 < id ∧ ¬ s.Ended id).card := by
  obtain ⟨s, reached, runs, _⟩ := fires_after_section
  obtain ⟨_, _, _, locks, _, count, _⟩ := timers_kept reached
  exact ⟨s, runs, (locks 0 3 runs).1, count⟩

/-- Not every callback runs under a lock of the section of its arming. -/
theorem callback_under_parent : ¬ ∀ s, Reaches step (fun _ _ => True) opened s → ∀ a l, s.running = some (a, l) →
    s.gates.gateOf l = some (s.criticalSection a) := by
  intro mine
  obtain ⟨s, reached, runs, held, section_⟩ := fires_after_section
  have same := mine s reached 0 3 runs
  rw [held, section_] at same
  cases same

end Runs

end DoRuntime.Io.Timeouts
