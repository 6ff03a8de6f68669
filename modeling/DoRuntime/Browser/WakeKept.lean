import DoRuntime.Browser.AlarmCoordinator

namespace DoRuntime.Browser

open Transition

namespace AlarmCoordinator

variable {Time : Type} [LinearOrder Time] {plus : Time → Nat → Time}

/-- Where runs begin: the process is stopped, over any journal and any alarm, or nothing was journaled yet. -/
def Initial (s : AlarmCoordinator Time) : Prop :=
  s.turn = none ∧ s.waiting = [] ∧ (s.running = true → s.journal = none)

def Asks (journal : AlarmJournal Time) : Prop := journal.delivery ≠ none ∨ journal.projection.wakeAt ≠ none

/-- An alarm is armed for what a journal asks for. -/
def CoveredBy (journal : AlarmJournal Time) (now w : Time) : Prop :=
  (∀ delivery, journal.delivery = some delivery → w ≤ max now delivery.wake) ∧
    (journal.delivery = none → ∀ wakeAt, journal.projection.wakeAt = some wakeAt → w ≤ wakeAt)

def Armed (s : AlarmCoordinator Time) : Prop :=
  ∀ journal, s.journal = some journal → Asks journal → ∃ w, s.physical = some w ∧ CoveredBy journal s.now w

/-- What the turn in progress leaves behind once it has performed the rest of its plan. -/
def settled (s : AlarmCoordinator Time) : AlarmCoordinator Time :=
  match s.turn with
  | none => s
  | some turn => turn.plan.foldl perform s

def FirePending (s : AlarmCoordinator Time) : Prop := ∃ time, AlarmMutation.fire time ∈ s.waiting

/-- The calls that arm what the journal asks for, whatever was armed before. -/
def Repairs (mutation : AlarmMutation Time) : Prop := mutation = .reconcile ∨ ∃ time, mutation = .fire time

def ReconcilePending (s : AlarmCoordinator Time) : Prop :=
  AlarmMutation.reconcile ∈ s.waiting ∧ ∀ turn, s.turn = some turn → ¬ Repairs turn.mutation

structure Guarded (s : AlarmCoordinator Time) : Prop where
  wake : s.running = true → FirePending s ∨ ReconcilePending s ∨ Armed (settled s)
  idle : s.running = false → s.turn = none

section Perform

@[simp] theorem perform_turn (s : AlarmCoordinator Time) (action : AlarmAction Time) :
    (s.perform action).turn = s.turn := by cases action <;> rfl
@[simp] theorem perform_now (s : AlarmCoordinator Time) (action : AlarmAction Time) :
    (s.perform action).now = s.now := by cases action <;> rfl
@[simp] theorem perform_running (s : AlarmCoordinator Time) (action : AlarmAction Time) :
    (s.perform action).running = s.running := by cases action <;> rfl
@[simp] theorem perform_waiting (s : AlarmCoordinator Time) (action : AlarmAction Time) :
    (s.perform action).waiting = s.waiting := by cases action <;> rfl

/-- Two states with one journal, one alarm and one clock keep them together through a plan. -/
theorem armed_congr {s t : AlarmCoordinator Time} (journal : s.journal = t.journal) (physical : s.physical = t.physical)
    (later : s.now ≤ t.now) (armed : Armed s) : Armed t := by
  intro j stored asks
  obtain ⟨w, set, delivered, projected⟩ := armed j (journal.trans stored) asks
  refine ⟨w, physical.symm.trans set, ?_, projected⟩
  intro delivery owned
  exact (delivered delivery owned).trans (max_le_max_right _ later)

theorem foldl_perform_journal (plan : List (AlarmAction Time)) {s t : AlarmCoordinator Time}
    (journal : s.journal = t.journal) : (plan.foldl perform s).journal = (plan.foldl perform t).journal := by
  induction plan generalizing s t with
  | nil => exact journal
  | cons action plan ih =>
    cases action with
    | save saved => exact ih rfl
    | create time => exact ih journal
    | clear => exact ih journal

theorem foldl_perform_physical (plan : List (AlarmAction Time)) {s t : AlarmCoordinator Time}
    (physical : s.physical = t.physical) : (plan.foldl perform s).physical = (plan.foldl perform t).physical := by
  induction plan generalizing s t with
  | nil => exact physical
  | cons action plan ih =>
    cases action with
    | save saved => exact ih physical
    | create time => exact ih rfl
    | clear => exact ih rfl

theorem foldl_perform_now (plan : List (AlarmAction Time)) (s : AlarmCoordinator Time) :
    (plan.foldl perform s).now = s.now := by
  induction plan generalizing s with
  | nil => rfl
  | cons action plan ih => simp only [List.foldl_cons, ih, perform_now]

theorem settled_turn {s : AlarmCoordinator Time} {turn : AlarmTurn Time} (held : s.turn = some turn) :
    settled s = turn.plan.foldl perform s := by
  rw [settled, held]

theorem settled_now (s : AlarmCoordinator Time) : (settled s).now = s.now := by
  unfold settled
  cases s.turn with
  | none => rfl
  | some turn => exact foldl_perform_now turn.plan s

/-- The turn, the journal and the alarm decide what is settled. -/
theorem settled_congr {s t : AlarmCoordinator Time} (turn : s.turn = t.turn) (journal : s.journal = t.journal)
    (physical : s.physical = t.physical) :
    (settled s).journal = (settled t).journal ∧ (settled s).physical = (settled t).physical := by
  unfold settled
  rw [turn]
  cases t.turn with
  | none => exact ⟨journal, physical⟩
  | some turn => exact ⟨foldl_perform_journal turn.plan journal, foldl_perform_physical turn.plan physical⟩

end Perform

section Loads

theorem armed_of_applied (s : AlarmCoordinator Time) (journal : AlarmJournal Time) (stored : s.journal = some journal)
    (closed : journal.delivery = none) : Armed (s.perform (applyWake journal.projection.wakeAt)) := by
  intro j held asks
  have same : j = journal := by
    cases wakeAt : journal.projection.wakeAt <;> rw [wakeAt] at held <;>
      exact Option.some.inj (held.symm.trans stored)
  subst same
  cases wakeAt : j.projection.wakeAt with
  | none => exact absurd wakeAt (asks.resolve_left fun open' => open' closed)
  | some time =>
    refine ⟨time, rfl, ?_, ?_⟩
    · intro delivery owned
      rw [closed] at owned
      cases owned
    · intro _ other asked
      rw [wakeAt] at asked
      cases asked
      exact le_refl _

theorem armed_of_create (s : AlarmCoordinator Time) {journal : AlarmJournal Time} {time : Time}
    (stored : s.journal = some journal) (covered : CoveredBy journal s.now time) : Armed (s.perform (.create time)) := by
  intro j held _
  have same : j = journal := Option.some.inj (held.symm.trans stored)
  subst same
  exact ⟨time, rfl, covered⟩

theorem project_armed (s : AlarmCoordinator Time) (parsed : AlarmProjection Time) (armed : Armed s) :
    Armed ((projectPlan s.journal parsed).foldl perform s) := by
  unfold projectPlan
  cases stored : s.journal with
  | none => exact armed_of_applied _ { delivery := none, projection := parsed } rfl rfl
  | some journal =>
    simp only
    by_cases stale : parsed.generation < journal.projection.generation
    · rw [if_pos stale]
      exact armed
    · rw [if_neg stale]
      cases open' : journal.delivery with
      | none => exact armed_of_applied _ { delivery := none, projection := parsed } rfl rfl
      | some delivery =>
        simp only
        split_ifs
        · intro j held asks
          cases held
          obtain ⟨w, set, delivered, _⟩ := armed journal stored (.inl (by rw [open']; simp))
          refine ⟨w, set, ?_, ?_⟩
          · intro other owned
            cases owned
            exact delivered delivery open'
          · intro closed
            cases closed
        · exact armed

theorem reconcile_armed (s : AlarmCoordinator Time) {now : Time} (earlier : now ≤ s.now) :
    Armed ((reconcilePlan s.journal now).foldl perform s) := by
  unfold reconcilePlan
  cases stored : s.journal with
  | none =>
    intro j held
    rw [List.foldl_nil, stored] at held
    cases held
  | some journal =>
    cases open' : journal.delivery with
    | none =>
      simp only [open']
      exact armed_of_applied s journal stored open'
    | some delivery =>
      simp only [open']
      apply armed_of_create s stored
      refine ⟨?_, ?_⟩
      · intro other owned
        rw [open'] at owned
        cases owned
        rw [max_comm]
        exact max_le_max_right _ earlier
      · intro closed
        rw [open'] at closed
        cases closed

theorem acknowledge_armed (s : AlarmCoordinator Time) (projection : AlarmProjection Time) (armed : Armed s) :
    Armed ((acknowledgePlan s.journal projection).foldl perform s) := by
  unfold acknowledgePlan
  cases stored : s.journal with
  | none => exact armed_of_applied _ { delivery := none, projection } rfl rfl
  | some journal =>
    simp only
    split_ifs
    · exact armed
    · exact armed_of_applied _ { delivery := none, projection } rfl rfl

theorem expectedWake_covers {journal : AlarmJournal Time} {expected : Time}
    (expects : expectedWake journal = some expected) (now : Time) : CoveredBy journal now expected := by
  unfold expectedWake at expects
  refine ⟨?_, ?_⟩
  · intro delivery owned
    rw [owned] at expects
    cases expects
    exact le_max_right _ _
  · intro closed wakeAt asked
    rw [closed, asked] at expects
    cases expects
    exact le_refl _

theorem asks_iff_expectedWake (journal : AlarmJournal Time) : Asks journal ↔ expectedWake journal ≠ none := by
  unfold Asks expectedWake
  cases journal.delivery <;> simp

/-- `fire` needs nothing of the alarm it consumed: it arms one, or the journal asks for none. -/
theorem fire_armed (s : AlarmCoordinator Time) (scheduledTime : Time) :
    Armed ((fireTurn plus s.journal scheduledTime s.now).plan.foldl perform s) := by
  unfold fireTurn
  cases stored : s.journal with
  | none =>
    simp only [Option.getD_none, expectedWake, lt_irrefl, if_false]
    intro j held asks
    cases held
    refine ⟨_, rfl, ?_, ?_⟩
    · intro delivery owned
      cases owned
      exact le_max_right _ _
    · intro closed
      cases closed
  | some journal =>
    simp only [Option.getD_some]
    cases expects : expectedWake journal with
    | none =>
      intro j held asks
      have same : j = journal := Option.some.inj (held.symm.trans stored)
      subst same
      exact absurd expects ((asks_iff_expectedWake j).1 asks)
    | some expected =>
      simp only
      split_ifs
      · exact armed_of_create s stored (expectedWake_covers expects s.now)
      · intro j held asks
        cases held
        refine ⟨_, rfl, ?_, ?_⟩
        · intro delivery owned
          cases owned
          exact le_max_right _ _
        · intro closed
          cases closed

end Loads

theorem load_mutation (s : AlarmCoordinator Time) (mutation : AlarmMutation Time) :
    (s.load plus mutation).mutation = mutation := by
  cases mutation with
  | fire time =>
    simp only [load, fireTurn]
    split
    · rfl
    · split_ifs <;> rfl
  | project projection => rfl
  | reconcile => rfl
  | acknowledge attempt projection => rfl

theorem load_armed (s : AlarmCoordinator Time) (mutation : AlarmMutation Time)
    (covered : Armed s ∨ Repairs mutation) : Armed ((s.load plus mutation).plan.foldl perform s) := by
  cases mutation with
  | project projection =>
    obtain armed | impossible | ⟨_, impossible⟩ := covered
    · exact project_armed s projection armed
    · cases impossible
    · cases impossible
  | reconcile => exact reconcile_armed s le_rfl
  | fire time => exact fire_armed s time
  | acknowledge attempt projection =>
    obtain armed | impossible | ⟨_, impossible⟩ := covered
    · exact acknowledge_armed s projection armed
    · cases impossible
    · cases impossible

theorem Guarded.initial {s : AlarmCoordinator Time} (start : Initial s) : Guarded s := by
  obtain ⟨turn, waiting, fresh⟩ := start
  refine ⟨?_, fun _ => turn⟩
  intro running
  right; right
  rw [settled, turn]
  intro journal stored
  rw [fresh running] at stored
  cases stored

/-- A step that leaves the turn, the journal and the alarm, and drops no pending call. -/
theorem Guarded.frame {s t : AlarmCoordinator Time} (guarded : Guarded s) (running : t.running = s.running)
    (turn : s.turn = t.turn) (journal : s.journal = t.journal) (physical : s.physical = t.physical)
    (later : s.now ≤ t.now) (waiting : ∀ mutation ∈ s.waiting, mutation ∈ t.waiting) : Guarded t := by
  refine ⟨?_, ?_⟩
  · intro up
    rw [running] at up
    obtain ⟨time, pending⟩ | pending | armed := guarded.wake up
    · exact .inl ⟨time, waiting _ pending⟩
    · exact .inr (.inl ⟨waiting _ pending.1, fun held same => pending.2 held (turn.trans same)⟩)
    · obtain ⟨journal, physical⟩ := settled_congr turn journal physical
      refine .inr (.inr (armed_congr journal physical ?_ armed))
      simpa only [settled_now] using later
  · intro down
    rw [← turn]
    exact guarded.idle (running.symm.trans down)

theorem finish_frame (s : AlarmCoordinator Time) (turn : AlarmTurn Time) :
    (s.finish turn).turn = none ∧ (s.finish turn).journal = s.journal ∧ (s.finish turn).physical = s.physical ∧
      (s.finish turn).now = s.now ∧ (s.finish turn).running = s.running ∧ (s.finish turn).waiting = s.waiting := by
  unfold finish
  split
  · split <;> exact ⟨rfl, rfl, rfl, rfl, rfl, rfl⟩
  · exact ⟨rfl, rfl, rfl, rfl, rfl, rfl⟩
  · exact ⟨rfl, rfl, rfl, rfl, rfl, rfl⟩

/-- What a step can do to the turn, the journal and the alarm. -/
theorem step_cases {s t : AlarmCoordinator Time} {e : Event Time} (stepped : step plus s e = some t) :
    (t.turn = s.turn ∧ t.journal = s.journal ∧ t.physical = s.physical ∧ s.now ≤ t.now ∧
      (s.running = true → t.running = true ∧ ∀ mutation ∈ s.waiting, mutation ∈ t.waiting)) ∨
    (e = .goesOff ∧ ∃ w, s.physical = some w ∧
      t = { s with physical := none, waiting := s.waiting ++ [.fire w] }) ∨
    (e = .load ∧ s.turn = none ∧ ∃ mutation rest, s.waiting = mutation :: rest ∧
      t = { s with turn := some (s.load plus mutation), waiting := rest }) ∨
    (e = .act ∧ ∃ mutation action plan attempt, s.turn = some ⟨mutation, action :: plan, attempt⟩ ∧
      t = { s.perform action with turn := some ⟨mutation, plan, attempt⟩ }) ∨
    ((e = .finish ∨ e = .stop) ∧
      t.turn = none ∧ t.journal = s.journal ∧ t.physical = s.physical ∧ s.now ≤ t.now) := by
  cases e with
  | goesOff =>
    simp only [step] at stepped
    cases set : s.physical with
    | none =>
      rw [set] at stepped
      cases stepped
    | some time =>
      simp only [set, Option.ite_none_right_eq_some, Option.some.injEq] at stepped
      exact .inr (.inl ⟨rfl, time, rfl, stepped.2.symm⟩)
  | load =>
    simp only [step] at stepped
    split at stepped
    next mutation rest turn waiting =>
      simp only [Option.ite_none_right_eq_some, Option.some.injEq] at stepped
      exact .inr (.inr (.inl ⟨rfl, turn, mutation, rest, waiting, stepped.2.symm⟩))
    next => cases stepped
  | act =>
    simp only [step] at stepped
    split at stepped
    next mutation action plan attempt turn =>
      obtain rfl := Option.some.inj stepped
      exact .inr (.inr (.inr (.inl ⟨rfl, mutation, action, plan, attempt, turn, rfl⟩)))
    next => cases stepped
  | finish =>
    simp only [step] at stepped
    split at stepped
    next mutation attempt turn =>
      obtain rfl := Option.some.inj stepped
      obtain ⟨ended, journal, physical, now, _⟩ := finish_frame s ⟨mutation, [], attempt⟩
      exact .inr (.inr (.inr (.inr ⟨.inl rfl, ended, journal, physical, le_of_eq now.symm⟩)))
    next => cases stepped
  | stop =>
    simp only [step, Option.some.injEq] at stepped
    subst stepped
    exact .inr (.inr (.inr (.inr ⟨.inr rfl, rfl, rfl, rfl, le_rfl⟩)))
  | restart =>
    simp only [step, Option.ite_none_left_eq_some, Option.some.injEq] at stepped
    obtain ⟨down, rfl⟩ := stepped
    exact .inl ⟨rfl, rfl, rfl, le_rfl, fun up => absurd up down⟩
  | tick now =>
    simp only [step, Option.ite_none_right_eq_some, Option.some.injEq] at stepped
    obtain ⟨later, rfl⟩ := stepped
    exact .inl ⟨rfl, rfl, rfl, later, fun up => ⟨up, fun _ held => held⟩⟩
  | refused _ =>
    simp only [step, Option.ite_none_right_eq_some, Option.some.injEq] at stepped
    obtain ⟨_, rfl⟩ := stepped
    exact .inl ⟨rfl, rfl, rfl, le_rfl, fun up => ⟨up, fun _ held => held⟩⟩
  | project _ | reconcile | fire _ | delivered _ _ =>
    simp only [step, Option.ite_none_right_eq_some, Option.some.injEq] at stepped
    obtain ⟨_, rfl⟩ := stepped
    exact .inl ⟨rfl, rfl, rfl, le_rfl, fun up => ⟨up, fun _ held => List.mem_append_left _ held⟩⟩

theorem step_now {s t : AlarmCoordinator Time} {e : Event Time} (stepped : step plus s e = some t) : s.now ≤ t.now := by
  obtain ⟨_, _, _, later, _⟩ | ⟨_, _, _, rfl⟩ | ⟨_, _, _, _, _, rfl⟩ | ⟨_, _, _, _, _, _, rfl⟩ |
    ⟨_, _, _, _, later⟩ := step_cases stepped
  · exact later
  · exact le_rfl
  · exact le_rfl
  · exact le_of_eq (perform_now _ _).symm
  · exact later

theorem Guarded.step {s t : AlarmCoordinator Time} {e : Event Time} (guarded : Guarded s)
    (stepped : step plus s e = some t) : Guarded t := by
  cases e with
  | project projection =>
    simp only [AlarmCoordinator.step, Option.ite_none_right_eq_some, Option.some.injEq] at stepped
    obtain ⟨_, rfl⟩ := stepped
    exact guarded.frame rfl rfl rfl rfl le_rfl fun _ held => List.mem_append_left _ held
  | reconcile =>
    simp only [AlarmCoordinator.step, Option.ite_none_right_eq_some, Option.some.injEq] at stepped
    obtain ⟨_, rfl⟩ := stepped
    exact guarded.frame rfl rfl rfl rfl le_rfl fun _ held => List.mem_append_left _ held
  | fire scheduledTime =>
    simp only [AlarmCoordinator.step, Option.ite_none_right_eq_some, Option.some.injEq] at stepped
    obtain ⟨_, rfl⟩ := stepped
    exact guarded.frame rfl rfl rfl rfl le_rfl fun _ held => List.mem_append_left _ held
  | goesOff =>
    simp only [AlarmCoordinator.step] at stepped
    cases set : s.physical with
    | none =>
      rw [set] at stepped
      cases stepped
    | some time =>
      simp only [set, Option.ite_none_right_eq_some, Option.some.injEq] at stepped
      obtain ⟨⟨running, _⟩, rfl⟩ := stepped
      refine ⟨fun _ => .inl ⟨time, by simp⟩, fun down => ?_⟩
      exact guarded.idle down
  | load =>
    simp only [AlarmCoordinator.step] at stepped
    cases turn : s.turn with
    | some held =>
      rw [turn] at stepped
      cases stepped
    | none =>
      cases waiting : s.waiting with
      | nil =>
        rw [turn, waiting] at stepped
        cases stepped
      | cons mutation rest =>
        simp only [turn, waiting, Option.ite_none_right_eq_some, Option.some.injEq] at stepped
        obtain ⟨running, rfl⟩ := stepped
        refine ⟨fun _ => ?_, fun down => absurd (running.symm.trans down) (by simp)⟩
        have sure (covered : Armed s ∨ Repairs mutation) :
            Armed (settled { s with turn := some (s.load plus mutation), waiting := rest }) := by
          refine armed_congr ?_ ?_ ?_ (@load_armed Time _ plus s mutation covered)
          · exact foldl_perform_journal _ rfl
          · exact foldl_perform_physical _ rfl
          · simp only [settled_now, foldl_perform_now, le_refl]
        by_cases repairs : Repairs mutation
        · exact .inr (.inr (sure (.inr repairs)))
        obtain ⟨time, pending⟩ | ⟨pending, _⟩ | armed := guarded.wake running
        · rw [waiting] at pending
          rcases List.mem_cons.1 pending with same | later
          · exact absurd (.inr ⟨time, same.symm⟩) repairs
          · exact .inl ⟨time, later⟩
        · rw [waiting] at pending
          rcases List.mem_cons.1 pending with same | later
          · exact absurd (.inl same.symm) repairs
          · refine .inr (.inl ⟨later, ?_⟩)
            intro turn loaded
            cases loaded
            rw [load_mutation]
            exact repairs
        · rw [settled, turn] at armed
          exact .inr (.inr (sure (.inl armed)))
  | act =>
    simp only [AlarmCoordinator.step] at stepped
    split at stepped
    next mutation action plan attempt turn =>
      obtain rfl := Option.some.inj stepped
      refine ⟨?_, ?_⟩
      · intro running
        rw [perform_running] at running
        obtain pending | ⟨pending, repairs⟩ | armed := guarded.wake running
        · left
          simpa only [FirePending, perform_waiting] using pending
        · right; left
          refine ⟨by simpa only [perform_waiting] using pending, ?_⟩
          intro held same
          cases same
          exact repairs ⟨mutation, action :: plan, attempt⟩ turn
        · right; right
          rw [settled, turn] at armed
          refine armed_congr ?_ ?_ ?_ armed
          · exact foldl_perform_journal plan rfl
          · exact foldl_perform_physical plan rfl
          · simp only [List.foldl_cons, settled_now, foldl_perform_now, perform_now, le_refl]
      · intro down
        rw [perform_running] at down
        rw [guarded.idle down] at turn
        cases turn
    next => cases stepped
  | finish =>
    simp only [AlarmCoordinator.step] at stepped
    split at stepped
    next mutation attempt turn =>
      obtain rfl := Option.some.inj stepped
      obtain ⟨ended, journal, physical, now, running, waiting⟩ := finish_frame s ⟨mutation, [], attempt⟩
      refine ⟨?_, fun _ => ended⟩
      intro up
      rw [running] at up
      rw [FirePending, ReconcilePending, waiting, ended]
      obtain pending | ⟨pending, _⟩ | armed := guarded.wake up
      · exact .inl pending
      · exact .inr (.inl ⟨pending, fun _ impossible => by cases impossible⟩)
      · right; right
        rw [settled, turn] at armed
        rw [settled, ended]
        exact armed_congr journal.symm physical.symm (le_of_eq now.symm) armed
    next => cases stepped
  | delivered generation projection =>
    simp only [AlarmCoordinator.step, Option.ite_none_right_eq_some, Option.some.injEq] at stepped
    obtain ⟨_, rfl⟩ := stepped
    exact guarded.frame rfl rfl rfl rfl le_rfl fun _ held => List.mem_append_left _ held
  | refused generation =>
    simp only [AlarmCoordinator.step, Option.ite_none_right_eq_some, Option.some.injEq] at stepped
    obtain ⟨_, rfl⟩ := stepped
    exact guarded.frame rfl rfl rfl rfl le_rfl fun _ held => held
  | tick now =>
    simp only [AlarmCoordinator.step, Option.ite_none_right_eq_some, Option.some.injEq] at stepped
    obtain ⟨later, rfl⟩ := stepped
    exact guarded.frame rfl rfl rfl rfl later fun _ held => held
  | stop =>
    simp only [AlarmCoordinator.step, Option.some.injEq] at stepped
    subst stepped
    exact ⟨fun up => (by cases up), fun _ => rfl⟩
  | restart =>
    simp only [AlarmCoordinator.step, Option.ite_none_left_eq_some, Option.some.injEq] at stepped
    obtain ⟨down, rfl⟩ := stepped
    refine ⟨fun _ => .inr (.inl ⟨by simp, ?_⟩), fun up => (by cases up)⟩
    intro turn held
    rw [guarded.idle (by simpa using down)] at held
    cases held

theorem guarded_of_reached {s₀ s : AlarmCoordinator Time} (start : Initial s₀)
    (reached : Reaches (AlarmCoordinator.step plus) (fun _ _ => True) s₀ s) : Guarded s :=
  reached.invariant (Guarded.initial start) fun _ _ _ guarded _ stepped => guarded.step stepped

/-- A plan that clears the alarm has journaled before that none is asked for. -/
def ClearsIdle : Option (AlarmJournal Time) → List (AlarmAction Time) → Prop
  | _, [] => True
  | _, .save journal :: plan => ClearsIdle (some journal) plan
  | stored, .create _ :: plan => ClearsIdle stored plan
  | stored, .clear :: plan => (∀ journal, stored = some journal → ¬ Asks journal) ∧ ClearsIdle stored plan

theorem applyWake_clearsIdle (journal : AlarmJournal Time) (closed : journal.delivery = none) :
    ClearsIdle (some journal) [applyWake journal.projection.wakeAt] := by
  cases wakeAt : journal.projection.wakeAt with
  | some time => exact trivial
  | none =>
    refine ⟨?_, trivial⟩
    intro j same
    cases same
    simp [Asks, closed, wakeAt]

theorem load_clearsIdle (s : AlarmCoordinator Time) (mutation : AlarmMutation Time) :
    ClearsIdle s.journal (s.load plus mutation).plan := by
  cases mutation with
  | project projection =>
    simp only [load, projectPlan]
    split
    · exact applyWake_clearsIdle { delivery := none, projection } rfl
    next journal _ =>
      by_cases stale : projection.generation < journal.projection.generation
      · rw [if_pos stale]
        exact trivial
      · rw [if_neg stale]
        cases journal.delivery with
        | none => exact applyWake_clearsIdle { delivery := none, projection } rfl
        | some delivery =>
          simp only
          split_ifs <;> exact trivial
  | reconcile =>
    simp only [load, reconcilePlan]
    cases stored : s.journal with
    | none => exact trivial
    | some journal =>
      cases open' : journal.delivery with
      | none =>
        simp only [open']
        exact applyWake_clearsIdle journal open'
      | some delivery =>
        simp only [open']
        exact trivial
  | fire time =>
    simp only [load, fireTurn]
    split
    · exact trivial
    · split_ifs <;> exact trivial
  | acknowledge attempt projection =>
    simp only [load, acknowledgePlan]
    split
    · exact applyWake_clearsIdle { delivery := none, projection } rfl
    · split_ifs
      · exact trivial
      · exact applyWake_clearsIdle { delivery := none, projection } rfl

theorem perform_clearsIdle (s : AlarmCoordinator Time) {action : AlarmAction Time} {plan : List (AlarmAction Time)}
    (idle : ClearsIdle s.journal (action :: plan)) : ClearsIdle (s.perform action).journal plan := by
  cases action with
  | save journal => exact idle
  | create time => exact idle
  | clear => exact idle.2

def TurnClearsIdle (s : AlarmCoordinator Time) : Prop :=
  ∀ turn, s.turn = some turn → ClearsIdle s.journal turn.plan

theorem TurnClearsIdle.step {s t : AlarmCoordinator Time} {e : Event Time} (idle : TurnClearsIdle s)
    (stepped : step plus s e = some t) : TurnClearsIdle t := by
  intro turn held
  obtain ⟨same, journal, _⟩ | ⟨_, w, _, rfl⟩ | ⟨_, _, mutation, rest, _, rfl⟩ |
    ⟨_, mutation, action, plan, attempt, before, rfl⟩ | ⟨_, ended, _⟩ := step_cases stepped
  · rw [same] at held
    rw [journal]
    exact idle turn held
  · exact idle turn held
  · cases held
    exact load_clearsIdle s mutation
  · cases held
    exact perform_clearsIdle s (idle _ before)
  · rw [ended] at held
    cases held

theorem turnClearsIdle_of_reached {s₀ s : AlarmCoordinator Time} (start : Initial s₀)
    (reached : Reaches (AlarmCoordinator.step plus) (fun _ _ => True) s₀ s) : TurnClearsIdle s := by
  refine reached.invariant ?_ fun _ _ _ idle _ stepped => idle.step stepped
  intro turn held
  rw [start.1] at held
  cases held

/-- An armed alarm goes away by going off, which calls `fire`, or where the journal asks for none. -/
theorem consumed_cases {s t : AlarmCoordinator Time} {e : Event Time} (idle : TurnClearsIdle s)
    (stepped : AlarmCoordinator.step plus s e = some t) {w : Time} (set : s.physical = some w) (consumed : t.physical = none) :
    (e = .goesOff ∧ t.waiting = s.waiting ++ [.fire w]) ∨ ∀ journal, t.journal = some journal → ¬ Asks journal := by
  obtain ⟨_, _, same, _⟩ | ⟨here, time, armed, rfl⟩ | ⟨_, _, _, _, _, rfl⟩ |
    ⟨_, mutation, action, plan, attempt, before, rfl⟩ | ⟨_, _, _, same, _⟩ := step_cases stepped
  · exact absurd (set.symm.trans (same.symm.trans consumed)) (by simp)
  · obtain rfl := Option.some.inj (armed.symm.trans set)
    exact .inl ⟨here, rfl⟩
  · exact absurd (set.symm.trans consumed) (by simp)
  · right
    cases action with
    | save journal => exact absurd (set.symm.trans consumed) (by simp)
    | create time => cases consumed
    | clear => exact (idle _ before).1
  · exact absurd (set.symm.trans (same.symm.trans consumed)) (by simp)

/-- A `reconcile` that has not acted holds the plan it made of the journal as it is. -/
def ReconcilesJournal (s : AlarmCoordinator Time) : Prop :=
  ∀ turn, s.turn = some turn → turn.mutation = .reconcile →
    turn.plan = [] ∨ ∃ now ≤ s.now, turn.plan = reconcilePlan s.journal now

theorem reconcilePlan_length (journal : Option (AlarmJournal Time)) (now : Time) :
    (reconcilePlan journal now).length ≤ 1 := by
  unfold reconcilePlan
  cases journal with
  | none => simp
  | some journal => cases open' : journal.delivery <;> simp [open']

theorem ReconcilesJournal.step {s t : AlarmCoordinator Time} {e : Event Time} (reconciles : ReconcilesJournal s)
    (stepped : AlarmCoordinator.step plus s e = some t) : ReconcilesJournal t := by
  intro turn held mutation
  have later := step_now stepped
  obtain ⟨same, journal, _⟩ | ⟨_, w, _, rfl⟩ | ⟨_, _, loaded, rest, _, rfl⟩ |
    ⟨_, loaded, action, plan, attempt, before, rfl⟩ | ⟨_, ended, _⟩ := step_cases stepped
  · rw [same] at held
    rw [journal]
    refine (reconciles turn held mutation).imp id ?_
    rintro ⟨now, earlier, planned⟩
    exact ⟨now, earlier.trans later, planned⟩
  · exact reconciles turn held mutation
  · cases held
    rw [load_mutation] at mutation
    subst mutation
    exact .inr ⟨s.now, le_rfl, rfl⟩
  · cases held
    left
    obtain done | ⟨now, _, planned⟩ := reconciles _ before mutation
    · cases done
    · have short := reconcilePlan_length s.journal now
      rw [← planned] at short
      exact List.length_eq_zero_iff.1 (by simpa using short)
  · rw [ended] at held
    cases held

theorem reconcilesJournal_of_reached {s₀ s : AlarmCoordinator Time} (start : Initial s₀)
    (reached : Reaches (AlarmCoordinator.step plus) (fun _ _ => True) s₀ s) : ReconcilesJournal s := by
  refine reached.invariant ?_ fun _ _ _ reconciles _ stepped => reconciles.step stepped
  intro turn held
  rw [start.1] at held
  cases held

/-- The last operation of a `reconcile` leaves an alarm armed for what the journal asks for. -/
theorem reconcile_act_armed {s t : AlarmCoordinator Time} (reconciles : ReconcilesJournal s) {action : AlarmAction Time}
    {attempt : Option (AlarmDelivery Time)} (turn : s.turn = some ⟨.reconcile, [action], attempt⟩)
    (stepped : AlarmCoordinator.step plus s .act = some t) : Armed t := by
  simp only [AlarmCoordinator.step, turn, Option.some.injEq] at stepped
  subst stepped
  obtain done | ⟨now, earlier, planned⟩ := reconciles _ turn rfl
  · cases done
  · have armed := reconcile_armed s earlier
    rw [← planned] at armed
    exact armed_congr rfl rfl le_rfl armed

theorem fire_begins (journal : Option (AlarmJournal Time)) (scheduledTime now : Time) :
    (∃ w plan, (fireTurn plus journal scheduledTime now).plan = .create w :: plan) ∨
      ∀ held, journal = some held → ¬ Asks held := by
  cases stored : journal with
  | none =>
    left
    simp only [fireTurn, Option.getD_none, expectedWake, lt_irrefl, if_false]
    exact ⟨_, _, rfl⟩
  | some held =>
    simp only [fireTurn, Option.getD_some]
    cases expects : expectedWake held with
    | none =>
      right
      intro other same asks
      cases same
      exact (asks_iff_expectedWake held).1 asks expects
    | some expected =>
      left
      simp only
      split_ifs <;> exact ⟨_, _, rfl⟩

theorem no_wake_is_lost {s₀ s : AlarmCoordinator Time} (start : Initial s₀)
    (reached : Reaches (AlarmCoordinator.step plus) (fun _ _ => True) s₀ s) :
    (∀ turn, s.turn = some turn → Repairs turn.mutation → turn.plan = [] → FirePending s ∨ Armed s) ∧
    (∀ action attempt t, s.turn = some ⟨.reconcile, [action], attempt⟩ → AlarmCoordinator.step plus s .act = some t →
      Armed t) ∧
    (s.running = true → s.turn = none → s.waiting = [] → Armed s) ∧
    (∀ e t w, AlarmCoordinator.step plus s e = some t → s.physical = some w → t.physical = none →
      (e = .goesOff ∧ t.waiting = s.waiting ++ [.fire w]) ∨ ∀ journal, t.journal = some journal → ¬ Asks journal) ∧
    (∀ time rest t, s.waiting = .fire time :: rest → AlarmCoordinator.step plus s .load = some t →
      ∃ turn, t.turn = some turn ∧
        ((∃ w plan, turn.plan = .create w :: plan) ∨ ∀ journal, s.journal = some journal → ¬ Asks journal)) := by
  have guarded := guarded_of_reached start reached
  refine ⟨?_, ?_, ?_, ?_, ?_⟩
  · intro turn held repairs done
    have running : s.running = true := by
      cases up : s.running with
      | true => rfl
      | false => exact absurd (held.symm.trans (guarded.idle up)) (by simp)
    obtain pending | ⟨_, repaired⟩ | armed := guarded.wake running
    · exact .inl pending
    · exact absurd repairs (repaired turn held)
    · rw [settled, held] at armed
      simp only [done, List.foldl_nil] at armed
      exact .inr armed
  · intro action attempt t turn stepped
    exact reconcile_act_armed (reconcilesJournal_of_reached start reached) turn stepped
  · intro running turn waiting
    obtain ⟨time, pending⟩ | ⟨pending, _⟩ | armed := guarded.wake running
    · rw [waiting] at pending
      cases pending
    · rw [waiting] at pending
      cases pending
    · rwa [settled, turn] at armed
  · intro e t w stepped set consumed
    exact consumed_cases (turnClearsIdle_of_reached start reached) stepped set consumed
  · intro time rest t waiting stepped
    simp only [AlarmCoordinator.step] at stepped
    split at stepped
    next mutation others turn next =>
      obtain ⟨rfl, _⟩ := List.cons.inj (waiting.symm.trans next)
      simp only [Option.ite_none_right_eq_some, Option.some.injEq] at stepped
      obtain ⟨_, rfl⟩ := stepped
      exact ⟨_, rfl, fire_begins s.journal time s.now⟩
    next => cases stepped

def stoppedWithWake : AlarmCoordinator Nat :=
  { journal := some { delivery := none, projection := { generation := 1, wakeAt := some 100 } }
    physical := none, now := 50, running := false, activeDeliveries := [], delivering := [], turn := none
    waiting := [] }

/-- A process that stopped between the two writes of `project` arms the alarm when it starts again. -/
theorem no_wake_is_lost_at_restart :
    ∃ s, run (AlarmCoordinator.step (· + · : Nat → Nat → Nat)) stoppedWithWake [.restart, .load, .act, .finish] = some s ∧
      s.physical = some 100 ∧ Armed s := by
  refine ⟨_, rfl, rfl, ?_⟩
  have start : Initial stoppedWithWake := ⟨rfl, rfl, fun up => by cases up⟩
  exact (no_wake_is_lost start (run_reaches [.restart, .load, .act, .finish] rfl)).2.2.1 rfl rfl rfl

end AlarmCoordinator

end DoRuntime.Browser
