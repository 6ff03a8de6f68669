import DoRuntime.Browser.WakeKept

namespace DoRuntime.Browser

open Transition

namespace AlarmCoordinator

variable {Time : Type} [LinearOrder Time] {plus : Time → Nat → Time}

/-- The journal `later` holds a projection that is no older than the one `earlier` holds. -/
def NotOlder (earlier later : Option (AlarmJournal Time)) : Prop :=
  ∀ journal, earlier = some journal →
    ∃ next, later = some next ∧ journal.projection.generation ≤ next.projection.generation

theorem NotOlder.refl (journal : Option (AlarmJournal Time)) : NotOlder journal journal :=
  fun held stored => ⟨held, stored, le_rfl⟩

theorem NotOlder.trans {a b c : Option (AlarmJournal Time)} (first : NotOlder a b) (second : NotOlder b c) :
    NotOlder a c := by
  intro journal stored
  obtain ⟨next, stored, older⟩ := first journal stored
  obtain ⟨last, stored, later⟩ := second next stored
  exact ⟨last, stored, older.trans later⟩

def Raises : Option (AlarmJournal Time) → List (AlarmAction Time) → Prop
  | _, [] => True
  | stored, .save journal :: plan => NotOlder stored (some journal) ∧ Raises (some journal) plan
  | stored, .create _ :: plan => Raises stored plan
  | stored, .clear :: plan => Raises stored plan

theorem applyWake_raises (stored : Option (AlarmJournal Time)) (wakeAt : Option Time) :
    Raises stored [applyWake wakeAt] := by
  cases wakeAt <;> exact trivial

theorem notOlder_none (later : Option (AlarmJournal Time)) : NotOlder none later := by
  intro journal stored
  cases stored

theorem notOlder_some {journal next : AlarmJournal Time}
    (raised : ¬ next.projection.generation < journal.projection.generation) : NotOlder (some journal) (some next) := by
  intro held same
  cases same
  exact ⟨next, rfl, Nat.le_of_not_lt raised⟩

theorem load_raises (s : AlarmCoordinator Time) (mutation : AlarmMutation Time) :
    Raises s.journal (s.load plus mutation).plan := by
  cases mutation with
  | project projection =>
    simp only [load, projectPlan]
    cases s.journal with
    | none => exact ⟨notOlder_none _, applyWake_raises _ _⟩
    | some journal =>
      simp only
      by_cases stale : projection.generation < journal.projection.generation
      · rw [if_pos stale]
        exact trivial
      · rw [if_neg stale]
        cases journal.delivery with
        | none => exact ⟨notOlder_some stale, applyWake_raises _ _⟩
        | some delivery =>
          simp only
          split_ifs
          · exact ⟨notOlder_some stale, trivial⟩
          · exact trivial
  | reconcile =>
    simp only [load, reconcilePlan]
    cases s.journal with
    | none => exact trivial
    | some journal =>
      cases open' : journal.delivery with
      | none =>
        simp only [open']
        exact applyWake_raises _ _
      | some delivery =>
        simp only [open']
        exact trivial
  | fire time =>
    simp only [load, fireTurn]
    cases s.journal with
    | none =>
      simp only [Option.getD_none, expectedWake, lt_irrefl, if_false]
      exact ⟨notOlder_none _, trivial⟩
    | some journal =>
      simp only [Option.getD_some]
      cases expectedWake journal with
      | none => exact trivial
      | some expected =>
        simp only
        split_ifs
        · exact trivial
        · exact ⟨notOlder_some (lt_irrefl _), trivial⟩
  | acknowledge attempt projection =>
    simp only [load, acknowledgePlan]
    cases s.journal with
    | none => exact ⟨notOlder_none _, applyWake_raises _ _⟩
    | some journal =>
      simp only
      split_ifs with stale
      · exact trivial
      · exact ⟨notOlder_some stale, applyWake_raises _ _⟩

theorem perform_raises (s : AlarmCoordinator Time) {action : AlarmAction Time} {plan : List (AlarmAction Time)}
    (raises : Raises s.journal (action :: plan)) :
    NotOlder s.journal (s.perform action).journal ∧ Raises (s.perform action).journal plan := by
  cases action with
  | save journal => exact raises
  | create time => exact ⟨NotOlder.refl _, raises⟩
  | clear => exact ⟨NotOlder.refl _, raises⟩

def TurnRaises (s : AlarmCoordinator Time) : Prop :=
  ∀ turn, s.turn = some turn → Raises s.journal turn.plan

theorem TurnRaises.step {s t : AlarmCoordinator Time} {e : Event Time} (raises : TurnRaises s)
    (stepped : AlarmCoordinator.step plus s e = some t) : NotOlder s.journal t.journal ∧ TurnRaises t := by
  obtain ⟨same, journal, _⟩ | ⟨_, w, _, rfl⟩ | ⟨_, _, mutation, rest, _, rfl⟩ |
    ⟨_, mutation, action, plan, attempt, before, rfl⟩ | ⟨_, ended, journal, _⟩ := step_cases stepped
  · rw [journal]
    refine ⟨NotOlder.refl _, ?_⟩
    intro turn held
    rw [journal]
    exact raises turn (same.symm.trans held)
  · exact ⟨NotOlder.refl _, raises⟩
  · refine ⟨NotOlder.refl _, ?_⟩
    intro turn held
    cases held
    exact load_raises s mutation
  · obtain ⟨older, rest⟩ := perform_raises s (raises _ before)
    refine ⟨older, ?_⟩
    intro turn held
    cases held
    exact rest
  · rw [journal]
    refine ⟨NotOlder.refl _, ?_⟩
    intro turn held
    rw [ended] at held
    cases held

theorem turnRaises_of_reached {s₀ s : AlarmCoordinator Time} (start : Initial s₀)
    (reached : Reaches (AlarmCoordinator.step plus) (fun _ _ => True) s₀ s) : TurnRaises s := by
  refine reached.invariant ?_ fun _ _ _ raises _ stepped => (raises.step stepped).2
  intro turn held
  rw [start.1] at held
  cases held

/-- The journaled generation never decreases. -/
theorem notOlder_of_reached {s t : AlarmCoordinator Time} (raises : TurnRaises s)
    (reached : Reaches (AlarmCoordinator.step plus) (fun _ _ => True) s t) : NotOlder s.journal t.journal := by
  refine (reached.invariant (P := fun u => TurnRaises u ∧ NotOlder s.journal u.journal) ⟨raises, NotOlder.refl _⟩ ?_).2
  intro u e v ⟨raised, older⟩ _ stepped
  obtain ⟨next, kept⟩ := raised.step stepped
  exact ⟨kept, older.trans next⟩

section Turn

/-- The events of a turn: its loop is neither ended nor stopped. -/
def Within (_ : AlarmCoordinator Time) (e : Event Time) : Prop := e ≠ .finish ∧ e ≠ .stop

/-- The alarm is the one wanted, or it went off and its `fire` waits. -/
def ArmedOrFired (s : AlarmCoordinator Time) (wanted physical : Option Time) : Prop :=
  physical = wanted ∨ (physical = none ∧ FirePending s)

structure Heading (mutation : AlarmMutation Time) (journal : Option (AlarmJournal Time)) (wanted : Option Time)
    (s : AlarmCoordinator Time) : Prop where
  running : s.running = true
  turn : ∃ plan attempt, s.turn = some ⟨mutation, plan, attempt⟩
  journaled : (settled s).journal = journal
  armed : ArmedOrFired s wanted (settled s).physical

theorem foldl_perform_unarmed (plan : List (AlarmAction Time)) {s t : AlarmCoordinator Time}
    (unarmed : t.physical = none) : (plan.foldl perform t).physical = (plan.foldl perform s).physical ∨
      (plan.foldl perform t).physical = none := by
  induction plan generalizing s t with
  | nil => exact .inr unarmed
  | cons action plan ih =>
    cases action with
    | save journal => exact ih unarmed
    | create time => exact .inl (foldl_perform_physical plan rfl)
    | clear => exact ih rfl

theorem Heading.step {s t : AlarmCoordinator Time} {e : Event Time} {mutation : AlarmMutation Time}
    {journal : Option (AlarmJournal Time)} {wanted : Option Time} (heading : Heading mutation journal wanted s)
    (within : Within s e) (stepped : AlarmCoordinator.step plus s e = some t) : Heading mutation journal wanted t := by
  obtain ⟨plan, attempt, turn⟩ := heading.turn
  obtain ⟨same, journaled, physical, _, alive⟩ | ⟨_, w, _, rfl⟩ | ⟨_, ended, _⟩ |
    ⟨_, other, action, rest, attempt, before, rfl⟩ | ⟨ended, _⟩ := step_cases stepped
  · obtain ⟨running, waiting⟩ := alive heading.running
    obtain ⟨settledJournal, settledPhysical⟩ := settled_congr same journaled physical
    refine ⟨running, ⟨plan, attempt, same.trans turn⟩, settledJournal.trans heading.journaled, ?_⟩
    rw [settledPhysical]
    refine heading.armed.imp id ?_
    rintro ⟨unarmed, time, pending⟩
    exact ⟨unarmed, time, waiting _ pending⟩
  · let off : AlarmCoordinator Time := { s with physical := none, waiting := s.waiting ++ [.fire w] }
    have pending : FirePending off := ⟨w, by simp [off]⟩
    have before := settled_turn turn
    have after : settled off = plan.foldl perform off := settled_turn (show off.turn = _ from turn)
    refine ⟨heading.running, ⟨plan, attempt, turn⟩, ?_, ?_⟩
    · rw [← heading.journaled, before, after]
      exact foldl_perform_journal plan rfl
    · have armed := heading.armed
      rw [before] at armed
      rw [after]
      obtain same | unarmed := foldl_perform_unarmed plan (s := s) (t := off) rfl
      · rw [same]
        exact armed.imp id fun fired => ⟨fired.1, pending⟩
      · exact .inr ⟨unarmed, pending⟩
  · rw [turn] at ended
    cases ended
  · obtain ⟨rfl, planned, rfl⟩ : other = mutation ∧ action :: rest = plan ∧ _ = _ := by
      simpa only [turn, Option.some.injEq, AlarmTurn.mk.injEq, eq_comm] using before
    subst planned
    have journaled := heading.journaled
    have armed := heading.armed
    rw [settled_turn turn] at journaled armed
    refine ⟨(perform_running _ _).trans heading.running, ⟨rest, _, rfl⟩, ?_, ?_⟩
    · rw [← journaled]
      exact foldl_perform_journal rest rfl
    · have physical : (settled { s.perform action with turn := some ⟨other, rest, attempt⟩ }).physical =
          ((action :: rest).foldl perform s).physical := foldl_perform_physical rest rfl
      rw [physical]
      refine armed.imp id fun fired => ⟨fired.1, ?_⟩
      simpa only [FirePending, perform_waiting] using fired.2
  · exact absurd ended (not_or.2 within)

end Turn

/-- The acknowledgement is older than the projection in the journal. -/
def Stale (journal : Option (AlarmJournal Time)) (projection : AlarmProjection Time) : Prop :=
  ∃ held, journal = some held ∧ projection.generation < held.projection.generation

theorem acknowledge_settles (s : AlarmCoordinator Time) (attempt : Nat) (projection : AlarmProjection Time) :
    let u := (s.load plus (.acknowledge attempt projection)).plan.foldl perform s
    (¬ Stale s.journal projection → u.journal = some { delivery := none, projection } ∧ u.physical = projection.wakeAt) ∧
      (Stale s.journal projection → u.journal = s.journal ∧ u.physical = s.physical) := by
  have applied : ([.save { delivery := none, projection }, applyWake projection.wakeAt].foldl perform s).journal =
      some { delivery := none, projection } ∧
      ([.save { delivery := none, projection }, applyWake projection.wakeAt].foldl perform s).physical =
        projection.wakeAt := by
    cases wakeAt : projection.wakeAt <;> exact ⟨rfl, rfl⟩
  simp only [load, acknowledgePlan]
  cases stored : s.journal with
  | none =>
    refine ⟨fun _ => applied, ?_⟩
    rintro ⟨held, impossible, _⟩
    cases impossible
  | some journal =>
    simp only
    by_cases stale : projection.generation < journal.projection.generation
    · rw [if_pos stale]
      exact ⟨fun fresh => absurd ⟨journal, rfl, stale⟩ fresh, fun _ => ⟨stored, rfl⟩⟩
    · rw [if_neg stale]
      refine ⟨fun _ => applied, ?_⟩
      rintro ⟨held, same, older⟩
      cases same
      exact absurd older stale

theorem delivery_is_closed {s₀ s u v w : AlarmCoordinator Time} {attempt : Nat} {projection : AlarmProjection Time}
    {rest : List (AlarmMutation Time)} (start : Initial s₀)
    (reached : Reaches (AlarmCoordinator.step plus) (fun _ _ => True) s₀ s)
    (next : s.waiting = .acknowledge attempt projection :: rest) (loaded : AlarmCoordinator.step plus s .load = some u)
    (within : Reaches (AlarmCoordinator.step plus) Within u v)
    (returned : AlarmCoordinator.step plus v .finish = some w) :
    (¬ Stale s.journal projection → w.journal = some { delivery := none, projection } ∧
      ArmedOrFired w projection.wakeAt w.physical) ∧
    (Stale s.journal projection → w.journal = s.journal ∧ ArmedOrFired w s.physical w.physical) ∧
    attempt ∉ w.activeDeliveries ∧
    ∀ t, Reaches (AlarmCoordinator.step plus) (fun _ _ => True) s₀ t →
      ∀ t', Reaches (AlarmCoordinator.step plus) (fun _ _ => True) t t' → NotOlder t.journal t'.journal := by
  simp only [AlarmCoordinator.step] at loaded
  split at loaded
  next mutation others idle queued =>
    obtain ⟨rfl, rfl⟩ := List.cons.inj (next.symm.trans queued)
    simp only [Option.ite_none_right_eq_some, Option.some.injEq] at loaded
    obtain ⟨running, rfl⟩ := loaded
    obtain ⟨fresh, stale⟩ := @acknowledge_settles Time _ plus s attempt projection
    have heading : Heading (.acknowledge attempt projection)
        ((s.load plus (.acknowledge attempt projection)).plan.foldl perform s).journal
        ((s.load plus (.acknowledge attempt projection)).plan.foldl perform s).physical v := by
      refine within.invariant (P := Heading _ _ _) ?_ fun _ _ _ heading during stepped => heading.step during stepped
      refine ⟨running, ⟨_, _, rfl⟩, ?_, .inl ?_⟩
      · exact foldl_perform_journal _ rfl
      · exact foldl_perform_physical _ rfl
    obtain ⟨plan, turnAttempt, turn⟩ := heading.turn
    simp only [AlarmCoordinator.step, turn] at returned
    cases plan with
    | cons action plan => cases returned
    | nil =>
      obtain rfl := Option.some.inj returned
      have journaled := heading.journaled
      have armed := heading.armed
      rw [settled_turn turn] at journaled armed
      refine ⟨?_, ?_, ?_, ?_⟩
      · intro current
        obtain ⟨journal, physical⟩ := fresh current
        exact ⟨journaled.trans journal, physical ▸ armed⟩
      · intro older
        obtain ⟨journal, physical⟩ := stale older
        exact ⟨journaled.trans journal, physical ▸ armed⟩
      · simp [finish]
      · intro t earlier t' later
        exact notOlder_of_reached (turnRaises_of_reached start earlier) later
  next => cases loaded

def firstProjection : AlarmCoordinator Nat :=
  { journal := none, physical := none, now := 1000, running := true, activeDeliveries := [], delivering := []
    turn := none, waiting := [] }

/-- A delivery, with two projections that arrive while it is in flight. -/
def projectedTwiceInFlight : List (Event Nat) :=
  [.project { generation := 1, wakeAt := some 100 }, .load, .act, .act, .finish,
    .goesOff, .load, .act, .act, .finish,
    .project { generation := 2, wakeAt := some 5000 }, .load, .act, .finish,
    .project { generation := 3, wakeAt := some 6000 }, .load, .act, .finish]

theorem delivery_is_closed_by_newest :
    ∃ w, run (AlarmCoordinator.step (· + · : Nat → Nat → Nat)) firstProjection
        (projectedTwiceInFlight ++ [.delivered 1 { generation := 3, wakeAt := some 6000 }, .load, .act, .act, .finish]) =
      some w ∧ w.journal = some { delivery := none, projection := { generation := 3, wakeAt := some 6000 } } ∧
        ArmedOrFired w (some 6000) w.physical := by
  have start : Initial firstProjection := ⟨rfl, rfl, fun _ => rfl⟩
  have reached := @run_reaches _ _ (AlarmCoordinator.step (· + · : Nat → Nat → Nat)) firstProjection _
    (projectedTwiceInFlight ++ [.delivered 1 { generation := 3, wakeAt := some 6000 }]) rfl
  have closed := delivery_is_closed start reached rfl rfl
    (run_reaches_admitted [.act, .act] (fun _ e held => by rcases List.mem_pair.1 held with rfl | rfl <;> simp [Within])
      rfl) rfl
  have current : ¬ Stale (some
      { delivery := some { generation := 1, retryCount := 1, wake := 3000 }
        projection := { generation := 3, wakeAt := some 6000 } })
      { generation := 3, wakeAt := some 6000 } := by
    rintro ⟨held, same, older⟩
    cases same
    exact absurd older (by decide)
  exact ⟨_, rfl, (closed.1 current).1, (closed.1 current).2⟩

theorem delivery_not_closed_by_older :
    ∃ w, run (AlarmCoordinator.step (· + · : Nat → Nat → Nat)) firstProjection
        (projectedTwiceInFlight ++ [.delivered 1 { generation := 2, wakeAt := some 5000 }, .load, .finish]) = some w ∧
      w.waiting = [] ∧ w.delivering = [] ∧
      w.journal = some
        { delivery := some { generation := 1, retryCount := 1, wake := 3000 }
          projection := { generation := 3, wakeAt := some 6000 } } ∧
      w.physical = some 3000 :=
  ⟨_, rfl, rfl, rfl, rfl, rfl⟩

end AlarmCoordinator

end DoRuntime.Browser
