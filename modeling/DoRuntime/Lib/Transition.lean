import Mathlib

namespace Transition

variable {State Event : Type}

/-- `t` is reached from `s` by steps that are each taken where `admits` allows it. -/
def Reaches (step : State → Event → Option State) (admits : State → Event → Prop) : State → State → Prop :=
  Relation.ReflTransGen fun s t => ∃ e, admits s e ∧ step s e = some t

def run (step : State → Event → Option State) : State → List Event → Option State
  | s, [] => some s
  | s, e :: rest => (step s e).bind fun t => run step t rest

/-- Each step that the events make the run take is admitted. -/
def Admitted (step : State → Event → Option State) (admits : State → Event → Prop) : State → List Event → Prop
  | _, [] => True
  | s, e :: rest => admits s e ∧ ∀ t, step s e = some t → Admitted step admits t rest

/-- What holds at the start and is kept by every admitted step holds of every state reached. -/
theorem Reaches.invariant {step : State → Event → Option State} {admits : State → Event → Prop}
    {s t : State} (reached : Reaches step admits s t) {P : State → Prop} (start : P s)
    (kept : ∀ s e t, P s → admits s e → step s e = some t → P t) : P t := by
  induction reached with
  | refl => exact start
  | tail _ last ih =>
    obtain ⟨e, admitted, stepped⟩ := last
    exact kept _ e _ ih admitted stepped

theorem Reaches.head {step : State → Event → Option State} {admits : State → Event → Prop} {s t u : State}
    (e : Event) (admitted : admits s e) (stepped : step s e = some t) (rest : Reaches step admits t u) :
    Reaches step admits s u :=
  Relation.ReflTransGen.head ⟨e, admitted, stepped⟩ rest

theorem Reaches.then {step : State → Event → Option State} {admits : State → Event → Prop} {s t u : State}
    (first : Reaches step admits s t) (e : Event) (admitted : admits t e) (stepped : step t e = some u) :
    Reaches step admits s u :=
  Relation.ReflTransGen.tail first ⟨e, admitted, stepped⟩

theorem run_reaches_admitted {step : State → Event → Option State} {admits : State → Event → Prop} {s t : State}
    (events : List Event) (admitted : ∀ u, ∀ e ∈ events, admits u e) (ran : run step s events = some t) :
    Reaches step admits s t := by
  induction events generalizing s with
  | nil =>
    cases ran
    exact .refl
  | cons e rest ih =>
    obtain ⟨next, stepped, ran⟩ := Option.bind_eq_some_iff.1 ran
    have first : admits s e := admitted s e (List.mem_cons_self ..)
    exact Reaches.head e first stepped (ih (fun u e later => admitted u e (List.mem_cons_of_mem _ later)) ran)

theorem run_reaches {step : State → Event → Option State} {s t : State} (events : List Event)
    (ran : run step s events = some t) : Reaches step (fun _ _ => True) s t :=
  run_reaches_admitted events (fun _ _ _ => trivial) ran

end Transition
