import DoRuntime.Alarms.Frame
import DoRuntime.Alarms.SerialDelivery

namespace DoRuntime.Alarms.LiveScheduler

open Transition

/-- No delivery of the actor and no abandonment is in flight. -/
def Quiet (s : LiveScheduler) (a : String) : Prop :=
  ∀ e, (s.entry e).actorId = a → (∀ b, s.task e ≠ .delivering b) ∧ ∀ r b, s.task e ≠ .abandoning r b

/-- The alarm queued behind the actor's entry. -/
def queuedFor (s : LiveScheduler) (a : String) : Option Float :=
  (s.alarms a).bind fun e => (s.entry e).queuedAlarm

/-- The event may bring the actor a new alarm. -/
def Renews (s : LiveScheduler) (a : String) : Event → Prop
  | .setAlarm x _ _ | .reconcile x _ _ => x = a
  | .abandonSettled e (some (some _)) _ => (s.entry e).actorId = a
  | _ => False

/-- All that is left of the actor is an entry at one time, without a row. -/
structure Leftover (a : String) (time : Float) (calls : List (String × Float × Nat)) (s : LiveScheduler) : Prop where
  row : rowOf s.rows a = none
  times : ∀ e, s.alarms a = some e → (s.entry e).scheduledTime = time ∧ (s.entry e).queuedAlarm = none
  log : ∃ more, s.deliveriesOf a = calls ++ more ∧ ∀ call ∈ more, call.2.1 = time

section Steps

variable {s t : LiveScheduler} {event : Event} {a : String} {time : Float} {calls : List (String × Float × Nat)}

/-- An entry changes, but neither its time nor what is queued behind it. -/
theorem Leftover.update (left : Leftover a time calls s) (alarms : t.alarms = s.alarms)
    (row : rowOf t.rows a = none) (delivered : t.delivered = s.delivered)
    (same : ∀ e, (t.entry e).scheduledTime = (s.entry e).scheduledTime ∧
      (t.entry e).queuedAlarm = (s.entry e).queuedAlarm) : Leftover a time calls t := by
  refine ⟨row, ?_, ?_⟩
  · intro e mapped
    rw [(same e).1, (same e).2]
    exact left.times e (alarms ▸ mapped)
  · rw [deliveriesOf, delivered]
    exact left.log

theorem Leftover.gone (left : Leftover a time calls s) (unmapped : t.alarms a = none) (row : rowOf t.rows a = none)
    (delivered : t.delivered = s.delivered) : Leftover a time calls t := by
  refine ⟨row, fun e mapped => by simp [unmapped] at mapped, ?_⟩
  rw [deliveriesOf, delivered]
  exact left.log

theorem Leftover.frame (shaped : Shaped s) (left : Leftover a time calls s) (same : SameFor a s t) :
    Leftover a time calls t := by
  refine ⟨same.row.trans left.row, ?_, ?_⟩
  · intro e mapped
    rw [same.alarms] at mapped
    obtain ⟨made, named⟩ := shaped.mapped a e mapped
    rw [(same.entries e made named).1]
    exact left.times e mapped
  · rw [same.delivered]
    exact left.log

theorem Leftover.cancel (left : Leftover a time calls s) : Leftover a time calls (s.cancel a) := by
  have row : rowOf (s.cancel a).rows a = none := by rw [cancel_rows, rowOf_deleteRow, if_pos rfl]
  cases mapped : s.alarms a with
  | none =>
    have same : s.cancel a = { s with rows := deleteRow s.rows a } := by simp [LiveScheduler.cancel, mapped]
    rw [same] at row ⊢
    exact left.gone mapped row rfl
  | some e =>
    have alone := (left.times e mapped).2
    by_cases running : (s.entry e).status = .started
    · have same : s.cancel a = { s with rows := deleteRow s.rows a }.setUnrecorded e true := by
        simp [LiveScheduler.cancel, mapped, alone, running]
      rw [same] at row ⊢
      exact left.update rfl row rfl fun _ => ⟨rfl, rfl⟩
    · have same : s.cancel a =
          { s with rows := deleteRow s.rows a, alarms := fun x => if x = a then none else s.alarms x } := by
        simp [LiveScheduler.cancel, mapped, alone, running]
      rw [same] at row ⊢
      exact left.gone (by simp) row rfl

theorem Leftover.started (left : Leftover a time calls s) {e : Nat} (b : Nat) (live : s.isLive e = true)
    (mine : (s.entry e).actorId = a) : Leftover a time calls (s.started e b) := by
  subst mine
  rw [isLive_iff] at live
  obtain ⟨on_time, _⟩ := left.times e live
  refine ⟨?_, ?_, ?_⟩
  · change rowOf (updateRow s.rows _ fun row => row.setRunning 1) _ = none
    rw [rowOf_setRunning, if_pos rfl, left.row]
    rfl
  · intro i mapped
    obtain rfl : e = i := Option.some.inj (live.symm.trans mapped)
    have kept := left.times e live
    simpa [LiveScheduler.started, setTask, markedUnwoken, setEntry, marked] using kept
  · obtain ⟨more, log, times⟩ := left.log
    refine ⟨more ++ [((s.entry e).actorId, (s.entry e).scheduledTime, (s.entry e).countedRetry)], ?_, ?_⟩
    · rw [← List.append_assoc, ← log]
      simp [LiveScheduler.started, setTask, deliveriesOf, markedUnwoken, setEntry, marked, List.filter_append]
    · intro call member
      rcases List.mem_append.1 member with old | new
      · exact times call old
      · rw [List.mem_singleton.1 new]
        exact on_time

theorem Leftover.settled (left : Leftover a time calls s) {env : Env} {e b : Nat} {r : AlarmResult}
    (live : s.isLive e = true) (mine : (s.entry e).actorId = a) (outcome : Settled s env e r b t) :
    Leftover a time calls t := by
  subst mine
  have mapped := (isLive_iff s e).1 live
  have kept := left.times e mapped
  cases outcome with
  | promote queued behind => simp [kept.2] at behind
  | retry =>
    rw [retried_eq]
    refine left.update rfl ?_ rfl ?_
    · change rowOf (updateRow s.rows _ fun row => row.saveRetry _ _ _ _) _ = none
      rw [rowOf_saveRetry, if_pos rfl, left.row]
      rfl
    · intro i
      simp only [setTask, setEntry]
      split <;> exact ⟨rfl, rfl⟩
  | giveUp =>
    refine left.update rfl left.row rfl fun i => ?_
    simp only [givenUp, finished, setTask, setEntry]
    split <;> exact ⟨rfl, rfl⟩
  | finish =>
    have ended : Leftover (s.entry e).actorId time calls (s.finished e) := by
      refine left.update rfl left.row rfl fun i => ?_
      simp only [finished, setEntry]
      split <;> exact ⟨rfl, rfl⟩
    have gone := ended.cancel
    refine gone.update ?_ ?_ ?_ ?_
    · simp [forgotten, setTask]
    · simpa [forgotten, setTask] using gone.row
    · simp [forgotten, setTask]
    · intro i
      simp [forgotten, setTask]
  | postpone =>
    refine left.update rfl left.row rfl fun i => ?_
    simp only [postponed, setTask, setEntry]
    split <;> exact ⟨rfl, rfl⟩

theorem Move.leftover (shaped : Shaped s) (move : Move s event t) (left : Leftover a time calls s)
    (unset : ¬ s.Renews a event) : Leftover a time calls t := by
  by_cases touched : event.Touches s a
  · cases move with
    | idle => exact left
    | setAlarm => exact absurd touched unset
    | reconcile => exact absurd touched unset
    | deleteAlarm x =>
      obtain rfl : x = a := touched
      exact left.cancel
    | deleteAll => exact left.gone rfl rfl rfl
    | ended => exact left.update rfl left.row rfl fun _ => ⟨rfl, rfl⟩
    | start e _ _ b live => exact left.started b live touched
    | startFailed e =>
      refine left.update rfl left.row rfl fun i => ?_
      simp only [LiveScheduler.startFailed, setTask, setEntry]
      split <;> exact ⟨rfl, rfl⟩
    | markedFailed e _ _ b =>
      rw [markedFailed_eq]
      refine left.update rfl ?_ rfl fun i => ?_
      · change rowOf (updateRow s.rows _ fun row => row.setRunning 1) _ = none
        rw [rowOf_setRunning, touched, if_pos rfl, left.row]
        rfl
      · simp only [setTask, setEntry, marked]
        split <;> exact ⟨rfl, rfl⟩
    | settle _ e on r b live _ outcome =>
      have mine : (s.entry e).actorId = a := by
        cases event <;> cases on <;> exact touched
      exact left.settled live mine outcome
    | report e answer _ r b live due outcome =>
      have kept := left.times e (touched ▸ (isLive_iff s e).1 live)
      cases outcome with
      | promote queued behind => simp [kept.2] at behind
      | newer newer _ told =>
        subst told
        exact absurd touched unset
      | forget =>
        obtain rfl : (s.entry e).actorId = a := touched
        exact left.cancel.update rfl left.cancel.row rfl fun _ => ⟨rfl, rfl⟩
      | postpone =>
        refine left.update rfl left.row rfl fun i => ?_
        simp only [postponed, setTask, setEntry]
        split <;> exact ⟨rfl, rfl⟩
      | newerPostponed newer _ told =>
        subst told
        exact absurd touched unset
  · exact left.frame shaped (move.frame shaped touched)

end Steps

theorem reaches_shaped {s₀ s : LiveScheduler} {admits : LiveScheduler → Event → Prop} (shaped : Shaped s₀)
    (reached : Reaches step admits s₀ s) : Shaped s :=
  reached.invariant shaped fun _ event _ kept _ stepped => (step_moves kept event stepped).shaped kept

/-- After a cancellation that finds no delivery or abandonment in flight nothing of the actor is
    left, and stays so until its alarm is set again; an alarm queued behind a retry outlives it as
    an entry without a row, and is the only one delivered until then. -/
theorem cancellation_final {s₀ s t : LiveScheduler} (opened : Opened s₀)
    (reached : Reaches step (fun _ _ => True) s₀ s) {a : String} (quiet : s.Quiet a) {env : Env}
    (returned : env.fails .deleteAlarm = false) (cancelled : step s (.deleteAlarm a env) = some t) :
    match s.queuedFor a with
    | none => t.getAlarm a = none ∧ ∀ u, Reaches step (fun _ e => ¬ e.Sets a) t u →
        u.getAlarm a = none ∧ rowOf u.rows a = none ∧ u.deliveriesOf a = t.deliveriesOf a
    | some queued => t.getAlarm a = some queued ∧ ∀ u, Reaches step (fun s e => ¬ s.Renews a e) t u →
        rowOf u.rows a = none ∧
        ∃ more, u.deliveriesOf a = t.deliveriesOf a ++ more ∧ ∀ call ∈ more, call.2.1 = queued := by
  have shaped := reaches_shaped opened.shaped reached
  have after : Shaped t := (step_moves shaped _ cancelled).shaped shaped
  obtain rfl : s.cancel a = t := by
    simp only [step, deleteAlarm_run, returned, Bool.false_eq_true, if_false, projectNextWake_run,
      Option.some.injEq] at cancelled
    split at cancelled <;> exact cancelled
  have row : rowOf (s.cancel a).rows a = none := by rw [cancel_rows, rowOf_deleteRow, if_pos rfl]
  have idle : ∀ e, s.alarms a = some e → (s.entry e).status ≠ .started := by
    intro e mapped running
    have named := (shaped.mapped a e mapped).2
    have consistent := shaped.consistent e (by rw [isLive_iff, named, mapped])
    cases task : s.task e with
    | delivering b => exact (quiet e named).1 b task
    | abandoning r b => exact (quiet e named).2 r b task
    | sleeping completed b => cases completed <;> simp [task, running, Consistent] at consistent
    | done => simp [task, Consistent] at consistent
  cases behind : s.queuedFor a with
  | none =>
    have absent : (s.cancel a).Absent a := by
      refine ⟨?_, row⟩
      cases mapped : s.alarms a with
      | none => simp [cancel, mapped]
      | some e =>
        have alone : (s.entry e).queuedAlarm = none := by simpa [queuedFor, mapped] using behind
        simp [cancel, mapped, alone, idle e mapped]
    refine ⟨by simp [getAlarm, absent.1], fun u later => ?_⟩
    have kept := later.invariant (P := fun u => Shaped u ∧ u.Absent a ∧
      u.deliveriesOf a = (s.cancel a).deliveriesOf a) ⟨after, absent, rfl⟩ ?_
    · exact ⟨by simp [getAlarm, kept.2.1.1], kept.2.1.2, kept.2.2⟩
    · intro v event w kept unset stepped
      have move := step_moves kept.1 event stepped
      obtain ⟨still, same⟩ := move.absent kept.1 kept.2.1 unset
      exact ⟨move.shaped kept.1, still, same.trans kept.2.2⟩
  | some queued =>
    cases mapped : s.alarms a with
    | none => simp [queuedFor, mapped] at behind
    | some e =>
      replace behind : (s.entry e).queuedAlarm = some queued := by simpa [queuedFor, mapped] using behind
      have scheduled : s.cancel a = { s with rows := deleteRow s.rows a }.schedule a queued true := by
        simp [cancel, mapped, behind, idle e mapped]
      have left : Leftover a queued ((s.cancel a).deliveriesOf a) (s.cancel a) := by
        refine ⟨row, ?_, [], by simp, by simp⟩
        intro i on
        rw [scheduled] at on ⊢
        obtain rfl : s.next = i := by simpa [schedule] using on
        simp [schedule, scheduleAlarm]
      refine ⟨by rw [scheduled]; simp [getAlarm, schedule, scheduleAlarm], fun u later => ?_⟩
      have kept := later.invariant (P := fun u => Shaped u ∧
        Leftover a queued ((s.cancel a).deliveriesOf a) u) ⟨after, left⟩ ?_
      · exact ⟨kept.2.row, kept.2.log⟩
      · intro v event w kept unset stepped
        have move := step_moves kept.1 event stepped
        exact ⟨move.shaped kept.1, move.leftover kept.1 kept.2 unset⟩

/-- An alarm queued behind a pending retry. -/
def queuedBehindRetry : LiveScheduler :=
  let set := (setAlarm calm "a" 0 empty).2
  let woken := (wake calm 0 none 0 set).2
  let failed := (deliverySettled calm 0 (some ⟨true, true, .exception⟩) 0 woken).2
  (setAlarm calm "a" 5 failed).2

theorem queuedBehindRetry_reached : Reaches step (fun _ _ => True) empty queuedBehindRetry := by
  have start : Reaches step (fun _ _ => True) empty empty := .refl
  have set := start.then (.setAlarm "a" 0 calm) trivial rfl
  have woken := set.then (.wake 0 0 calm) trivial (step_wake (b := 0) calm rfl zero_due)
  have failed := woken.then (.deliverySettled 0 (some ⟨true, true, .exception⟩) calm) trivial rfl
  exact failed.then (.setAlarm "a" 5 calm) trivial rfl

theorem queuedBehindRetry_quiet : queuedBehindRetry.Quiet "a" := by
  intro e _
  by_cases first : e = 0
  · subst first
    exact ⟨fun b delivering => (by cases delivering), fun r b abandoning => (by cases abandoning)⟩
  · have ended : queuedBehindRetry.task e = .done := by
      change (if e = 0 then Task.sleeping none 0 else if e = 0 then .delivering 0
        else if e = 0 then .sleeping none 0 else if e < 0 then .sleeping none 0 else .done) = .done
      simp [first]
    exact ⟨fun b => (by simp [ended]), fun r b => (by simp [ended])⟩

theorem cancellation_final_retrying : ∃ t : LiveScheduler, t.getAlarm "a" = some 5 ∧ rowOf t.rows "a" = none := by
  have returned : calm.fails .deleteAlarm = false := rfl
  have final := cancellation_final empty_opened queuedBehindRetry_reached queuedBehindRetry_quiet returned rfl
  exact ⟨_, final.1, (final.2 _ .refl).1⟩

/-- Cancelling an alarm that waits for a retry promotes the one queued behind it. -/
theorem cancellation_promotes_queued : ¬ ∀ (s₀ s t : LiveScheduler) (a : String) (env : Env), Opened s₀ →
    Reaches step (fun _ _ => True) s₀ s → s.Quiet a → (∀ call, env.fails call = false) →
    step s (.deleteAlarm a env) = some t → t.getAlarm a = none := by
  intro final
  have gone := final empty queuedBehindRetry _ "a" calm empty_opened queuedBehindRetry_reached queuedBehindRetry_quiet
    (fun _ => rfl) rfl
  cases gone

end DoRuntime.Alarms.LiveScheduler
