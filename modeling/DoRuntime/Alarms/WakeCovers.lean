import DoRuntime.Alarms.Entries
import DoRuntime.Alarms.SerialDelivery
import DoRuntime.Alarms.WatchedScheduler
import DoRuntime.Js.NumberOrder

namespace DoRuntime.Alarms

open DoRuntime.Js Prog Transition

/-- The earliest of the times that are due, of which there is none where nothing is due. -/
def IsEarliest (due : Float → Prop) : Option Float → Prop
  | none => ∀ t, ¬ due t
  | some x => due x ∧ ∀ t, due t → ¬ t < x

theorem not_lt_self (x : Float) : ¬ x < x := by
  intro less
  rw [lt_iff_order] at less
  cases number : isNaN x with
  | true =>
    rw [(order_none_iff x x).2 (Or.inl number)] at less
    cases less
  | false =>
    rw [order_self number] at less
    cases less

section Earliest

variable {due : Float → Prop} {best : Option Float}

theorem IsEarliest.same {due' : Float → Prop} (is : IsEarliest due best) (same : ∀ t, due' t ↔ due t) :
    IsEarliest due' best := by
  have alike : due' = due := funext fun t => propext (same t)
  rw [alike]
  exact is

theorem IsEarliest.sooner (is : IsEarliest due best) (wake : Float) :
    IsEarliest (fun t => due t ∨ wake = t) (WatchedScheduler.sooner best wake) := by
  cases best with
  | none =>
    refine ⟨Or.inr rfl, ?_⟩
    rintro t (before | rfl)
    · exact absurd before (is t)
    · exact not_lt_self wake
  | some x =>
    obtain ⟨there, first⟩ := is
    unfold WatchedScheduler.sooner
    by_cases earlier : wake < x
    · simp only [earlier, if_true]
      refine ⟨Or.inr rfl, ?_⟩
      rintro t (before | rfl) less
      · exact first t before (lt_trans_number less earlier)
      · exact not_lt_self wake less
    · simp only [earlier, if_false]
      refine ⟨Or.inl there, ?_⟩
      rintro t (before | rfl)
      · exact first t before
      · exact earlier

theorem IsEarliest.fold (wakes : Nat → Option Float) (is : IsEarliest due best) (es : List Nat) :
    IsEarliest (fun t => due t ∨ ∃ e ∈ es, wakes e = some t)
      (es.foldl (fun best e => ((wakes e).map (WatchedScheduler.sooner best)).getD best) best) := by
  induction es generalizing due best with
  | nil =>
    apply is.same
    intro t
    simp
  | cons e rest ih =>
    rw [List.foldl_cons]
    cases wake : wakes e with
    | none =>
      apply (ih is).same
      intro t
      simp [wake]
    | some w =>
      apply (ih (is.sooner w)).same
      intro t
      simp [wake, or_assoc]

end Earliest

/-- The task waits for the actor. -/
def Task.Engaged : Task → Prop
  | .delivering _ | .abandoning _ _ => True
  | _ => False

namespace LiveScheduler

section Others

variable {s t : LiveScheduler} {event : Event} {i : Nat}

theorem Engaged.busy {task : Task} (engaged : task.Engaged) : task.isBusy = true := by
  cases task with
  | sleeping completed b => exact absurd engaged id
  | delivering b => rfl
  | abandoning r b => rfl
  | done => exact absurd engaged id

/-- What is left alone of an entry and of its task. -/
def Alone (s t : LiveScheduler) (i : Nat) : Prop :=
  t.task i = s.task i ∧ (t.entry i).wakeTime = (s.entry i).wakeTime

theorem Alone.schedule (s : LiveScheduler) (a : String) (time : Float) (u : Bool) (made : i < s.next) :
    Alone s (s.schedule a time u) i := by
  have old : i ≠ s.next := Nat.ne_of_lt made
  refine ⟨schedule_task_old old, ?_⟩
  rw [schedule_entry_old old]

theorem Alone.trans {u : LiveScheduler} (first : Alone s t i) (second : Alone t u i) : Alone s u i :=
  ⟨second.1.trans first.1, second.2.trans first.2⟩

theorem Alone.queue (s : LiveScheduler) (e : Nat) (queued : Option Float) (u : Bool) :
    Alone s ((s.setEntry e fun a => { a with queuedAlarm := queued }).setUnrecorded e u) i := by
  refine ⟨rfl, ?_⟩
  simp only [setUnrecorded, LiveScheduler.setEntry]
  split <;> rfl

theorem Alone.set (s : LiveScheduler) (a : String) (time : Float) (made : i < s.next) : Alone s (s.set a time) i := by
  rw [LiveScheduler.set]
  cases mapped : s.alarms a with
  | none => exact .schedule { s with rows := _ } a time false made
  | some e =>
    simp only [mapped]
    split
    · exact .queue { s with rows := _ } e (some time) false
    · exact .schedule { s with rows := _ } a time false made

theorem Alone.cancel (s : LiveScheduler) (a : String) (made : i < s.next) : Alone s (s.cancel a) i := by
  rw [LiveScheduler.cancel]
  cases mapped : s.alarms a with
  | none => exact ⟨rfl, rfl⟩
  | some e =>
    cases behind : (s.entry e).queuedAlarm with
    | some queued =>
      simp only [mapped, behind]
      split
      · exact .queue { s with rows := _ } e none true
      · exact .schedule { s with rows := _ } a queued true made
    | none =>
      simp only [mapped, behind]
      split <;> exact ⟨rfl, rfl⟩

theorem Alone.update (s : LiveScheduler) {e : Nat} (other : i ≠ e) (f : ScheduledAlarm → ScheduledAlarm) (task : Task) :
    Alone s ((s.setEntry e f).setTask e task) i := by
  refine ⟨setTask_other other task, ?_⟩
  change ((s.setEntry e f).entry i).wakeTime = _
  rw [setEntry_entry_other other]

theorem Alone.setTask (s : LiveScheduler) {e : Nat} (other : i ≠ e) (task : Task) : Alone s (s.setTask e task) i :=
  ⟨setTask_other other task, rfl⟩

theorem Alone.promoted (s : LiveScheduler) {e : Nat} (other : i ≠ e) (queued : Float) (made : i < s.next) :
    Alone s (s.promoted e queued) i :=
  (Alone.schedule { s with rows := _ } _ queued false made).trans (.setTask _ other .done)

/-- A step leaves alone what it is not about. -/
theorem Move.alone (move : Move s event t) (made : i < s.next) (other : event.entry ≠ some i) : Alone s t i := by
  have apart : ∀ e, event.entry = some e → i ≠ e := by
    intro e on same
    rw [same] at other
    exact other on
  cases move with
  | idle => exact ⟨rfl, rfl⟩
  | setAlarm a time => exact .set s a time made
  | reconcile a time => exact .set s a time made
  | deleteAlarm a => exact .cancel s a made
  | deleteAll => exact ⟨rfl, rfl⟩
  | ended _ e on => exact .setTask s (apart e on) .done
  | start e =>
    have distinct := apart e rfl
    refine ⟨setTask_other distinct _, ?_⟩
    change ((s.markedUnwoken e).entry i).wakeTime = _
    rw [markedUnwoken, setEntry_entry_other distinct]
    rfl
  | startFailed e => exact .update s (apart e rfl) _ _
  | markedFailed e _ _ b =>
    have distinct := apart e rfl
    have unwoken : Alone s (s.markedUnwoken e) i := by
      refine ⟨rfl, ?_⟩
      rw [markedUnwoken, setEntry_entry_other distinct]
      rfl
    exact unwoken.trans (.update _ distinct _ _)
  | settle _ e on r b _ _ outcome =>
    have distinct := apart e on
    have finished : Alone s (s.finished e) i := by
      refine ⟨rfl, ?_⟩
      rw [LiveScheduler.finished, setEntry_entry_other distinct]
    cases outcome with
    | promote queued => exact .promoted s distinct queued made
    | retry =>
      rw [retried_eq]
      exact .update { s with rows := _ } distinct _ _
    | giveUp => exact finished.trans (.setTask _ distinct _)
    | finish => exact finished.trans ((Alone.cancel (s.finished e) _ made).trans (.setTask _ distinct _))
    | postpone => exact .update s distinct _ _
  | report e _ _ r b _ _ outcome =>
    have distinct := apart e rfl
    cases outcome with
    | promote queued => exact .promoted s distinct queued made
    | newer newer =>
      have later := Nat.lt_of_lt_of_le made (set_next (s.entry e).actorId newer)
      exact (Alone.set s _ newer made).trans (.promoted _ distinct newer later)
    | forget => exact (Alone.cancel s _ made).trans (.setTask _ distinct _)
    | postpone => exact .update s distinct _ _
    | newerPostponed newer => exact (Alone.set s _ newer made).trans (.update _ distinct _ _)

theorem Move.engaged (shaped : Shaped s) (move : Move s event t) (other : event.entry ≠ some i) :
    (t.task i).Engaged ↔ (s.task i).Engaged := by
  constructor
  · intro engaged
    have made : i < s.next := by
      rcases move.task (Engaged.busy engaged) with same | ⟨live, _⟩ | ⟨live, _⟩
      · rw [same] at engaged
        exact shaped.busy_lt (Engaged.busy engaged)
      · exact shaped.live_lt live
      · exact shaped.live_lt live
    rw [← (move.alone made other).1]
    exact engaged
  · intro engaged
    rw [(move.alone (shaped.busy_lt (Engaged.busy engaged)) other).1]
    exact engaged

/-- An entry whose delivery is in flight has no wake. -/
def Unwoken (s : LiveScheduler) : Prop := ∀ e, s.InFlight e → (s.entry e).wakeTime = none

/-- A delivery that has come to its bookkeeping and waits for the actor is given up. -/
theorem Settled.engaged {env : Env} {e b : Nat} {r : AlarmResult} (outcome : Settled s env e r b t)
    (engaged : (t.task e).Engaged) : (s.entry e).queuedAlarm = none ∧ t = s.givenUp e r b := by
  cases outcome with
  | promote queued =>
    rw [LiveScheduler.promoted, setTask_self] at engaged
    exact absurd engaged id
  | retry =>
    rw [retried_eq, setTask_self] at engaged
    exact absurd engaged id
  | giveUp alone => exact ⟨alone, rfl⟩
  | finish =>
    rw [LiveScheduler.forgotten, setTask_self] at engaged
    exact absurd engaged id
  | postpone =>
    rw [LiveScheduler.postponed, setTask_self] at engaged
    exact absurd engaged id

theorem Settled.notDelivering {env : Env} {e b : Nat} {r : AlarmResult} (outcome : Settled s env e r b t) :
    ¬ t.InFlight e := by
  rintro ⟨b', delivering⟩
  have given := (outcome.engaged (by rw [delivering]; trivial)).2
  rw [given, givenUp, setTask_self] at delivering
  cases delivering

/-- A delivery that is in flight after a step on it has just been started. -/
theorem Move.flying (move : Move s event t) (own : event.entry = some i) (flying : t.InFlight i) :
    t = s ∨ (t.entry i).wakeTime = none := by
  have before := move.inFlight flying
  obtain ⟨b, delivering⟩ := flying
  cases move with
  | idle => exact Or.inl rfl
  | setAlarm => cases own
  | reconcile => cases own
  | deleteAlarm => cases own
  | deleteAll => cases own
  | ended _ e on =>
    rw [on] at own
    cases own
    rw [setTask_self] at delivering
    cases delivering
  | start e =>
    cases own
    right
    change ((s.markedUnwoken i).entry i).wakeTime = none
    rw [markedUnwoken_entry_self]
  | startFailed e =>
    cases own
    rw [LiveScheduler.startFailed, setTask_self] at delivering
    cases delivering
  | markedFailed e =>
    cases own
    rw [LiveScheduler.startFailed, setTask_self] at delivering
    cases delivering
  | settle _ e on _ _ _ _ outcome =>
    rw [on] at own
    cases own
    exact absurd ⟨b, delivering⟩ outcome.notDelivering
  | report e _ _ _ _ _ due =>
    cases own
    rcases before with ⟨b', was⟩ | ⟨_, ⟨b', was⟩, _⟩ <;> rw [due] at was <;> cases was

theorem Move.unwoken (shaped : Shaped s) (unwoken : Unwoken s) (move : Move s event t) : Unwoken t := by
  intro i flying
  by_cases own : event.entry = some i
  · rcases move.flying own flying with same | woken
    · rw [same] at flying ⊢
      exact unwoken i flying
    · exact woken
  · rcases move.inFlight flying with ⟨b, delivering⟩ | ⟨_, _, woken, env, is⟩
    · have made := shaped.busy_lt (i := i) (by rw [delivering]; rfl)
      rw [(move.alone made own).2]
      exact unwoken i ⟨b, delivering⟩
    · rw [is] at own
      exact absurd rfl own

end Others

end LiveScheduler

namespace WatchedScheduler

open LiveScheduler (Shaped Unwoken Move)

/-- What the one does to the scheduler is what the other does. -/
def Mirrors {α : Type} (act : Act α) (plain : LiveScheduler.Act α) : Prop :=
  ∀ w, (act w).1 = (plain w.live).1 ∧ (act w).2.live = (plain w.live).2

section Mirroring

variable {α β : Type} (env : Env)

theorem Mirrors.onLive (plain : LiveScheduler.Act α) : Mirrors (onLive plain) plain := fun _ => ⟨rfl, rfl⟩

theorem Mirrors.bind {m : Act α} {m' : LiveScheduler.Act α} {f : α → Act β} {f' : α → LiveScheduler.Act β}
    (first : Mirrors m m') (rest : ∀ a, Mirrors (f a) (f' a)) : Mirrors (m >>= f) (m' >>= f') := by
  intro w
  obtain ⟨result, live⟩ := first w
  rw [bind_run, bind_run]
  rcases ran : m w with ⟨e | a, u⟩ <;> rcases ran' : m' w.live with ⟨e' | a', u'⟩ <;> rw [ran, ran'] at result live <;>
    cases result <;> cases live
  · exact ⟨rfl, rfl⟩
  · exact rest _ u

theorem Mirrors.attempt {m : Act α} {m' : LiveScheduler.Act α} {f : String → Act α} {f' : String → LiveScheduler.Act α}
    (first : Mirrors m m') (caught : ∀ e, Mirrors (f e) (f' e)) : Mirrors (attempt m f) (attempt m' f') := by
  intro w
  obtain ⟨result, live⟩ := first w
  unfold Prog.attempt
  rcases ran : m w with ⟨e | a, u⟩ <;> rcases ran' : m' w.live with ⟨e' | a', u'⟩ <;> rw [ran, ran'] at result live <;>
    cases result <;> cases live
  · exact caught _ u
  · exact ⟨rfl, rfl⟩

theorem Mirrors.state {f : WatchedScheduler → Act α} {f' : LiveScheduler → LiveScheduler.Act α}
    (rest : ∀ w, Mirrors (f w) (f' w.live)) : Mirrors (Prog.state >>= f) (Prog.state >>= f') := fun w => rest w w

/-- What is for the projection alone. -/
theorem Mirrors.aside {f : WatchedScheduler → WatchedScheduler} (keeps : ∀ w, (f w).live = w.live) {m : Act α}
    {m' : LiveScheduler.Act α} (rest : Mirrors m m') : Mirrors (update f >>= fun _ => m) m' := by
  intro w
  have done := rest (f w)
  rw [keeps] at done
  exact done

theorem Mirrors.project (call : Fallible) : Mirrors (projectNextWake env call) (LiveScheduler.projectNextWake env call) := by
  intro w
  unfold projectNextWake LiveScheduler.projectNextWake
  split <;> exact ⟨rfl, rfl⟩

theorem addActive_live (w : WatchedScheduler) (e : Nat) : (w.addActive e).live = w.live := by
  unfold addActive
  split <;> rfl

theorem quiet_statement {call : Fallible} (is : call.isStatement = true) : (quiet env).fails call = env.fails call := by
  simp [quiet, is]

theorem quiet_project {call : Fallible} (is : call.isStatement = false) : (quiet env).fails call = false := by
  simp [quiet, is]

/-- An operation whose statement may be refused, and which projects a wake last. -/
theorem written_run {kind : Fallible} (call : Fallible) {plain : LiveScheduler.Act Unit} {w : WatchedScheduler}
    {s : LiveScheduler} (refused : env.fails kind = true → plain w.live = (.error "metadata write refused", w.live))
    (written : env.fails kind = false → plain w.live = (.ok (), s)) :
    (onLive plain >>= fun _ => projectNextWake env call) w =
      if env.fails kind then (.error "metadata write refused", w) else projectNextWake env call { w with live := s } := by
  cases failed : env.fails kind with
  | true =>
    have ran : onLive plain w = (.error "metadata write refused", w) := by
      unfold onLive
      rw [refused failed]
    rw [bind_run_error ran]
    rfl
  | false =>
    have ran : onLive plain w = (.ok (), { w with live := s }) := by
      unfold onLive
      rw [written failed]
    rw [bind_run_ok ran]
    rfl

theorem setAlarm_run (actorId : String) (scheduledTime : Float) (w : WatchedScheduler) :
    setAlarm env actorId scheduledTime w =
      if env.fails .setAlarm then (.error "metadata write refused", w)
      else projectNextWake env .projectSet { w with live := w.live.set actorId scheduledTime } := by
  have plain := LiveScheduler.setAlarm_run (quiet env) w.live actorId scheduledTime
  rw [quiet_statement env rfl, LiveScheduler.projectNextWake_run, quiet_project env rfl] at plain
  apply written_run env .projectSet <;> intro failed <;> rw [plain, failed] <;> rfl

theorem deleteAlarm_run (actorId : String) (w : WatchedScheduler) :
    deleteAlarm env actorId w =
      if env.fails .deleteAlarm then (.error "metadata write refused", w)
      else projectNextWake env .projectDelete { w with live := w.live.cancel actorId } := by
  have plain := LiveScheduler.deleteAlarm_run (quiet env) w.live actorId
  rw [quiet_statement env rfl, LiveScheduler.projectNextWake_run, quiet_project env rfl] at plain
  apply written_run env .projectDelete <;> intro failed <;> rw [plain, failed] <;> rfl

theorem deleteAll_run (w : WatchedScheduler) :
    deleteAll env w =
      if env.fails .deleteAll then (.error "metadata write refused", w)
      else projectNextWake env .projectDeleteAll { w with live := w.live.cleared } := by
  have plain := LiveScheduler.deleteAll_run (quiet env) w.live
  rw [quiet_statement env rfl, LiveScheduler.projectNextWake_run, quiet_project env rfl] at plain
  apply written_run env .projectDeleteAll <;> intro failed <;> rw [plain, failed] <;> rfl

theorem Mirrors.setAlarm (actorId : String) (scheduledTime : Float) :
    Mirrors (setAlarm env actorId scheduledTime) (LiveScheduler.setAlarm env actorId scheduledTime) := by
  intro w
  rw [setAlarm_run, LiveScheduler.setAlarm_run]
  split
  · exact ⟨rfl, rfl⟩
  · exact Mirrors.project env .projectSet { w with live := w.live.set actorId scheduledTime }

theorem Mirrors.deleteAlarm (actorId : String) :
    Mirrors (deleteAlarm env actorId) (LiveScheduler.deleteAlarm env actorId) := by
  intro w
  rw [deleteAlarm_run, LiveScheduler.deleteAlarm_run]
  split
  · exact ⟨rfl, rfl⟩
  · exact Mirrors.project env .projectDelete { w with live := w.live.cancel actorId }

theorem Mirrors.deleteAll : Mirrors (deleteAll env) (LiveScheduler.deleteAll env) := by
  intro w
  rw [deleteAll_run, LiveScheduler.deleteAll_run]
  split
  · exact ⟨rfl, rfl⟩
  · exact Mirrors.project env .projectDeleteAll { w with live := w.live.cleared }

theorem Mirrors.reconcile (actorId : String) (stored : Float) :
    Mirrors (reconcile env actorId stored) (LiveScheduler.reconcile env actorId stored) := by
  apply Mirrors.state
  intro w
  cases w.live.alarms actorId with
  | none => exact .setAlarm env actorId stored
  | some e =>
    dsimp only
    split
    · exact fun _ => ⟨rfl, rfl⟩
    · exact .setAlarm env actorId stored

theorem Mirrors.settle (e : Nat) (r : AlarmResult) (b : Nat) :
    Mirrors (settle env e r b) (LiveScheduler.settle env e r b) := by
  intro w
  unfold WatchedScheduler.settle
  rw [state_bind]
  by_cases ended : w.live.isLive e ∧ (w.live.entry e).queuedAlarm = none ∧ ¬ r.retry ∧ r.outcome ≠ .aborted
  · obtain ⟨live, alone, last, usual⟩ := ended
    have plain : LiveScheduler.settle env e r b w.live = (do
        update fun s => s.setEntry e fun a => { a with status := .finished }
        LiveScheduler.deleteAlarm env (w.live.entry e).actorId
        update fun s => s.setTask e .done : LiveScheduler.Act Unit) w.live := by
      unfold LiveScheduler.settle
      rw [state_bind]
      simp only [live, if_true, alone, update_bind, last, Bool.false_eq_true, if_false, usual]
    rw [if_pos ⟨live, alone, last, usual⟩, plain]
    exact Mirrors.bind (.onLive _) (fun _ => .bind (.deleteAlarm env _) fun _ => .onLive _) w
  · rw [if_neg ended]
    exact ⟨rfl, rfl⟩

theorem Mirrors.startDelivery (e b : Nat) : Mirrors (startDelivery env e b) (LiveScheduler.startDelivery env e b) := by
  intro w
  unfold WatchedScheduler.startDelivery LiveScheduler.startDelivery
  rw [state_bind, state_bind]
  have first := Mirrors.onLive (LiveScheduler.statement env .markRunning fun rows =>
    updateRow rows (w.live.entry e).actorId fun row => row.setRunning 1)
  have second := Mirrors.onLive (update fun s =>
    s.setEntry e fun a => { a with status := .started, wakeTime := none } : LiveScheduler.Act Unit)
  have active : ∀ v : WatchedScheduler, (v.addActive e).live = v.live := fun v => addActive_live v e
  exact first.bind (fun _ => second.bind fun _ => .aside active (.bind (.project env _) fun _ => .onLive _)) w

theorem Mirrors.closeDelivery (e : Nat) (cleanupFails : Bool) : Mirrors (closeDelivery e cleanupFails) (pure ()) := by
  intro w
  unfold WatchedScheduler.closeDelivery
  rw [state_bind]
  cases w.live.task e with
  | delivering b => exact ⟨rfl, rfl⟩
  | abandoning r b => exact ⟨rfl, rfl⟩
  | sleeping completed b => cases cleanupFails <;> exact ⟨rfl, rfl⟩
  | done => cases cleanupFails <;> exact ⟨rfl, rfl⟩

theorem Mirrors.closed {m : Act Unit} {m' : LiveScheduler.Act Unit} (first : Mirrors m m') (e : Nat) (cleanupFails : Bool) :
    Mirrors (m >>= fun _ => WatchedScheduler.closeDelivery e cleanupFails) m' := by
  have whole := first.bind fun _ => Mirrors.closeDelivery e cleanupFails
  intro w
  obtain ⟨result, live⟩ := whole w
  rw [result, live, bind_run]
  rcases m' w.live with ⟨e | a, u⟩ <;> exact ⟨rfl, rfl⟩

theorem Mirrors.wake (e : Nat) (completed : Option AlarmResult) (b : Nat) (cleanupFails : Bool) :
    Mirrors (wake env e completed b cleanupFails) (LiveScheduler.wake env e completed b) := by
  apply Mirrors.state
  intro w
  split
  · apply Mirrors.closed
    apply Mirrors.attempt ?_ fun _ => .onLive _
    cases completed with
    | none => exact .startDelivery env e b
    | some r => exact .aside (fun v => addActive_live v e) (.bind (.project env _) fun _ => .settle env e r b)
  · exact .onLive _

theorem Mirrors.deliverySettled (e : Nat) (result : Option AlarmResult) (b : Nat) (cleanupFails : Bool) :
    Mirrors (deliverySettled env e result b cleanupFails) (LiveScheduler.deliverySettled env e result b) :=
  .closed (.attempt (.settle env e _ b) fun _ => .onLive _) e cleanupFails

theorem Mirrors.abandon (e : Nat) (answer : Option (Option Float)) :
    Mirrors (abandon env e answer) (LiveScheduler.abandon env e answer) := by
  cases answer with
  | none => exact fun _ => ⟨rfl, rfl⟩
  | some newerAlarm =>
    apply Mirrors.state
    intro w
    split
    · rcases newerAlarm with _ | newer <;> rcases (w.live.entry e).queuedAlarm with _ | queued
      case some.none =>
        apply Mirrors.bind (.setAlarm env _ newer)
        intro _
        apply Mirrors.state
        intro v
        cases (v.live.entry e).queuedAlarm with
        | some queued => exact .onLive _
        | none => exact .bind (.deleteAlarm env _) fun _ => .onLive _
      all_goals
        apply Mirrors.state
        intro v
        cases (v.live.entry e).queuedAlarm with
        | some queued => exact .onLive _
        | none => exact .bind (.deleteAlarm env _) fun _ => .onLive _
    · exact .onLive _

theorem Mirrors.abandonSettled (e : Nat) (answer : Option (Option Float)) (r : AlarmResult) (b : Nat)
    (cleanupFails : Bool) :
    Mirrors (abandonSettled env e answer r b cleanupFails) (LiveScheduler.abandonSettled env e answer r b) :=
  .closed (.attempt (.abandon env e answer) fun _ => .onLive _) e cleanupFails

theorem step_live {w v : WatchedScheduler} {event : Event} (stepped : w.step event = some v) :
    w.live.step event.event = some v.live := by
  obtain ⟨event, cleanupFails⟩ := event
  cases event <;> simp only [step, Option.some.injEq] at stepped
  case setAlarm a time env =>
    rw [← stepped]
    exact congrArg some (Mirrors.setAlarm env a time w).2.symm
  case deleteAlarm a env =>
    rw [← stepped]
    exact congrArg some (Mirrors.deleteAlarm env a w).2.symm
  case deleteAll env =>
    rw [← stepped]
    exact congrArg some (Mirrors.deleteAll env w).2.symm
  case reconcile a stored env =>
    rw [← stepped]
    exact congrArg some (Mirrors.reconcile env a stored w).2.symm
  case wake e woken env =>
    unfold LiveScheduler.step
    cases due : w.live.task e <;> rw [due] at stepped <;> try cases stepped
    rename_i completed b
    obtain ⟨time, stepped⟩ := Option.ite_none_right_eq_some.1 stepped
    cases stepped
    simp only [due, if_pos time]
    exact congrArg some (Mirrors.wake env e completed b cleanupFails w).2.symm
  case deliverySettled e result env =>
    unfold LiveScheduler.step
    cases due : w.live.task e <;> rw [due] at stepped <;> cases stepped
    simp only [due]
    exact congrArg some (Mirrors.deliverySettled env e result _ cleanupFails w).2.symm
  case abandonSettled e answer env =>
    unfold LiveScheduler.step
    cases due : w.live.task e <;> rw [due] at stepped <;> cases stepped
    simp only [due]
    exact congrArg some (Mirrors.abandonSettled env e answer _ _ cleanupFails w).2.symm

end Mirroring

/-- A time that the platform's watchdog has to cover. -/
def Due (w : WatchedScheduler) (t : Float) : Prop :=
  (∃ e ∈ w.activeDeliveries, (w.live.entry e).scheduledTime = t) ∨
    ∃ e, w.live.isLive e = true ∧ wakeOf (w.live.entry e) = some t

/-- The last projection is what the present state is projected with. -/
def Fresh (w : WatchedScheduler) : Prop :=
  ∃ earliest, w.projections.getLast? = some (earliest, w.activeDeliveries.length) ∧ IsEarliest w.Due earliest

/-- What every state keeps. -/
structure Tracked (w : WatchedScheduler) : Prop where
  shaped : Shaped w.live
  unwoken : Unwoken w.live
  active : ∀ e, e ∈ w.activeDeliveries ↔ (w.live.task e).Engaged
  nodup : w.activeDeliveries.Nodup

section Freshness

variable {env : Env} {w u : WatchedScheduler} {e b : Nat}

theorem earliest_is (known : ∀ e, w.live.isLive e = true → e < w.live.next) : IsEarliest w.Due w.earliest := by
  have nothing : IsEarliest (fun _ => False) none := fun _ => id
  have active := nothing.fold (fun e => some (w.live.entry e).scheduledTime) w.activeDeliveries
  have all := active.fold (fun e => wakeOf (w.live.entry e)) ((List.range w.live.next).filter w.live.isLive)
  apply IsEarliest.same all
  intro t
  simp only [Due, false_or, Option.some.injEq, List.mem_filter, List.mem_range]
  constructor
  · rintro (busy | ⟨e, live, wake⟩)
    · exact Or.inl busy
    · exact Or.inr ⟨e, ⟨known e live, live⟩, wake⟩
  · rintro (busy | ⟨e, ⟨_, live⟩, wake⟩)
    · exact Or.inl busy
    · exact Or.inr ⟨e, live, wake⟩

theorem projected_fresh (known : ∀ e, w.live.isLive e = true → e < w.live.next) : Fresh w.projected := by
  refine ⟨w.earliest, ?_, earliest_is known⟩
  unfold projected
  exact List.getLast?_concat ..

theorem Fresh.same (fresh : Fresh w) (projections : u.projections = w.projections)
    (active : u.activeDeliveries = w.activeDeliveries) (due : ∀ t, u.Due t ↔ w.Due t) : Fresh u := by
  obtain ⟨earliest, last, is⟩ := fresh
  refine ⟨earliest, ?_, is.same due⟩
  rw [projections, active]
  exact last

theorem closeDelivery_engaged (engaged : (w.live.task e).Engaged) (cleanupFails : Bool) :
    (closeDelivery e cleanupFails w).2 = w := by
  unfold closeDelivery
  rw [state_bind]
  cases task : w.live.task e with
  | delivering b => rfl
  | abandoning r b => rfl
  | sleeping completed b =>
    rw [task] at engaged
    exact absurd engaged id
  | done =>
    rw [task] at engaged
    exact absurd engaged id

theorem closeDelivery_idle (idle : ¬ (w.live.task e).Engaged) :
    (closeDelivery e false w).2 = { w with activeDeliveries := w.activeDeliveries.erase e }.projected := by
  unfold closeDelivery
  rw [state_bind]
  cases task : w.live.task e with
  | delivering b =>
    rw [task] at idle
    exact absurd trivial idle
  | abandoning r b =>
    rw [task] at idle
    exact absurd trivial idle
  | sleeping completed b => rfl
  | done => rfl

/-- The end of a stretch on an entry, which is either done with the actor or waits for it. -/
theorem Tracked.close {event : LiveScheduler.Event} (tracked : Tracked w) (move : Move w.live event u.live)
    (own : event.entry = some e) (others : ∀ i, i ≠ e → (i ∈ u.activeDeliveries ↔ i ∈ w.activeDeliveries))
    (nodup : u.activeDeliveries.Nodup) (mine : (u.live.task e).Engaged → e ∈ u.activeDeliveries ∧ Fresh u) :
    Tracked (closeDelivery e false u).2 ∧ Fresh (closeDelivery e false u).2 := by
  have shaped := move.shaped tracked.shaped
  have unwoken := move.unwoken tracked.shaped tracked.unwoken
  have apart : ∀ i, i ≠ e → (i ∈ u.activeDeliveries ↔ (u.live.task i).Engaged) := by
    intro i other
    rw [others i other, tracked.active, move.engaged tracked.shaped]
    rw [own]
    intro same
    exact other (Option.some.inj same).symm
  by_cases engaged : (u.live.task e).Engaged
  · obtain ⟨member, fresh⟩ := mine engaged
    rw [closeDelivery_engaged engaged]
    refine ⟨⟨shaped, unwoken, ?_, nodup⟩, fresh⟩
    intro i
    by_cases same : i = e
    · rw [same]
      exact iff_of_true member engaged
    · exact apart i same
  · rw [closeDelivery_idle engaged]
    refine ⟨⟨shaped, unwoken, ?_, nodup.erase e⟩, projected_fresh fun i => shaped.live_lt⟩
    intro i
    change i ∈ u.activeDeliveries.erase e ↔ (u.live.task i).Engaged
    rw [nodup.mem_erase_iff]
    by_cases same : i = e
    · rw [same]
      exact iff_of_false (fun both => both.1 rfl) engaged
    · rw [← apart i same]
      exact and_iff_right same

theorem attempt_onLive {m : LiveScheduler.Act Unit} {f : String → LiveScheduler.Act Unit} :
    attempt (onLive m) (fun e => onLive (f e)) w = onLive (attempt m f) w := by
  unfold Prog.attempt onLive
  rcases ran : m w.live with ⟨e | a, s⟩ <;> simp only [ran]

/-- What a delivery leaves whose result is in, where the bookkeeping may fail. -/
def bookkept (env : Env) (e : Nat) (r : AlarmResult) (b : Nat) : Act Unit :=
  attempt (settle env e r b) fun _ => onLive (LiveScheduler.bookkeepingFailed e (some r) b)

theorem bookkeepingFailed_idle (s : LiveScheduler) (r : AlarmResult) :
    ¬ ((LiveScheduler.bookkeepingFailed e (some r) b s).2.task e).Engaged := by
  rw [LiveScheduler.bookkeepingFailed_some]
  split
  · change ¬ ((s.postponed e r b).task e).Engaged
    rw [LiveScheduler.postponed, LiveScheduler.setTask_self]
    exact id
  · change ¬ ((s.setTask e .done).task e).Engaged
    rw [LiveScheduler.setTask_self]
    exact id

/-- Bookkeeping that comes to wait for the actor is that of an alarm given up, and projects nothing. -/
theorem bookkept_engaged {r : AlarmResult} (engaged : ((bookkept env e r b w).2.live.task e).Engaged) :
    w.live.isLive e = true ∧ (w.live.entry e).queuedAlarm = none ∧
      (bookkept env e r b w).2 = { w with live := w.live.givenUp e r b } := by
  unfold bookkept at engaged ⊢
  by_cases ended : w.live.isLive e ∧ (w.live.entry e).queuedAlarm = none ∧ ¬ r.retry ∧ r.outcome ≠ .aborted
  · exfalso
    have ran : settle env e r b w = (do
        deleteAlarm env (w.live.entry e).actorId
        onLive (update fun s => s.setTask e .done) : Act Unit) { w with live := w.live.finished e } := by
      unfold settle
      rw [state_bind, if_pos ended]
      rfl
    rw [attempt_run_eq ran] at engaged
    rcases outcome : deleteAlarm env (w.live.entry e).actorId { w with live := w.live.finished e } with ⟨thrown | u, v⟩
    · rw [attempt_run_error (bind_run_error outcome)] at engaged
      exact bookkeepingFailed_idle v.live r engaged
    · have returned : (do
          deleteAlarm env (w.live.entry e).actorId
          onLive (update fun s => s.setTask e .done) : Act Unit) { w with live := w.live.finished e } =
          (.ok (), { v with live := v.live.setTask e .done }) := bind_run_ok outcome
      rw [attempt_run_ok returned] at engaged
      change ((v.live.setTask e .done).task e).Engaged at engaged
      rw [LiveScheduler.setTask_self] at engaged
      exact engaged
  · have ran : settle env e r b w = onLive (LiveScheduler.settle env e r b) w := by
      unfold settle
      rw [state_bind, if_neg ended]
    rw [attempt_run_eq ran, attempt_onLive] at engaged ⊢
    by_cases live : w.live.isLive e
    · have outcome := LiveScheduler.settle_cases env w.live live r b
      change ((attempt (LiveScheduler.settle env e r b) (fun _ => LiveScheduler.bookkeepingFailed e (some r) b)
        w.live).2.task e).Engaged at engaged
      obtain ⟨alone, given⟩ := outcome.engaged engaged
      refine ⟨live, alone, ?_⟩
      unfold onLive
      rw [given]
    · have left : LiveScheduler.settle env e r b w.live = (.ok (), w.live.setTask e .done) := by
        unfold LiveScheduler.settle
        rw [state_bind, if_neg live]
        rfl
      unfold onLive at engaged
      rw [attempt_run_ok left] at engaged
      change ((w.live.setTask e .done).task e).Engaged at engaged
      rw [LiveScheduler.setTask_self] at engaged
      exact absurd engaged id

theorem keeps_onLive {α : Type} (m : LiveScheduler.Act α) (ds : List Nat) :
    Keeps (fun u => u.activeDeliveries = ds) (onLive m) := by
  intro u same
  unfold onLive
  rcases m u.live with ⟨e | a, s⟩ <;> exact same

theorem keeps_project (call : Fallible) (ds : List Nat) :
    Keeps (fun u => u.activeDeliveries = ds) (projectNextWake env call) := by
  unfold projectNextWake
  split
  · exact Keeps.raise
  · exact Keeps.update fun _ same => same

theorem keeps_deleteAlarm (a : String) (ds : List Nat) :
    Keeps (fun u => u.activeDeliveries = ds) (deleteAlarm env a) :=
  Keeps.bind (keeps_onLive _ ds) fun _ => keeps_project _ ds

theorem keeps_setAlarm (a : String) (time : Float) (ds : List Nat) :
    Keeps (fun u => u.activeDeliveries = ds) (setAlarm env a time) :=
  Keeps.bind (keeps_onLive _ ds) fun _ => keeps_project _ ds

theorem bookkept_active (r : AlarmResult) : (bookkept env e r b w).2.activeDeliveries = w.activeDeliveries := by
  have settled : Keeps (fun u => u.activeDeliveries = w.activeDeliveries) (settle env e r b) := by
    apply Keeps.state
    intro u _
    split
    · exact Keeps.bind (keeps_onLive _ _) fun _ => Keeps.bind (keeps_deleteAlarm _ _) fun _ => keeps_onLive _ _
    · exact keeps_onLive _ _
  exact (Keeps.attempt settled fun _ => keeps_onLive _ _).reached rfl

theorem abandon_active (answer : Option (Option Float)) (r : AlarmResult) :
    (attempt (abandon env e answer) (fun _ => onLive (LiveScheduler.bookkeepingFailed e (some r) b))
      w).2.activeDeliveries = w.activeDeliveries := by
  have abandoned : Keeps (fun u => u.activeDeliveries = w.activeDeliveries) (abandon env e answer) := by
    cases answer with
    | none => exact Keeps.raise
    | some newerAlarm =>
      apply Keeps.state
      intro u _
      split
      · rcases newerAlarm with _ | newer <;> rcases (u.live.entry e).queuedAlarm with _ | queued
        case some.none =>
          apply Keeps.bind (keeps_setAlarm _ newer _)
          intro _
          apply Keeps.state
          intro v _
          cases (v.live.entry e).queuedAlarm with
          | some queued => exact keeps_onLive _ _
          | none => exact Keeps.bind (keeps_deleteAlarm _ _) fun _ => keeps_onLive _ _
        all_goals
          apply Keeps.state
          intro v _
          cases (v.live.entry e).queuedAlarm with
          | some queued => exact keeps_onLive _ _
          | none => exact Keeps.bind (keeps_deleteAlarm _ _) fun _ => keeps_onLive _ _
      · exact keeps_onLive _ _
  exact (Keeps.attempt abandoned fun _ => keeps_onLive _ _).reached rfl

/-- The alarm that is given up stays due under the delivery that is not over. -/
theorem givenUp_due {r : AlarmResult} (alone : (w.live.entry e).queuedAlarm = none)
    (known : (w.live.entry e).status = .finished ∨
      (w.live.entry e).status = .started ∧ (w.live.entry e).wakeTime = none ∧ e ∈ w.activeDeliveries) (t : Float) :
    Due { w with live := w.live.givenUp e r b } t ↔ w.Due t := by
  have entry : ∀ i, i ≠ e → (w.live.givenUp e r b).entry i = w.live.entry i := by
    intro i other
    change (w.live.finished e).entry i = _
    rw [LiveScheduler.finished, LiveScheduler.setEntry_entry_other other]
  have mine : (w.live.givenUp e r b).entry e = { w.live.entry e with status := .finished } :=
    LiveScheduler.finished_entry_self w.live e
  have time : ∀ i, ((w.live.givenUp e r b).entry i).scheduledTime = (w.live.entry i).scheduledTime := by
    intro i
    by_cases same : i = e
    · rw [same, mine]
    · rw [entry i same]
  have live : ∀ i, (w.live.givenUp e r b).isLive i = w.live.isLive i := LiveScheduler.finished_isLive w.live e
  unfold Due
  simp only [time, live]
  rcases known with finished | ⟨started, unwoken, active⟩
  · have same : ∀ i, wakeOf ((w.live.givenUp e r b).entry i) = wakeOf (w.live.entry i) := by
      intro i
      by_cases same : i = e
      · rw [same, mine]
        simp [wakeOf, finished]
      · rw [entry i same]
    simp only [same]
  · have before : wakeOf (w.live.entry e) = none := by simp [wakeOf, started, alone]
    have after : wakeOf ((w.live.givenUp e r b).entry e) = some (w.live.entry e).scheduledTime := by
      rw [mine]
      simp [wakeOf, unwoken]
    constructor
    · rintro (busy | ⟨i, on, wake⟩)
      · exact Or.inl busy
      · by_cases same : i = e
        · rw [same, after] at wake
          exact Or.inl ⟨e, active, Option.some.inj wake⟩
        · rw [entry i same] at wake
          exact Or.inr ⟨i, on, wake⟩
    · rintro (busy | ⟨i, on, wake⟩)
      · exact Or.inl busy
      · by_cases same : i = e
        · rw [same, before] at wake
          cases wake
        · refine Or.inr ⟨i, on, ?_⟩
          rw [entry i same]
          exact wake

theorem bookkept_fresh {r : AlarmResult} (fresh : Fresh w)
    (known : w.live.isLive e = true → (w.live.entry e).status = .finished ∨
      (w.live.entry e).status = .started ∧ (w.live.entry e).wakeTime = none ∧ e ∈ w.activeDeliveries)
    (engaged : ((bookkept env e r b w).2.live.task e).Engaged) : Fresh (bookkept env e r b w).2 := by
  obtain ⟨live, alone, given⟩ := bookkept_engaged engaged
  rw [given]
  exact fresh.same rfl rfl (givenUp_due alone (known live))

theorem mem_addActive (w : WatchedScheduler) (e i : Nat) :
    i ∈ (w.addActive e).activeDeliveries ↔ i = e ∨ i ∈ w.activeDeliveries := by
  unfold addActive
  split
  · rename_i there
    constructor
    · exact Or.inr
    · rintro (same | there')
      · rw [same]
        exact there
      · exact there'
  · simp [or_comm]

theorem addActive_nodup (nodup : w.activeDeliveries.Nodup) (e : Nat) : (w.addActive e).activeDeliveries.Nodup := by
  unfold addActive
  split
  · exact nodup
  · rename_i absent
    exact List.nodup_append.2 ⟨nodup, List.nodup_singleton e, by
      intro x member y single same
      rw [List.mem_singleton.1 single] at same
      rw [same] at member
      exact absent member⟩

/-- An operation that projects a wake once its row is written. -/
theorem Tracked.project {event : LiveScheduler.Event} (tracked : Tracked w) {s : LiveScheduler}
    (move : Move w.live event s) (own : event.entry = none) :
    Tracked { w with live := s }.projected ∧ Fresh { w with live := s }.projected := by
  have shaped := move.shaped tracked.shaped
  refine ⟨⟨shaped, move.unwoken tracked.shaped tracked.unwoken, ?_, tracked.nodup⟩,
    projected_fresh (w := { w with live := s }) fun i => shaped.live_lt⟩
  intro i
  change i ∈ w.activeDeliveries ↔ (s.task i).Engaged
  rw [tracked.active, move.engaged tracked.shaped]
  rw [own]
  simp

/-- `projectWake` does not throw. -/
def Projects (_ : WatchedScheduler) (event : Event) : Prop :=
  (∀ call : Fallible, call.isStatement = false → event.event.env.fails call = false) ∧ event.cleanupFails = false

theorem projectNextWake_run {call : Fallible} (is : call.isStatement = false)
    (calm : ∀ call : Fallible, call.isStatement = false → env.fails call = false) (w : WatchedScheduler) :
    projectNextWake env call w = (.ok (), w.projected) := by
  unfold projectNextWake
  rw [calm call is]
  rfl

/-- Where a delivery comes to be called. -/
def started (w : WatchedScheduler) (e b : Nat) : WatchedScheduler :=
  { ({ w with live := w.live.markedUnwoken e }.addActive e).projected with live := w.live.started e b }

theorem startDelivery_run (calm : ∀ call : Fallible, call.isStatement = false → env.fails call = false)
    (w : WatchedScheduler) : startDelivery env e b w =
      if env.fails .markRunning then (.error "metadata write refused", w) else (.ok (), w.started e b) := by
  unfold startDelivery
  rw [state_bind, bind_run, onLive, LiveScheduler.statement_run]
  cases refused : env.fails .markRunning with
  | true => rfl
  | false =>
    have marked : { w with live := w.live.marked e }.live = w.live.marked e := rfl
    simp only [Bool.false_eq_true, if_false]
    change (onLive (update fun s => s.setEntry e fun a => { a with status := .started, wakeTime := none }) >>= _)
      { w with live := w.live.marked e } = _
    have unwoken : onLive (update fun s => s.setEntry e fun a => { a with status := .started, wakeTime := none })
        { w with live := w.live.marked e } = (.ok (), { w with live := w.live.markedUnwoken e }) := rfl
    rw [bind_run_ok unwoken, update_bind, bind_run_ok (projectNextWake_run rfl calm _)]
    unfold onLive
    rw [update_run]
    have live : ({ w with live := w.live.markedUnwoken e }.addActive e).projected.live = w.live.markedUnwoken e :=
      addActive_live _ e
    unfold started
    rw [live]
    rfl

theorem started_fresh (shaped : Shaped w.live) : Fresh (w.started e b) := by
  have live : ({ w with live := w.live.markedUnwoken e }.addActive e).live = w.live.markedUnwoken e := addActive_live _ e
  have projected : Fresh ({ w with live := w.live.markedUnwoken e }.addActive e).projected := by
    apply projected_fresh
    intro i on
    rw [live] at on ⊢
    apply shaped.live_lt (e := i)
    rw [LiveScheduler.isLive_iff] at on ⊢
    by_cases same : i = e
    · rw [same, LiveScheduler.markedUnwoken_entry_self] at on
      rw [same]
      exact on
    · rw [LiveScheduler.markedUnwoken, LiveScheduler.setEntry_entry_other same] at on
      exact on
  apply projected.same (u := w.started e b) rfl rfl
  intro t
  unfold Due
  change (∃ i ∈ ({ w with live := w.live.markedUnwoken e }.addActive e).activeDeliveries,
      ((w.live.started e b).entry i).scheduledTime = t) ∨ _ ↔
    (∃ i ∈ ({ w with live := w.live.markedUnwoken e }.addActive e).activeDeliveries,
      (({ w with live := w.live.markedUnwoken e }.addActive e).live.entry i).scheduledTime = t) ∨
    ∃ i, ({ w with live := w.live.markedUnwoken e }.addActive e).live.isLive i = true ∧
      wakeOf (({ w with live := w.live.markedUnwoken e }.addActive e).live.entry i) = some t
  rw [live]
  rfl

/-- The end of a stretch, of which the scheduler knows what it can have done. -/
theorem Tracked.ends {event : LiveScheduler.Event} {m : Act Unit} (tracked : Tracked w)
    (move : Move w.live event ((m >>= fun _ => closeDelivery e false) w).2.live) (own : event.entry = some e)
    (ran : m w = (.ok (), u)) (others : ∀ i, i ≠ e → (i ∈ u.activeDeliveries ↔ i ∈ w.activeDeliveries))
    (nodup : u.activeDeliveries.Nodup) (mine : (u.live.task e).Engaged → e ∈ u.activeDeliveries ∧ Fresh u) :
    Tracked ((m >>= fun _ => closeDelivery e false) w).2 ∧ Fresh ((m >>= fun _ => closeDelivery e false) w).2 := by
  rw [bind_run_ok ran] at move ⊢
  rw [(Mirrors.closeDelivery e false u).2] at move
  exact tracked.close move own others nodup mine

/-- What the bookkeeping throws is caught. -/
theorem caught_run (m : Act Unit) (r : AlarmResult) (w : WatchedScheduler) :
    ∃ u, attempt m (fun _ => onLive (LiveScheduler.bookkeepingFailed e (some r) b)) w = (.ok (), u) := by
  rcases ran : m w with ⟨thrown | u, v⟩
  · rw [attempt_run_error ran]
    refine ⟨{ v with live := (LiveScheduler.bookkeepingFailed e (some r) b v.live).2 }, ?_⟩
    unfold onLive
    rw [LiveScheduler.bookkeepingFailed_some]
  · rw [attempt_run_ok ran]
    exact ⟨v, rfl⟩

theorem wake_tracked {woken : Float} {completed : Option AlarmResult} (tracked : Tracked w) (fresh : Fresh w)
    (calm : ∀ call : Fallible, call.isStatement = false → env.fails call = false)
    (due : w.live.task e = .sleeping completed b)
    (move : Move w.live (.wake e woken env) (wake env e completed b false w).2.live) :
    Tracked (wake env e completed b false w).2 ∧ Fresh (wake env e completed b false w).2 := by
  have consistent := tracked.shaped.consistent e
  rw [due] at consistent
  unfold wake at move ⊢
  rw [state_bind] at move ⊢
  by_cases live : w.live.isLive e
  · rw [if_pos live] at move ⊢
    cases completed with
    | none =>
      dsimp only at move ⊢
      have start := startDelivery_run (e := e) (b := b) calm w
      cases refused : env.fails .markRunning with
      | true =>
        rw [refused, if_pos rfl] at start
        have ran : attempt (startDelivery env e b) (fun _ => onLive (LiveScheduler.bookkeepingFailed e none b)) w =
            (.ok (), { w with live := w.live.startFailed e b }) := by
          rw [attempt_run_error start]
          unfold onLive
          rw [LiveScheduler.bookkeepingFailed_none, if_pos live]
        apply tracked.ends move rfl ran (fun _ _ => Iff.rfl) tracked.nodup
        intro engaged
        change ((w.live.startFailed e b).task e).Engaged at engaged
        rw [LiveScheduler.startFailed, LiveScheduler.setTask_self] at engaged
        exact absurd engaged id
      | false =>
        rw [refused] at start
        have ran : attempt (startDelivery env e b) (fun _ => onLive (LiveScheduler.bookkeepingFailed e none b)) w =
            (.ok (), w.started e b) := attempt_run_ok start
        apply tracked.ends move rfl ran
        · intro i other
          change i ∈ ({ w with live := w.live.markedUnwoken e }.addActive e).activeDeliveries ↔ _
          rw [mem_addActive]
          exact or_iff_right other
        · exact addActive_nodup (w := { w with live := w.live.markedUnwoken e }) tracked.nodup e
        · intro _
          refine ⟨?_, started_fresh tracked.shaped⟩
          change e ∈ ({ w with live := w.live.markedUnwoken e }.addActive e).activeDeliveries
          rw [mem_addActive]
          exact Or.inl rfl
    | some r =>
      dsimp only at move ⊢
      obtain ⟨u, ran⟩ : ∃ u, bookkept env e r b (w.addActive e).projected = (.ok (), u) := caught_run _ r _
      have same : (w.addActive e).projected.live = w.live := addActive_live w e
      have booked : attempt (do
          update fun w => w.addActive e
          projectNextWake env .projectStart
          settle env e r b) (fun _ => onLive (LiveScheduler.bookkeepingFailed e (some r) b)) w = (.ok (), u) := by
        rw [← ran]
        unfold bookkept
        apply attempt_run_eq
        rw [update_bind, bind_run_ok (projectNextWake_run rfl calm _)]
      have active : u.activeDeliveries = (w.addActive e).activeDeliveries := by
        have kept := @bookkept_active env (w.addActive e).projected e b r
        rw [ran] at kept
        exact kept
      have projected : Fresh (w.addActive e).projected := by
        apply projected_fresh
        intro i
        rw [addActive_live]
        exact tracked.shaped.live_lt
      apply tracked.ends move rfl booked
      · intro i other
        rw [active, mem_addActive]
        exact or_iff_right other
      · rw [active]
        exact addActive_nodup tracked.nodup e
      · intro engaged
        constructor
        · rw [active, mem_addActive]
          exact Or.inl rfl
        · have kept := @bookkept_fresh env _ e b r projected (by
            intro on
            rw [same] at on ⊢
            exact Or.inl (consistent on))
          rw [ran] at kept
          exact kept engaged
  · rw [if_neg live] at move ⊢
    have left : onLive (update fun s => s.setTask e .done) w = (.ok (), { w with live := w.live.setTask e .done }) := rfl
    rw [left] at move ⊢
    refine ⟨⟨move.shaped tracked.shaped, move.unwoken tracked.shaped tracked.unwoken, ?_, tracked.nodup⟩,
      fresh.same rfl rfl fun _ => Iff.rfl⟩
    intro i
    change i ∈ w.activeDeliveries ↔ ((w.live.setTask e .done).task i).Engaged
    rw [tracked.active]
    by_cases same : i = e
    · rw [same, LiveScheduler.setTask_self, due]
      exact Iff.rfl
    · rw [LiveScheduler.setTask_other same]

theorem deliverySettled_tracked {result : Option AlarmResult} (tracked : Tracked w) (fresh : Fresh w)
    (due : w.live.task e = .delivering b)
    (move : Move w.live (.deliverySettled e result env) (deliverySettled env e result b false w).2.live) :
    Tracked (deliverySettled env e result b false w).2 ∧ Fresh (deliverySettled env e result b false w).2 := by
  obtain ⟨u, ran⟩ : ∃ u, bookkept env e (LiveScheduler.runAlarmGuarded result) b w = (.ok (), u) := caught_run _ _ _
  have active := @bookkept_active env w e b (LiveScheduler.runAlarmGuarded result)
  have member : e ∈ w.activeDeliveries := by
    rw [tracked.active, due]
    trivial
  rw [ran] at active
  change u.activeDeliveries = w.activeDeliveries at active
  apply tracked.ends move rfl ran
  · intro i _
    rw [active]
  · rw [active]
    exact tracked.nodup
  · intro engaged
    rw [active]
    refine ⟨member, ?_⟩
    have kept := @bookkept_fresh env _ e b (LiveScheduler.runAlarmGuarded result) fresh (by
      intro live
      have consistent := tracked.shaped.consistent e live
      rw [due] at consistent
      exact Or.inr ⟨consistent, tracked.unwoken e ⟨b, due⟩, member⟩)
    rw [ran] at kept
    exact kept engaged

theorem reported_idle {s t : LiveScheduler} {answer : Option (Option Float)} {r : AlarmResult}
    (outcome : LiveScheduler.Reported s env e answer r b t) : ¬ (t.task e).Engaged := by
  cases outcome with
  | promote queued =>
    rw [LiveScheduler.promoted, LiveScheduler.setTask_self]
    exact id
  | newer newer =>
    rw [LiveScheduler.promoted, LiveScheduler.setTask_self]
    exact id
  | forget =>
    rw [LiveScheduler.forgotten, LiveScheduler.setTask_self]
    exact id
  | postpone =>
    rw [LiveScheduler.postponed, LiveScheduler.setTask_self]
    exact id
  | newerPostponed newer =>
    rw [LiveScheduler.postponed, LiveScheduler.setTask_self]
    exact id

theorem abandonSettled_idle {s : LiveScheduler} (shaped : Shaped s) {r : AlarmResult} (due : s.task e = .abandoning r b)
    (answer : Option (Option Float)) : ¬ ((LiveScheduler.abandonSettled env e answer r b s).2.task e).Engaged := by
  by_cases live : s.isLive e
  · have consistent := shaped.consistent e live
    rw [due] at consistent
    exact reported_idle (LiveScheduler.report_cases env s live consistent answer r b)
  · cases answer with
    | none => exact bookkeepingFailed_idle s r
    | some newer =>
      have returned : LiveScheduler.abandon env e (some newer) s = (.ok (), s.setTask e .done) := by
        simp only [LiveScheduler.abandon, state_bind, live, Bool.false_eq_true, if_false, update_run]
      unfold LiveScheduler.abandonSettled
      rw [attempt_run_ok returned]
      change ¬ ((s.setTask e .done).task e).Engaged
      rw [LiveScheduler.setTask_self]
      exact id

theorem abandonSettled_tracked {answer : Option (Option Float)} {r : AlarmResult} (tracked : Tracked w)
    (due : w.live.task e = .abandoning r b)
    (move : Move w.live (.abandonSettled e answer env) (abandonSettled env e answer r b false w).2.live) :
    Tracked (abandonSettled env e answer r b false w).2 ∧ Fresh (abandonSettled env e answer r b false w).2 := by
  obtain ⟨u, ran⟩ := caught_run (e := e) (b := b) (abandon env e answer) r w
  have active := @abandon_active env w e b answer r
  have idle := @abandonSettled_idle env e b w.live tracked.shaped r due answer
  have mirrors : Mirrors (attempt (abandon env e answer) fun _ => onLive (LiveScheduler.bookkeepingFailed e (some r) b))
      (LiveScheduler.abandonSettled env e answer r b) := .attempt (.abandon env e answer) fun _ => .onLive _
  have live := (mirrors w).2
  rw [ran] at active live
  change u.activeDeliveries = w.activeDeliveries at active
  apply tracked.ends move rfl ran
  · intro i _
    rw [active]
  · rw [active]
    exact tracked.nodup
  · intro engaged
    rw [← live] at idle
    exact absurd engaged idle

theorem setAlarm_tracked {event : LiveScheduler.Event} {a : String} {time : Float} (tracked : Tracked w) (fresh : Fresh w)
    (calm : ∀ call : Fallible, call.isStatement = false → env.fails call = false) (own : event.entry = none)
    (move : Move w.live event (setAlarm env a time w).2.live) :
    Tracked (setAlarm env a time w).2 ∧ Fresh (setAlarm env a time w).2 := by
  rw [setAlarm_run] at move ⊢
  split
  · exact ⟨tracked, fresh⟩
  · rename_i written
    rw [if_neg written, projectNextWake_run rfl calm] at move
    rw [projectNextWake_run rfl calm]
    exact tracked.project move own

theorem step_tracked {event : Event} (tracked : Tracked w) (fresh : Fresh w) (projects : Projects w event)
    (stepped : w.step event = some u) : Tracked u ∧ Fresh u := by
  have moved := LiveScheduler.step_moves tracked.shaped event.event (step_live stepped)
  obtain ⟨event, cleanupFails⟩ := event
  obtain ⟨calm, cleanup⟩ := projects
  cases cleanup
  cases event <;> simp only [step, Option.some.injEq] at stepped
  case setAlarm a time env =>
    rw [← stepped] at moved ⊢
    exact setAlarm_tracked tracked fresh calm rfl moved
  case deleteAlarm a env =>
    rw [← stepped] at moved ⊢
    rw [deleteAlarm_run] at moved ⊢
    split
    · exact ⟨tracked, fresh⟩
    · rename_i written
      have calm : ∀ call : Fallible, call.isStatement = false → env.fails call = false := calm
      rw [if_neg written, projectNextWake_run rfl calm] at moved
      rw [projectNextWake_run rfl calm]
      exact tracked.project moved rfl
  case deleteAll env =>
    rw [← stepped] at moved ⊢
    rw [deleteAll_run] at moved ⊢
    split
    · exact ⟨tracked, fresh⟩
    · rename_i written
      have calm : ∀ call : Fallible, call.isStatement = false → env.fails call = false := calm
      rw [if_neg written, projectNextWake_run rfl calm] at moved
      rw [projectNextWake_run rfl calm]
      exact tracked.project moved rfl
  case reconcile a stored env =>
    rw [← stepped] at moved ⊢
    unfold reconcile at moved ⊢
    rw [state_bind] at moved ⊢
    cases on : w.live.alarms a with
    | none =>
      simp only [on] at moved ⊢
      exact setAlarm_tracked tracked fresh calm rfl moved
    | some e =>
      simp only [on] at moved ⊢
      split
      · exact ⟨tracked, fresh⟩
      · rename_i late
        rw [if_neg late] at moved
        exact setAlarm_tracked tracked fresh calm rfl moved
  case wake e woken env =>
    cases due : w.live.task e <;> rw [due] at stepped <;> try cases stepped
    rename_i completed b
    obtain ⟨_, stepped⟩ := Option.ite_none_right_eq_some.1 stepped
    cases stepped
    exact wake_tracked tracked fresh calm due moved
  case deliverySettled e result env =>
    cases due : w.live.task e <;> rw [due] at stepped <;> cases stepped
    exact deliverySettled_tracked tracked fresh due moved
  case abandonSettled e answer env =>
    cases due : w.live.task e <;> rw [due] at stepped <;> cases stepped
    exact abandonSettled_tracked tracked due moved

theorem opened_tracked {s : LiveScheduler} (is : LiveScheduler.Opened s) : Tracked (opened s) ∧ Fresh (opened s) := by
  have shaped := is.shaped
  obtain ⟨now, jitter, rows, loaded, _, _, rfl⟩ := is
  have asleep : ∀ e, ¬ ((LiveScheduler.loaded loaded).task e).Engaged := by
    intro e
    unfold LiveScheduler.loaded
    dsimp only
    split <;> exact id
  refine ⟨⟨shaped, ?_, ?_, List.nodup_nil⟩, projected_fresh fun i => shaped.live_lt⟩
  · rintro e ⟨b, delivering⟩
    have idle := asleep e
    change (LiveScheduler.loaded loaded).task e = _ at delivering
    rw [delivering] at idle
    exact absurd trivial idle
  · intro e
    exact iff_of_false (by simp [opened, projected]) (asleep e)

/-- While `projectWake` does not throw, what it was last told is the number of deliveries that are not over and the
    earliest of their times and of the wakes of the map. -/
theorem projected_wake_covers {s : LiveScheduler} (is : LiveScheduler.Opened s)
    (reached : Reaches step Projects (opened s) w) :
    (∃ earliest, w.projections.getLast? = some (earliest, w.activeDeliveries.length) ∧ IsEarliest w.Due earliest) ∧
      w.activeDeliveries.Nodup ∧ ∀ e, e ∈ w.activeDeliveries ↔ (w.live.task e).Engaged := by
  obtain ⟨tracked, fresh⟩ := reached.invariant (P := fun w => Tracked w ∧ Fresh w) (opened_tracked is)
    fun _ _ _ kept projects stepped => step_tracked kept.1 kept.2 projects stepped
  exact ⟨fresh, tracked.nodup, tracked.active⟩

theorem step_wake {completed : Option AlarmResult} {woken : Float} (env : Env) (cleanupFails : Bool)
    (due : w.live.task e = .sleeping completed b) (time : (w.live.entry e).scheduledTime ≤ woken) :
    w.step ⟨.wake e woken env, cleanupFails⟩ = some (wake env e completed b cleanupFails w).2 := by
  simp only [step, due, time, true_or, if_true]

/-- A delivery whose alarm is deleted stays projected. -/
theorem projected_wake_covers_deleted : ∃ w, Reaches step Projects (opened LiveScheduler.empty) w ∧
    w.live.alarms "a" = none ∧ IsEarliest w.Due (some 0) := by
  have calm : ∀ event : LiveScheduler.Event, event.env = LiveScheduler.calm → ∀ w, Projects w ⟨event, false⟩ := by
    intro event is w
    refine ⟨?_, rfl⟩
    intro call _
    change event.env.fails call = false
    rw [is]
    rfl
  have start : Reaches step Projects (opened LiveScheduler.empty) (opened LiveScheduler.empty) := .refl
  have set := start.then ⟨.setAlarm "a" 0 LiveScheduler.calm, false⟩ (calm _ rfl _) rfl
  have woken := set.then ⟨.wake 0 0 LiveScheduler.calm, false⟩ (calm _ rfl _)
    (step_wake (b := 0) LiveScheduler.calm false rfl LiveScheduler.zero_due)
  have deleted := woken.then ⟨.deleteAll LiveScheduler.calm, false⟩ (calm _ rfl _) rfl
  obtain ⟨⟨earliest, last, is⟩, _⟩ := projected_wake_covers LiveScheduler.empty_opened deleted
  refine ⟨_, deleted, rfl, ?_⟩
  have told := last.symm.trans (show _ = some ((some 0 : Option Float), 1) from rfl)
  rw [(Prod.mk.inj (Option.some.inj told)).1] at is
  exact is

end Freshness

end WatchedScheduler

end DoRuntime.Alarms
