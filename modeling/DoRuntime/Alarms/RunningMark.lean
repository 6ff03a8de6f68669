import DoRuntime.Alarms.Frame
import DoRuntime.Alarms.SerialDelivery

namespace DoRuntime.Alarms

open DoRuntime.Js DoRuntime.Sql Transition

/-- `running = 1` -/
def AlarmRow.IsRunning (row : AlarmRow) : Prop := row.running = bindNumber .integer (some (Float.ofNat 1))

namespace LiveScheduler

/-- A delivery whose result is still to be processed has its mark in the row of its actor. -/
def InFlightMarked (s : LiveScheduler) : Prop :=
  ∀ e, s.Unprocessed e → ∀ row, rowOf s.rows (s.entry e).actorId = some row → row.IsRunning

/-- No row is written for an actor that has none while a delivery of it is unprocessed. -/
def RowsKept (s : LiveScheduler) : Event → Prop
  | .setAlarm a _ env => env.fails .setAlarm = false →
      ∀ e, s.Unprocessed e → (s.entry e).actorId = a → rowOf s.rows a ≠ none
  | .reconcile a stored env => env.fails .setAlarm = false → s.Covers a stored = false →
      ∀ e, s.Unprocessed e → (s.entry e).actorId = a → rowOf s.rows a ≠ none
  | .abandonSettled e (some (some _)) env => s.isLive e = true → (s.entry e).queuedAlarm = none →
      env.fails .setAlarm = false → env.fails .clearRunning = true ∨ env.fails .projectSet = true →
      rowOf s.rows (s.entry e).actorId ≠ none
  | _ => True

/-- What holds of an actor: the mark, and that a delivery off the map leaves nothing else of it. -/
structure Marked (a : String) (s : LiveScheduler) : Prop where
  marks : ∀ e, s.Unprocessed e → (s.entry e).actorId = a → ∀ row, rowOf s.rows a = some row → row.IsRunning
  alone : ∀ e, s.InFlight e → (s.entry e).actorId = a → s.isLive e = true ∨ s.Absent a

section Steps

variable {s t : LiveScheduler} {event : Event} {a : String}

/-- Only the entry on the map has a delivery to process, if there is one. -/
theorem Marked.only (marked : Marked a s) {e i : Nat} (live : s.isLive e = true) (mine : (s.entry e).actorId = a)
    (unprocessed : s.Unprocessed i) (same : (s.entry i).actorId = a) : i = e := by
  have on : s.alarms a = some e := by rw [← mine]; exact (isLive_iff s e).1 live
  have live_i : s.isLive i = true := by
    rcases unprocessed with flying | ⟨live_i, _⟩
    · rcases marked.alone i flying same with live_i | absent
      · exact live_i
      · simp [absent.1] at on
    · exact live_i
  rw [isLive_iff, same, on] at live_i
  exact (Option.some.inj live_i).symm

/-- Where the task of the entry on the map is done with its delivery, nothing is left to process. -/
theorem Marked.settled (marked : Marked a s) (shaped : Shaped s) (move : Move s event t) {e : Nat}
    (live : s.isLive e = true) (mine : (s.entry e).actorId = a) (ended : (t.task e).isBusy = false) : Marked a t := by
  have none_left : ∀ i, t.Unprocessed i → (t.entry i).actorId ≠ a := by
    intro i unprocessed same
    have made : i < s.next := by
      rcases move.unprocessed shaped unprocessed with before | ⟨live_i, _⟩
      · exact shaped.busy_lt before.busy
      · exact shaped.live_lt live_i
    rw [move.actorId made] at same
    have only : i = e := by
      rcases move.unprocessed shaped unprocessed with before | ⟨live_i, _⟩
      · exact marked.only live mine before same
      · rw [isLive_iff] at live live_i
        rw [same, ← mine, live] at live_i
        exact (Option.some.inj live_i).symm
    subst only
    rw [unprocessed.busy] at ended
    cases ended
  exact ⟨fun i unprocessed same => absurd same (none_left i unprocessed),
    fun i flying same => absurd same (none_left i (.inl flying))⟩

/-- A step that keeps the rows and the map, and starts nothing. -/
theorem Marked.kept (marked : Marked a s) (row : rowOf t.rows a = rowOf s.rows a) (alarms : t.alarms = s.alarms)
    (named : ∀ i, (t.entry i).actorId = (s.entry i).actorId)
    (before : ∀ i, t.Unprocessed i → s.Unprocessed i) (flew : ∀ i, t.InFlight i → s.InFlight i) : Marked a t := by
  refine ⟨?_, ?_⟩
  · intro i unprocessed same
    rw [named] at same
    rw [row]
    exact marked.marks i (before i unprocessed) same
  · intro i flying same
    rw [named] at same
    rcases marked.alone i (flew i flying) same with live | absent
    · left
      rwa [isLive_iff, named, alarms, ← isLive_iff]
    · exact .inr ⟨alarms ▸ absent.1, row.trans absent.2⟩

theorem Marked.frame (shaped : Shaped s) (marked : Marked a s) (move : Move s event t) (same : SameFor a s t)
    (apart : ¬ event.Touches s a) : Marked a t := by
  have back : ∀ i, t.Unprocessed i → (t.entry i).actorId = a → s.Unprocessed i ∧ (s.entry i).actorId = a := by
    intro i unprocessed mine
    rcases move.unprocessed shaped unprocessed with before | ⟨live, _, woken, env, rfl⟩
    · rw [move.actorId (shaped.busy_lt before.busy)] at mine
      exact ⟨before, mine⟩
    · rw [move.actorId (shaped.live_lt live)] at mine
      exact absurd mine apart
  refine ⟨?_, ?_⟩
  · intro i unprocessed mine
    obtain ⟨before, mine⟩ := back i unprocessed mine
    rw [same.row]
    exact marked.marks i before mine
  · intro i flying mine
    obtain ⟨_, before⟩ := back i (.inl flying) mine
    have flew : s.InFlight i := by
      rcases move.inFlight flying with flew | ⟨_, _, woken, env, rfl⟩
      · exact flew
      · exact absurd before apart
    rcases marked.alone i flew before with live | absent
    · left
      rw [isLive_iff, before] at live
      rw [isLive_iff, mine, same.alarms, live]
    · exact .inr ⟨same.alarms.trans absent.1, same.row.trans absent.2⟩

theorem Marked.set (marked : Marked a s) (shaped : Shaped s) (time : Float)
    (present : ∀ e, s.Unprocessed e → (s.entry e).actorId = a → rowOf s.rows a ≠ none) : Marked a (s.set a time) := by
  have move : Move s (.setAlarm a time calm) (s.set a time) := .setAlarm a time calm rfl
  have back : ∀ i, (s.set a time).Unprocessed i → ((s.set a time).entry i).actorId = a →
      s.Unprocessed i ∧ (s.entry i).actorId = a := by
    intro i unprocessed mine
    rcases move.unprocessed shaped unprocessed with before | ⟨_, _, _, _, woke⟩
    · rw [set_actorId _ _ (shaped.busy_lt before.busy)] at mine
      exact ⟨before, mine⟩
    · cases woke
  refine ⟨?_, ?_⟩
  · intro i unprocessed mine row found
    obtain ⟨before, mine⟩ := back i unprocessed mine
    obtain ⟨old, held⟩ := Option.ne_none_iff_exists'.1 (present i before mine)
    rw [set_rows, rowOf_upsertAlarm, if_pos rfl, held] at found
    rw [← Option.some.inj found]
    exact marked.marks i before mine old held
  · intro i flying mine
    obtain ⟨before, mine⟩ := back i (.inl flying) mine
    have flew : s.InFlight i := (move.inFlight flying).resolve_right fun woke => by
      obtain ⟨_, _, _, _, woke⟩ := woke
      cases woke
    rcases marked.alone i flew mine with live | absent
    · obtain ⟨b, delivering⟩ := flew
      have started := shaped.consistent i live
      rw [delivering] at started
      rw [← mine]
      exact .inl (set_live live (by simp [show (s.entry i).status = .started from started]) time)
    · exact absurd absent.2 (present i before mine)

theorem Marked.postponed (marked : Marked a s) (shaped : Shaped s) {e b : Nat} {r : AlarmResult}
    (live : s.isLive e = true) (due : s.task e = .abandoning r b) : Marked a (s.postponed e r b) := by
  have move : Move s (.abandonSettled e none calm) (s.postponed e r b) :=
    .report e none calm r b live due (.postpone (.inl rfl))
  refine marked.kept rfl rfl (fun i => postponed_actorId e r b i) ?_ ?_
  · intro i unprocessed
    rcases move.unprocessed shaped unprocessed with before | ⟨_, _, _, _, woke⟩
    · exact before
    · cases woke
  · intro i flying
    rcases move.inFlight flying with before | ⟨_, _, _, _, woke⟩
    · exact before
    · cases woke

theorem Move.marked (shaped : Shaped s) (marked : Marked a s) (move : Move s event t) (admitted : s.RowsKept event) :
    Marked a t := by
  by_cases touched : event.Touches s a
  · cases move with
    | idle => exact marked
    | setAlarm x time env written =>
      obtain rfl : x = a := touched
      exact marked.set shaped time (admitted written)
    | reconcile x time env written late =>
      obtain rfl : x = a := touched
      exact marked.set shaped time (admitted written late)
    | deleteAlarm x =>
      obtain rfl : x = a := touched
      refine ⟨fun i _ _ row found => ?_, ?_⟩
      · rw [cancel_rows, rowOf_deleteRow, if_pos rfl] at found
        cases found
      · intro i flying mine
        have flew := (Move.deleteAlarm (s := s) x calm).inFlight flying
        have flew : s.InFlight i := flew.resolve_right fun woke => by
          obtain ⟨_, _, _, _, woke⟩ := woke
          cases woke
        rw [cancel_actorId x (shaped.inFlight_lt flew)] at mine
        rcases marked.alone i flew mine with live | absent
        · obtain ⟨b, delivering⟩ := flew
          have started := shaped.consistent i live
          rw [delivering] at started
          rw [← mine]
          exact .inl (cancel_running live started)
        · exact .inr (Move.absent shaped (.deleteAlarm x calm) absent id).1
    | deleteAll => exact ⟨fun _ _ _ row found => (by cases found), fun _ _ _ => .inr ⟨rfl, rfl⟩⟩
    | ended _ e on gone =>
      have whole := Move.ended event e on gone
      have dead : ∀ i, s.isLive i = true → (∃ woken env, event = .wake i woken env) → False := by
        rintro i live ⟨woken, env, rfl⟩
        obtain rfl : i = e := Option.some.inj on
        simp [live] at gone
      refine marked.kept rfl rfl (fun _ => rfl) ?_ ?_
      · intro i unprocessed
        exact (whole.unprocessed shaped unprocessed).resolve_right fun ⟨live, _, woke⟩ => dead i live woke
      · intro i flying
        exact (whole.inFlight flying).resolve_right fun ⟨live, _, woke⟩ => dead i live woke
    | start e woken env b live due =>
      have whole := Move.start e woken env b live due
      refine ⟨?_, ?_⟩
      · intro i _ _ row found
        change rowOf (updateRow s.rows _ fun row => row.setRunning 1) a = some row at found
        rw [rowOf_setRunning, touched, if_pos rfl, Option.map_eq_some_iff] at found
        obtain ⟨old, _, rfl⟩ := found
        rfl
      · intro i flying mine
        left
        rcases whole.inFlight flying with flew | ⟨live_i, _⟩
        · rw [whole.actorId (shaped.inFlight_lt flew)] at mine
          obtain rfl := marked.only live touched (.inl flew) mine
          rw [isLive_iff, whole.actorId (shaped.inFlight_lt flew)]
          exact (isLive_iff s i).1 live
        · rw [isLive_iff, whole.actorId (shaped.live_lt live_i)]
          exact (isLive_iff s i).1 live_i
    | startFailed e woken env b live due failed =>
      have whole := Move.startFailed e woken env b live due failed
      have asleep : ((s.startFailed e b).task e).isBusy = false := by rw [LiveScheduler.startFailed, setTask_self]; rfl
      exact marked.settled shaped whole live touched asleep
    | markedFailed e woken env b live due failed =>
      have whole := Move.markedFailed e woken env b live due failed
      exact marked.settled shaped whole live touched (by rw [markedFailed_eq, setTask_self]; rfl)
    | settle _ e on r b live due outcome =>
      have mine : (s.entry e).actorId = a := by
        cases event <;> cases on <;> exact touched
      have whole := Move.settle event e on r b live due outcome
      have taken : ∀ i, ¬ (s.isLive i = true ∧ (∃ b, s.task i = .sleeping none b) ∧
          ∃ woken env, event = .wake i woken env) := by
        rintro i ⟨_, ⟨b', asleep⟩, woken, env, rfl⟩
        obtain rfl : i = e := Option.some.inj on
        rcases due with due | due <;> simp [due] at asleep
      cases outcome with
      | promote => exact marked.settled shaped whole live mine (by rw [promoted, setTask_self]; rfl)
      | retry => exact marked.settled shaped whole live mine (by rw [retried, setTask_self]; rfl)
      | giveUp alone =>
        refine marked.kept rfl rfl (fun i => finished_actorId s e i) ?_ ?_
        · exact fun i unprocessed => (whole.unprocessed shaped unprocessed).resolve_right (taken i)
        · exact fun i flying => (whole.inFlight flying).resolve_right (taken i)
      | finish => exact marked.settled shaped whole live mine (by rw [forgotten, setTask_self]; rfl)
      | postpone =>
        refine marked.kept rfl rfl (fun i => postponed_actorId e r b i) ?_ ?_
        · exact fun i unprocessed => (whole.unprocessed shaped unprocessed).resolve_right (taken i)
        · exact fun i flying => (whole.inFlight flying).resolve_right (taken i)
    | report e answer env r b live due outcome =>
      have whole := Move.report e answer env r b live due outcome
      cases outcome with
      | promote => exact marked.settled shaped whole live touched (by rw [promoted, setTask_self]; rfl)
      | newer => exact marked.settled shaped whole live touched (by rw [promoted, setTask_self]; rfl)
      | forget => exact marked.settled shaped whole live touched (by rw [forgotten, setTask_self]; rfl)
      | postpone => exact marked.postponed shaped live due
      | newerPostponed newer alone told written failed =>
        subst told touched
        have present := admitted live alone written failed
        have ended := shaped.consistent e live
        rw [due] at ended
        have begun : (s.entry e).status ≠ .waiting := by simp [show (s.entry e).status = .finished from ended]
        have set := marked.set shaped newer fun _ _ _ => present
        refine set.postponed (shaped.set _ newer) (set_live live begun newer) ?_
        rw [set_queues s live begun]
        exact due
  · exact marked.frame shaped move (move.frame shaped touched) touched

end Steps

theorem opened_idle {s : LiveScheduler} (opened : Opened s) (e : Nat) : (s.task e).isBusy = false := by
  obtain ⟨_, _, _, built, _, _, rfl⟩ := opened
  simp only [loaded]
  split <;> rfl

theorem opened_marked {s : LiveScheduler} (opened : Opened s) (a : String) : Marked a s := by
  have idle : ∀ e, ¬ s.Unprocessed e := by
    intro e unprocessed
    have busy := unprocessed.busy
    rw [opened_idle opened e] at busy
    cases busy
  exact ⟨fun e unprocessed => absurd unprocessed (idle e), fun e flying => absurd (.inl flying) (idle e)⟩

/-- In every run in which no row is written for an actor without one while a delivery of it is
    unprocessed, the row of such an actor is marked. -/
theorem running_mark_kept {s₀ s : LiveScheduler} (opened : Opened s₀) (reached : Reaches step RowsKept s₀ s) :
    s.InFlightMarked := by
  have kept := reached.invariant (P := fun s => Shaped s ∧ ∀ a, Marked a s)
    ⟨opened.shaped, opened_marked opened⟩ ?_
  · exact fun e unprocessed row found => (kept.2 _).marks e unprocessed rfl row found
  · intro s event t kept admitted stepped
    have move := step_moves kept.1 event stepped
    exact ⟨move.shaped kept.1, fun a => move.marked kept.1 (kept.2 a) admitted⟩

/-- An alarm set again while its delivery goes on. -/
theorem running_mark_kept_queued : ∃ s : LiveScheduler, Reaches step RowsKept empty s ∧ s.InFlight 0 ∧
    rowOf s.rows "a" ≠ none ∧ s.InFlightMarked := by
  have none_flies : ∀ e, ¬ empty.Unprocessed e := by
    intro e unprocessed
    have busy := unprocessed.busy
    rw [opened_idle empty_opened e] at busy
    cases busy
  have start : Reaches step RowsKept empty empty := .refl
  have set := start.then (.setAlarm "a" 0 calm) (fun _ e unprocessed => absurd unprocessed (none_flies e)) rfl
  have woken := set.then (.wake 0 0 calm) trivial (step_wake (b := 0) calm rfl zero_due)
  have again := woken.then (.setAlarm "a" 5 calm) (fun _ _ _ _ => by decide) rfl
  exact ⟨_, again, ⟨0, rfl⟩, by decide, running_mark_kept empty_opened again⟩

/-- A row deleted and set again while its delivery goes on is not marked. -/
theorem reset_row_unmarked : ¬ ∀ s₀ s, Opened s₀ → Reaches step (fun _ _ => True) s₀ s → s.InFlightMarked := by
  intro marked
  have unmarked := marked empty _ empty_opened
    (.head (.setAlarm "a" 0 calm) trivial rfl <|
    .head (.wake 0 0 calm) trivial (step_wake (b := 0) calm rfl zero_due) <|
    .head (.deleteAlarm "a" calm) trivial rfl <|
    .head (.setAlarm "a" 0 calm) trivial rfl .refl)
  have one := unmarked 0 (.inl ⟨0, rfl⟩) (AlarmScheduler.freshRow "a" 0) rfl
  cases one

end LiveScheduler

end DoRuntime.Alarms
