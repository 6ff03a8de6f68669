import DoRuntime.Alarms.Entries

namespace DoRuntime.Alarms

section Rows

variable {rows : List AlarmRow} {a x : String}

theorem rowOf_actorId {row : AlarmRow} (found : rowOf rows a = some row) : row.actorId = a := by
  simpa using List.find?_some found

theorem rowOf_updateRow (rows : List AlarmRow) (a : String) {f : AlarmRow → AlarmRow}
    (same : ∀ row, row.actorId = a → (f row).actorId = a) :
    rowOf (updateRow rows a f) x = if x = a then (rowOf rows a).map f else rowOf rows x := by
  induction rows with
  | nil => simp [rowOf, updateRow]
  | cons row rest ih =>
    simp only [rowOf, updateRow, List.map_cons, List.find?_cons] at ih ⊢
    by_cases mine : row.actorId = a
    · by_cases wanted : x = a
      · simp [mine, wanted, same row mine]
      · simpa [mine, wanted, same row mine, Ne.symm wanted] using ih
    · by_cases wanted : x = a
      · subst wanted
        simpa [mine] using ih
      · by_cases his : row.actorId = x
        · simp [his, wanted]
        · simpa [mine, wanted, his] using ih

theorem rowOf_setRunning (rows : List AlarmRow) (a : String) (running : Nat) :
    rowOf (updateRow rows a fun row => row.setRunning running) x =
      if x = a then (rowOf rows a).map fun row => row.setRunning running else rowOf rows x :=
  rowOf_updateRow rows a fun _ mine => mine

theorem rowOf_saveRetry (rows : List AlarmRow) (a : String) (retryTime : Float) (backoff countedRetry : Nat)
    (counted : Bool) :
    rowOf (updateRow rows a fun row => row.saveRetry retryTime backoff countedRetry counted) x =
      if x = a then (rowOf rows a).map fun row => row.saveRetry retryTime backoff countedRetry counted
      else rowOf rows x :=
  rowOf_updateRow rows a fun _ mine => mine

theorem rowOf_deleteRow : rowOf (deleteRow rows a) x = if x = a then none else rowOf rows x := by
  induction rows with
  | nil => simp [rowOf, deleteRow]
  | cons row rest ih =>
    simp only [rowOf, deleteRow, List.filter_cons, List.find?_cons] at ih ⊢
    by_cases mine : row.actorId = a
    · by_cases wanted : x = a
      · simpa [mine, wanted] using ih
      · simpa [mine, wanted, Ne.symm wanted] using ih
    · by_cases wanted : x = a
      · subst wanted
        simpa [mine, List.find?_cons] using ih
      · by_cases his : row.actorId = x
        · simp [his, wanted]
        · simpa [mine, wanted, his, List.find?_cons] using ih

/-- The row of an actor after an upsert for it. -/
def upserted (old : Option AlarmRow) (a : String) (time : Float) : AlarmRow :=
  match old with
  | none => AlarmScheduler.freshRow a time
  | some old => { AlarmScheduler.freshRow a time with running := old.running }

theorem rowOf_upsertAlarm (time : Float) : rowOf (AlarmScheduler.upsertAlarm rows a time) x =
    if x = a then some (upserted (rowOf rows a) a time) else rowOf rows x := by
  unfold AlarmScheduler.upsertAlarm
  cases found : rows.find? (·.actorId = a) with
  | none =>
    by_cases wanted : x = a
    · simp [rowOf, wanted, List.find?_append, found, upserted, AlarmScheduler.freshRow]
    · simp [rowOf, wanted, List.find?_append, AlarmScheduler.freshRow, Ne.symm wanted]
  | some old =>
    have updated := rowOf_updateRow (x := x) rows a
      (f := fun row => { AlarmScheduler.freshRow a time with running := row.running }) fun _ _ => rfl
    rw [updateRow] at updated
    rw [updated, rowOf, found]
    rfl

end Rows

namespace LiveScheduler

/-- The `deliverAlarm` calls for an actor. -/
def deliveriesOf (s : LiveScheduler) (a : String) : List (String × Float × Nat) :=
  s.delivered.filter (·.1 = a)

/-- Nothing that concerns the actor differs. -/
structure SameFor (a : String) (s t : LiveScheduler) : Prop where
  alarms : t.alarms a = s.alarms a
  row : rowOf t.rows a = rowOf s.rows a
  next : s.next ≤ t.next
  entries : ∀ i < s.next, (s.entry i).actorId = a → t.entry i = s.entry i ∧ t.task i = s.task i ∧
    t.dropped i = s.dropped i ∧ t.unrecorded i = s.unrecorded i
  delivered : t.deliveriesOf a = s.deliveriesOf a

section Frame

variable {a x : String} {s t u : LiveScheduler}

theorem SameFor.refl (a : String) (s : LiveScheduler) : SameFor a s s :=
  ⟨rfl, rfl, Nat.le_refl _, fun _ _ _ => ⟨rfl, rfl, rfl, rfl⟩, rfl⟩

theorem SameFor.trans (first : SameFor a s t) (second : SameFor a t u) : SameFor a s u := by
  refine ⟨second.alarms.trans first.alarms, second.row.trans first.row, first.next.trans second.next, ?_,
    second.delivered.trans first.delivered⟩
  intro i made mine
  obtain ⟨entry, task, dropped, unrecorded⟩ := first.entries i made mine
  obtain ⟨entry', task', dropped', unrecorded'⟩ :=
    second.entries i (Nat.lt_of_lt_of_le made first.next) (entry ▸ mine)
  exact ⟨entry'.trans entry, task'.trans task, dropped'.trans dropped, unrecorded'.trans unrecorded⟩

theorem SameFor.rows {rows : List AlarmRow} (row : rowOf rows a = rowOf s.rows a) : SameFor a s { s with rows } :=
  ⟨rfl, row, Nat.le_refl _, fun _ _ _ => ⟨rfl, rfl, rfl, rfl⟩, rfl⟩

theorem SameFor.schedule (other : a ≠ x) (time : Float) (unrecorded : Bool) :
    SameFor a s (s.schedule x time unrecorded) := by
  refine ⟨by simp [LiveScheduler.schedule, other], rfl, Nat.le_succ _, ?_, rfl⟩
  intro i made _
  simp [LiveScheduler.schedule, Nat.ne_of_lt made]

/-- An entry of another actor changes. -/
theorem SameFor.entry {e : Nat} (other : a ≠ (s.entry e).actorId)
    (rest : ∀ i, i ≠ e → t.entry i = s.entry i ∧ t.task i = s.task i ∧ t.dropped i = s.dropped i ∧
      t.unrecorded i = s.unrecorded i)
    (alarms : t.alarms a = s.alarms a) (row : rowOf t.rows a = rowOf s.rows a) (next : t.next = s.next)
    (delivered : t.deliveriesOf a = s.deliveriesOf a) : SameFor a s t := by
  refine ⟨alarms, row, Nat.le_of_eq next.symm, ?_, delivered⟩
  rintro i _ rfl
  exact rest i fun same => other (same ▸ rfl)

theorem SameFor.setTask {e : Nat} (other : a ≠ (s.entry e).actorId) (task : Task) : SameFor a s (s.setTask e task) := by
  refine SameFor.entry other ?_ rfl rfl rfl rfl
  intro i apart
  simp [LiveScheduler.setTask, apart]

theorem SameFor.setEntry {e : Nat} (other : a ≠ (s.entry e).actorId) (f : ScheduledAlarm → ScheduledAlarm) :
    SameFor a s (s.setEntry e f) := by
  refine SameFor.entry other ?_ rfl rfl rfl rfl
  intro i apart
  simp [LiveScheduler.setEntry, apart]

theorem SameFor.setUnrecorded {e : Nat} (other : a ≠ (s.entry e).actorId) (unrecorded : Bool) :
    SameFor a s (s.setUnrecorded e unrecorded) := by
  refine SameFor.entry other ?_ rfl rfl rfl rfl
  intro i apart
  simp [LiveScheduler.setUnrecorded, apart]

theorem SameFor.set (shaped : Shaped s) (other : a ≠ x) (time : Float) : SameFor a s (s.set x time) := by
  have written : SameFor a s { s with rows := AlarmScheduler.upsertAlarm s.rows x time } :=
    .rows (by rw [rowOf_upsertAlarm, if_neg other])
  refine written.trans ?_
  rw [LiveScheduler.set]
  cases mapped : s.alarms x with
  | none => exact .schedule other time false
  | some e =>
    have named := (shaped.mapped x e mapped).2
    simp only [mapped]
    split
    · exact (SameFor.setEntry (named ▸ other) _).trans
        (.setUnrecorded (by simpa [setEntry_entry_self, named] using other) _)
    · exact .schedule other time false

theorem SameFor.cancel (shaped : Shaped s) (other : a ≠ x) : SameFor a s (s.cancel x) := by
  have written : SameFor a s { s with rows := deleteRow s.rows x } :=
    .rows (by rw [rowOf_deleteRow, if_neg other])
  refine written.trans ?_
  rw [LiveScheduler.cancel]
  cases mapped : s.alarms x with
  | none =>
    simp only [mapped]
    exact .refl _ _
  | some e =>
    have named := (shaped.mapped x e mapped).2
    cases behind : (s.entry e).queuedAlarm with
    | some queued =>
      simp only [mapped, behind]
      split
      · exact (SameFor.setEntry (named ▸ other) _).trans
          (.setUnrecorded (by simpa [setEntry_entry_self, named] using other) _)
      · exact .schedule other queued true
    | none =>
      simp only [mapped, behind]
      split
      · refine SameFor.entry (e := e) (named ▸ other) (fun _ _ => ⟨rfl, rfl, rfl, rfl⟩) ?_ rfl rfl rfl
        simp [other]
      · exact .setUnrecorded (named ▸ other) _

theorem set_rows (x : String) (time : Float) : (s.set x time).rows = AlarmScheduler.upsertAlarm s.rows x time := by
  rw [LiveScheduler.set]
  cases s.alarms x with
  | none => rfl
  | some e =>
    dsimp only
    split <;> rfl

theorem cancel_rows (x : String) : (s.cancel x).rows = deleteRow s.rows x := by
  rw [LiveScheduler.cancel]
  cases s.alarms x with
  | none => rfl
  | some e =>
    dsimp only
    cases (s.entry e).queuedAlarm <;> dsimp only <;> split <;> rfl

theorem SameFor.updateRow {f : AlarmRow → AlarmRow} (other : a ≠ x) (same : ∀ row, row.actorId = x → (f row).actorId = x) :
    SameFor a s { s with rows := Alarms.updateRow s.rows x f } :=
  .rows (by rw [rowOf_updateRow _ _ same, if_neg other])

theorem SameFor.promoted {e : Nat} (other : a ≠ (s.entry e).actorId) (made : e < s.next) (queued : Float) :
    SameFor a s (s.promoted e queued) := by
  have cleared : SameFor a s
      { s with rows := Alarms.updateRow s.rows (s.entry e).actorId fun row => row.setRunning 0 } :=
    .updateRow other fun _ mine => mine
  refine cleared.trans ((SameFor.schedule other queued false).trans (.setTask ?_ _))
  have owner := promoted_actorId e queued made
  exact fun same => other (same.trans owner)

theorem SameFor.postponed {e : Nat} (other : a ≠ (s.entry e).actorId) (r : AlarmResult) (b : Nat) :
    SameFor a s (s.postponed e r b) :=
  (SameFor.setEntry other _).trans (.setTask (by simpa [setEntry_entry_self] using other) _)

theorem SameFor.forgotten (shaped : Shaped s) {e : Nat} (other : a ≠ (s.entry e).actorId) (made : e < s.next) :
    SameFor a s (s.forgotten e) := by
  refine (SameFor.cancel shaped other).trans (.setTask ?_ _)
  rw [cancel_actorId _ made]
  exact other

/-- The event concerns the actor. -/
def Event.Touches (s : LiveScheduler) (a : String) : Event → Prop
  | .setAlarm x _ _ | .deleteAlarm x _ | .reconcile x _ _ => x = a
  | .deleteAll _ => True
  | .wake e _ _ | .deliverySettled e _ _ | .abandonSettled e _ _ => (s.entry e).actorId = a

/-- A step leaves alone what it does not concern. -/
theorem Move.frame {event : Event} (shaped : Shaped s) (move : Move s event t) (apart : ¬ event.Touches s a) :
    SameFor a s t := by
  have resumed : ∀ e, event.entry = some e → a ≠ (s.entry e).actorId := by
    rintro e on rfl
    cases event <;> cases on <;> exact apart rfl
  cases move with
  | idle => exact .refl a s
  | setAlarm x time => exact .set shaped (Ne.symm apart) time
  | reconcile x time => exact .set shaped (Ne.symm apart) time
  | deleteAlarm x => exact .cancel shaped (Ne.symm apart)
  | deleteAll => exact absurd trivial apart
  | ended _ e on => exact .setTask (resumed e on) _
  | start e =>
    have other := resumed e rfl
    refine .entry other ?_ rfl ?_ rfl ?_
    · intro i different
      simp [started, LiveScheduler.setTask, different, markedUnwoken, marked, LiveScheduler.setEntry]
    · exact (SameFor.updateRow (s := s) (f := fun row => row.setRunning 1) other fun _ mine => mine).row
    · simp [started, LiveScheduler.setTask, deliveriesOf, markedUnwoken, marked, LiveScheduler.setEntry,
        Ne.symm other]
  | startFailed e =>
    refine .entry (resumed e rfl) ?_ rfl rfl rfl rfl
    intro i different
    simp [LiveScheduler.startFailed, LiveScheduler.setTask, different, LiveScheduler.setEntry]
  | markedFailed e _ _ b =>
    have other := resumed e rfl
    rw [markedFailed_eq]
    refine .entry other ?_ rfl ?_ rfl rfl
    · intro i different
      simp [LiveScheduler.setTask, different, marked, LiveScheduler.setEntry]
    · exact (SameFor.updateRow (s := s) (f := fun row => row.setRunning 1) other fun _ mine => mine).row
  | settle _ e on r b live _ outcome =>
    have other := resumed e on
    have made := shaped.live_lt live
    cases outcome with
    | promote queued _ => exact .promoted other made queued
    | retry =>
      rw [retried_eq]
      refine .entry other ?_ rfl ?_ rfl rfl
      · intro i different
        simp [LiveScheduler.setTask, different, LiveScheduler.setEntry]
      · exact (SameFor.updateRow (s := s) (f := fun row => row.saveRetry _ _ _ _) other fun _ mine => mine).row
    | giveUp =>
      refine .entry other ?_ rfl rfl rfl rfl
      intro i different
      simp [givenUp, finished, LiveScheduler.setTask, different, LiveScheduler.setEntry]
    | finish alone =>
      rw [forgotten, cancel_ended (by rw [finished_isLive, live]) (by rw [finished_entry_self]; exact alone)
        (by rw [finished_entry_self]; simp), finished_actorId]
      refine .entry other ?_ ?_ ?_ rfl rfl
      · intro i different
        simp [finished, LiveScheduler.setTask, different, LiveScheduler.setEntry]
      · simp [LiveScheduler.setTask, other, finished, LiveScheduler.setEntry]
      · change rowOf (deleteRow s.rows (s.entry e).actorId) a = _
        rw [rowOf_deleteRow, if_neg other]
    | postpone => exact .postponed other r b
  | report e _ _ r b live _ outcome =>
    have other := resumed e rfl
    have made := shaped.live_lt live
    cases outcome with
    | promote queued _ => exact .promoted other made queued
    | newer newer _ _ =>
      have owner := set_actorId (s.entry e).actorId newer made
      exact (SameFor.set shaped other newer).trans
        (.promoted (fun same => other (same.trans owner)) (Nat.lt_of_lt_of_le made (set_next _ newer)) newer)
    | forget => exact .forgotten shaped other made
    | postpone => exact .postponed other r b
    | newerPostponed newer _ _ _ _ =>
      have owner := set_actorId (s.entry e).actorId newer made
      exact (SameFor.set shaped other newer).trans (.postponed (fun same => other (same.trans owner)) r b)

/-- Nothing of the actor is on the map or in the table. -/
def Absent (s : LiveScheduler) (a : String) : Prop := s.alarms a = none ∧ rowOf s.rows a = none

/-- The event sets an alarm for the actor from outside. -/
def Event.Sets (a : String) : Event → Prop
  | .setAlarm x _ _ | .reconcile x _ _ => x = a
  | _ => False

theorem cancel_delivered (x : String) : (s.cancel x).delivered = s.delivered := by
  rw [LiveScheduler.cancel]
  cases s.alarms x with
  | none => rfl
  | some e =>
    dsimp only
    cases (s.entry e).queuedAlarm <;> dsimp only <;> split <;> rfl

/-- What is absent stays so, and is not delivered, until it is set. -/
theorem Move.absent {event : Event} (shaped : Shaped s) (move : Move s event t) (absent : s.Absent a)
    (unset : ¬ event.Sets a) : t.Absent a ∧ t.deliveriesOf a = s.deliveriesOf a := by
  by_cases touched : event.Touches s a
  · have apart : ∀ e, s.isLive e = true → (s.entry e).actorId ≠ a := by
      rintro e live rfl
      rw [isLive_iff, absent.1] at live
      cases live
    cases move with
    | idle => exact ⟨absent, rfl⟩
    | setAlarm => exact absurd touched unset
    | reconcile => exact absurd touched unset
    | deleteAlarm x =>
      obtain rfl : x = a := touched
      refine ⟨⟨by simp [LiveScheduler.cancel, absent.1], ?_⟩, by rw [deliveriesOf, cancel_delivered, deliveriesOf]⟩
      rw [cancel_rows, rowOf_deleteRow, if_pos rfl]
    | deleteAll => exact ⟨⟨rfl, rfl⟩, rfl⟩
    | ended => exact ⟨absent, rfl⟩
    | start e _ _ _ live => exact absurd touched (apart e live)
    | startFailed e _ _ _ live => exact absurd touched (apart e live)
    | markedFailed e _ _ _ live => exact absurd touched (apart e live)
    | settle _ e on _ _ live =>
      cases event <;> cases on <;> exact absurd touched (apart e live)
    | report e _ _ _ _ live => exact absurd touched (apart e live)
  · have same := move.frame shaped touched
    exact ⟨⟨same.alarms.trans absent.1, same.row.trans absent.2⟩, same.delivered⟩

end Frame

end LiveScheduler

end DoRuntime.Alarms
