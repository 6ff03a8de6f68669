import DoRuntime.Alarms.Climbing

namespace DoRuntime.Alarms.LiveScheduler

open DoRuntime.Js DoRuntime.Sql Prog Transition

section Climbing

variable {s t : LiveScheduler} {event : Event} {a : String} {f : Followed} {l : Ladder}

theorem loaded_accepted {now : Float} {jitter : Nat → Nat} {rows : List AlarmRow} {built : AlarmScheduler}
    (constructed : AlarmScheduler.construct now jitter rows = .ok built)
      (keyed : (rows.map AlarmRow.actorId).Nodup)
    (clock : ClockSafe now jitter) : Accepted (loaded built).rows := by
  intro row member
  have found := rowOf_of_keyed (loaded_keyed constructed keyed) member
  obtain ⟨absent, present⟩ := construct_find constructed row.actorId
  change rowOf built.rows row.actorId = some row at found
  cases held : rowOf rows row.actorId with
  | none =>
    rw [(absent held).2] at found
    cases found
  | some old =>
    obtain ⟨out, turn, -, left⟩ := present old held
    obtain rfl : out.1 = row := Option.some.inj (left.symm.trans found)
    obtain ⟨persisted, read, -⟩ := (loadRow_describes turn clock).1.state
    exact ⟨persisted, read⟩

/-- The entry is not to wake before the time of its alarm. -/
def NotEarly (alarm : ScheduledAlarm) : Prop :=
  ∃ w wake time, alarm.wakeTime = some w ∧ integralValue w = some wake ∧
    integralValue alarm.scheduledTime = some time ∧ time ≤ wake

theorem schedule_wake {actorId : String} {scheduledTime : Float} {persisted : PersistedAlarm} {time : Int}
    (whole : integralValue scheduledTime = some time)
    (retries : ∀ retry, persisted.retryTime = some retry → ∃ t, integralValue retry = some t) :
    ∃ w wake, (scheduleAlarm actorId scheduledTime (some persisted)).wakeTime = some w ∧
      integralValue w = some wake ∧
      time ≤ wake ∧ ∀ retry t, persisted.retryTime = some retry → integralValue retry = some t → t ≤ wake :=
        by
  cases held : persisted.retryTime with
  | none =>
    refine ⟨_, _, rfl, ?_, le_max_left time time, fun retry t impossible => by cases impossible⟩
    simp only [Option.bind_some, held, Option.getD_none]
    exact integralValue_mathMax whole whole
  | some retry =>
    obtain ⟨t, value⟩ := retries retry held
    refine ⟨_, _, rfl, ?_, le_max_left time t, ?_⟩
    · simp only [Option.bind_some, held, Option.getD_some]
      exact integralValue_mathMax whole value
    · intro retry' t' same value'
      cases same
      rw [value] at value'
      cases value'
      exact le_max_right time t

/-- What a load makes of the row of the alarm. -/
theorem loadRow_climbs {now : Float} {jitter : Nat → Nat} {n : Int} {alarm : ScheduledAlarm} {row : AlarmRow}
    {persisted : PersistedAlarm} {out : AlarmRow × ScheduledAlarm} (records : Records l alarm row)
    (read : readPersistedAlarm row = .ok persisted) (reading : Reading now jitter n)
    (loaded : AlarmScheduler.loadRow now jitter row = .ok out) :
    Stands (if persisted.running then l.interrupted n else l) out.2 ∧
      Records (if persisted.running then l.interrupted n else l) out.2 out.1 ∧ NotEarly out.2 := by
  obtain ⟨time, whole, -⟩ := (isSafeInteger_iff _).1 (getInt64_ok_safe records.time)
  obtain ⟨persisted', read', backoff, counted, previous, retries, due⟩ := records.state
  obtain rfl : persisted = persisted' := Except.ok.inj (read.symm.trans read')
  have budget := (readPersistedAlarm_bounds read).2
  unfold AlarmScheduler.loadRow at loaded
  simp only [records.time, read, bind, Except.bind] at loaded
  by_cases running : persisted.running = true
  · simp only [running, if_true] at loaded ⊢
    cases loaded
    have rung : min retryBackoffMax persisted.backoff ≤ retryBackoffMax := Nat.min_le_left _ _
    obtain ⟨retry, value, late, safe⟩ := reading.retryTime rung
    have next : (l.interrupted n).backoff = min retryBackoffMax persisted.backoff + 1 ∧
        (l.interrupted n).due = some (n + alarmRetryDelayMs (min retryBackoffMax persisted.backoff)) := by
      unfold Ladder.interrupted Ladder.retries
      rw [backoff]
      exact ⟨rfl, rfl⟩
    obtain ⟨w, wake, woken, whole', early, waits⟩ :=
      @schedule_wake row.actorId _ (recoverInterruptedDelivery now jitter persisted) _ whole fun _ same => by
        cases same
        exact ⟨retry, value⟩
    refine ⟨⟨counted, next.1.symm, rfl, rfl, ?_⟩, ⟨records.time, _,
      readPersistedAlarm_saveRetry row false (reading.clockSafe _ rung) (Nat.succ_le_succ rung) budget,
        next.1.symm,
      counted, rfl, ?_, ?_⟩, ⟨w, wake, time, woken, whole', whole, early⟩⟩
    · intro w' due' woken' same
      rw [woken] at woken'
      cases woken'
      rw [next.2] at same
      cases same
      exact ⟨wake, whole', late.trans (waits _ retry rfl value)⟩
    · intro retry' same
      cases same
      exact ⟨retry, value⟩
    · intro due' same
      rw [next.2] at same
      cases same
      exact ⟨_, retry, rfl, value, late⟩
  · simp only [running, if_false, Bool.false_eq_true] at loaded ⊢
    cases loaded
    obtain ⟨w, wake, woken, whole', early, waits⟩ := @schedule_wake row.actorId _ _ _ whole retries
    refine ⟨⟨counted, backoff, previous, rfl, ?_⟩, ⟨records.time, persisted, read, backoff, counted,
      previous, retries, due⟩,
      ⟨w, wake, time, woken, whole', whole, early⟩⟩
    intro w' due' woken' same
    rw [woken] at woken'
    cases woken'
    obtain ⟨retry, t, held, value, late⟩ := due due' same
    exact ⟨wake, whole', late.trans (waits retry t held value)⟩

/-- What a restart makes of the row of the alarm. -/
theorem restarted_climbs {alarm : ScheduledAlarm} {row : AlarmRow} (keyed : f.scheduler.Keyed)
    (tries : f.ladder.counted ≤ alarmRetryMaxTries) (rung : f.ladder.backoff ≤ retryBackoffMax + 1)
    (held : rowOf f.scheduler.rows a = some row) (records : Records f.ladder alarm row) {now : Float}
      {jitter : Nat → Nat}
    {n : Int} (reading : Reading now jitter n) (rebuilt : turn f.scheduler (.restart now jitter) = some t) :
    Climbs a ⟨t, f.climb a (.restart now jitter)⟩ ∧ ∀ e, t.alarms a = some e → NotEarly (t.entry e) := by
  simp only [turn] at rebuilt
  cases constructed : AlarmScheduler.construct now jitter f.scheduler.rows with
  | error => rw [constructed] at rebuilt; cases rebuilt
  | ok built =>
    rw [constructed] at rebuilt
    cases rebuilt
    obtain ⟨out, turned, found, left⟩ := (construct_find constructed a).2 row held
    rw [loaded_find] at found
    obtain ⟨e, mapped, entry⟩ := Option.map_eq_some_iff.1 found
    obtain ⟨persisted, read, backoff, counted, -⟩ := records.state
    have climb : f.climb a (.restart now jitter) =
        if persisted.running then f.ladder.interrupted n else f.ladder := by
      unfold Followed.climb interrupts
      simp only [held, read, reading.whole, Option.getD_some]
    obtain ⟨stands, records, early⟩ := loadRow_climbs records read reading turned
    have shaped : Shaped (loaded built) :=
      Opened.shaped ⟨now, jitter, f.scheduler.rows, built, keyed, constructed, rfl⟩
    have only : ∀ j, (loaded built).alarms a = some j → (loaded built).entry j = out.2 := by
      intro j mapped'
      obtain rfl : e = j := Option.some.inj (mapped.symm.trans mapped')
      exact entry
    rw [climb]
    refine ⟨⟨shaped, loaded_keyed constructed keyed, loaded_accepted constructed keyed reading.clockSafe,
      ?_, ?_, ⟨e, out.1, mapped, left, ?_, ?_⟩, ?_⟩, fun j mapped' => ?_⟩
    · split
      · exact tries
      · exact tries
    · split
      · exact Nat.succ_le_succ (Nat.min_le_left _ _)
      · exact rung
    · rw [entry]
      exact stands
    · rw [entry]
      exact records
    · intro j r b _ carries
      simp only [loaded] at carries
      split at carries
      · rcases carries with same | same <;> cases same
      · rcases carries with same | same <;> cases same
    · rw [only j mapped']
      exact early

/-- The alarm of the actor is queued behind a delivery of an earlier one. -/
structure Behind (a : String) (f : Followed) : Prop where
  shaped : Shaped f.scheduler
  keyed : f.scheduler.Keyed
  accepted : Accepted f.scheduler.rows
  fresh : f.ladder = Ladder.fresh
  entry : ∃ e queued row, f.scheduler.alarms a = some e ∧ (f.scheduler.entry e).queuedAlarm = some queued ∧
    rowOf f.scheduler.rows a = some row ∧ Records .fresh (scheduleAlarm a queued none) row

theorem records_fresh {time : Float} (safe : isSafeInteger time = true) {running : Cell} {flag : Nat}
    (read : readRunning { AlarmScheduler.freshRow a time with running } = .ok flag) :
    Records .fresh (scheduleAlarm a time none) { AlarmScheduler.freshRow a time with running } := by
  refine ⟨(getInt64_bound .integer 1 (not_nan_of_safe safe)).1 safe, _,
    readPersistedAlarm_fresh a time running read,
    rfl, rfl, rfl, ?_, ?_⟩
  · intro retry none
    cases none
  · intro due none
    cases none

theorem records_upserted {rows : List AlarmRow} (accepted : Accepted rows) {time : Float}
    (safe : isSafeInteger time = true) :
    Records .fresh (scheduleAlarm a time none) (upserted (rowOf rows a) a time) := by
  cases held : rowOf rows a with
  | none => exact records_fresh safe (readRunning_fresh a time)
  | some old =>
    obtain ⟨persisted, read⟩ := accepted old (List.mem_of_find?_eq_some held)
    obtain ⟨flag, running⟩ := readRunning_of_persisted read
    have mine := rowOf_actorId held
    subst mine
    exact records_fresh safe ((AlarmScheduler.readRunning_upserted old time).trans running)

/-- A new entry for the alarm that its row records. -/
theorem climbs_fresh {e : Nat} {time : Float} {row : AlarmRow} (shaped : Shaped t) (keyed : t.Keyed)
    (accepted : Accepted t.rows) (mapped : t.alarms a = some e)
      (entry : t.entry e = scheduleAlarm a time none)
    (task : t.task e = .sleeping none 0) (held : rowOf t.rows a = some row)
    (records : Records .fresh (scheduleAlarm a time none) row) : Climbs a ⟨t, .fresh⟩ := by
  refine ⟨shaped, keyed, accepted, Nat.zero_le _, Nat.zero_le _, ⟨e, row, mapped, held, ?_, ?_⟩, ?_⟩
  · rw [entry]
    exact ⟨rfl, rfl, rfl, rfl, fun w due _ none => by cases none⟩
  · rw [entry]
    exact records
  · intro i r b mapped' carries
    obtain rfl : e = i := Option.some.inj (mapped.symm.trans mapped')
    rw [task] at carries
    rcases carries with same | same <;> cases same

/-- The alarm that is set, at the foot of its ladder. -/
theorem set_climbs {s : LiveScheduler} (shaped : Shaped s) (keyed : s.Keyed) (accepted : Accepted s.rows)
    {a : String}
    {time : Float} {env : Env} (safe : isSafeInteger time = true)
    (move : Move s (.setAlarm a time env) (s.set a time)) :
    Climbs a ⟨s.set a time, .fresh⟩ ∨ Behind a ⟨s.set a time, .fresh⟩ := by
  have held : rowOf (s.set a time).rows a = some (upserted (rowOf s.rows a) a time) := by
    rw [set_rows, rowOf_upsertAlarm, if_pos rfl]
  have records := @records_upserted a s.rows accepted time safe
  have kept := Accepted.set accepted a time
  have shaped' := move.shaped shaped
  have keyed' := move.keyed keyed
  have scheduled : s.set a time =
    { s with rows := AlarmScheduler.upsertAlarm s.rows a time }.schedule a time false →
      Climbs a ⟨s.set a time, .fresh⟩ := by
    intro same
    apply @climbs_fresh _ _ s.next _ _ shaped' keyed' kept ?_ ?_ ?_ held records
    · rw [same]
      simp only [LiveScheduler.schedule, if_true]
    · rw [same]
      exact schedule_entry_next (s := { s with rows := _ }) _ _ _
    · rw [same]
      simp only [LiveScheduler.schedule, if_true]
  cases mapped : s.alarms a with
  | none => exact .inl (scheduled (by simp only [LiveScheduler.set, mapped]))
  | some e =>
    have mine := (shaped.mapped a e mapped).2
    by_cases waiting : (s.entry e).status = .waiting
    · exact .inl (scheduled (by simp [LiveScheduler.set, mapped, waiting]))
    · have live : s.isLive e = true := (isLive_iff s e).2 (by rw [mine]; exact mapped)
      have queues := set_queues s live waiting time
      rw [mine] at queues
      refine .inr ⟨shaped', keyed', kept, rfl, e, time, _, ?_, ?_, held, records⟩
      · rw [queues]
        exact mapped
      · rw [queues]
        simp [setUnrecorded, setEntry]

/-- A step that leaves the alarm in its queue. -/
theorem Behind.kept (behind : Behind a f) {e : Nat} (mapped : f.scheduler.alarms a = some e)
    (shaped : Shaped t)
    (keyed : t.Keyed) (accepted : Accepted t.rows) (alarms : t.alarms a = f.scheduler.alarms a)
    (queued : (t.entry e).queuedAlarm = (f.scheduler.entry e).queuedAlarm)
    (rows : rowOf t.rows a = rowOf f.scheduler.rows a ∨
      rowOf t.rows a = (rowOf f.scheduler.rows a).map fun row => row.setRunning 1)
        : Behind a ⟨t, f.ladder⟩ := by
  obtain ⟨i, time, row, mapped', waits, held, records⟩ := behind.entry
  obtain rfl : e = i := Option.some.inj (mapped.symm.trans mapped')
  rw [held] at rows
  rcases rows with same | same
  · exact ⟨shaped, keyed, accepted, behind.fresh, e, time, row, alarms.trans mapped, queued.trans waits,
      same, records⟩
  · exact ⟨shaped, keyed, accepted, behind.fresh, e, time, _, alarms.trans mapped, queued.trans waits, same,
      records.mark (by decide)⟩

theorem Behind.postponed (behind : Behind a f) {e b : Nat} {r : AlarmResult}
    (mapped : f.scheduler.alarms a = some e)
    (shaped : Shaped (f.scheduler.postponed e r b)) : Behind a ⟨f.scheduler.postponed e r b, f.ladder⟩ ∧
      ¬ Abandons a f.scheduler (f.scheduler.postponed e r b) := by
  have task : (f.scheduler.postponed e r b).task e = .sleeping (some r) (min retryBackoffMax b + 1) :=
    setTask_self ..
  have entry : (f.scheduler.postponed e r b).entry e = { f.scheduler.entry e with status := .finished } :=
    setEntry_entry_self (s := f.scheduler) e fun x => { x with status := .finished }
  refine ⟨behind.kept mapped shaped behind.keyed behind.accepted rfl (by rw [entry]) (.inl rfl),
    not_abandons mapped fun r' b' gone => ?_⟩
  rw [task] at gone
  cases gone

/-- The alarm comes out of its queue. -/
theorem Behind.promoted (behind : Behind a f) {e : Nat} {time : Float}
    (mapped : f.scheduler.alarms a = some e)
    (waits : (f.scheduler.entry e).queuedAlarm = some time) (shaped : Shaped (f.scheduler.promoted e time))
    (keyed : (f.scheduler.promoted e time).Keyed) (accepted : Accepted (f.scheduler.promoted e time).rows) :
    Climbs a ⟨f.scheduler.promoted e time, f.ladder⟩ ∧ ¬ Abandons a f.scheduler (f.scheduler.promoted e time)
      := by
  obtain ⟨i, time', row, mapped', waits', held, records⟩ := behind.entry
  obtain rfl : e = i := Option.some.inj (mapped.symm.trans mapped')
  obtain rfl : time = time' := Option.some.inj (waits.symm.trans waits')
  obtain ⟨made, mine⟩ := behind.shaped.mapped a e mapped
  have other : f.scheduler.next ≠ e := Nat.ne_of_gt made
  have cleared : rowOf (f.scheduler.promoted e time).rows a = some (row.setRunning 0) := by
    change rowOf (updateRow f.scheduler.rows (f.scheduler.entry e).actorId fun row => row.setRunning 0) a = _
    rw [rowOf_setRunning, if_pos mine.symm, mine, held]
    rfl
  have task : (f.scheduler.promoted e time).task e = .done := setTask_self ..
  constructor
  · rw [behind.fresh]
    apply @climbs_fresh _ _ f.scheduler.next time _ shaped keyed accepted ?_ ?_ ?_ cleared
      (records.mark (by decide))
    · simp [LiveScheduler.promoted, LiveScheduler.schedule, setTask, mine]
    · simp [LiveScheduler.promoted, LiveScheduler.schedule, setTask, mine]
    · simp [LiveScheduler.promoted, LiveScheduler.schedule, setTask, other]
  · apply not_abandons mapped
    intro r b gone
    rw [task] at gone
    cases gone

/-- What becomes of an alarm that is queued. -/
theorem Behind.step (behind : Behind a f) (failing : Failing a f (.live event))
    (stepped : f.scheduler.step event = some t) :
    (Climbs a ⟨t, f.ladder⟩ ∨ Behind a ⟨t, f.ladder⟩) ∧ ¬ Abandons a f.scheduler t ∧
      f.scheduler.settles a event = none := by
  obtain ⟨⟨n, reading⟩, failing⟩ := failing
  have move := step_moves behind.shaped event stepped
  have shaped := move.shaped behind.shaped
  have keyed := move.keyed behind.keyed
  have accepted := move.accepted behind.accepted reading.clockSafe
  obtain ⟨e, time, row, mapped, waits, held, records⟩ := behind.entry
  obtain ⟨made, mine⟩ := behind.shaped.mapped a e mapped
  have unsettled : f.scheduler.settles a event = none := by
    by_contra some
    obtain ⟨r, settled⟩ := Option.ne_none_iff_exists'.1 some
    obtain ⟨i, -, mapped', alone⟩ := settles_current settled
    obtain rfl : e = i := Option.some.inj (mapped.symm.trans mapped')
    rw [waits] at alone
    cases alone
  refine and_assoc.1 ⟨?_, unsettled⟩
  by_cases touched : event.Touches f.scheduler a
  · have on_map : ∀ {i}, (f.scheduler.entry i).actorId = a → f.scheduler.isLive i = true → i = e := by
      rintro i same live
      have own := (isLive_iff _ i).1 live
      rw [same, mapped] at own
      exact (Option.some.inj own).symm
    have resumed : ∀ {i}, event.entry = some i → f.scheduler.isLive i = true → i = e := by
      intro i on live
      cases event with
      | wake => cases on; exact on_map touched live
      | deliverySettled => cases on; exact on_map touched live
      | abandonSettled => cases on; exact on_map touched live
      | _ => cases on
    have marked : rowOf (f.scheduler.marked e).rows a = (rowOf f.scheduler.rows a).map fun row =>
      row.setRunning 1 := by
      change rowOf (updateRow f.scheduler.rows (f.scheduler.entry e).actorId fun row => row.setRunning 1)
        a = _
      rw [rowOf_setRunning, if_pos mine.symm, mine]
    cases move with
    | idle => exact ⟨.inr behind, not_abandons_same fun _ _ => rfl⟩
    | setAlarm x => exact absurd touched failing
    | reconcile x stored env written late =>
      obtain rfl : x = a := touched
      rw [failing rfl] at late
      cases late
    | deleteAlarm x => exact absurd touched failing
    | deleteAll => exact failing.elim
    | ended _ i on gone =>
      have apart : e ≠ i := by
        rintro rfl
        have live : f.scheduler.isLive e = true := (isLive_iff _ e).2 (by rw [mine]; exact mapped)
        rw [gone] at live
        cases live
      have task := setTask_other (s := f.scheduler) apart .done
      refine ⟨.inr (behind.kept mapped shaped keyed accepted rfl rfl (.inl rfl)), not_abandons_same
        fun k on_k => ?_⟩
      obtain rfl : e = k := Option.some.inj (mapped.symm.trans on_k)
      exact task
    | start i woken env b live due =>
      obtain rfl := resumed rfl live
      have entry := markedUnwoken_entry_self f.scheduler i
      refine ⟨.inr (behind.kept mapped shaped keyed accepted rfl ?_ (.inr marked)), not_abandons mapped ?_⟩
      · change ((f.scheduler.markedUnwoken i).entry i).queuedAlarm = _
        rw [entry]
      · intro r b' gone
        have task := (setTask_self (s := _) i (.delivering b)).symm.trans gone
        cases task
    | startFailed i woken env b live =>
      obtain rfl := resumed rfl live
      have entry : (f.scheduler.startFailed i b).entry i = { f.scheduler.entry i with status := .waiting } :=
        setEntry_entry_self (s := f.scheduler) i fun x => { x with status := .waiting }
      refine ⟨.inr (behind.kept mapped shaped keyed accepted rfl (by rw [entry]) (.inl rfl)),
        not_abandons mapped ?_⟩
      intro r b' gone
      have task := (setTask_self (s := _) i (.sleeping none _)).symm.trans gone
      cases task
    | markedFailed i woken env b live =>
      obtain rfl := resumed rfl live
      have entry : ((f.scheduler.markedUnwoken i).startFailed i b).entry i =
          { f.scheduler.entry i with status := .waiting, wakeTime := none } := by
        rw [markedFailed_eq]
        exact setEntry_entry_self (s := f.scheduler.marked i) i fun x =>
          { x with status := .waiting, wakeTime := none }
      refine ⟨.inr (behind.kept mapped shaped keyed accepted rfl (by rw [entry]) (.inr marked)),
        not_abandons mapped ?_⟩
      intro r b' gone
      have task := (setTask_self (s := _) i (.sleeping none _)).symm.trans gone
      cases task
    | settle _ i on r b live due outcome =>
      obtain rfl := resumed on live
      cases outcome with
      | promote queued waits =>
        obtain ⟨climbs, kept⟩ := behind.promoted mapped waits shaped keyed accepted
        exact ⟨.inl climbs, kept⟩
      | postpone =>
        obtain ⟨behind, kept⟩ := behind.postponed mapped shaped
        exact ⟨.inr behind, kept⟩
      | retry alone => rw [waits] at alone; cases alone
      | giveUp alone => rw [waits] at alone; cases alone
      | finish alone => rw [waits] at alone; cases alone
    | report i answer env r b live due outcome =>
      obtain rfl := resumed rfl live
      cases outcome with
      | promote queued waits =>
        obtain ⟨climbs, kept⟩ := behind.promoted mapped waits shaped keyed accepted
        exact ⟨.inl climbs, kept⟩
      | postpone =>
        obtain ⟨behind, kept⟩ := behind.postponed mapped shaped
        exact ⟨.inr behind, kept⟩
      | newer newer alone => rw [waits] at alone; cases alone
      | forget alone => rw [waits] at alone; cases alone
      | newerPostponed newer alone => rw [waits] at alone; cases alone
  · have same := move.frame behind.shaped touched
    obtain ⟨entry, task, -, -⟩ := same.entries e made mine
    refine ⟨.inr (behind.kept mapped shaped keyed accepted same.alarms (by rw [entry]) (.inl same.row)),
      not_abandons_same fun i mapped' => ?_⟩
    obtain rfl : e = i := Option.some.inj (mapped.symm.trans mapped')
    exact task

theorem Behind.restarted (behind : Behind a f) {now : Float} {jitter : Nat → Nat} {n : Int}
    (reading : Reading now jitter n) (rebuilt : turn f.scheduler (.restart now jitter) = some t) :
    Climbs a ⟨t, f.climb a (.restart now jitter)⟩ ∧ ∀ e, t.alarms a = some e → NotEarly (t.entry e) := by
  obtain ⟨e, time, row, -, -, held, records⟩ := behind.entry
  rw [← behind.fresh] at records
  apply restarted_climbs behind.keyed ?_ ?_ held records reading rebuilt
  · rw [behind.fresh]
    exact Nat.zero_le _
  · rw [behind.fresh]
    exact Nat.zero_le _

theorem Climbs.restarted (climbs : Climbs a f) {now : Float} {jitter : Nat → Nat} {n : Int}
    (reading : Reading now jitter n) (rebuilt : turn f.scheduler (.restart now jitter) = some t) :
    Climbs a ⟨t, f.climb a (.restart now jitter)⟩ ∧ ∀ e, t.alarms a = some e → NotEarly (t.entry e) := by
  obtain ⟨e, row, -, held, -, records⟩ := climbs.entry
  exact restarted_climbs climbs.keyed climbs.tries climbs.rung held records reading rebuilt

end Climbing

section Ladders

variable {a : String} {f g : Followed} {next : Turn}

/-- The failed delivery that the turn processes. -/
def failure (s : LiveScheduler) (a : String) : Turn → Option AlarmResult
  | .live event => s.settles a event
  | .restart _ _ => none

/-- What a turn can do to the alarm. -/
structure Rung (a : String) (f : Followed) (next : Turn) (g : Followed) : Prop where
  abandoned : Abandons a f.scheduler g.scheduler ↔ ∃ e r, f.scheduler.alarms a = some e ∧
    f.scheduler.failure a next = some r ∧ (f.scheduler.entry e).countedRetry = alarmRetryMaxTries
  counted : g.ladder.counted ≠ f.ladder.counted → g.ladder.counted = f.ladder.counted + 1 ∧
    ∃ r, f.scheduler.failure a next = some r ∧ r.retryCountsAgainstLimit = true
  started : ∀ e, f.scheduler.alarms a = some e → g.scheduler.InFlight e → ¬ f.scheduler.InFlight e →
    ∃ woken env, next = .live (.wake e woken env) ∧ (f.scheduler.entry e).scheduledTime ≤ woken
  restarted : ∀ now jitter, next = .restart now jitter →
    ∀ e, g.scheduler.alarms a = some e → NotEarly (g.scheduler.entry e)

/-- Where the alarm stands, in the map and in the table. -/
structure Laddered (a : String) (f : Followed) : Prop where
  accepted : Accepted f.scheduler.rows
  counted : ∀ e, f.scheduler.Current a e → (f.scheduler.entry e).countedRetry = f.ladder.counted
  recorded : ∃ row persisted, rowOf f.scheduler.rows a = some row ∧ readPersistedAlarm row = .ok persisted ∧
    persisted.countedRetry = f.ladder.counted
  wake : ∀ e w due, f.scheduler.Current a e → (f.scheduler.entry e).wakeTime = some w →
    f.ladder.due = some due →
    ∃ t, integralValue w = some t ∧ due ≤ t

theorem Climbs.laddered (climbs : Climbs a f) : Laddered a f := by
  obtain ⟨e, row, mapped, held, stands, records⟩ := climbs.entry
  obtain ⟨persisted, read, -, counted, -⟩ := records.state
  have only : ∀ i, f.scheduler.Current a i → i = e := fun i current =>
    Option.some.inj (current.1.symm.trans mapped)
  refine ⟨climbs.accepted, fun i current => ?_, ⟨row, persisted, held, read, counted⟩, fun i w due current =>
    ?_⟩
  · rw [only i current]
    exact stands.counted
  · rw [only i current]
    exact stands.wake w due

theorem Behind.laddered (behind : Behind a f) : Laddered a f := by
  obtain ⟨e, time, row, mapped, waits, held, records⟩ := behind.entry
  obtain ⟨persisted, read, -, counted, -⟩ := records.state
  have none_current : ∀ i, ¬ f.scheduler.Current a i := by
    rintro i ⟨mapped', alone⟩
    obtain rfl : e = i := Option.some.inj (mapped.symm.trans mapped')
    rw [waits] at alone
    cases alone
  refine ⟨behind.accepted, fun i current => (none_current i current).elim, ⟨row, persisted, held, read, ?_⟩,
    fun i w due current => (none_current i current).elim⟩
  rw [behind.fresh]
  exact counted

theorem climb_counted (moved : (f.climb a next).counted ≠ f.ladder.counted) :
    (f.climb a next).counted = f.ladder.counted + 1 ∧
      ∃ r, f.scheduler.failure a next = some r ∧ r.retryCountsAgainstLimit = true := by
  cases next with
  | restart now jitter =>
    unfold Followed.climb at moved
    simp only at moved
    split at moved
    · exact absurd rfl moved
    · exact absurd rfl moved
  | live event =>
    unfold Followed.climb at moved ⊢
    unfold failure
    cases settled : f.scheduler.settles a event with
    | none =>
      simp only [settled] at moved
      exact absurd rfl moved
    | some r =>
      simp only [settled] at moved ⊢
      split at moved
      case isFalse => exact absurd rfl moved
      case isTrue recorded =>
        rw [if_pos recorded]
        cases counts : r.retryCountsAgainstLimit with
        | false =>
          rw [counts] at moved
          exact absurd rfl moved
        | true => exact ⟨rfl, r, rfl, counts⟩

/-- A delivery starts no earlier than the time of its alarm. -/
theorem starts_due {s t : LiveScheduler} (shaped : Shaped s) {event : Event}
    (stepped : step s event = some t) {e : Nat}
    (started : t.InFlight e) (idle : ¬ s.InFlight e) :
    ∃ woken env, event = .wake e woken env ∧ (s.entry e).scheduledTime ≤ woken := by
  have busy : (t.task e).isBusy = true := by
    obtain ⟨b, started⟩ := started
    rw [started]
    rfl
  rcases (step_moves shaped event stepped).task busy with same | ⟨live, ⟨b, due⟩, ⟨woken, env, rfl⟩, -⟩ | ⟨-,
    -, never⟩
  · rw [InFlight, same] at started
    exact absurd started idle
  · refine ⟨woken, env, rfl, ?_⟩
    simp only [step, due, live, not_true_eq_false, or_false, Option.ite_none_right_eq_some] at stepped
    exact stepped.1
  · obtain ⟨b, started⟩ := started
    exact absurd started (never b)

theorem restart_idle {s t : LiveScheduler} {now : Float} {jitter : Nat → Nat}
    (rebuilt : turn s (.restart now jitter) = some t) (e : Nat) : (t.task e).isBusy = false := by
  simp only [turn] at rebuilt
  split at rebuilt
  · cases rebuilt
    simp only [loaded]
    split
    · rfl
    · rfl
  · cases rebuilt

theorem follow_rung (held : Climbs a f ∨ Behind a f) (failing : Failing a f next)
    (followed : follow a f next = some g) :
    (Climbs a g ∨ Behind a g) ∧ Rung a f next g := by
  obtain ⟨t, turned, rfl⟩ := Option.map_eq_some_iff.1 followed
  have counted := @climb_counted a f next
  cases next with
  | restart now jitter =>
    obtain ⟨⟨n, reading⟩, -⟩ := failing
    have idle := restart_idle turned
    have restarted : Climbs a ⟨t, f.climb a (.restart now jitter)⟩ ∧ ∀ e, t.alarms a = some e → NotEarly
      (t.entry e) := by
      rcases held with climbs | behind
      · exact climbs.restarted reading turned
      · exact behind.restarted reading turned
    refine ⟨.inl restarted.1, ⟨?_, ?_⟩, counted, ?_, ?_⟩
    · rintro ⟨e, -, ⟨r, b, gone⟩, -⟩
      have busy := idle e
      rw [gone] at busy
      cases busy
    · rintro ⟨e, r, -, none, -⟩
      cases none
    · rintro e - ⟨b, started⟩ -
      have busy := idle e
      rw [started] at busy
      cases busy
    · intro now' jitter' _
      exact restarted.2
  | live event =>
    have stepped : step f.scheduler event = some t := turned
    have shaped : Shaped f.scheduler := by
      rcases held with climbs | behind
      · exact climbs.shaped
      · exact behind.shaped
    have starts : ∀ e, f.scheduler.alarms a = some e → t.InFlight e → ¬ f.scheduler.InFlight e →
        ∃ woken env, Turn.live event = .live (.wake e woken env) ∧
          (f.scheduler.entry e).scheduledTime ≤ woken := by
      intro e _ started idle
      obtain ⟨woken, env, rfl, due⟩ := starts_due shaped stepped started idle
      exact ⟨woken, env, rfl, due⟩
    have quiet : f.scheduler.settles a event = none → ¬ Abandons a f.scheduler t →
        (Abandons a f.scheduler t ↔ ∃ e r, f.scheduler.alarms a = some e ∧
          f.scheduler.failure a (.live event) = some r ∧
            (f.scheduler.entry e).countedRetry = alarmRetryMaxTries) := by
      intro unsettled kept
      refine ⟨fun gone => absurd gone kept, ?_⟩
      rintro ⟨e, r, -, settled, -⟩
      rw [failure, unsettled] at settled
      cases settled
    have unmoved : f.scheduler.settles a event = none → f.climb a (.live event) = f.ladder := by
      intro unsettled
      unfold Followed.climb
      simp only [unsettled]
    rcases held with climbs | behind
    · cases settled : f.scheduler.settles a event with
      | none =>
        obtain ⟨climbs', kept⟩ := climbs.quiet failing stepped settled
        refine ⟨.inl ?_, quiet settled kept, counted, starts, fun _ _ same => by cases same⟩
        rw [unmoved settled]
        exact climbs'
      | some r =>
        obtain ⟨again, climbs', abandons⟩ := climbs.settled failing stepped settled
        obtain ⟨e, row, mapped, -, stands, -⟩ := climbs.entry
        refine ⟨.inl climbs', abandons.trans ⟨fun all => ?_, ?_⟩, counted, starts, fun _ _ same =>
          by cases same⟩
        · exact ⟨e, r, mapped, settled, stands.counted.trans all⟩
        · rintro ⟨i, _, mapped', -, all⟩
          obtain rfl : e = i := Option.some.inj (mapped.symm.trans mapped')
          exact stands.counted.symm.trans all
    · obtain ⟨held, kept, unsettled⟩ := behind.step failing stepped
      refine ⟨?_, quiet unsettled kept, counted, starts, fun _ _ same => by cases same⟩
      rw [unmoved unsettled]
      exact held

/-- A turn of the scheduler, and a reading of its clock. -/
def Sane (_ : LiveScheduler) (next : Turn) : Prop := ∃ n, Reading next.now next.jitter n

theorem turn_shaped {s t : LiveScheduler} (kept : Shaped s ∧ s.Keyed ∧ Accepted s.rows) (sane : Sane s next)
    (turned : turn s next = some t) : Shaped t ∧ t.Keyed ∧ Accepted t.rows := by
  obtain ⟨shaped, keyed, accepted⟩ := kept
  obtain ⟨n, reading⟩ := sane
  cases next with
  | live event =>
    have move := step_moves shaped event turned
    exact ⟨move.shaped shaped, move.keyed keyed, move.accepted accepted reading.clockSafe⟩
  | restart now jitter =>
    simp only [turn] at turned
    cases constructed : AlarmScheduler.construct now jitter s.rows with
    | error => rw [constructed] at turned; cases turned
    | ok built =>
      rw [constructed] at turned
      cases turned
      exact ⟨Opened.shaped ⟨now, jitter, s.rows, built, keyed, constructed, rfl⟩,
        loaded_keyed constructed keyed,
        loaded_accepted constructed keyed reading.clockSafe⟩

theorem zero_reading : Reading 0 (fun _ => 0) 0 :=
  ⟨by decide +kernel, by decide, fun _ => Nat.zero_le _⟩

theorem follow_live {t : LiveScheduler} {event : Event} (stepped : step f.scheduler event = some t) :
    follow a f (.live event) = some ⟨t, f.climb a (.live event)⟩ := by
  rw [follow, turn, stepped]
  rfl

theorem follow_restart {now : Float} {jitter : Nat → Nat} {built : AlarmScheduler}
    (constructed : AlarmScheduler.construct now jitter f.scheduler.rows = .ok built) :
    follow a f (.restart now jitter) = some ⟨loaded built, f.climb a (.restart now jitter)⟩ := by
  rw [follow, turn, constructed]
  rfl

theorem step_delivered {s : LiveScheduler} {e b : Nat} (result : Option AlarmResult) (env : Env)
    (due : s.task e = .delivering b) :
    step s (.deliverySettled e result env) = some (deliverySettled env e result b s).2 := by
  simp only [step, due]

end Ladders

end DoRuntime.Alarms.LiveScheduler
