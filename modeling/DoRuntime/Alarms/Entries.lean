import DoRuntime.Alarms.Moves

namespace DoRuntime.Alarms.LiveScheduler

open DoRuntime.Js Prog

section Shape

variable {s : LiveScheduler}

theorem isLive_schedule (a : String) (time : Float) (u : Bool) {i : Nat} (fresh : i ≠ s.next) :
    (s.schedule a time u).isLive i = true ↔ s.isLive i = true ∧ (s.entry i).actorId ≠ a := by
  simp only [isLive_iff, schedule, fresh, if_false]
  by_cases same : (s.entry i).actorId = a
  · simp [same, Ne.symm fresh]
  · simp [same]

theorem schedule_entry_next (a : String) (time : Float) (u : Bool) :
    (s.schedule a time u).entry s.next = scheduleAlarm a time none := by
  simp [schedule]

theorem schedule_entry_old {a : String} {time : Float} {u : Bool} {i : Nat} (old : i ≠ s.next) :
    (s.schedule a time u).entry i = s.entry i := by
  simp [schedule, old]

theorem schedule_task_old {a : String} {time : Float} {u : Bool} {i : Nat} (old : i ≠ s.next) :
    (s.schedule a time u).task i = s.task i := by
  simp [schedule, old]

theorem Shaped.rows (shaped : Shaped s) (rows : List AlarmRow) : Shaped { s with rows } :=
  ⟨shaped.mapped, shaped.consistent, shaped.later, shaped.gone⟩

theorem Shaped.live_lt (shaped : Shaped s) {e : Nat} (live : s.isLive e = true) : e < s.next :=
  (shaped.mapped _ e ((isLive_iff s e).1 live)).1

theorem Shaped.schedule_parts (shaped : Shaped s) (a : String) (time : Float) (u : Bool) :
    (∀ a' e, (s.schedule a time u).alarms a' = some e →
      e < (s.schedule a time u).next ∧ ((s.schedule a time u).entry e).actorId = a') ∧
    (∀ e, (s.schedule a time u).isLive e = true →
      Consistent ((s.schedule a time u).task e) ((s.schedule a time u).entry e).status) ∧
    (∀ e, (s.schedule a time u).next ≤ e → (s.schedule a time u).task e = .done) := by
  refine ⟨?_, ?_, ?_⟩
  · intro a' e mapped
    simp only [schedule] at mapped ⊢
    by_cases mine : a' = a
    · simp only [mine, if_true, Option.some.injEq] at mapped
      simp [← mapped, mine, scheduleAlarm]
    · simp only [mine, if_false] at mapped
      obtain ⟨made, named⟩ := shaped.mapped a' e mapped
      exact ⟨Nat.lt_succ_of_lt made, by simp [Nat.ne_of_lt made, named]⟩
  · intro e live
    by_cases fresh : e = s.next
    · simp [schedule, fresh, scheduleAlarm, Consistent]
    · rw [schedule_task_old fresh, schedule_entry_old fresh]
      exact shaped.consistent e ((isLive_schedule a time u fresh).1 live).1
  · intro e later
    simp only [schedule] at later ⊢
    simp only [Nat.ne_of_gt later, if_false]
    exact shaped.later e (Nat.le_of_succ_le later)

theorem Shaped.schedule (shaped : Shaped s) {a : String} (time : Float) (u : Bool)
    (idle : ∀ e b, s.alarms a = some e → s.task e ≠ .delivering b) : Shaped (s.schedule a time u) := by
  obtain ⟨mapped, consistent, later⟩ := shaped.schedule_parts a time u
  refine ⟨mapped, consistent, later, ?_⟩
  intro b e delivering gone
  by_cases fresh : e = s.next
  · simp [LiveScheduler.schedule, fresh] at delivering
  · rw [schedule_task_old fresh] at delivering
    have dropped : s.dropped e = true := by
      apply shaped.gone b e delivering
      by_contra live
      simp only [Bool.not_eq_false] at live
      by_cases mine : (s.entry e).actorId = a
      · rw [isLive_iff, mine] at live
        exact idle e b live delivering
      · simp [(isLive_schedule a time u fresh).2 ⟨live, mine⟩] at gone
    simpa [LiveScheduler.schedule, fresh] using dropped

theorem Shaped.replaced (shaped : Shaped s) {e : Nat} (live : s.isLive e = true) (time : Float) (u : Bool) :
    Shaped ((s.schedule (s.entry e).actorId time u).setTask e .done) := by
  obtain ⟨mapped, consistent, later⟩ := shaped.schedule_parts (s.entry e).actorId time u
  have old := Nat.ne_of_lt (shaped.live_lt live)
  refine ⟨mapped, ?_, ?_, ?_⟩
  · intro i live_i
    have other : i ≠ e := by
      rintro rfl
      exact ((isLive_schedule _ time u old).1 live_i).2 rfl
    simpa [setTask, other] using consistent i live_i
  · intro i later_i
    simp only [setTask]
    split
    · rfl
    · exact later i later_i
  · intro b i delivering gone
    by_cases same : i = e
    · simp [setTask, same] at delivering
    · simp only [setTask, same, if_false] at delivering
      by_cases fresh : i = s.next
      · simp [LiveScheduler.schedule, fresh] at delivering
      · rw [schedule_task_old fresh] at delivering
        have dropped : s.dropped i = true := by
          apply shaped.gone b i delivering
          by_contra live_i
          simp only [Bool.not_eq_false] at live_i
          by_cases mine : (s.entry i).actorId = (s.entry e).actorId
          · rw [isLive_iff] at live live_i
            rw [mine, live] at live_i
            exact same (Option.some.inj live_i).symm
          · have still := (isLive_schedule _ time u fresh).2 ⟨live_i, mine⟩
            change (s.schedule (s.entry e).actorId time u).isLive i = false at gone
            simp [still] at gone
        simpa [setTask, LiveScheduler.schedule, fresh] using dropped

theorem Shaped.ended (shaped : Shaped s) {e : Nat} (gone : s.isLive e = false) : Shaped (s.setTask e .done) := by
  refine ⟨shaped.mapped, ?_, ?_, ?_⟩
  · intro i live
    have other : i ≠ e := by
      rintro rfl
      change s.isLive i = true at live
      simp [gone] at live
    simpa [setTask, other] using shaped.consistent i live
  · intro i later
    simp only [setTask]
    split
    · rfl
    · exact shaped.later i later
  · intro b i delivering dead
    by_cases same : i = e
    · simp [setTask, same] at delivering
    · exact shaped.gone b i (by simpa [setTask, same] using delivering) dead

/-- An entry with no delivery in flight leaves the map, and its row goes. -/
theorem Shaped.unmapped (shaped : Shaped s) {e : Nat} {actorId : String} (mapped : s.alarms actorId = some e)
    (idle : (s.entry e).status ≠ .started) (rows : List AlarmRow) :
    Shaped { s with rows, alarms := fun a => if a = actorId then none else s.alarms a } := by
  have lives : ∀ i, { s with rows, alarms := fun a => if a = actorId then none else s.alarms a }.isLive i = true →
      s.isLive i = true := by
    intro i live
    simp only [isLive_iff] at live ⊢
    split at live
    · cases live
    · exact live
  refine ⟨?_, fun i live => shaped.consistent i (lives i live), shaped.later, ?_⟩
  · intro a i on
    dsimp only at on ⊢
    split at on
    · cases on
    · exact shaped.mapped a i on
  · intro b i delivering dead
    apply shaped.gone b i delivering
    by_contra live
    simp only [Bool.not_eq_false] at live
    have started := shaped.consistent i live
    rw [delivering] at started
    rw [isLive_iff] at live
    by_cases mine : (s.entry i).actorId = actorId
    · rw [mine, mapped] at live
      exact idle (Option.some.inj live ▸ started)
    · simp only [isLive, mine, if_false, decide_eq_false_iff_not] at dead
      exact dead live

theorem setEntry_entry_self (e : Nat) (f : ScheduledAlarm → ScheduledAlarm) :
    (s.setEntry e f).entry e = f (s.entry e) := by
  simp [setEntry]

theorem setEntry_entry_other {e i : Nat} (other : i ≠ e) (f : ScheduledAlarm → ScheduledAlarm) :
    (s.setEntry e f).entry i = s.entry i := by
  simp [setEntry, other]

theorem Shaped.replaceIdle (shaped : Shaped s) {e : Nat} {a : String} (mapped : s.alarms a = some e)
    (idle : (s.entry e).status ≠ .started) (time : Float) (u : Bool) : Shaped (s.schedule a time u) := by
  apply shaped.schedule time u
  intro i b on delivering
  obtain rfl : e = i := Option.some.inj (mapped.symm.trans on)
  have named := (shaped.mapped a e mapped).2
  have started := shaped.consistent e (by rw [isLive_iff, named, mapped])
  rw [delivering] at started
  exact idle started

/-- An entry changes, but neither its actor nor what its task says of it. -/
theorem Shaped.setEntry (shaped : Shaped s) (e : Nat) {f : ScheduledAlarm → ScheduledAlarm}
    (same : ∀ q, (f q).actorId = q.actorId ∧ (f q).status = q.status) : Shaped (s.setEntry e f) := by
  have kept : ∀ i, ((s.setEntry e f).entry i).actorId = (s.entry i).actorId ∧
      ((s.setEntry e f).entry i).status = (s.entry i).status := by
    intro i
    simp only [LiveScheduler.setEntry]
    split
    · exact same _
    · exact ⟨rfl, rfl⟩
  have lives : ∀ i, (s.setEntry e f).isLive i = s.isLive i := by
    intro i
    rw [isLive, (kept i).1]
    rfl
  refine ⟨?_, ?_, shaped.later, ?_⟩
  · intro a i mapped
    rw [(kept i).1]
    exact shaped.mapped a i mapped
  · intro i live
    rw [(kept i).2]
    exact shaped.consistent i (lives i ▸ live)
  · intro b i delivering gone
    exact shaped.gone b i delivering (lives i ▸ gone)

/-- A live entry changes together with its task. -/
theorem Shaped.update (shaped : Shaped s) {e : Nat} {f : ScheduledAlarm → ScheduledAlarm} {task : Task}
    (live : s.isLive e = true) (named : (f (s.entry e)).actorId = (s.entry e).actorId)
    (consistent : Consistent task (f (s.entry e)).status) : Shaped ((s.setEntry e f).setTask e task) := by
  have same : ∀ i, ((s.setEntry e f).entry i).actorId = (s.entry i).actorId := by
    intro i
    by_cases mine : i = e
    · rw [mine, setEntry_entry_self, named]
    · rw [setEntry_entry_other mine]
  have lives : ∀ i, ((s.setEntry e f).setTask e task).isLive i = s.isLive i := by
    intro i
    change (s.setEntry e f).isLive i = _
    rw [isLive, same i]
    rfl
  refine ⟨?_, ?_, ?_, ?_⟩
  · intro a i mapped
    obtain ⟨made, owner⟩ := shaped.mapped a i mapped
    exact ⟨made, (same i).trans owner⟩
  · intro i live_i
    rw [lives] at live_i
    by_cases mine : i = e
    · subst mine
      simpa [setTask, LiveScheduler.setEntry] using consistent
    · simpa [setTask, LiveScheduler.setEntry, mine] using shaped.consistent i live_i
  · intro i later
    have other : i ≠ e := by
      rintro rfl
      exact Nat.not_le_of_lt (shaped.live_lt live) later
    simpa [setTask, other, LiveScheduler.setEntry] using shaped.later i later
  · intro b i delivering gone
    rw [lives] at gone
    have other : i ≠ e := by
      rintro rfl
      simp [live] at gone
    exact shaped.gone b i (by simpa [setTask, other, LiveScheduler.setEntry] using delivering) gone

theorem Shaped.set (shaped : Shaped s) (actorId : String) (time : Float) : Shaped (s.set actorId time) := by
  have written := shaped.rows (AlarmScheduler.upsertAlarm s.rows actorId time)
  rw [LiveScheduler.set]
  cases mapped : s.alarms actorId with
  | none => exact written.schedule time false fun e b on => by simp [mapped] at on
  | some e =>
    by_cases waiting : (s.entry e).status = .waiting
    · simp only [mapped, waiting, ne_eq, not_true_eq_false, if_false]
      exact written.replaceIdle mapped (by simp [waiting]) time false
    · simp only [mapped, ne_eq, waiting, not_false_eq_true, if_true]
      have queued := written.setEntry e (f := fun a => { a with queuedAlarm := some time }) fun _ => ⟨rfl, rfl⟩
      exact { queued with }

theorem Shaped.cancel (shaped : Shaped s) (actorId : String) : Shaped (s.cancel actorId) := by
  have written := shaped.rows (deleteRow s.rows actorId)
  rw [LiveScheduler.cancel]
  cases mapped : s.alarms actorId with
  | none => simpa only [mapped] using written
  | some e =>
    cases behind : (s.entry e).queuedAlarm with
    | some queued =>
      by_cases running : (s.entry e).status = .started
      · simp only [mapped, behind, running, if_true]
        have unqueued := written.setEntry e (f := fun a => { a with queuedAlarm := none }) fun _ => ⟨rfl, rfl⟩
        exact { unqueued with }
      · simp only [mapped, behind, running, if_false]
        exact written.replaceIdle mapped running queued true
    | none =>
      by_cases running : (s.entry e).status = .started
      · simp only [mapped, behind, running, ne_eq, not_true_eq_false, if_false]
        exact { written with }
      · simp only [mapped, behind, ne_eq, running, not_false_eq_true, if_true]
        exact shaped.unmapped mapped running _

theorem Shaped.promoted (shaped : Shaped s) {e : Nat} (live : s.isLive e = true) (queued : Float) :
    Shaped (s.promoted e queued) :=
  (shaped.rows (updateRow s.rows (s.entry e).actorId fun row => row.setRunning 0)).replaced live queued false

theorem Shaped.postponed (shaped : Shaped s) {e : Nat} (live : s.isLive e = true) (r : AlarmResult) (b : Nat) :
    Shaped (s.postponed e r b) :=
  shaped.update live rfl rfl

theorem Shaped.cleared (shaped : Shaped s) : Shaped s.cleared := by
  refine ⟨fun a e mapped => by simp [LiveScheduler.cleared] at mapped, fun e live => ?_, shaped.later, ?_⟩
  · simp [LiveScheduler.cleared, isLive] at live
  · intro b e delivering _
    by_cases live : s.isLive e
    · simp [LiveScheduler.cleared, live]
    · have dropped := shaped.gone b e delivering (by simpa using live)
      simp [LiveScheduler.cleared, dropped]

/-- An entry of an alarm that is over leaves the map, and its task ends. -/
theorem cancel_ended {e : Nat} (live : s.isLive e = true) (alone : (s.entry e).queuedAlarm = none)
    (ended : (s.entry e).status ≠ .started) : s.cancel (s.entry e).actorId =
      { s with
        rows := deleteRow s.rows (s.entry e).actorId
        alarms := fun a => if a = (s.entry e).actorId then none else s.alarms a } := by
  rw [isLive_iff] at live
  simp [LiveScheduler.cancel, live, alone, ended]

theorem Shaped.finishForgotten (shaped : Shaped s) {e : Nat} (live : s.isLive e = true)
    (alone : (s.entry e).queuedAlarm = none) : Shaped ((s.finished e).forgotten e) := by
  have idle : Shaped ((s.finished e).setTask e (.sleeping none 0)) := shaped.update live rfl (by simp [Consistent])
  have still : ((s.finished e).setTask e (.sleeping none 0)).isLive e = true := by
    rw [← live]
    exact finished_isLive s e e
  have none' : (((s.finished e).setTask e (.sleeping none 0)).entry e).queuedAlarm = none := by
    simpa [setTask, finished_entry_self] using alone
  have ended : (((s.finished e).setTask e (.sleeping none 0)).entry e).status ≠ .started := by
    simp [setTask, finished_entry_self]
  have gone := cancel_isLive _ still none' ended
  have same : (s.finished e).forgotten e =
      (((s.finished e).setTask e (.sleeping none 0)).cancel ((s.finished e).entry e).actorId).setTask e .done := by
    rw [forgotten, cancel_ended (by rw [finished_isLive, live]) (by rw [finished_entry_self]; exact alone)
      (by rw [finished_entry_self]; simp)]
    have cancelled := cancel_ended still none' ended
    change _ = (((s.finished e).setTask e (.sleeping none 0)).cancel
      (((s.finished e).setTask e (.sleeping none 0)).entry e).actorId).setTask e .done
    rw [cancelled]
    simp only [setTask]
    congr 1
    funext i
    split <;> simp_all
  rw [same]
  exact (idle.cancel _).ended gone

theorem Shaped.forgotten (shaped : Shaped s) {e : Nat} (live : s.isLive e = true)
    (alone : (s.entry e).queuedAlarm = none) (ended : (s.entry e).status ≠ .started) : Shaped (s.forgotten e) :=
  (shaped.cancel _).ended (cancel_isLive s live alone ended)

theorem retried_eq (env : Env) (e : Nat) (r : AlarmResult) : s.retried env e r =
    ({ s with
      rows := updateRow s.rows (s.entry e).actorId fun row =>
        row.saveRetry (retryTime env (s.retryBackoff e r)) (s.retryBackoff e r + 1) (s.retryCount e r)
          r.retryCountsAgainstLimit }.setEntry e fun a =>
      { a with
        status := .finished
        backoff := s.retryBackoff e r + 1
        countedRetry := s.retryCount e r
        previousRetryCountedAgainstLimit := r.retryCountsAgainstLimit
        wakeTime := some (retryTime env (s.retryBackoff e r)) }).setTask e (.sleeping none 0) := by
  simp only [retried, finished_actorId, LiveScheduler.setEntry, setTask, finished]
  congr 1
  funext i
  split <;> rfl

theorem markedFailed_eq (e b : Nat) : (s.markedUnwoken e).startFailed e b =
    ((s.marked e).setEntry e fun a => { a with status := .waiting, wakeTime := none }).setTask e
      (.sleeping none (min retryBackoffMax b + 1)) := by
  simp only [startFailed, markedUnwoken, LiveScheduler.setEntry, setTask]
  congr 1
  funext i
  split <;> rfl

theorem set_live {e : Nat} (live : s.isLive e = true) (begun : (s.entry e).status ≠ .waiting) (time : Float) :
    (s.set (s.entry e).actorId time).isLive e = true := by
  rw [set_queues s live begun]
  simp only [isLive_iff] at live ⊢
  simp [setUnrecorded, LiveScheduler.setEntry, live]

/-- A deletion leaves an entry with a delivery in flight on the map. -/
theorem cancel_running {e : Nat} (live : s.isLive e = true) (running : (s.entry e).status = .started) :
    (s.cancel (s.entry e).actorId).isLive e = true := by
  rw [isLive_iff] at live
  rw [LiveScheduler.cancel]
  cases behind : (s.entry e).queuedAlarm <;>
    simp [live, behind, running, isLive, setUnrecorded, LiveScheduler.setEntry]

theorem Settled.shaped (shaped : Shaped s) {env : Env} {e b : Nat} {r : AlarmResult} {t : LiveScheduler}
    (live : s.isLive e = true) (outcome : Settled s env e r b t) : Shaped t := by
  cases outcome with
  | promote queued _ => exact shaped.promoted live queued
  | retry _ _ _ =>
    rw [retried_eq]
    exact (shaped.rows _).update live rfl (by simp [Consistent])
  | giveUp _ => exact shaped.update live rfl rfl
  | finish alone => exact shaped.finishForgotten live alone
  | postpone _ _ => exact shaped.postponed live r b

theorem Move.shaped {event : Event} {t : LiveScheduler} (shaped : Shaped s) (move : Move s event t) : Shaped t := by
  cases move with
  | idle => exact shaped
  | setAlarm actorId time _ => exact shaped.set actorId time
  | reconcile actorId time _ => exact shaped.set actorId time
  | deleteAlarm actorId _ => exact shaped.cancel actorId
  | deleteAll _ => exact shaped.cleared
  | ended _ e _ gone => exact shaped.ended gone
  | start e _ _ b live _ =>
    have begun : Shaped (({ s with rows := (s.marked e).rows }.setEntry e fun a =>
        { a with status := .started, wakeTime := none }).setTask e (.delivering b)) :=
      (shaped.rows _).update live rfl rfl
    exact { begun with }
  | startFailed e _ _ b live _ _ => exact shaped.update live rfl (by simp [Consistent])
  | markedFailed e _ _ b live _ _ =>
    rw [markedFailed_eq]
    exact (shaped.rows _).update live rfl (by simp [Consistent])
  | settle _ e _ r b live _ outcome => exact outcome.shaped shaped live
  | report e answer env r b live due outcome =>
    have ended := shaped.consistent e live
    rw [due] at ended
    have begun : (s.entry e).status ≠ .waiting := by simp [show (s.entry e).status = .finished from ended]
    cases outcome with
    | promote queued _ => exact shaped.promoted live queued
    | newer newer _ _ => exact (shaped.set _ newer).promoted (set_live live begun newer) newer
    | forget alone => exact shaped.forgotten live alone (by simp [show (s.entry e).status = .finished from ended])
    | postpone _ => exact shaped.postponed live r b
    | newerPostponed newer _ _ _ _ => exact (shaped.set _ newer).postponed (set_live live begun newer) r b

theorem schedule_actorId (a : String) (time : Float) (u : Bool) {i : Nat} (made : i < s.next) :
    ((s.schedule a time u).entry i).actorId = (s.entry i).actorId := by
  rw [schedule_entry_old (Nat.ne_of_lt made)]

theorem set_actorId (a : String) (time : Float) {i : Nat} (made : i < s.next) :
    ((s.set a time).entry i).actorId = (s.entry i).actorId := by
  rw [LiveScheduler.set]
  cases mapped : s.alarms a with
  | none => exact schedule_actorId (s := { s with rows := _ }) a time false made
  | some e =>
    simp only [mapped]
    split
    · simp only [LiveScheduler.setEntry, setUnrecorded]
      split <;> rfl
    · exact schedule_actorId (s := { s with rows := _ }) a time false made

theorem cancel_actorId (a : String) {i : Nat} (made : i < s.next) :
    ((s.cancel a).entry i).actorId = (s.entry i).actorId := by
  rw [LiveScheduler.cancel]
  cases mapped : s.alarms a with
  | none => simp only [mapped]
  | some e =>
    cases behind : (s.entry e).queuedAlarm with
    | some queued =>
      simp only [mapped, behind]
      split
      · simp only [LiveScheduler.setEntry, setUnrecorded]
        split <;> rfl
      · exact schedule_actorId (s := { s with rows := _ }) a queued true made
    | none =>
      simp only [mapped, behind]
      split <;> rfl

theorem postponed_actorId (e : Nat) (r : AlarmResult) (b i : Nat) :
    ((s.postponed e r b).entry i).actorId = (s.entry i).actorId := by
  simp only [LiveScheduler.postponed, LiveScheduler.setEntry, setTask]
  split <;> rfl

theorem promoted_actorId (e : Nat) (queued : Float) {i : Nat} (made : i < s.next) :
    ((s.promoted e queued).entry i).actorId = (s.entry i).actorId :=
  schedule_actorId (s := { s with rows := _ }) _ queued false made

theorem set_next (a : String) (time : Float) : s.next ≤ (s.set a time).next := by
  rw [LiveScheduler.set]
  cases mapped : s.alarms a with
  | none => exact Nat.le_succ _
  | some e =>
    simp only [mapped]
    split
    · exact Nat.le_refl _
    · exact Nat.le_succ _

/-- An entry keeps its actor. -/
theorem Move.actorId {event : Event} {t : LiveScheduler} (move : Move s event t) {i : Nat} (made : i < s.next) :
    (t.entry i).actorId = (s.entry i).actorId := by
  cases move with
  | idle => rfl
  | setAlarm a time => exact set_actorId a time made
  | reconcile a time => exact set_actorId a time made
  | deleteAlarm a => exact cancel_actorId a made
  | deleteAll => rfl
  | ended => rfl
  | start e =>
    simp only [started, markedUnwoken, marked, LiveScheduler.setEntry, setTask]
    split <;> rfl
  | startFailed e =>
    simp only [LiveScheduler.startFailed, LiveScheduler.setEntry, setTask]
    split <;> rfl
  | markedFailed e _ _ b =>
    rw [markedFailed_eq]
    simp only [marked, LiveScheduler.setEntry, setTask]
    split <;> rfl
  | settle _ e _ r b _ _ outcome =>
    cases outcome with
    | promote queued _ => exact promoted_actorId e queued made
    | retry =>
      rw [retried_eq]
      simp only [LiveScheduler.setEntry, setTask]
      split <;> rfl
    | giveUp => exact finished_actorId s e i
    | finish => exact (cancel_actorId (s := s.finished e) _ made).trans (finished_actorId s e i)
    | postpone => exact postponed_actorId e r b i
  | report e _ _ r b _ _ outcome =>
    cases outcome with
    | promote queued _ => exact promoted_actorId e queued made
    | newer newer _ _ =>
      exact (promoted_actorId e newer (Nat.lt_of_lt_of_le made (set_next _ newer))).trans (set_actorId _ newer made)
    | forget => exact cancel_actorId _ made
    | postpone => exact postponed_actorId e r b i
    | newerPostponed newer _ _ _ _ => exact (postponed_actorId e r b i).trans (set_actorId _ newer made)

theorem setTask_self (e : Nat) (task : Task) : (s.setTask e task).task e = task := by
  simp [setTask]

theorem setTask_other {e i : Nat} (other : i ≠ e) (task : Task) : (s.setTask e task).task i = s.task i := by
  simp [setTask, other]

theorem schedule_task {a : String} {time : Float} {u : Bool} {i : Nat}
    (busy : ((s.schedule a time u).task i).isBusy = true) : (s.schedule a time u).task i = s.task i := by
  by_cases fresh : i = s.next
  · simp [LiveScheduler.schedule, fresh, Task.isBusy] at busy
  · exact schedule_task_old fresh

theorem set_task {a : String} {time : Float} {i : Nat} (busy : ((s.set a time).task i).isBusy = true) :
    (s.set a time).task i = s.task i := by
  rw [LiveScheduler.set] at busy ⊢
  cases mapped : s.alarms a with
  | none =>
    simp only [mapped] at busy ⊢
    rw [schedule_task busy]
  | some e =>
    simp only [mapped] at busy ⊢
    split
    · rfl
    · rename_i waiting
      simp only [waiting, if_false] at busy
      rw [schedule_task busy]

theorem cancel_task {a : String} {i : Nat} (busy : ((s.cancel a).task i).isBusy = true) :
    (s.cancel a).task i = s.task i := by
  rw [LiveScheduler.cancel] at busy ⊢
  cases mapped : s.alarms a with
  | none => simp only [mapped]
  | some e =>
    cases behind : (s.entry e).queuedAlarm with
    | some queued =>
      simp only [mapped, behind] at busy ⊢
      split
      · rfl
      · rename_i idle
        simp only [idle, if_false] at busy
        rw [schedule_task busy]
    | none =>
      simp only [mapped, behind]
      split <;> rfl

theorem setTask_busy {e i : Nat} {task : Task} (idle : task.isBusy = false)
    (busy : ((s.setTask e task).task i).isBusy = true) : i ≠ e ∧ (s.setTask e task).task i = s.task i := by
  have other : i ≠ e := by
    rintro rfl
    rw [setTask_self, idle] at busy
    cases busy
  exact ⟨other, setTask_other other task⟩

theorem promoted_task {e i : Nat} {queued : Float} (busy : ((s.promoted e queued).task i).isBusy = true) :
    i ≠ e ∧ (s.promoted e queued).task i = s.task i := by
  obtain ⟨other, same⟩ := setTask_busy rfl busy
  refine ⟨other, same.trans ?_⟩
  rw [promoted, same] at busy
  rw [schedule_task busy]

theorem forgotten_task {e i : Nat} (busy : ((s.forgotten e).task i).isBusy = true) :
    i ≠ e ∧ (s.forgotten e).task i = s.task i := by
  obtain ⟨other, same⟩ := setTask_busy rfl busy
  refine ⟨other, same.trans ?_⟩
  rw [forgotten, same] at busy
  exact cancel_task busy

theorem postponed_task (e b i : Nat) (r : AlarmResult) :
    i = e ∧ (s.postponed e r b).task i = .sleeping (some r) (min retryBackoffMax b + 1) ∨
      i ≠ e ∧ (s.postponed e r b).task i = s.task i := by
  by_cases same : i = e
  · rw [same]
    exact .inl ⟨rfl, setTask_self e _⟩
  · exact .inr ⟨same, setTask_other same _⟩

/-- Where a task is busy after a step, the step left it alone, started its delivery, or took it on
    from an earlier await. -/
theorem Move.task {event : Event} {t : LiveScheduler} (move : Move s event t) {i : Nat}
    (busy : (t.task i).isBusy = true) :
    t.task i = s.task i ∨
      (s.isLive i = true ∧ (∃ b, s.task i = .sleeping none b) ∧ (∃ woken env, event = .wake i woken env) ∧
        ∃ b, t.task i = .delivering b) ∨
      (s.isLive i = true ∧ (s.task i).isBusy = true ∧ ∀ b, t.task i ≠ .delivering b) := by
  cases move with
  | idle => exact .inl rfl
  | setAlarm => exact .inl (set_task busy)
  | reconcile => exact .inl (set_task busy)
  | deleteAlarm => exact .inl (cancel_task busy)
  | deleteAll => exact .inl rfl
  | ended => exact .inl (setTask_busy rfl busy).2
  | start e woken env b live due =>
    by_cases same : i = e
    · subst same
      exact .inr (.inl ⟨live, ⟨b, due⟩, ⟨woken, env, rfl⟩, b, setTask_self i _⟩)
    · exact .inl (setTask_other same _)
  | startFailed e => exact .inl (setTask_busy rfl busy).2
  | markedFailed e => exact .inl (setTask_busy rfl busy).2
  | settle _ e _ r b live due outcome =>
    have was : (s.task e).isBusy = true := by rcases due with due | due <;> rw [due] <;> rfl
    cases outcome with
    | promote => exact .inl (promoted_task busy).2
    | retry =>
      rw [retried_eq] at busy ⊢
      exact .inl (setTask_busy rfl busy).2
    | giveUp =>
      by_cases same : i = e
      · subst same
        refine .inr (.inr ⟨live, was, fun b' => ?_⟩)
        rw [givenUp, setTask_self]
        simp
      · exact .inl (setTask_other same _)
    | finish => exact .inl (forgotten_task (s := s.finished e) busy).2
    | postpone =>
      rcases postponed_task e b i r with ⟨rfl, now⟩ | ⟨_, same⟩
      · refine .inr (.inr ⟨live, was, fun b' => ?_⟩)
        rw [now]
        simp
      · exact .inl same
  | report e _ _ r b live due outcome =>
    have was : (s.task e).isBusy = true := by rw [due]; rfl
    cases outcome with
    | promote => exact .inl (promoted_task busy).2
    | newer newer =>
      obtain ⟨_, same⟩ := promoted_task busy
      rw [same] at busy ⊢
      exact .inl (set_task busy)
    | forget => exact .inl (forgotten_task busy).2
    | postpone =>
      rcases postponed_task e b i r with ⟨rfl, now⟩ | ⟨_, same⟩
      · refine .inr (.inr ⟨live, was, fun b' => ?_⟩)
        rw [now]
        simp
      · exact .inl same
    | newerPostponed newer =>
      rcases postponed_task (s := s.set (s.entry e).actorId newer) e b i r with ⟨rfl, now⟩ | ⟨_, same⟩
      · refine .inr (.inr ⟨live, was, fun b' => ?_⟩)
        rw [now]
        simp
      · rw [same] at busy ⊢
        exact .inl (set_task busy)

theorem set_live_back {a : String} {time : Float} {i : Nat} (made : i < s.next)
    (live : (s.set a time).isLive i = true) : s.isLive i = true := by
  rw [isLive_iff, set_actorId a time made] at live
  rw [isLive_iff]
  rw [LiveScheduler.set] at live
  cases mapped : s.alarms a with
  | none =>
    simp only [mapped, LiveScheduler.schedule] at live
    split at live
    · exact absurd (Option.some.inj live) (Nat.ne_of_gt made)
    · exact live
  | some e =>
    simp only [mapped] at live
    split at live
    · exact live
    · simp only [LiveScheduler.schedule] at live
      split at live
      · exact absurd (Option.some.inj live) (Nat.ne_of_gt made)
      · exact live

theorem cancel_live_back {a : String} {i : Nat} (made : i < s.next) (live : (s.cancel a).isLive i = true) :
    s.isLive i = true := by
  rw [isLive_iff, cancel_actorId a made] at live
  rw [isLive_iff]
  rw [LiveScheduler.cancel] at live
  cases mapped : s.alarms a with
  | none => simpa only [mapped] using live
  | some e =>
    cases behind : (s.entry e).queuedAlarm with
    | some queued =>
      simp only [mapped, behind] at live
      split at live
      · exact live
      · simp only [LiveScheduler.schedule] at live
        split at live
        · exact absurd (Option.some.inj live) (Nat.ne_of_gt made)
        · exact live
    | none =>
      simp only [mapped, behind] at live
      split at live
      · dsimp only at live
        split at live
        · cases live
        · exact live
      · exact live

theorem promoted_live_back {e i : Nat} {queued : Float} (made : i < s.next)
    (live : (s.promoted e queued).isLive i = true) : s.isLive i = true := by
  rw [isLive_iff, promoted_actorId e queued made] at live
  rw [isLive_iff]
  simp only [LiveScheduler.promoted, LiveScheduler.schedule, setTask] at live
  split at live
  · exact absurd (Option.some.inj live) (Nat.ne_of_gt made)
  · exact live

/-- An entry on the map was there before. -/
theorem Move.live_back {event : Event} {t : LiveScheduler} (move : Move s event t) {i : Nat} (made : i < s.next)
    (live : t.isLive i = true) : s.isLive i = true := by
  have kept := move.actorId made
  have same : t.alarms = s.alarms → s.isLive i = true := by
    intro alarms
    rwa [isLive_iff, kept, alarms, ← isLive_iff] at live
  cases move with
  | idle => exact live
  | setAlarm => exact set_live_back made live
  | reconcile => exact set_live_back made live
  | deleteAlarm => exact cancel_live_back made live
  | deleteAll => simp [isLive, LiveScheduler.cleared] at live
  | ended => exact same rfl
  | start => exact same rfl
  | startFailed => exact same rfl
  | markedFailed => exact same rfl
  | settle _ e _ _ _ _ _ outcome =>
    cases outcome with
    | promote => exact promoted_live_back made live
    | retry => exact same rfl
    | giveUp => exact same rfl
    | finish =>
      rw [← finished_isLive s e i]
      exact cancel_live_back (s := s.finished e) made live
    | postpone => exact same rfl
  | report e _ _ _ _ _ _ outcome =>
    cases outcome with
    | promote => exact promoted_live_back made live
    | newer newer _ _ =>
      exact set_live_back made
        (promoted_live_back (Nat.lt_of_lt_of_le made (set_next (s.entry e).actorId newer)) live)
    | forget => exact cancel_live_back made live
    | postpone => exact same rfl
    | newerPostponed newer _ _ _ _ =>
      have before : (s.set (s.entry e).actorId newer).isLive i = true := by
        rw [isLive_iff, postponed_actorId] at live
        rw [isLive_iff]
        exact live
      exact set_live_back made before

theorem constructed_alarms {now : Float} {jitter : Nat → Nat} {rows : List AlarmRow} {opened : AlarmScheduler}
    (constructed : AlarmScheduler.construct now jitter rows = .ok opened) :
    ∀ pair ∈ opened.alarms, pair.2.actorId = pair.1 ∧ pair.2.status = .waiting ∧ pair.2.queuedAlarm = none := by
  simp only [AlarmScheduler.construct, except_bind_ok] at constructed
  obtain ⟨loaded, ok, same⟩ := constructed
  cases same
  intro pair member
  obtain ⟨turn, held, rfl⟩ := List.mem_map.1 member
  obtain ⟨row, _, ran⟩ := mapM_output_mem ok held
  unfold AlarmScheduler.loadRow at ran
  simp only [except_bind_ok] at ran
  obtain ⟨_, _, _, _, ran⟩ := ran
  split at ran <;> cases ran <;> exact ⟨rfl, rfl, rfl⟩

theorem Opened.shaped (opened : Opened s) : Shaped s := by
  obtain ⟨now, jitter, rows, loaded, _, constructed, rfl⟩ := opened
  have pairs := constructed_alarms constructed
  refine ⟨?_, ?_, ?_, fun b e delivering => ?_⟩
  · intro a e mapped
    obtain ⟨made, named, _⟩ := List.findIdx?_eq_some_iff_getElem.1 mapped
    simp only [decide_eq_true_eq] at named
    obtain ⟨owner, _, _⟩ := pairs _ (List.getElem_mem made)
    exact ⟨made, by simp [LiveScheduler.loaded, List.getElem?_eq_getElem made, owner, named]⟩
  · intro e live
    rw [isLive_iff] at live
    obtain ⟨made, _, _⟩ := List.findIdx?_eq_some_iff_getElem.1 live
    obtain ⟨_, waiting, _⟩ := pairs _ (List.getElem_mem made)
    simp [LiveScheduler.loaded, made, Consistent, waiting]
  · intro e later
    simp [LiveScheduler.loaded] at later ⊢
    omega
  · simp only [LiveScheduler.loaded] at delivering
    split at delivering <;> cases delivering

end Shape

end DoRuntime.Alarms.LiveScheduler
