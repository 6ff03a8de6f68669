import DoRuntime.Storage.LiveSteps

namespace DoRuntime.Storage.LiveActorSqlite

open Io Prog

/-- The step commits an implicit transaction or a root explicit one to the local database. -/
def CommitsLocally (s : LiveActorSqlite) (e : Event) : Prop :=
  match e.op with
  | .checkpoint | .startTransaction => True
  | .commit id => (s.txns id).parent = none
  | _ => False

def CommitsAlarm (s t : LiveActorSqlite) (A : Int) : Prop := t.db.durable = some A ∧ s.db.durable ≠ some A

def Known (s : LiveActorSqlite) (A : Int) : Prop := ∃ time, s.alarmScheduledNoLaterThan = some time ∧ time ≤ A

/-- `scheduleRun` was called for a time at or before `A` and did not throw. -/
def Asked (s : LiveActorSqlite) (A : Int) : Prop :=
  ∃ r, r < s.nextRequest ∧ ∃ time, (s.requests r).time = some time ∧ time ≤ A

/-- The step itself calls `scheduleRun`, and had the call thrown the local database would be as it was. -/
def AsksFirst (s : LiveActorSqlite) (e : Event) (t : LiveActorSqlite) (A : Int) : Prop :=
  (∃ r, s.nextRequest ≤ r ∧ r < t.nextRequest ∧ ∃ time, (t.requests r).time = some time ∧ time ≤ A) ∧
    ∀ u, step s { e with env := { e.env with scheduleThrows := true } } = some u → u.db.durable = s.db.durable

theorem willFireEarlier_of_unknown {s : LiveActorSqlite} {A : Int} (unknown : ¬ s.Known A) :
    willFireEarlier (some A) s.alarmScheduledNoLaterThan = true := by
  cases scheduled : s.alarmScheduledNoLaterThan with
  | none => rfl
  | some time =>
    have later : ¬ time ≤ A := fun known => unknown ⟨time, scheduled, known⟩
    simpa [willFireEarlier] using later

section Outlet

variable (env : Surroundings) (s : LiveActorSqlite)

/-- What a commit of the alarm in `s` has asked of the outlet by `u`. -/
def Arranged (u : LiveActorSqlite) : Prop :=
  willFireEarlier s.db.alarm s.alarmScheduledNoLaterThan = false ∨
  (s.pendingCommit ≠ none ∧ u.pendingCommit = s.pendingCommit ∧ u.nextRequest = s.nextRequest) ∨
  (s.pendingCommit = none ∧ env.scheduleThrows = false ∧ s.nextRequest < u.nextRequest ∧
    (u.requests s.nextRequest).time = s.db.alarm)

/-- A step is through with the outlet, and may have made the alarm in `s` durable. -/
def Past (u : LiveActorSqlite) : Prop :=
  s.Arranged env u ∧ (u.db.durable = s.db.durable ∨ u.db.durable = s.db.alarm)

def Over (u : LiveActorSqlite) : Prop := u.db.durable = s.db.durable ∨ s.Past env u

/-- Nothing is asked of the outlet, and nothing is committed. -/
def Quiet (u : LiveActorSqlite) : Prop :=
  u.db.durable = s.db.durable ∧ u.requests = s.requests ∧ u.nextRequest = s.nextRequest ∧
    u.pendingCommit = s.pendingCommit

variable {env s}

theorem Past.quiet {u v : LiveActorSqlite} (past : s.Past env u) (quiet : u.Quiet v) : s.Past env v := by
  obtain ⟨durable, requests, next, pending⟩ := quiet
  unfold Past Arranged at past ⊢
  rw [durable, requests, next, pending]
  exact past

theorem Over.quiet {u v : LiveActorSqlite} (done : s.Over env u) (quiet : u.Quiet v) : s.Over env v := by
  rcases done with same | past
  · exact .inl (quiet.1.trans same)
  · exact .inr (past.quiet quiet)

/-- Once no commit is pending, more may be asked. -/
theorem Past.idle {u v : LiveActorSqlite} (past : s.Past env u) (idle : u.pendingCommit = none)
    (durable : v.db.durable = u.db.durable) (next : u.nextRequest ≤ v.nextRequest)
    (requests : ∀ r, r < u.nextRequest → v.requests r = u.requests r) : s.Past env v := by
  obtain ⟨arranged, committed⟩ := past
  refine ⟨?_, by rwa [durable]⟩
  rcases arranged with early | ⟨pending, same, _⟩ | ⟨none, returned, below, time⟩
  · exact .inl early
  · exact absurd (same.symm.trans idle) pending
  · exact .inr (.inr ⟨none, returned, below.trans_le next, by rwa [requests _ below]⟩)

theorem dropImplicit_quiet (u : LiveActorSqlite) (t : Nat) :
    Ensures (fun v => v = u) (dropImplicit env t) (fun _ => u.Quiet) u.Quiet := by
  refine (dropImplicit_spec env u t).weaken (fun _ same => same) ?_ ?_
  · rintro _ v (⟨_, rfl⟩ | ⟨_, ⟨_, rfl⟩ | ⟨db, executed, rfl⟩⟩)
    · exact ⟨rfl, rfl, rfl, rfl⟩
    · exact ⟨rfl, rfl, rfl, rfl⟩
    · exact ⟨AlarmDatabase.exec_rollbackTransaction executed, rfl, rfl, rfl⟩
  · rintro v ⟨_, rfl⟩
    exact ⟨rfl, rfl, rfl, rfl⟩

theorem failing_quiet (u : LiveActorSqlite) (t : Nat) (exception : String) : u.Quiet (u.failing t exception) := by
  unfold failing
  split
  · exact ⟨rfl, rfl, rfl, rfl⟩
  · exact ⟨rfl, rfl, rfl, rfl⟩

theorem failTask_over (t : Nat) (exception : String) : Keeps (s.Over env) (failTask t exception) := by
  intro u done
  rw [failTask_run]
  exact done.quiet (failing_quiet u t exception)

theorem startPrecommitAlarmScheduling_arranged : Ensures (fun u => u = s) (startPrecommitAlarmScheduling env)
    (fun _ u => s.Arranged env u ∧ u.db = s.db) fun u => u.db = s.db := by
  refine (startPrecommitAlarmScheduling_spec env s).weaken (fun _ same => same) ?_ ?_
  · rintro _ u (⟨notDue, _, rfl⟩ | ⟨due, returned, _, rfl⟩)
    · refine ⟨?_, rfl⟩
      by_cases earlier : willFireEarlier u.db.alarm u.alarmScheduledNoLaterThan = true
      · exact .inr (.inl ⟨fun none => notDue ⟨none, earlier⟩, rfl, rfl⟩)
      · exact .inl (by simpa using earlier)
    · have time := requested_time { s with pendingLaterAlarmTime := none } s.db.alarm s.alarmLaterInFlight
      exact ⟨.inr (.inr ⟨due.1, returned, Nat.lt_succ_self _, time⟩), requested_db _ _ _⟩
  · rintro u ⟨_, rfl⟩
    rfl

theorem commitImplicit_past (u : LiveActorSqlite) (t : Nat) (arranged : s.Arranged env u) (same : u.db = s.db) :
    Ensures (fun v => v = u) (commitImplicit env t) (fun _ => s.Past env) (s.Over env) := by
  refine (commitImplicit_spec env u t).weaken (fun _ same => same) ?_ ?_
  · rintro _ v (⟨_, rfl⟩ | ⟨_, db, executed, rfl⟩)
    · exact ⟨arranged, .inl (by rw [same])⟩
    · have durable := AlarmDatabase.exec_commitTransaction executed
      rw [same] at durable
      exact ⟨arranged, .inr durable⟩
  · rintro v rfl
    exact .inl (by rw [same])

theorem commitImpl_past (t : Nat) (p : Option Nat) : Keeps (s.Past env) (commitImpl env t p) := by
  refine Ensures.each fun u past => (commitImpl_spec env u t p).weaken (fun _ same => same) ?_ ?_
  · rintro _ v (⟨k, _, rfl⟩ | ⟨idle, r, _, rfl⟩ | ⟨idle, _, _, rfl⟩ | ⟨idle, _, earlier, rfl⟩)
    · exact past.quiet ⟨rfl, rfl, rfl, rfl⟩
    · exact past.idle idle rfl (Nat.le_refl _) fun _ _ => rfl
    · exact past.idle idle rfl (Nat.le_refl _) fun _ _ => rfl
    · have durable := congrArg AlarmDatabase.durable (requested_db { u with pendingCommit := some t } u.db.alarm none)
      exact past.idle idle durable (Nat.le_succ _) fun r below =>
        requested_before { u with pendingCommit := some t } u.db.alarm none below
  · rintro v ⟨idle, _, _, exception, rfl⟩
    exact past.idle idle rfl (Nat.le_refl _) fun _ _ => rfl

theorem implicitCommit_past (t : Nat) : Ensures (fun u => u = s) (implicitCommit env t) (fun _ => s.Past env)
    (s.Over env) := by
  unfold implicitCommit
  apply Ensures.bind (Q := fun _ u => u = s)
  · exact (requireNotBroken_spec s).weaken (fun _ same => same) (fun _ _ checked => checked.2)
      fun u thrown => .inl (by rw [thrown.2])
  intro _
  apply Ensures.bind (Q := fun _ u => s.Arranged env u ∧ u.db = s.db)
  · exact startPrecommitAlarmScheduling_arranged.weaken (fun _ same => same) (fun _ _ arranged => arranged)
      fun u thrown => .inl (by rw [thrown])
  intro p
  apply Ensures.bind (Q := fun _ => s.Past env)
  · apply Ensures.attempt (F := s.Over env)
    · exact Ensures.each fun u arranged => commitImplicit_past u t arranged.1 arranged.2
    · intro exception
      apply Ensures.bind (Q := fun _ => s.Over env)
      · apply Ensures.each
        intro u thrown
        exact (requireNotBroken_spec u).weaken (fun _ same => same) (fun _ v checked => checked.2 ▸ thrown)
          fun v broken => broken.2 ▸ thrown
      · exact fun _ => Ensures.raise fun _ thrown => thrown
  intro _
  apply Ensures.bind (Q := fun _ => s.Past env)
  · apply Ensures.each
    intro u past
    exact (dropImplicit_quiet u t).weaken (fun _ same => same) (fun _ _ quiet => past.quiet quiet)
      fun _ quiet => .inr (past.quiet quiet)
  · intro _
    exact (commitImpl_past t p).weaken (fun _ past => past) (fun _ _ past => past) fun _ past => .inr past

theorem commitImpl_db (db : AlarmDatabase) (t : Nat) (p : Option Nat) :
    Keeps (fun u => u.db = db) (commitImpl env t p) := by
  refine Ensures.each fun u same => (commitImpl_spec env u t p).weaken (fun _ same => same) ?_ ?_
  · rintro _ v (⟨k, _, rfl⟩ | ⟨_, r, _, rfl⟩ | ⟨_, _, _, rfl⟩ | ⟨_, _, _, rfl⟩)
    · exact same
    · exact same
    · exact same
    · exact (requested_db { u with pendingCommit := some t } u.db.alarm none).trans same
  · rintro v ⟨_, _, _, exception, rfl⟩
    exact same

theorem deleteAllCommit_db (t : Nat) : Ensures (fun u => u = s) (deleteAllCommit env t) (fun _ u => u.db = s.db)
    fun u => u.db = s.db := by
  unfold deleteAllCommit
  apply Ensures.bind (Q := fun _ u => u = s)
  · exact (requireNotBroken_spec s).weaken (fun _ same => same) (fun _ _ checked => checked.2)
      fun u thrown => by rw [thrown.2]
  intro _
  apply Ensures.bind (Q := fun _ u => u.db = s.db)
  · exact Ensures.update fun u same => by rw [same]; rfl
  intro _
  apply Ensures.state
  intro u same
  cases u.currentTxn with
  | implicit i => exact Ensures.update fun v still => still.2
  | none | explicit id =>
    apply Ensures.bind (Q := fun _ v => v.db = s.db)
    · refine (startPrecommitAlarmScheduling_arranged (s := u)).weaken (fun _ same => same.1) ?_ ?_
      · exact fun _ v asked => asked.2.trans same
      · exact fun v thrown => thrown.trans same
    · exact fun p => commitImpl_db s.db t p

theorem checkpoint_over (t : Nat) : Ensures (fun u => u = s) (checkpoint env t) (fun _ => s.Over env) (s.Over env) := by
  unfold checkpoint
  apply Ensures.bind (Q := fun _ u => u = { s with evalLater := s.evalLater.tail })
  · exact Ensures.update fun u same => by rw [same]
  intro _
  apply Ensures.state
  intro u same
  have failed : ∀ exception, Keeps (s.Over env) (failTask t exception) := fun exception => failTask_over t exception
  cases (u.tasks t).kind with
  | implicit =>
    apply Ensures.attempt (F := s.Over env)
    · exact (implicitCommit_past t).weaken (fun v still => still.1.trans same) (fun _ _ past => .inr past)
        fun _ thrown => thrown
    · intro exception
      apply Ensures.attempt (F := s.Over env)
      · apply Ensures.bind (Q := fun _ => s.Over env)
        · apply Ensures.each
          intro v done
          exact (dropImplicit_quiet v t).weaken (fun _ same => same) (fun _ _ quiet => done.quiet quiet)
            fun _ quiet => done.quiet quiet
        · exact fun _ => failed exception
      · exact failed
  | root | deleteAll =>
    apply Ensures.attempt (F := s.Over env)
    · exact (deleteAllCommit_db t).weaken (fun v still => still.1.trans same) (fun _ v kept => .inl (by rw [kept]))
        fun v kept => .inl (by rw [kept])
    · exact failed

theorem Constructs.silent {v : LiveActorSqlite} {txn : LiveTxn} (constructs : s.Constructs v txn) :
    (v.db.durable = s.db.durable ∨ v.db.durable = s.db.alarm) ∧ v.nextRequest = s.nextRequest := by
  unfold Constructs at constructs
  cases current : s.currentTxn <;> rw [current] at constructs
  · rw [constructs.1]
    exact ⟨.inl rfl, rfl⟩
  · obtain ⟨rfl | ⟨db, executed, rfl⟩, _⟩ := constructs
    · exact ⟨.inl rfl, rfl⟩
    · exact ⟨.inr (AlarmDatabase.exec_commitTransaction executed), rfl⟩
  · rw [constructs.1]
    exact ⟨.inl rfl, rfl⟩

/-- The start of an explicit transaction asks nothing of the outlet. -/
theorem startTransaction_silent : Ensures (fun u => u = s) (startTransaction env)
    (fun _ u => (u.db.durable = s.db.durable ∨ u.db.durable = s.db.alarm) ∧ u.nextRequest = s.nextRequest)
    fun u => (u.db.durable = s.db.durable ∨ u.db.durable = s.db.alarm) ∧ u.nextRequest = s.nextRequest := by
  refine (startTransaction_spec env s).weaken (fun _ same => same) ?_ ?_
  · rintro _ u ⟨_, v, txn, db, constructs, executed, rfl⟩
    have silent := constructs.silent
    refine ⟨?_, silent.2⟩
    rw [show ({ v.begun txn with db } : LiveActorSqlite).db.durable = v.db.durable from
      AlarmDatabase.exec_savepoint executed]
    exact silent.1
  · rintro u (rfl | ⟨_, v, txn, constructs, rfl⟩)
    · exact ⟨.inl rfl, rfl⟩
    · exact constructs.silent

theorem commit_over {id : Nat} (isRoot : (s.txns id).parent = none) :
    Ensures (fun u => u = s) (commit env id) (fun _ => s.Over env) (s.Over env) := by
  unfold commit
  apply Ensures.bind (Q := fun _ u => u = s)
  · exact (requireNotBroken_spec s).weaken (fun _ same => same) (fun _ _ checked => checked.2)
      fun u thrown => .inl (by rw [thrown.2])
  intro _
  apply Ensures.state
  intro u same
  obtain rfl := same
  dsimp only
  split
  · exact Ensures.raise fun v still => .inl (by rw [still.1])
  rw [isRoot]
  dsimp only
  apply Ensures.bind (Q := fun _ v => u.Arranged env v ∧ v.db = u.db)
  · exact startPrecommitAlarmScheduling_arranged.weaken (fun _ still => still.1) (fun _ _ arranged => arranged)
      fun v thrown => .inl (by rw [thrown])
  intro p
  apply Ensures.bind (Q := fun _ => u.Past env)
  · apply Ensures.each
    intro v arranged
    refine (run_spec env v _).weaken (fun _ same => same) ?_ ?_
    · rintro _ w ⟨db, executed, rfl⟩
      refine ⟨arranged.1, ?_⟩
      have released := AlarmDatabase.exec_release executed
      rwa [arranged.2] at released
    · rintro w rfl
      exact .inl (by rw [arranged.2])
  intro _
  apply Ensures.bind (Q := fun _ => u.Past env)
  · exact Ensures.update fun v past => past.quiet ⟨rfl, rfl, rfl, rfl⟩
  intro _
  apply Ensures.bind (Q := fun _ => u.Past env)
  · apply Ensures.attempt (F := u.Past env)
    · apply Ensures.bind (Q := fun _ => u.Past env)
      · exact (commitImpl_past u.nextTask p).weaken (fun _ past => past) (fun _ _ past => past) fun _ past => past
      · exact fun _ => Ensures.pure fun _ past => past
    · exact fun exception => Ensures.pure fun _ past => past
  intro failure
  cases failure with
  | none =>
    have settled : Ensures (u.Past env) (Pure.pure () : Act Unit) (fun _ => u.Over env) (u.Over env) :=
      Ensures.pure fun _ past => .inr past
    split
    · apply Ensures.bind (Q := fun _ => u.Past env)
      · exact Ensures.update fun v past => past.quiet ⟨rfl, rfl, rfl, rfl⟩
      · exact fun _ => settled
    · exact settled
  | some exception =>
    have settled : Ensures (u.Past env) (failTask u.nextTask exception) (fun _ => u.Over env) (u.Over env) :=
      (failTask_over u.nextTask exception).weaken (fun _ past => .inr past) (fun _ _ done => done) fun _ done => done
    split
    · apply Ensures.bind (Q := fun _ => u.Past env)
      · exact Ensures.update fun v past => past.quiet ⟨rfl, rfl, rfl, rfl⟩
      · exact fun _ => settled
    · exact settled

end Outlet

section Sites

variable {s t : LiveActorSqlite} {e : Event} {A : Int}

theorem step_silent (start : e.op = .startTransaction) (stepped : step s e = some t) :
    (t.db.durable = s.db.durable ∨ t.db.durable = s.db.alarm) ∧ t.nextRequest = s.nextRequest := by
  unfold step at stepped
  rw [start] at stepped
  rw [← Option.some.inj stepped]
  exact (startTransaction_silent.reached (P := fun u => u = s)) rfl

theorem step_over (site : s.CommitsLocally e) (other : e.op ≠ .startTransaction) (stepped : step s e = some t) :
    s.Over e.env t := by
  unfold CommitsLocally at site
  unfold step at stepped
  cases op : e.op <;> simp only [op] at site stepped other
  case startTransaction => exact absurd rfl other
  case commit id =>
    split at stepped
    · rw [← Option.some.inj stepped]
      exact (commit_over site).reached (P := fun u => u = s) rfl
    · cases stepped
  case checkpoint =>
    cases later : s.evalLater with
    | nil => rw [later] at stepped; cases stepped
    | cons head rest =>
      rw [later] at stepped
      rw [← Option.some.inj stepped]
      exact (checkpoint_over head).reached (P := fun u => u = s) rfl

/-- A call of `scheduleRun` that is known or was made before covers the commit of `A`, or the step makes one. -/
def Preceded (s : LiveActorSqlite) (e : Event) (t : LiveActorSqlite) (A : Int) : Prop :=
  s.Known A ∨ s.Asked A ∨ AsksFirst s e t A

/-- Neither does an explicit transaction commit the implicit one before it, nor is another commit pending. -/
def Unhurried (s : LiveActorSqlite) (e : Event) : Prop := e.op ≠ .startTransaction ∧ s.pendingCommit = none

theorem asksFirst_iff (site : s.CommitsLocally e) (stepped : step s e = some t) (commits : CommitsAlarm s t A)
    (unknown : ¬ s.Known A) : AsksFirst s e t A ↔ s.Unhurried e := by
  have earlier := willFireEarlier_of_unknown unknown
  by_cases start : e.op = .startTransaction
  · have silent := (step_silent start stepped).2
    constructor
    · intro asks
      obtain ⟨⟨r, from_, below, _⟩, _⟩ := asks
      omega
    · exact fun unhurried => absurd start unhurried.1
  have reached : ∀ env u, step s { e with env } = some u → s.Over env u := fun env u stepped =>
    step_over (e := { e with env }) site start stepped
  rcases reached e.env t stepped with same | ⟨arranged, same | moved⟩
  · exact absurd (same.symm.trans commits.1) commits.2
  · exact absurd (same.symm.trans commits.1) commits.2
  have alarm : s.db.alarm = some A := moved.symm.trans commits.1
  unfold Arranged at arranged
  rw [alarm, earlier] at arranged
  rcases arranged with early | ⟨pending, _, silent⟩ | ⟨none, _, below, time⟩
  · cases early
  · constructor
    · intro asks
      obtain ⟨⟨r, from_, below, _⟩, _⟩ := asks
      omega
    · exact fun unhurried => absurd unhurried.2 pending
  · refine ⟨fun _ => ⟨start, none⟩, fun _ => ⟨⟨s.nextRequest, Nat.le_refl _, below, A, time, Int.le_refl A⟩, ?_⟩⟩
    intro u stepped
    rcases reached _ u stepped with same | ⟨arranged, same | _⟩
    · exact same
    · exact same
    · unfold Arranged at arranged
      rw [alarm, earlier] at arranged
      rcases arranged with early | ⟨pending, _⟩ | ⟨_, returned, _⟩
      · cases early
      · exact absurd none pending
      · cases returned

/-- In whatever state a run takes a step, a local commit of an alarm is preceded by its request to the outlet just
    when nothing hurries it. -/
theorem local_commit_preceded
    (site : s.CommitsLocally e) (stepped : step s e = some t) (commits : CommitsAlarm s t A) :
    Preceded s e t A ↔ s.Known A ∨ s.Asked A ∨ s.Unhurried e := by
  unfold Preceded
  by_cases known : s.Known A
  · exact ⟨fun _ => .inl known, fun _ => .inl known⟩
  · rw [asksFirst_iff site stepped commits known]

end Sites

section Runs

def calm : Surroundings where
  fails := fun _ => false
  scheduleThrows := false

def sets : Event := { op := .setAlarm (some 10) false false, env := calm }

def checks : Event := { op := .checkpoint, env := calm }

def begins : Event := { op := .startTransaction, env := calm }

def alarmSet : LiveActorSqlite := (setAlarm calm (some 10) false false (opened none)).2

theorem alarmSet_reached : Transition.Reaches step (fun _ _ => True) (opened none) alarmSet :=
  Transition.Reaches.head sets trivial rfl .refl

theorem checkpoint_preceded : Preceded alarmSet checks (checkpoint calm 0 alarmSet).2 10 :=
  (local_commit_preceded (e := checks) trivial rfl ⟨rfl, by decide⟩).2
    (.inr (.inr ⟨nofun, rfl⟩))

/-- A transaction that starts commits the alarm before anything is asked of the outlet. -/
theorem early_commit_not_preceded : ¬ ∀ (alarm : Option Int) (s t : LiveActorSqlite) (e : Event) (A : Int),
    Transition.Reaches step (fun _ _ => True) (opened alarm) s → s.CommitsLocally e → step s e = some t →
    CommitsAlarm s t A → Preceded s e t A := by
  intro claim
  have preceded := claim none alarmSet _ begins 10 alarmSet_reached trivial rfl ⟨rfl, by decide⟩
  rcases preceded with ⟨time, known, _⟩ | ⟨r, below, _⟩ | ⟨⟨r, _, below, _⟩, _⟩
  · cases known
  · exact absurd below (Nat.not_lt_zero r)
  · exact absurd below (Nat.not_lt_zero r)

end Runs

end DoRuntime.Storage.LiveActorSqlite
