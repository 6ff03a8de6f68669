import DoRuntime.Storage.LiveActorSqlite

namespace DoRuntime.Storage

section Statements

variable {db after : AlarmDatabase}

theorem AlarmDatabase.exec_commitTransaction (executed : db.exec .commitTransaction = some after) :
    after.durable = db.alarm := by
  simp only [exec] at executed
  split at executed
  · rw [← Option.some.inj executed]
  · cases executed

theorem AlarmDatabase.exec_rollbackTransaction (executed : db.exec .rollbackTransaction = some after) :
    after.durable = db.durable := by
  simp only [exec] at executed
  split at executed
  · rw [← Option.some.inj executed]
  · cases executed

theorem AlarmDatabase.exec_savepoint {name : Nat} (executed : db.exec (.savepoint name) = some after) :
    after.durable = db.durable := by
  rw [← Option.some.inj executed]

theorem AlarmDatabase.exec_release {name : Nat} (executed : db.exec (.release name) = some after) :
    after.durable = db.durable ∨ after.durable = db.alarm := by
  simp only [exec] at executed
  split at executed
  · cases executed
  · split at executed
    · rw [← Option.some.inj executed]
      exact .inr rfl
    · rw [← Option.some.inj executed]
      exact .inl rfl

end Statements

namespace LiveActorSqlite

open Io Prog

section Outlet

variable (env : Surroundings) (s : LiveActorSqlite)

theorem run_spec (statement : Statement) : Ensures (fun u => u = s) (run env statement)
    (fun _ u => ∃ db, s.db.exec statement = some db ∧ u = { s with db }) fun u => u = s := by
  intro u same
  subst same
  unfold run
  rw [state_bind]
  by_cases fails : env.fails statement = true
  · simp only [fails, if_true, raise_run]
  · simp only [fails, Bool.false_eq_true, if_false]
    cases executed : u.db.exec statement with
    | none => rfl
    | some db => exact ⟨db, rfl, rfl⟩

theorem requireNotBroken_spec : Ensures (fun u => u = s) requireNotBroken (fun _ u => s.broken = none ∧ u = s)
    fun u => s.broken.isSome = true ∧ u = s := by
  intro u same
  subst same
  unfold requireNotBroken
  rw [state_bind]
  cases broken : u.broken with
  | none => exact ⟨rfl, rfl⟩
  | some exception => exact ⟨rfl, rfl⟩

/-- A request that moves the alarm later counts at once. -/
def moved (time : Option Int) : LiveActorSqlite :=
  if willFireEarlier s.alarmScheduledNoLaterThan time then { s with alarmScheduledNoLaterThan := time } else s

def requested (time : Option Int) (priorTask : Option Nat) : LiveActorSqlite :=
  { s.moved time with
    requests := Function.update s.requests s.nextRequest
      { time, movingLater := willFireEarlier s.alarmScheduledNoLaterThan time, priorTask, answer := .pending }
    nextRequest := s.nextRequest + 1 }

@[simp]
theorem requested_db (time : Option Int) (priorTask : Option Nat) : (s.requested time priorTask).db = s.db := by
  unfold requested moved
  split <;> rfl

@[simp]
theorem requested_time (time : Option Int) (priorTask : Option Nat) :
    ((s.requested time priorTask).requests s.nextRequest).time = time := by
  simp [requested]

theorem requested_before (time : Option Int) (priorTask : Option Nat) {r : Nat} (before : r < s.nextRequest) :
    (s.requested time priorTask).requests r = s.requests r :=
  Function.update_of_ne (Nat.ne_of_lt before) _ _

theorem requestScheduledAlarm_spec (time : Option Int) (priorTask : Option Nat) :
    Ensures (fun u => u = s) (requestScheduledAlarm env time priorTask)
      (fun r u => env.scheduleThrows = false ∧ r = s.nextRequest ∧ u = s.requested time priorTask)
      fun u => u = s.moved time := by
  intro u same
  subst same
  unfold requestScheduledAlarm requested moved
  rw [state_bind]
  by_cases later : willFireEarlier u.alarmScheduledNoLaterThan time = true
  · simp only [later, if_true, update_bind]
    by_cases throws : env.scheduleThrows = true
    · simp only [throws, if_true, raise_run]
    · simp only [throws, if_false, Bool.false_eq_true]
      exact ⟨by simpa using throws, rfl, rfl⟩
  · simp only [later, if_false, Bool.false_eq_true]
    by_cases throws : env.scheduleThrows = true
    · simp only [throws, if_true]
      rfl
    · simp only [throws, if_false, Bool.false_eq_true]
      refine ⟨by simpa using throws, rfl, ?_⟩
      have sooner : willFireEarlier u.alarmScheduledNoLaterThan time = false := by simpa using later
      simp only [sooner, Bool.false_eq_true, if_false]

theorem moved_earlier {time : Option Int} (earlier : willFireEarlier time s.alarmScheduledNoLaterThan = true) :
    s.moved time = s := by
  unfold moved
  rw [if_neg]
  revert earlier
  cases time with
  | none => simp [willFireEarlier]
  | some a =>
    cases s.alarmScheduledNoLaterThan with
    | none => simp [willFireEarlier]
    | some b => grind [willFireEarlier]

/-- What `startPrecommitAlarmScheduling` asks of the outlet. -/
def Due (s : LiveActorSqlite) : Prop :=
  s.pendingCommit = none ∧ willFireEarlier s.db.alarm s.alarmScheduledNoLaterThan = true

theorem startPrecommitAlarmScheduling_spec : Ensures (fun u => u = s) (startPrecommitAlarmScheduling env)
    (fun p u => (¬ s.Due ∧ p = none ∧ u = s) ∨
      (s.Due ∧ env.scheduleThrows = false ∧ p = some s.nextRequest ∧
        u = requested { s with pendingLaterAlarmTime := none } s.db.alarm s.alarmLaterInFlight))
    fun u => s.Due ∧ u = { s with pendingLaterAlarmTime := none } := by
  intro u same
  subst same
  unfold startPrecommitAlarmScheduling
  rw [state_bind]
  by_cases due : u.Due
  · rw [if_pos (show u.pendingCommit = none ∧ _ from due), update_bind]
    have asked := requestScheduledAlarm_spec env { u with pendingLaterAlarmTime := none } u.db.alarm u.alarmLaterInFlight _ rfl
    rw [bind_run]
    rcases ran : requestScheduledAlarm env u.db.alarm u.alarmLaterInFlight { u with pendingLaterAlarmTime := none }
      with ⟨_ | r, v⟩ <;> simp only [ran] at asked ⊢
    · refine ⟨due, asked.trans ?_⟩
      exact moved_earlier { u with pendingLaterAlarmTime := none } due.2
    · exact .inr ⟨due, asked.1, by rw [asked.2.1], asked.2.2⟩
  · rw [if_neg (show ¬ (u.pendingCommit = none ∧ _) from due)]
    exact .inl ⟨due, rfl, rfl⟩

/-- A commit calls `#commitCallback`. -/
def called (t : Nat) : LiveActorSqlite :=
  { s.setPhase t (.persisting s.nextCallback s.db.alarm s.alarmVersion) with
    callbacks := Function.update s.callbacks s.nextCallback .pending
    nextCallback := s.nextCallback + 1
    pendingCommit := none }

def sharing (t : Nat) (exception : String) : LiveActorSqlite :=
  s.setTask t fun task =>
    { task with shared := if task.shared = .pending then .rejected exception else task.shared }

theorem commitLoop_spec (t : Nat) : Ensures (fun u => u = s) (commitLoop env t)
    (fun _ u =>
      (willFireEarlier s.db.alarm s.alarmScheduledNoLaterThan = false ∧ u = s.called t) ∨
      (willFireEarlier s.db.alarm s.alarmScheduledNoLaterThan = true ∧
        u = (s.requested s.db.alarm none).setPhase t (.scheduling s.nextRequest)))
    fun u => willFireEarlier s.db.alarm s.alarmScheduledNoLaterThan = true ∧ u = s := by
  intro u same
  subst same
  unfold commitLoop
  rw [state_bind]
  by_cases earlier : willFireEarlier u.db.alarm u.alarmScheduledNoLaterThan = true
  · simp only [earlier, if_true]
    have asked := requestScheduledAlarm_spec env u u.db.alarm none u rfl
    rw [bind_run]
    rcases ran : requestScheduledAlarm env u.db.alarm none u with ⟨_ | r, v⟩ <;> simp only [ran] at asked ⊢
    · exact ⟨trivial, asked.trans (moved_earlier u earlier)⟩
    · obtain ⟨_, rfl, rfl⟩ := asked
      exact .inr ⟨trivial, rfl⟩
  · simp only [earlier, if_false, Bool.false_eq_true]
    exact .inl ⟨trivial, rfl⟩

/-- What `commitImpl` does up to its first await, or throws. -/
theorem commitImpl_spec (t : Nat) (p : Option Nat) : Ensures (fun u => u = s) (commitImpl env t p)
    (fun _ u =>
      (∃ k, s.pendingCommit = some k ∧ u = s.setPhase t (.merged k)) ∨
      (s.pendingCommit = none ∧ ∃ r, p = some r ∧ u = { s with pendingCommit := some t }.setPhase t (.scheduling r)) ∨
      (s.pendingCommit = none ∧ p = none ∧ willFireEarlier s.db.alarm s.alarmScheduledNoLaterThan = false ∧
        u = { s with pendingCommit := some t }.called t) ∨
      (s.pendingCommit = none ∧ p = none ∧ willFireEarlier s.db.alarm s.alarmScheduledNoLaterThan = true ∧
        u = (requested { s with pendingCommit := some t } s.db.alarm none).setPhase t (.scheduling s.nextRequest)))
    fun u => s.pendingCommit = none ∧ p = none ∧ willFireEarlier s.db.alarm s.alarmScheduledNoLaterThan = true ∧
      ∃ exception, u = { s with pendingCommit := some t }.sharing t exception := by
  intro u same
  subst same
  unfold commitImpl
  rw [state_bind]
  cases pending : u.pendingCommit with
  | some k => exact .inl ⟨k, rfl, rfl⟩
  | none =>
    dsimp only
    rw [update_bind]
    cases p with
    | some r => exact .inr (.inl ⟨rfl, r, rfl, rfl⟩)
    | none =>
      dsimp only
      have looped := commitLoop_spec env { u with pendingCommit := some t } t _ rfl
      unfold orReject
      rcases ran : commitLoop env t { u with pendingCommit := some t } with ⟨exception | _, v⟩ <;>
        simp only [ran] at looped
      · rw [attempt_run_error ran]
        obtain ⟨earlier, rfl⟩ := looped
        exact ⟨rfl, rfl, earlier, exception, rfl⟩
      · rw [attempt_run_ok ran]
        rcases looped with ⟨later, rfl⟩ | ⟨earlier, rfl⟩
        · exact .inr (.inr (.inl ⟨rfl, rfl, later, rfl⟩))
        · exact .inr (.inr (.inr ⟨rfl, rfl, earlier, rfl⟩))

end Outlet

section Implicit

variable (env : Surroundings) (s : LiveActorSqlite)

def opening : LiveActorSqlite :=
  { s.addTask .implicit with
    implicits := Function.update s.implicits s.nextTask
      { committed := false, dropped := false, someWriteConfirmed := false }
    currentTxn := .implicit s.nextTask
    evalLater := s.evalLater ++ [s.nextTask]
    lastCommit := some s.nextTask }

theorem startImplicitTxn_spec : Ensures (fun u => u = s) (startImplicitTxn env)
    (fun _ u => s.currentTxn = .none ∧ ∃ db, s.db.exec .beginTransaction = some db ∧ u = opening { s with db })
    fun u => u = s := by
  intro u same
  subst same
  unfold startImplicitTxn
  rw [state_bind]
  by_cases idle : u.currentTxn = .none
  · rw [if_neg (not_not.2 idle)]
    have ran := run_spec env u .beginTransaction u rfl
    rw [bind_run]
    rcases begun : run env .beginTransaction u with ⟨_ | _, v⟩ <;> simp only [begun] at ran ⊢
    · exact ran
    · obtain ⟨db, executed, rfl⟩ := ran
      exact ⟨idle, db, executed, rfl⟩
  · rw [if_pos idle]
    rfl

/-- The local commit of an implicit transaction. -/
def localCommit (t : Nat) : LiveActorSqlite :=
  (s.setImplicit t fun txn => { txn with committed := true }).setSince t

theorem commitImplicit_spec (t : Nat) : Ensures (fun u => u = s) (commitImplicit env t)
    (fun _ u => ((s.implicits t).committed = true ∧ u = s) ∨
      ((s.implicits t).committed = false ∧ ∃ db, s.db.exec .commitTransaction = some db ∧
        u = localCommit { s with db } t))
    fun u => u = s := by
  intro u same
  subst same
  unfold commitImplicit
  rw [state_bind]
  by_cases committed : (u.implicits t).committed = true
  · rw [if_pos committed]
    exact .inl ⟨committed, rfl⟩
  · rw [if_neg committed]
    have ran := run_spec env u .commitTransaction u rfl
    rw [bind_run]
    rcases done : run env .commitTransaction u with ⟨_ | _, v⟩ <;> simp only [done] at ran ⊢
    · exact ran
    · obtain ⟨db, executed, rfl⟩ := ran
      exact .inr ⟨by simpa using committed, db, executed, rfl⟩

/-- The transaction is not the current one any more. -/
def leaving (t : Nat) : LiveActorSqlite :=
  { s.setImplicit t fun txn => { txn with dropped := true } with
    currentTxn := if s.currentTxn = .implicit t then .none else s.currentTxn }

theorem dropImplicit_spec (t : Nat) : Ensures (fun u => u = s) (dropImplicit env t)
    (fun _ u => ((s.implicits t).dropped = true ∧ u = s) ∨
      ((s.implicits t).dropped = false ∧
        (((s.implicits t).committed = true ∨ s.broken.isSome = true) ∧ u = s.leaving t ∨
          ∃ db, s.db.exec .rollbackTransaction = some db ∧ u = { s.leaving t with db })))
    fun u => (s.implicits t).dropped = false ∧ u = s.leaving t := by
  intro u same
  subst same
  unfold dropImplicit
  rw [state_bind]
  by_cases dropped : (u.implicits t).dropped = true
  · rw [if_pos dropped]
    exact .inl ⟨dropped, rfl⟩
  · rw [if_neg dropped, update_bind]
    have undropped : (u.implicits t).dropped = false := by simpa using dropped
    by_cases over_ : (u.implicits t).committed = true ∨ u.broken.isSome = true
    · rw [if_pos over_]
      exact .inr ⟨undropped, .inl ⟨over_, rfl⟩⟩
    · rw [if_neg over_]
      have ran := run_spec env (u.leaving t) .rollbackTransaction _ rfl
      rcases done : run env .rollbackTransaction (u.leaving t) with ⟨exception | _, v⟩ <;> simp only [done] at ran
      · have thrown : run env .rollbackTransaction
          { u.setImplicit t fun txn => { txn with dropped := true } with
            currentTxn := if u.currentTxn = .implicit t then .none else u.currentTxn } = (.error exception, v) := done
        rw [thrown]
        exact ⟨undropped, ran⟩
      · obtain ⟨db, executed, rfl⟩ := ran
        have returned : run env .rollbackTransaction
          { u.setImplicit t fun txn => { txn with dropped := true } with
            currentTxn := if u.currentTxn = .implicit t then .none else u.currentTxn } =
              (.ok (), { u.leaving t with db }) := done
        rw [returned]
        exact .inr ⟨undropped, .inr ⟨db, executed, rfl⟩⟩

/-- The promise of a task has rejected. -/
def failing (t : Nat) (exception : String) : LiveActorSqlite :=
  if (s.tasks t).kind = .deleteAll then s.setPhase t (.rejected exception)
  else (s.setPhase t (.rejected exception)).lockWhile (.rejection exception)

theorem failTask_run (t : Nat) (exception : String) : failTask t exception s = (.ok (), s.failing t exception) := by
  have kind : ((s.setPhase t (.rejected exception)).tasks t).kind = (s.tasks t).kind := by
    simp [setPhase, setTask]
  unfold failTask failing
  rw [update_run]
  simp only [kind]

end Implicit

section Explicit

variable (env : Surroundings) (s : LiveActorSqlite)

def rootTxn : LiveTxn where
  parent := none
  depth := 0
  hasChild := false
  committed := false
  dropped := false
  alarmDirty := false
  someWriteConfirmed := false

/-- What the constructor of `ExplicitTxn` does before the new transaction is current. -/
def Constructs (v : LiveActorSqlite) (txn : LiveTxn) : Prop :=
  match s.currentTxn with
  | .none => v = s ∧ txn = rootTxn
  | .implicit t =>
    (v = s ∨ ∃ db, s.db.exec .commitTransaction = some db ∧ v = localCommit { s with db } t) ∧ txn = rootTxn
  | .explicit id =>
    v = (s.setTxn id fun txn => { txn with hasChild := true }) ∧
      txn = { s.txns id with
        parent := some id
        depth := (s.txns id).depth + 1
        hasChild := false
        committed := false
        dropped := false }

def begun (txn : LiveTxn) : LiveActorSqlite :=
  { s with
    txns := Function.update s.txns s.nextTxn txn
    currentTxn := .explicit s.nextTxn
    nextTxn := s.nextTxn + 1 }

theorem startTransaction_spec : Ensures (fun u => u = s) (startTransaction env)
    (fun _ u => s.broken = none ∧ ∃ v txn db, s.Constructs v txn ∧
      v.db.exec (.savepoint (savepointName txn.depth)) = some db ∧ u = { v.begun txn with db })
    fun u => u = s ∨ (s.broken = none ∧ ∃ v txn, s.Constructs v txn ∧ u = v.begun txn) := by
  unfold startTransaction
  apply Ensures.bind (Q := fun _ u => s.broken = none ∧ u = s)
  · exact (requireNotBroken_spec s).weaken (fun _ same => same) (fun _ _ checked => checked)
      fun _ thrown => .inl thrown.2
  intro _
  apply Ensures.each
  intro u checked
  obtain ⟨sound, rfl⟩ := checked
  have tail : ∀ (v : LiveActorSqlite) (txn : LiveTxn), u.Constructs v txn →
      Ensures (fun w => w = v)
        (update (fun s : LiveActorSqlite =>
          { s with
            txns := Function.update s.txns s.nextTxn txn
            currentTxn := .explicit s.nextTxn
            nextTxn := s.nextTxn + 1 }) >>= fun _ => run env (.savepoint (savepointName txn.depth)))
        (fun _ w => u.broken = none ∧ ∃ v txn db, u.Constructs v txn ∧
          v.db.exec (.savepoint (savepointName txn.depth)) = some db ∧ w = { v.begun txn with db })
        fun w => w = u ∨ (u.broken = none ∧ ∃ v txn, u.Constructs v txn ∧ w = v.begun txn) := by
    intro v txn constructs
    apply Ensures.bind (Q := fun _ w => w = v.begun txn)
    · exact Ensures.update fun w same => by rw [same]; rfl
    · intro _
      refine (run_spec env (v.begun txn) _).weaken (fun _ same => same) ?_ ?_
      · rintro _ w ⟨db, executed, rfl⟩
        exact ⟨sound, v, txn, db, constructs, executed, rfl⟩
      · rintro w rfl
        exact .inr ⟨sound, v, txn, constructs, rfl⟩
  apply Ensures.state
  intro v same
  obtain rfl := same
  cases current : v.currentTxn with
  | none =>
    have constructs : v.Constructs v rootTxn := by
      unfold Constructs
      rw [current]
      exact ⟨rfl, rfl⟩
    exact (tail v rootTxn constructs).weaken (fun _ still => still.1) (fun _ _ done => done) fun _ done => done
  | implicit t =>
    apply Ensures.bind (Q := fun _ w => v.Constructs w rootTxn)
    · refine (commitImplicit_spec env v t).weaken (fun _ still => still.1) ?_ fun w same => .inl same
      rintro _ w (⟨_, rfl⟩ | ⟨_, db, executed, rfl⟩) <;> unfold Constructs <;> rw [current]
      · exact ⟨.inl rfl, rfl⟩
      · exact ⟨.inr ⟨db, executed, rfl⟩, rfl⟩
    · intro _
      apply Ensures.each
      intro w constructs
      exact tail w rootTxn constructs
  | explicit id =>
    dsimp only
    split
    · exact fun w still => .inl still.1
    · apply Ensures.bind (Q := fun _ w => w = v.setTxn id fun txn => { txn with hasChild := true })
      · exact Ensures.update fun w still => by rw [still.1]
      · intro _
        apply tail
        unfold Constructs
        rw [current]
        exact ⟨rfl, rfl⟩

end Explicit

end LiveActorSqlite

end DoRuntime.Storage
