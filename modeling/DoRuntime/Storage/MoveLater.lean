import DoRuntime.Storage.ScheduleFirst

namespace DoRuntime.Storage.LiveActorSqlite

open Io Prog Transition

/-- The time that the step is to have scheduled by `#scheduleLaterAlarm`: a commit whose callback succeeded moves the
alarm later, or a completion handler takes up the time that was parked. -/
def wantsLater (s : LiveActorSqlite) (e : Event) : Option (Option Int) :=
  match e.op with
  | .resume t =>
    match (s.tasks t).phase with
    | .persisting callback alarm version =>
      if s.callbacks callback = .fulfilled ∧ s.alarmVersion = version ∧
          willFireEarlier s.alarmScheduledNoLaterThan alarm = true then some alarm
      else none
    | _ => none
  | .laterDone =>
    match s.pendingLaterAlarmTime with
    | some time => if willFireEarlier s.db.alarm time then none else some time
    | none => none
  | _ => none

/-- The time for which the step calls `scheduleRun` there: a commit parks its time while a request is in flight. -/
def callsLater (s : LiveActorSqlite) (e : Event) : Option (Option Int) :=
  match e.op with
  | .resume _ => if s.alarmLaterIsInFlight then none else s.wantsLater e
  | _ => s.wantsLater e

/-- An actor with the requests that `#scheduleLaterAlarm` made. -/
structure Watched where
  actor : LiveActorSqlite
  later : List Nat

def watch (w : Watched) (e : Event) : Option Watched :=
  (step w.actor e).map fun t =>
    ⟨t, if w.actor.callsLater e ≠ none ∧ e.env.scheduleThrows = false then w.later ++ [w.actor.nextRequest] else w.later⟩

/-- `scheduleRun` does not throw where the step calls it to move the alarm later. It may still reject. -/
def Calm (w : Watched) (e : Event) : Prop := w.actor.callsLater e ≠ none → e.env.scheduleThrows = false

/-- No commit waits for a request that moves the alarm later, and the flag is up exactly while the completion handler
of such a request is still to run, which takes up whatever time is parked. -/
structure Later (later : List Nat) (s : LiveActorSqlite) : Prop where
  made : ∀ r ∈ later, r < s.nextRequest
  awaits : ∀ t r, (s.tasks t).phase = .scheduling r → r < s.nextRequest ∧ r ∉ later
  handler : ∀ r, s.laterHandler = some r → r ∈ later
  flag : s.alarmLaterIsInFlight = true ↔ s.laterHandler ≠ none
  parked : s.pendingLaterAlarmTime ≠ none → s.alarmLaterIsInFlight = true

/-- The step does not touch the output gate, break the actor or reject a task. -/
def Unseen (s u : LiveActorSqlite) : Prop :=
  u.gate = s.gate ∧ u.broken = s.broken ∧
    ∀ t exception, (u.tasks t).phase = .rejected exception → (s.tasks t).phase = .rejected exception

/-- What becomes of a request that moves the alarm later is absorbed, and a wish for one is followed. -/
structure Absorbs (w : Watched) (e : Event) (w' : Watched) : Prop where
  quiet : (w.actor.callsLater e ≠ none ∨ e.op = .laterDone ∨
      ∃ r ∈ w.later, ∃ exception, e.op = .answer r (.rejected exception)) → Unseen w.actor w'.actor
  issues : ∀ time, w.actor.callsLater e = some time → e.env.scheduleThrows = false →
    w'.actor.nextRequest = w.actor.nextRequest + 1 ∧ (w'.actor.requests w.actor.nextRequest).time = time ∧
      w'.actor.laterHandler = some w.actor.nextRequest
  parks : ∀ time, w.actor.wantsLater e = some time → w.actor.callsLater e = none →
    w'.actor.pendingLaterAlarmTime = some time ∧ w'.actor.laterHandler = w.actor.laterHandler

structure Steady (low : Nat) (later : List Nat) (s : LiveActorSqlite) : Prop extends Later later s where
  low : low ≤ s.nextRequest

/-- What `Later` reads of the state, but for the phases of the tasks. -/
structure Unmoved (s u : LiveActorSqlite) : Prop where
  requests : s.nextRequest ≤ u.nextRequest
  handler : u.laterHandler = s.laterHandler
  flag : u.alarmLaterIsInFlight = s.alarmLaterIsInFlight
  parked : u.pendingLaterAlarmTime = s.pendingLaterAlarmTime ∨ u.pendingLaterAlarmTime = none

section Frame

variable {low : Nat} {later : List Nat} {s u : LiveActorSqlite}

theorem Steady.unmoved (kept : Steady low later s) (unmoved : Unmoved s u)
    (phases : ∀ t r, (u.tasks t).phase = .scheduling r → (s.tasks t).phase = .scheduling r) :
    Steady low later u where
  made r member := (kept.made r member).trans_le unmoved.requests
  awaits t r waits := by
    have known := kept.awaits t r (phases t r waits)
    exact ⟨known.1.trans_le unmoved.requests, known.2⟩
  low := kept.low.trans unmoved.requests
  handler := by
    rw [unmoved.handler]
    exact kept.handler
  flag := by
    rw [unmoved.handler, unmoved.flag]
    exact kept.flag
  parked set := by
    rw [unmoved.flag]
    rcases unmoved.parked with same | none
    · exact kept.parked (same ▸ set)
    · exact absurd none set

/-- A step that sets no task to wait. -/
theorem Steady.same (kept : Steady low later s) (unmoved : Unmoved s u) (tasks : u.tasks = s.tasks) : Steady low later u :=
  kept.unmoved unmoved fun t r waits => by rw [← tasks]; exact waits

theorem setTask_phase (s : LiveActorSqlite) (t k : Nat) (f : CommitTask → CommitTask) :
    ((s.setTask t f).tasks k).phase = if k = t then (f (s.tasks t)).phase else (s.tasks k).phase := by
  unfold setTask
  dsimp only
  rw [Function.update_apply]
  split <;> rfl

theorem Unmoved.refl (s : LiveActorSqlite) : Unmoved s s := ⟨le_rfl, rfl, rfl, .inl rfl⟩

/-- One task leaves its phase for one that waits for no request, or for a fresh one. -/
theorem Steady.setTask (kept : Steady low later s) (t : Nat) {f : CommitTask → CommitTask}
    (phase : ∀ r, (f (s.tasks t)).phase = .scheduling r → (s.tasks t).phase = .scheduling r ∨ (r < s.nextRequest ∧ r ∉ later)) :
    Steady low later (s.setTask t f) where
  made := kept.made
  awaits k r waits := by
    rw [setTask_phase] at waits
    split at waits
    case isTrue here =>
      rcases phase r waits with before | outside
      · exact kept.awaits t r before
      · exact outside
    case isFalse => exact kept.awaits k r waits
  low := kept.low
  handler := kept.handler
  flag := kept.flag
  parked := kept.parked

theorem Steady.setPhase (kept : Steady low later s) (t : Nat) {phase : TaskPhase}
    (waits : ∀ r, phase = .scheduling r → r < s.nextRequest ∧ r ∉ later) : Steady low later (s.setPhase t phase) :=
  kept.setTask t fun r same => .inr (waits r same)

theorem Steady.setSince (kept : Steady low later s) (t : Nat) : Steady low later (s.setSince t) :=
  kept.setTask t fun _ same => .inl same

theorem Steady.addTask (kept : Steady low later s) (kind : TaskKind) : Steady low later (s.addTask kind) := by
  apply kept.unmoved
  · exact ⟨le_rfl, rfl, rfl, .inl rfl⟩
  · intro t r waits
    unfold LiveActorSqlite.addTask at waits
    dsimp only at waits
    rw [Function.update_apply] at waits
    split at waits
    · cases waits
    · exact waits

theorem Steady.failing (kept : Steady low later s) (t : Nat) (exception : String) : Steady low later (s.failing t exception) := by
  have failed : Steady low later (s.setPhase t (.rejected exception)) := kept.setPhase t fun r impossible => by cases impossible
  unfold LiveActorSqlite.failing
  split
  · exact failed
  · exact failed.same ⟨le_rfl, rfl, rfl, .inl rfl⟩ rfl

theorem Steady.moved (kept : Steady low later s) (time : Option Int) : Steady low later (s.moved time) := by
  unfold LiveActorSqlite.moved
  split
  · exact kept.same ⟨le_rfl, rfl, rfl, .inl rfl⟩ rfl
  · exact kept

theorem Steady.requested (kept : Steady low later s) (time : Option Int) (priorTask : Option Nat) :
    Steady low later (s.requested time priorTask) := by
  have moved := kept.moved time
  have next : (s.moved time).nextRequest = s.nextRequest := by
    unfold LiveActorSqlite.moved
    split <;> rfl
  apply moved.same
  · exact ⟨next.le.trans (Nat.le_succ _), rfl, rfl, .inl rfl⟩
  · rfl

/-- A request that was just made is none of those made before. -/
theorem Steady.fresh (kept : Steady low later s) : s.nextRequest ∉ later :=
  fun member => absurd (kept.made _ member) (Nat.lt_irrefl _)

theorem Steady.here (kept : Steady low later s) : Steady s.nextRequest later s := { kept with low := le_rfl }

theorem Steady.since {n : Nat} (kept : Steady n later s) (before : low ≤ n) : Steady low later s :=
  { kept with low := before.trans kept.low }

end Frame

section Operations

variable {low : Nat} {later : List Nat} (env : Surroundings)

/-- A conditional step and what follows it. -/
theorem branch {α : Type} {I : LiveActorSqlite → Prop} {c : Prop} [Decidable c] {m : Act Unit} {rest : Unit → Act α}
    (first : Keeps I m) (kept : Keeps I (rest ())) : Keeps I (if c then m >>= rest else rest ()) := by
  split
  · exact Keeps.bind first fun _ => kept
  · exact kept

theorem branch_else {α : Type} {I : LiveActorSqlite → Prop} {c : Prop} [Decidable c] {m : Act Unit} {rest : Unit → Act α}
    (first : Keeps I m) (kept : Keeps I (rest ())) : Keeps I (if c then rest () else m >>= rest) := by
  split
  · exact kept
  · exact Keeps.bind first fun _ => kept

/-- An update of what `Later` does not read. -/
theorem aside {f : LiveActorSqlite → LiveActorSqlite} (unmoved : ∀ s, Unmoved s (f s))
    (tasks : ∀ s, (f s).tasks = s.tasks) : Keeps (Steady low later) (Prog.update f : Act Unit) :=
  Keeps.update fun s kept => kept.same (unmoved s) (tasks s)

theorem run_later (statement : Statement) : Keeps (Steady low later) (run env statement) := by
  apply Ensures.each
  intro s kept
  refine (run_spec env s statement).weaken (fun _ same => same) ?_ ?_
  · rintro _ u ⟨db, -, rfl⟩
    exact kept.same ⟨le_rfl, rfl, rfl, .inl rfl⟩ rfl
  · rintro u rfl
    exact kept

theorem requireNotBroken_later : Keeps (Steady low later) requireNotBroken := by
  apply Ensures.each
  intro s kept
  refine (requireNotBroken_spec s).weaken (fun _ same => same) ?_ ?_
  · rintro _ u ⟨-, rfl⟩
    exact kept
  · rintro u ⟨-, rfl⟩
    exact kept

theorem startImplicitTxn_later : Keeps (Steady low later) (startImplicitTxn env) := by
  apply Ensures.each
  intro s kept
  refine (startImplicitTxn_spec env s).weaken (fun _ same => same) ?_ ?_
  · rintro _ u ⟨-, db, -, rfl⟩
    have begun : Steady low later { s with db } := kept.same ⟨le_rfl, rfl, rfl, .inl rfl⟩ rfl
    exact (begun.addTask .implicit).same ⟨le_rfl, rfl, rfl, .inl rfl⟩ rfl
  · rintro u rfl
    exact kept

theorem onWrite_later (allowUnconfirmed : Bool) : Keeps (Steady low later) (onWrite env allowUnconfirmed) := by
  unfold onWrite
  apply Keeps.bind requireNotBroken_later
  intro _
  apply Keeps.state
  intro s _
  apply branch (startImplicitTxn_later env)
  apply Keeps.state
  intro s _
  split
  · exact Keeps.raise
  · split
    · exact aside (fun _ => ⟨le_rfl, rfl, rfl, .inl rfl⟩) fun _ => rfl
    · exact Keeps.pure
  · split
    · exact aside (fun _ => ⟨le_rfl, rfl, rfl, .inl rfl⟩) fun _ => rfl
    · exact Keeps.pure

theorem write_later (allowUnconfirmed : Bool) : Keeps (Steady low later) (write env allowUnconfirmed) :=
  Keeps.bind (onWrite_later env allowUnconfirmed) fun _ => run_later env .write

theorem putMultiple_later (pairs : Nat) (allowUnconfirmed : Bool) :
    Keeps (Steady low later) (putMultiple env pairs allowUnconfirmed) := by
  unfold putMultiple
  apply Keeps.bind requireNotBroken_later
  intro _
  apply Keeps.state
  intro s _
  apply branch (startImplicitTxn_later env)
  exact Keeps.forEach fun _ _ => write_later env allowUnconfirmed

theorem setMetadataAlarm_later (time : Option Int) (allowUnconfirmed cached : Bool) :
    Keeps (Steady low later) (setMetadataAlarm env time allowUnconfirmed cached) := by
  unfold setMetadataAlarm
  apply Keeps.state
  intro s _
  split
  · exact Keeps.pure
  · apply Keeps.bind (onWrite_later env allowUnconfirmed)
    intro _
    exact Keeps.bind (run_later env _) fun _ => Keeps.pure

theorem versioned_later : Keeps (Steady low later)
    (update fun s => { s with alarmVersion := s.alarmVersion + 1 } : Act Unit) :=
  aside (fun _ => ⟨le_rfl, rfl, rfl, .inl rfl⟩) fun _ => rfl

theorem setAlarm_later (newAlarmTime : Option Int) (allowUnconfirmed cached : Bool) :
    Keeps (Steady low later) (setAlarm env newAlarmTime allowUnconfirmed cached) := by
  unfold setAlarm
  apply Keeps.bind requireNotBroken_later
  intro _
  apply Keeps.bind (setMetadataAlarm_later env newAlarmTime allowUnconfirmed cached)
  intro changed
  apply branch versioned_later
  apply Keeps.update
  intro s kept
  split
  · exact kept.same ⟨le_rfl, rfl, rfl, .inl rfl⟩ rfl
  · exact kept.same ⟨le_rfl, rfl, rfl, .inl rfl⟩ rfl

theorem deleteAll_later (deleteAlarm : Bool) : Keeps (Steady low later) (deleteAll env deleteAlarm) := by
  unfold deleteAll
  apply Keeps.bind requireNotBroken_later
  intro _
  apply Keeps.state
  intro s _
  have last : Keeps (Steady low later) (do
      run env .reset
      if s.db.alarm = none then pure ()
      else if deleteAlarm then
        update fun s => { s with alarmVersion := s.alarmVersion + 1, haveDeferredDelete := false }
      else do
        let changed ← setMetadataAlarm env s.db.alarm false false
        if changed then update fun s => { s with alarmVersion := s.alarmVersion + 1 } else pure ()) := by
    apply Keeps.bind (run_later env _)
    intro _
    split
    · exact Keeps.pure
    split
    · exact aside (fun _ => ⟨le_rfl, rfl, rfl, .inl rfl⟩) fun _ => rfl
    · apply Keeps.bind (setMetadataAlarm_later env _ _ _)
      intro changed
      split
      · exact versioned_later
      · exact Keeps.pure
  have scheduled : Keeps (Steady low later) (do
      if s.deleteAllCommitScheduled then pure ()
      else update fun s =>
        { (s.addTask .deleteAll).lockWhile (.task s.nextTask) with
          evalLater := s.evalLater ++ [s.nextTask]
          deleteAllCommitScheduled := true }
      run env .reset
      if s.db.alarm = none then pure ()
      else if deleteAlarm then
        update fun s => { s with alarmVersion := s.alarmVersion + 1, haveDeferredDelete := false }
      else do
        let changed ← setMetadataAlarm env s.db.alarm false false
        if changed then update fun s => { s with alarmVersion := s.alarmVersion + 1 } else pure ()) := by
    apply branch_else _ last
    apply Keeps.update
    intro u kept
    exact (kept.addTask .deleteAll).same ⟨le_rfl, rfl, rfl, .inl rfl⟩ rfl
  dsimp only
  split
  · exact scheduled
  · split
    · exact Keeps.bind (aside (fun _ => ⟨le_rfl, rfl, rfl, .inl rfl⟩) fun _ => rfl) fun _ => scheduled
    · apply Keeps.bind (run_later env _)
      intro _
      apply Keeps.bind
      · apply Keeps.update
        intro u kept
        apply Steady.setSince
        exact kept.same ⟨le_rfl, rfl, rfl, .inl rfl⟩ rfl
      · intro _
        exact Keeps.bind (aside (fun _ => ⟨le_rfl, rfl, rfl, .inl rfl⟩) fun _ => rfl) fun _ => scheduled
  · exact Keeps.raise

theorem requestScheduledAlarm_later (time : Option Int) (priorTask : Option Nat) :
    Ensures (Steady low later) (requestScheduledAlarm env time priorTask) (fun r u => Steady low later u ∧ r ∉ later)
      (Steady low later) := by
  apply Ensures.each
  intro s kept
  refine (requestScheduledAlarm_spec env s time priorTask).weaken (fun _ same => same) ?_ ?_
  · rintro r u ⟨-, rfl, rfl⟩
    exact ⟨kept.requested time priorTask, kept.fresh⟩
  · rintro u rfl
    exact kept.moved time

theorem startPrecommitAlarmScheduling_later : Ensures (Steady low later) (startPrecommitAlarmScheduling env)
    (fun p u => Steady low later u ∧ ∀ r, p = some r → r < u.nextRequest ∧ r ∉ later) (Steady low later) := by
  apply Ensures.each
  intro s kept
  have cleared : Steady low later { s with pendingLaterAlarmTime := none } := kept.same ⟨le_rfl, rfl, rfl, .inr rfl⟩ rfl
  refine (startPrecommitAlarmScheduling_spec env s).weaken (fun _ same => same) ?_ ?_
  · rintro p u (⟨-, rfl, rfl⟩ | ⟨-, -, rfl, rfl⟩)
    · exact ⟨kept, fun r impossible => by cases impossible⟩
    · refine ⟨cleared.requested _ _, fun r same => ?_⟩
      cases same
      exact ⟨Nat.lt_succ_self _, kept.fresh⟩
  · rintro u ⟨-, rfl⟩
    exact cleared

theorem Steady.called {s : LiveActorSqlite} (kept : Steady low later s) (t : Nat) : Steady low later (s.called t) := by
  have persisting : Steady low later (s.setPhase t (.persisting s.nextCallback s.db.alarm s.alarmVersion)) :=
    kept.setPhase t fun r impossible => by cases impossible
  exact persisting.same ⟨le_rfl, rfl, rfl, .inl rfl⟩ rfl

theorem commitLoop_later (t : Nat) : Keeps (Steady low later) (commitLoop env t) := by
  apply Ensures.each
  intro s kept
  refine (commitLoop_spec env s t).weaken (fun _ same => same) ?_ ?_
  · rintro _ u (⟨-, rfl⟩ | ⟨-, rfl⟩)
    · exact kept.called t
    · apply (kept.requested _ _).setPhase
      intro r same
      cases same
      exact ⟨Nat.lt_succ_self _, kept.fresh⟩
  · rintro u ⟨-, rfl⟩
    exact kept

theorem Steady.sharing {s : LiveActorSqlite} (kept : Steady low later s) (t : Nat) (exception : String) :
    Steady low later (s.sharing t exception) :=
  kept.setTask t fun _ same => .inl same

theorem orReject_later (t : Nat) {body : Act Unit} (kept : Keeps (Steady low later) body) :
    Keeps (Steady low later) (orReject t body) := by
  apply Keeps.attempt kept
  intro exception
  exact Keeps.bind (Keeps.update fun s kept => kept.sharing t exception) fun _ => Keeps.raise

theorem commitImpl_later (t : Nat) {p : Option Nat} (fresh : ∀ r, p = some r → r < low ∧ r ∉ later) :
    Keeps (Steady low later) (commitImpl env t p) := by
  unfold commitImpl
  apply Keeps.state
  intro s _
  split
  · exact Keeps.update fun u kept => kept.setPhase t fun r impossible => by cases impossible
  · apply Keeps.bind
    · exact aside (fun _ => ⟨le_rfl, rfl, rfl, .inl rfl⟩) fun _ => rfl
    intro _
    cases p with
    | some request =>
      apply Keeps.update
      intro u kept
      apply kept.setPhase
      intro r same
      cases same
      obtain ⟨known, outside⟩ := fresh request rfl
      exact ⟨known.trans_le kept.low, outside⟩
    | none => exact orReject_later t (commitLoop_later env t)

theorem commitImplicit_later (t : Nat) : Keeps (Steady low later) (commitImplicit env t) := by
  unfold commitImplicit
  apply Keeps.state
  intro s _
  split
  · exact Keeps.pure
  · apply Keeps.bind (run_later env _)
    intro _
    apply Keeps.update
    intro u kept
    apply Steady.setSince
    exact kept.same ⟨le_rfl, rfl, rfl, .inl rfl⟩ rfl

theorem dropImplicit_later (t : Nat) : Keeps (Steady low later) (dropImplicit env t) := by
  unfold dropImplicit
  apply Keeps.state
  intro s _
  split
  · exact Keeps.pure
  · refine Keeps.bind (aside (fun _ => ⟨le_rfl, rfl, rfl, .inl rfl⟩) fun _ => rfl) fun _ => ?_
    split
    · exact Keeps.pure
    · exact run_later env _

theorem failTask_later (t : Nat) (exception : String) : Keeps (Steady low later) (failTask t exception) := by
  intro s kept
  rw [failTask_run]
  exact kept.failing t exception

theorem implicitCommit_later (t : Nat) : Keeps (Steady low later) (implicitCommit env t) := by
  unfold implicitCommit
  apply Keeps.bind requireNotBroken_later
  intro _
  apply Ensures.bind (startPrecommitAlarmScheduling_later env)
  intro p
  apply Ensures.each
  intro s kept
  have rest : Keeps (Steady s.nextRequest later) (do
      attempt (commitImplicit env t) fun exception => do
        requireNotBroken
        raise exception
      dropImplicit env t
      commitImpl env t p) := by
    apply Keeps.bind
    · apply Keeps.attempt (commitImplicit_later env t)
      intro exception
      exact Keeps.bind requireNotBroken_later fun _ => Keeps.raise
    intro _
    apply Keeps.bind (dropImplicit_later env t)
    intro _
    exact commitImpl_later env t kept.2
  exact rest.weaken (fun u same => same ▸ kept.1.here) (fun _ _ after => after.since kept.1.low)
    fun _ after => after.since kept.1.low

theorem deleteAllCommit_later (t : Nat) : Keeps (Steady low later) (deleteAllCommit env t) := by
  unfold deleteAllCommit
  apply Keeps.bind requireNotBroken_later
  intro _
  apply Keeps.bind
  · apply Keeps.update
    intro s kept
    exact (kept.setSince t).same ⟨le_rfl, rfl, rfl, .inl rfl⟩ rfl
  intro _
  apply Keeps.state
  intro s _
  split
  · exact Keeps.update fun u kept => kept.setPhase t fun r impossible => by cases impossible
  · apply Ensures.bind (startPrecommitAlarmScheduling_later env)
    intro p
    apply Ensures.each
    intro u kept
    exact (commitImpl_later env t kept.2).weaken (fun v same => same ▸ kept.1.here)
      (fun _ _ after => after.since kept.1.low) fun _ after => after.since kept.1.low

theorem checkpoint_later (t : Nat) : Keeps (Steady low later) (checkpoint env t) := by
  unfold checkpoint
  refine Keeps.bind (aside (fun _ => ⟨le_rfl, rfl, rfl, .inl rfl⟩) fun _ => rfl) fun _ => ?_
  apply Keeps.state
  intro s _
  split
  · apply Keeps.attempt (implicitCommit_later env t)
    intro exception
    apply Keeps.attempt
    · exact Keeps.bind (dropImplicit_later env t) fun _ => failTask_later t exception
    · exact fun exception => failTask_later t exception
  · apply Keeps.attempt (deleteAllCommit_later env t)
    exact fun exception => failTask_later t exception

theorem begun_later (txn : LiveTxn) : Keeps (Steady low later) (do
    update fun s : LiveActorSqlite =>
      { s with
        txns := Function.update s.txns s.nextTxn txn
        currentTxn := .explicit s.nextTxn
        nextTxn := s.nextTxn + 1 }
    run env (.savepoint (savepointName txn.depth)) : Act Unit) :=
  Keeps.bind (aside (fun _ => ⟨le_rfl, rfl, rfl, .inl rfl⟩) fun _ => rfl) fun _ => run_later env _

theorem startTransaction_later : Keeps (Steady low later) (startTransaction env) := by
  unfold startTransaction
  apply Keeps.bind requireNotBroken_later
  intro _
  apply Keeps.state
  intro s _
  dsimp only
  split
  · exact begun_later env _
  · exact Keeps.bind (commitImplicit_later env _) fun _ => begun_later env _
  · split
    · exact Keeps.raise
    · exact Keeps.bind (aside (fun _ => ⟨le_rfl, rfl, rfl, .inl rfl⟩) fun _ => rfl) fun _ => begun_later env _

theorem commit_later (id : Nat) : Keeps (Steady low later) (commit env id) := by
  unfold commit
  apply Keeps.bind requireNotBroken_later
  intro _
  apply Keeps.state
  intro s _
  dsimp only
  split
  · exact Keeps.raise
  split
  · apply Keeps.bind (run_later env _)
    intro _
    exact aside (fun _ => ⟨le_rfl, rfl, rfl, .inl rfl⟩) fun _ => rfl
  · apply Ensures.bind (startPrecommitAlarmScheduling_later env)
    intro p
    apply Ensures.each
    intro u kept
    refine Ensures.weaken (?_ : Keeps (Steady u.nextRequest later) _) (fun v same => same ▸ kept.1.here)
      (fun _ _ after => after.since kept.1.low) fun _ after => after.since kept.1.low
    apply Keeps.bind (run_later env _)
    intro _
    apply Keeps.bind
    · apply Keeps.update
      intro v kept
      have committed : Steady u.nextRequest later (v.setTxn id fun txn => { txn with committed := true }) :=
        kept.same ⟨le_rfl, rfl, rfl, .inl rfl⟩ rfl
      exact ((committed.addTask .root).setSince s.nextTask).same ⟨le_rfl, rfl, rfl, .inl rfl⟩ rfl
    intro _
    apply Keeps.bind
    · apply Keeps.attempt
      · exact Keeps.bind (commitImpl_later env _ kept.2) fun _ => Keeps.pure
      · exact fun exception => Keeps.pure
    intro failure
    cases failure with
    | none => exact branch (aside (fun _ => ⟨le_rfl, rfl, rfl, .inl rfl⟩) fun _ => rfl) Keeps.pure
    | some exception =>
      exact branch (aside (fun _ => ⟨le_rfl, rfl, rfl, .inl rfl⟩) fun _ => rfl) (failTask_later _ exception)

theorem rollbackImpl_later (id : Nat) : Keeps (Steady low later) (rollbackImpl env id) := by
  unfold rollbackImpl
  apply Keeps.state
  intro s _
  apply Keeps.bind (run_later env _)
  intro _
  apply Keeps.bind (run_later env _)
  intro _
  exact aside (fun _ => ⟨le_rfl, rfl, rfl, .inl rfl⟩) fun _ => rfl

theorem rollback_later (id : Nat) : Keeps (Steady low later) (rollback env id) := by
  unfold rollback
  apply Keeps.bind requireNotBroken_later
  intro _
  apply Keeps.state
  intro s _
  split
  · exact Keeps.raise
  split
  · exact Keeps.pure
  · apply Keeps.bind (rollbackImpl_later env id)
    intro _
    exact aside (fun _ => ⟨le_rfl, rfl, rfl, .inl rfl⟩) fun _ => rfl

theorem unlink_later (id : Nat) : Keeps (Steady low later) (unlink id) := by
  unfold unlink
  apply Keeps.state
  intro s _
  split
  · exact Keeps.raise
  split
  · exact Keeps.raise
  split
  · exact aside (fun _ => ⟨le_rfl, rfl, rfl, .inl rfl⟩) fun _ => rfl
  · exact aside (fun _ => ⟨le_rfl, rfl, rfl, .inl rfl⟩) fun _ => rfl

theorem drop_later (id : Nat) : Keeps (Steady low later) (drop env id) := by
  unfold drop
  apply Keeps.state
  intro s _
  split
  · exact Keeps.pure
  refine Keeps.bind (aside (fun _ => ⟨le_rfl, rfl, rfl, .inl rfl⟩) fun _ => rfl) fun _ => ?_
  split
  · exact unlink_later id
  · apply Keeps.bind
    · apply Keeps.attempt (rollbackImpl_later env id)
      intro exception
      exact Keeps.bind (unlink_later id) fun _ => Keeps.raise
    · intro _
      exact unlink_later id

theorem beginSync_later : Keeps (Steady low later) (beginSync env) := by
  unfold beginSync
  apply Keeps.bind (onWrite_later env false)
  intro _
  apply Keeps.state
  intro s _
  refine Keeps.bind (aside (fun _ => ⟨le_rfl, rfl, rfl, .inl rfl⟩) fun _ => rfl) fun _ => ?_
  apply Keeps.attempt (run_later env _)
  intro exception
  exact Keeps.bind (aside (fun _ => ⟨le_rfl, rfl, rfl, .inl rfl⟩) fun _ => rfl) fun _ => Keeps.raise

theorem endSync_later (returned : Bool) : Keeps (Steady low later) (endSync env returned) := by
  unfold endSync
  apply Keeps.state
  intro s _
  refine Keeps.bind (aside (fun _ => ⟨le_rfl, rfl, rfl, .inl rfl⟩) fun _ => rfl) fun _ => ?_
  apply Keeps.attempt
  · split
    · exact run_later env _
    · exact Keeps.raise
  · intro exception
    apply Keeps.bind (run_later env _)
    intro _
    exact Keeps.bind (run_later env _) fun _ => Keeps.raise

theorem maybeDeleteDeferredAlarm_later (cached : Bool) : Keeps (Steady low later) (maybeDeleteDeferredAlarm env cached) := by
  have cleared : Keeps (Steady low later) (update fun s => { s with haveDeferredDelete := false } : Act Unit) :=
    aside (fun _ => ⟨le_rfl, rfl, rfl, .inl rfl⟩) fun _ => rfl
  unfold maybeDeleteDeferredAlarm
  refine Keeps.bind (aside (fun _ => ⟨le_rfl, rfl, rfl, .inl rfl⟩) fun _ => rfl) fun _ => ?_
  apply Keeps.state
  intro s _
  split
  · dsimp only
    split
    · apply Keeps.bind (setMetadataAlarm_later env _ _ _)
      intro changed
      exact branch versioned_later cleared
    · exact cleared
  · exact Keeps.pure

theorem armAlarmHandler_later (scheduledTime currentTime : Int) :
    Keeps (Steady low later) (armAlarmHandler env scheduledTime currentTime) := by
  have runs : ∀ haveDeferredDelete, Keeps (Steady low later)
      (update fun s => { s with haveDeferredDelete, inAlarmHandler := true } : Act Unit) := fun _ =>
    aside (fun _ => ⟨le_rfl, rfl, rfl, .inl rfl⟩) fun _ => rfl
  unfold armAlarmHandler
  apply Keeps.state
  intro s _
  dsimp only
  split
  · exact Keeps.raise
  split
  · exact runs true
  split
  · split
    · exact runs true
    split
    · apply Ensures.bind (requestScheduledAlarm_later env _ _)
      intro request u kept
      exact kept.1.same ⟨le_rfl, rfl, rfl, .inr rfl⟩ rfl
    · apply Ensures.bind (requestScheduledAlarm_later env _ _)
      intro request u kept
      exact kept.1
  · exact runs false

theorem abandonAlarm_later (scheduledTime : Int) (cached : Bool) :
    Keeps (Steady low later) (abandonAlarm env scheduledTime cached) := by
  unfold abandonAlarm
  apply Keeps.state
  intro s _
  split
  · exact Keeps.pure
  split
  · exact setAlarm_later env none false cached
  · exact Keeps.pure

end Operations

section Requests

variable (env : Surroundings) (s : LiveActorSqlite)

theorem requestScheduledAlarm_run (time : Option Int) (priorTask : Option Nat) :
    requestScheduledAlarm env time priorTask s =
      if env.scheduleThrows then (.error "scheduleRun threw", s.moved time)
      else (.ok s.nextRequest, s.requested time priorTask) := by
  unfold requestScheduledAlarm moved
  rw [state_bind]
  by_cases later : willFireEarlier s.alarmScheduledNoLaterThan time = true
  · simp only [later, if_true, update_bind]
    by_cases throws : env.scheduleThrows = true
    · simp only [throws, if_true, raise_run]
    · simp only [throws, if_false, Bool.false_eq_true]
      unfold requested moved
      simp only [later, if_true]
      rfl
  · simp only [later, if_false, Bool.false_eq_true]
    by_cases throws : env.scheduleThrows = true
    · simp only [throws, if_true]
      rfl
    · simp only [throws, if_false, Bool.false_eq_true]
      have sooner : willFireEarlier s.alarmScheduledNoLaterThan time = false := by simpa using later
      unfold requested moved
      simp only [sooner, if_false, Bool.false_eq_true]
      rfl

def raisesFlag : LiveActorSqlite := { s with alarmLaterIsInFlight := true }

def movesLater (time : Option Int) : LiveActorSqlite :=
  { s.raisesFlag.requested time s.alarmLaterInFlight with
    alarmLaterInFlight := some s.nextRequest
    laterHandler := some s.nextRequest }

def parksTime (time : Option Int) : LiveActorSqlite := { s with pendingLaterAlarmTime := some time }

theorem scheduleLaterAlarm_run (time : Option Int) : scheduleLaterAlarm env time s =
    if s.alarmLaterIsInFlight then (.ok (), s.parksTime time)
    else if env.scheduleThrows then (.error "scheduleRun threw", s.raisesFlag.moved time)
    else (.ok (), s.movesLater time) := by
  unfold scheduleLaterAlarm
  rw [state_bind]
  by_cases flag : s.alarmLaterIsInFlight = true
  · simp only [flag, if_true]
    rfl
  · simp only [flag, if_false, Bool.false_eq_true, update_bind]
    have asked := requestScheduledAlarm_run env s.raisesFlag time s.alarmLaterInFlight
    by_cases throws : env.scheduleThrows = true
    · simp only [throws, if_true] at asked ⊢
      exact bind_run_error asked
    · simp only [throws, if_false, Bool.false_eq_true] at asked ⊢
      exact bind_run_ok asked

theorem orReject_run_ok {t : Nat} {body : Act Unit} {u : LiveActorSqlite} (ran : body s = (.ok (), u)) :
    orReject t body s = (.ok (), u) := attempt_run_ok ran

theorem orReject_run_error {t : Nat} {body : Act Unit} {u : LiveActorSqlite} {exception : String}
    (ran : body s = (.error exception, u)) : orReject t body s = (.error exception, u.sharing t exception) :=
  (attempt_run_error ran).trans rfl

/-- The commit is known to have been persisted. -/
def confirmed (t : Nat) (alarm : Option Int) : LiveActorSqlite :=
  { s.setTask t fun task => { task with shared := .fulfilled } with lastConfirmedAlarmDbState := alarm }

/-- What a commit does once it has been persisted. -/
def persists (t : Nat) (alarm : Option Int) (version : Nat) : LiveActorSqlite :=
  if s.alarmVersion = version ∧ willFireEarlier s.alarmScheduledNoLaterThan alarm = true then
    if s.alarmLaterIsInFlight then ((s.confirmed t alarm).parksTime alarm).setPhase t .fulfilled
    else if env.scheduleThrows then
      (((s.confirmed t alarm).raisesFlag.moved alarm).sharing t "scheduleRun threw").failing t "scheduleRun threw"
    else ((s.confirmed t alarm).movesLater alarm).setPhase t .fulfilled
  else (s.confirmed t alarm).setPhase t .fulfilled

theorem resume_persists {t callback version : Nat} {alarm : Option Int}
    (phase : (s.tasks t).phase = .persisting callback alarm version) (persisted : s.callbacks callback = .fulfilled) :
    (attempt (resumeCommit env t) (fun exception => failTask t exception) s).2 = s.persists env t alarm version := by
  have resumed : resumeCommit env t s = orReject t
      (if s.alarmVersion = version ∧ willFireEarlier s.alarmScheduledNoLaterThan alarm = true then
        scheduleLaterAlarm env alarm >>= fun _ => update fun u => u.setPhase t .fulfilled
      else update fun u => u.setPhase t .fulfilled) (s.confirmed t alarm) := by
    unfold resumeCommit
    rw [state_bind]
    simp only [phase, persisted]
    rfl
  unfold persists
  by_cases wanted : s.alarmVersion = version ∧ willFireEarlier s.alarmScheduledNoLaterThan alarm = true
  · rw [if_pos wanted] at resumed ⊢
    have scheduled := scheduleLaterAlarm_run env (s.confirmed t alarm) alarm
    rw [show (s.confirmed t alarm).alarmLaterIsInFlight = s.alarmLaterIsInFlight from rfl] at scheduled
    by_cases flag : s.alarmLaterIsInFlight = true
    · rw [if_pos flag] at scheduled ⊢
      rw [orReject_run_ok _ ((bind_run_ok scheduled).trans (update_run ..))] at resumed
      rw [attempt_run_ok resumed]
    · rw [if_neg flag] at scheduled ⊢
      by_cases throws : env.scheduleThrows = true
      · rw [if_pos throws] at scheduled ⊢
        rw [orReject_run_error _ (bind_run_error scheduled)] at resumed
        rw [attempt_run_error resumed, failTask_run]
      · rw [if_neg throws] at scheduled ⊢
        rw [orReject_run_ok _ ((bind_run_ok scheduled).trans (update_run ..))] at resumed
        rw [attempt_run_ok resumed]
  · rw [if_neg wanted] at resumed ⊢
    rw [orReject_run_ok _ (update_run ..)] at resumed
    rw [attempt_run_ok resumed]

/-- No request is in flight, and no time is parked for one. -/
def idled : LiveActorSqlite :=
  { s with alarmLaterIsInFlight := false, laterHandler := none, pendingLaterAlarmTime := none }

/-- What the completion handler of a request does. -/
def handles : LiveActorSqlite :=
  match s.pendingLaterAlarmTime with
  | none => s.idled
  | some time =>
    if willFireEarlier s.db.alarm time then s.idled
    else if env.scheduleThrows then s.idled.raisesFlag.moved time
    else s.idled.movesLater time

theorem laterDone_handles : (laterDone env s).2 = s.handles env := by
  unfold laterDone handles
  rw [update_bind, state_bind]
  cases parked : s.pendingLaterAlarmTime with
  | none =>
    simp only [parked, pure_run, idled]
  | some time =>
    simp only [parked, update_bind]
    by_cases sooner : willFireEarlier s.db.alarm time = true
    · simp only [sooner, if_true, pure_run, idled]
    · simp only [sooner, if_false, Bool.false_eq_true]
      change (attempt (scheduleLaterAlarm env time) (fun _ => pure ()) s.idled).2 = _
      have scheduled := scheduleLaterAlarm_run env s.idled time
      rw [if_neg (show ¬ s.idled.alarmLaterIsInFlight = true from Bool.false_ne_true)] at scheduled
      by_cases throws : env.scheduleThrows = true
      · rw [if_pos throws] at scheduled ⊢
        rw [attempt_run_error scheduled, pure_run]
      · rw [if_neg throws] at scheduled ⊢
        rw [attempt_run_ok scheduled]

end Requests

section Frames

variable (s : LiveActorSqlite) (time : Option Int)

@[simp]
theorem moved_gate : (s.moved time).gate = s.gate := by
  unfold moved
  split <;> rfl

@[simp]
theorem moved_broken : (s.moved time).broken = s.broken := by
  unfold moved
  split <;> rfl

@[simp]
theorem moved_tasks : (s.moved time).tasks = s.tasks := by
  unfold moved
  split <;> rfl

@[simp]
theorem moved_laterHandler : (s.moved time).laterHandler = s.laterHandler := by
  unfold moved
  split <;> rfl

@[simp]
theorem moved_alarmLaterIsInFlight : (s.moved time).alarmLaterIsInFlight = s.alarmLaterIsInFlight := by
  unfold moved
  split <;> rfl

theorem movesLater_gate : (s.movesLater time).gate = s.gate := moved_gate s.raisesFlag time

theorem movesLater_broken : (s.movesLater time).broken = s.broken := moved_broken s.raisesFlag time

theorem movesLater_tasks : (s.movesLater time).tasks = s.tasks := moved_tasks s.raisesFlag time

theorem movesLater_time : ((s.movesLater time).requests s.nextRequest).time = time :=
  s.raisesFlag.requested_time time s.alarmLaterInFlight

@[simp]
theorem failing_laterHandler (t : Nat) (exception : String) : (s.failing t exception).laterHandler = s.laterHandler := by
  unfold failing
  split <;> rfl

@[simp]
theorem failing_alarmLaterIsInFlight (t : Nat) (exception : String) :
    (s.failing t exception).alarmLaterIsInFlight = s.alarmLaterIsInFlight := by
  unfold failing
  split <;> rfl

variable {s} {low : Nat} {later : List Nat}

theorem Later.steady (kept : Later later s) : Steady 0 later s := { kept with low := Nat.zero_le _ }

theorem Later.idle (kept : Later later s) (idle : s.alarmLaterIsInFlight ≠ true) : s.laterHandler = none := by
  by_contra running
  exact idle (kept.flag.2 running)

theorem Later.movesLater (kept : Later later s) (idle : s.alarmLaterIsInFlight ≠ true) :
    Later (later ++ [s.nextRequest]) (s.movesLater time) where
  made r member := by
    rcases List.mem_append.1 member with before | new
    · exact Nat.lt_succ_of_lt (kept.made r before)
    · rw [List.mem_singleton.1 new]
      exact Nat.lt_succ_self _
  awaits t r waits := by
    rw [movesLater_tasks] at waits
    obtain ⟨known, outside⟩ := kept.awaits t r waits
    refine ⟨Nat.lt_succ_of_lt known, fun member => ?_⟩
    rcases List.mem_append.1 member with before | new
    · exact outside before
    · exact absurd (List.mem_singleton.1 new) (Nat.ne_of_lt known)
  handler r same := by
    cases same
    exact List.mem_append_right _ (List.mem_singleton.2 rfl)
  flag := ⟨fun _ => Option.some_ne_none _, fun _ => moved_alarmLaterIsInFlight s.raisesFlag time⟩
  parked _ := moved_alarmLaterIsInFlight s.raisesFlag time

theorem Steady.confirmed (kept : Steady low later s) (t : Nat) (alarm : Option Int) :
    Steady low later (s.confirmed t alarm) := by
  have shared : Steady low later (s.setTask t fun task => { task with shared := .fulfilled }) :=
    kept.setTask t fun _ same => .inl same
  exact shared.same ⟨le_rfl, rfl, rfl, .inl rfl⟩ rfl

theorem Later.parksTime (kept : Later later s) (flag : s.alarmLaterIsInFlight = true) : Later later (s.parksTime time) where
  made := kept.made
  awaits := kept.awaits
  handler := kept.handler
  flag := kept.flag
  parked _ := flag

theorem Later.fulfilled (kept : Later later s) (t : Nat) : Later later (s.setPhase t .fulfilled) :=
  (kept.steady.setPhase t fun r impossible => by cases impossible).toLater

end Frames

section Steps

variable {later : List Nat} {s s' : LiveActorSqlite} {e : Event}

theorem resume_other (env : Surroundings) {t : Nat} (kept : Later later s) (settled : s.awaited t ≠ .pending)
    (other : ∀ callback alarm version, (s.tasks t).phase = .persisting callback alarm version →
      s.callbacks callback ≠ .fulfilled) :
    Later later (attempt (resumeCommit env t) (fun exception => failTask t exception) s).2 := by
  have resumed : Ensures (fun u => u = s) (resumeCommit env t) (fun _ => Steady 0 later) (Steady 0 later) := by
    have raises : ∀ exception, Keeps (Steady 0 later) (orReject t (raise exception)) := fun exception =>
      orReject_later t Keeps.raise
    have started : ∀ {m : Act Unit}, Keeps (Steady 0 later) m →
        Ensures (fun u => u = s ∧ u = s) m (fun _ => Steady 0 later) (Steady 0 later) := fun keeps =>
      keeps.weaken (fun u same => same.1 ▸ kept.steady) (fun _ _ after => after) fun _ after => after
    unfold resumeCommit
    apply Ensures.state
    intro u same
    subst same
    apply started
    cases phase : (u.tasks t).phase with
    | merged pending =>
      have done : Keeps (Steady 0 later) (update fun s => s.setPhase t .fulfilled : Act Unit) :=
        Keeps.update fun v kept => kept.setPhase t fun r impossible => by cases impossible
      cases shared : (u.tasks pending).shared with
      | rejected exception => simpa only [shared] using Keeps.raise
      | fulfilled => simpa only [shared] using done
      | pending => simpa only [shared] using done
    | scheduling request =>
      cases answer : (u.requests request).answer with
      | rejected exception => simpa only [answer] using raises exception
      | fulfilled => simpa only [answer] using orReject_later t (commitLoop_later env t)
      | pending => simpa only [answer] using orReject_later t (commitLoop_later env t)
    | persisting callback alarm version =>
      cases outcome : u.callbacks callback with
      | rejected exception => simpa only [outcome] using raises exception
      | fulfilled => exact absurd outcome (other callback alarm version phase)
      | pending =>
        have pending : u.awaited t = .pending := by
          unfold awaited
          rw [phase]
          exact outcome
        exact absurd pending settled
    | scheduled => exact Keeps.pure
    | fulfilled => exact Keeps.pure
    | rejected exception => exact Keeps.pure
  have failed : Ensures (fun u => u = s) (attempt (resumeCommit env t) fun exception => failTask t exception)
      (fun _ => Steady 0 later) (Steady 0 later) := by
    apply Ensures.attempt resumed
    exact fun exception => failTask_later t exception
  exact (failed.reached rfl).toLater

theorem step_other (kept : Later later s) (stepped : step s e = some s') (resumes : ∀ t, e.op ≠ .resume t)
    (handles : e.op ≠ .laterDone) : Later later s' := by
  have through : ∀ {α : Type} {m : Act α}, Keeps (Steady 0 later) m → some (m s).2 = some s' → Later later s' := by
    intro α m keeps same
    rw [← Option.some.inj same]
    exact (keeps.reached kept.steady).toLater
  have unmoved : ∀ {u : LiveActorSqlite}, some u = some s' → Unmoved s u → u.tasks = s.tasks → Later later s' := by
    intro u same unmoved tasks
    rw [← Option.some.inj same]
    exact (kept.steady.same unmoved tasks).toLater
  unfold step at stepped
  cases op : e.op with
  | resume t => exact absurd op (resumes t)
  | laterDone => exact absurd op handles
  | write allowUnconfirmed =>
    rw [op] at stepped
    exact through (write_later e.env allowUnconfirmed) stepped
  | putMultiple pairs allowUnconfirmed =>
    rw [op] at stepped
    exact through (putMultiple_later e.env pairs allowUnconfirmed) stepped
  | setAlarm time allowUnconfirmed cached =>
    rw [op] at stepped
    exact through (setAlarm_later e.env time allowUnconfirmed cached) stepped
  | deleteAll deleteAlarm =>
    rw [op] at stepped
    exact through (deleteAll_later e.env deleteAlarm) stepped
  | startTransaction =>
    rw [op] at stepped
    exact through (startTransaction_later e.env) stepped
  | commit id =>
    rw [op] at stepped
    simp only at stepped
    split at stepped
    · exact through (commit_later e.env id) stepped
    · cases stepped
  | rollback id =>
    rw [op] at stepped
    simp only at stepped
    split at stepped
    · exact through (rollback_later e.env id) stepped
    · cases stepped
  | drop id =>
    rw [op] at stepped
    simp only at stepped
    split at stepped
    · exact through (drop_later e.env id) stepped
    · cases stepped
  | beginSync =>
    rw [op] at stepped
    exact through (beginSync_later e.env) stepped
  | endSync returned =>
    rw [op] at stepped
    simp only at stepped
    split at stepped
    · exact through (endSync_later e.env returned) stepped
    · cases stepped
  | armAlarmHandler scheduledTime currentTime =>
    rw [op] at stepped
    exact through (armAlarmHandler_later e.env scheduledTime currentTime) stepped
  | cancelDeferredAlarmDeletion =>
    rw [op] at stepped
    exact unmoved stepped ⟨le_rfl, rfl, rfl, .inl rfl⟩ rfl
  | dropDeleter cached =>
    rw [op] at stepped
    exact through (maybeDeleteDeferredAlarm_later e.env cached) stepped
  | abandonAlarm scheduledTime cached =>
    rw [op] at stepped
    exact through (abandonAlarm_later e.env scheduledTime cached) stepped
  | shutdown exception =>
    rw [op] at stepped
    exact unmoved stepped ⟨le_rfl, rfl, rfl, .inl rfl⟩ rfl
  | criticalError exception =>
    rw [op] at stepped
    unfold criticalError at stepped
    simp only at stepped
    split at stepped
    · exact unmoved stepped ⟨le_rfl, rfl, rfl, .inl rfl⟩ rfl
    · exact unmoved stepped ⟨le_rfl, rfl, rfl, .inl rfl⟩ rfl
  | taskFailed t =>
    rw [op] at stepped
    simp only at stepped
    split at stepped
    · exact unmoved stepped ⟨le_rfl, rfl, rfl, .inl rfl⟩ rfl
    · cases stepped
  | checkpoint =>
    rw [op] at stepped
    simp only at stepped
    split at stepped
    · cases stepped
    · exact through (checkpoint_later e.env _) stepped
  | answer r outcome =>
    rw [op] at stepped
    simp only at stepped
    split at stepped
    · exact unmoved stepped ⟨le_rfl, rfl, rfl, .inl rfl⟩ rfl
    · cases stepped
  | persisted c outcome =>
    rw [op] at stepped
    simp only at stepped
    split at stepped
    · exact unmoved stepped ⟨le_rfl, rfl, rfl, .inl rfl⟩ rfl
    · cases stepped
  | lockOutput =>
    rw [op] at stepped
    exact unmoved stepped ⟨le_rfl, rfl, rfl, .inl rfl⟩ rfl
  | settleLock l outcome =>
    rw [op] at stepped
    simp only at stepped
    split at stepped
    · exact unmoved stepped ⟨le_rfl, rfl, rfl, .inl rfl⟩ rfl
    · cases stepped
  | wait =>
    rw [op] at stepped
    exact unmoved stepped ⟨le_rfl, rfl, rfl, .inl rfl⟩ rfl
  | settleWait w =>
    rw [op] at stepped
    exact unmoved stepped ⟨le_rfl, rfl, rfl, .inl rfl⟩ rfl

theorem resume_cases {t : Nat} (kept : Later later s) (op : e.op = .resume t) (stepped : step s e = some s') :
    (s.wantsLater e = none ∧ Later later s') ∨
      ∃ alarm, s.wantsLater e = some alarm ∧
        ((s.alarmLaterIsInFlight = true ∧ s' = ((s.confirmed t alarm).parksTime alarm).setPhase t .fulfilled) ∨
          (s.alarmLaterIsInFlight ≠ true ∧ e.env.scheduleThrows = false ∧
            s' = ((s.confirmed t alarm).movesLater alarm).setPhase t .fulfilled) ∨
          (s.alarmLaterIsInFlight ≠ true ∧ e.env.scheduleThrows = true ∧
            s' = (((s.confirmed t alarm).raisesFlag.moved alarm).sharing t "scheduleRun threw").failing t
              "scheduleRun threw")) := by
  unfold step at stepped
  rw [op] at stepped
  simp only at stepped
  split at stepped
  case isFalse => cases stepped
  case isTrue settled =>
    by_cases persisted : ∃ callback alarm version, (s.tasks t).phase = .persisting callback alarm version ∧
        s.callbacks callback = .fulfilled
    · obtain ⟨callback, alarm, version, phase, persisted⟩ := persisted
      rw [resume_persists e.env s phase persisted] at stepped
      have same := (Option.some.inj stepped).symm
      unfold persists at same
      have wants : s.wantsLater e =
          if s.alarmVersion = version ∧ willFireEarlier s.alarmScheduledNoLaterThan alarm = true then some alarm
          else none := by
        unfold wantsLater
        rw [op]
        simp only [phase, persisted, true_and]
      by_cases wanted : s.alarmVersion = version ∧ willFireEarlier s.alarmScheduledNoLaterThan alarm = true
      · rw [if_pos wanted] at wants same
        refine .inr ⟨alarm, wants, ?_⟩
        by_cases flag : s.alarmLaterIsInFlight = true
        · rw [if_pos flag] at same
          exact .inl ⟨flag, same⟩
        · rw [if_neg flag] at same
          by_cases throws : e.env.scheduleThrows = true
          · rw [if_pos throws] at same
            exact .inr (.inr ⟨flag, throws, same⟩)
          · rw [if_neg throws] at same
            exact .inr (.inl ⟨flag, Bool.eq_false_iff.2 throws, same⟩)
      · rw [if_neg wanted] at wants same
        refine .inl ⟨wants, ?_⟩
        rw [same]
        exact (kept.steady.confirmed t alarm).toLater.fulfilled t
    · have other : ∀ callback alarm version, (s.tasks t).phase = .persisting callback alarm version →
          s.callbacks callback ≠ .fulfilled :=
        fun callback alarm version phase done => persisted ⟨callback, alarm, version, phase, done⟩
      refine .inl ⟨?_, ?_⟩
      · unfold wantsLater
        rw [op]
        cases phase : (s.tasks t).phase with
        | persisting callback alarm version =>
          simp only [phase]
          rw [if_neg fun wanted => other callback alarm version phase wanted.1]
        | _ => simp only [phase]
      · rw [← Option.some.inj stepped]
        exact resume_other e.env kept settled.2 other

theorem laterDone_cases (op : e.op = .laterDone) (stepped : step s e = some s') :
    (s.wantsLater e = none ∧ s' = s.idled) ∨
      ∃ time, s.wantsLater e = some time ∧
        ((e.env.scheduleThrows = false ∧ s' = s.idled.movesLater time) ∨
          (e.env.scheduleThrows = true ∧ s' = s.idled.raisesFlag.moved time)) := by
  have same : s' = s.handles e.env := by
    unfold step at stepped
    rw [op] at stepped
    simp only at stepped
    split at stepped
    · cases stepped
    · split at stepped
      · rw [← laterDone_handles, Option.some.inj stepped]
      · cases stepped
  unfold handles at same
  unfold wantsLater
  rw [op]
  simp only
  cases parked : s.pendingLaterAlarmTime with
  | none =>
    rw [parked] at same
    exact .inl ⟨rfl, same⟩
  | some time =>
    rw [parked] at same
    simp only at same ⊢
    by_cases sooner : willFireEarlier s.db.alarm time = true
    · rw [if_pos sooner] at same ⊢
      exact .inl ⟨rfl, same⟩
    · rw [if_neg sooner] at same ⊢
      refine .inr ⟨time, rfl, ?_⟩
      by_cases throws : e.env.scheduleThrows = true
      · rw [if_pos throws] at same
        exact .inr ⟨throws, same⟩
      · rw [if_neg throws] at same
        exact .inl ⟨Bool.eq_false_iff.2 throws, same⟩

theorem Later.idled (kept : Later later s) : Later later s.idled where
  made := kept.made
  awaits := kept.awaits
  handler r impossible := by cases impossible
  flag := ⟨fun raised => absurd raised Bool.false_ne_true, fun some => absurd rfl some⟩
  parked set := absurd rfl set

theorem fulfilled_unseen {u : LiveActorSqlite} (unseen : Unseen s u) (t : Nat) : Unseen s (u.setPhase t .fulfilled) := by
  refine ⟨unseen.1, unseen.2.1, fun k exception rejected => unseen.2.2 k exception ?_⟩
  unfold setPhase at rejected
  rw [setTask_phase] at rejected
  split at rejected
  · cases rejected
  · exact rejected

theorem confirmed_unseen (s : LiveActorSqlite) (t : Nat) (alarm : Option Int) : Unseen s (s.confirmed t alarm) := by
  refine ⟨rfl, rfl, fun k exception rejected => ?_⟩
  have phase := setTask_phase s t k fun task => { task with shared := .fulfilled }
  rw [show ((s.confirmed t alarm).tasks k).phase = _ from phase] at rejected
  split at rejected
  case isTrue here => rw [here]; exact rejected
  case isFalse => exact rejected

theorem movesLater_unseen {u : LiveActorSqlite} (unseen : Unseen s u) (time : Option Int) :
    Unseen s (u.movesLater time) := by
  unfold Unseen
  rw [movesLater_gate, movesLater_broken, movesLater_tasks]
  exact unseen

theorem laterDone_unseen (op : e.op = .laterDone) (stepped : step s e = some s') : Unseen s s' := by
  have idled : Unseen s s.idled := ⟨rfl, rfl, fun _ _ rejected => rejected⟩
  rcases laterDone_cases op stepped with ⟨-, rfl⟩ | ⟨time, -, ⟨-, rfl⟩ | ⟨-, rfl⟩⟩
  · exact idled
  · exact movesLater_unseen idled time
  · unfold Unseen
    rw [moved_gate, moved_broken, moved_tasks]
    exact idled

end Steps

section Watches

variable {w w' : Watched} {e : Event}

theorem watch_cases (watched : watch w e = some w') : step w.actor e = some w'.actor ∧
    w'.later = if w.actor.callsLater e ≠ none ∧ e.env.scheduleThrows = false then w.later ++ [w.actor.nextRequest]
      else w.later := by
  obtain ⟨t, stepped, rfl⟩ := Option.map_eq_some_iff.1 watched
  exact ⟨stepped, rfl⟩

theorem wantsLater_other {s : LiveActorSqlite} (resumes : ∀ t, e.op ≠ .resume t) (handles : e.op ≠ .laterDone) :
    s.wantsLater e = none := by
  unfold wantsLater
  cases op : e.op with
  | resume t => exact absurd op (resumes t)
  | laterDone => exact absurd op handles
  | _ => rfl

theorem callsLater_unwanted {s : LiveActorSqlite} (unwanted : s.wantsLater e = none) : s.callsLater e = none := by
  unfold callsLater
  rw [unwanted]
  split
  · split <;> rfl
  · rfl

theorem callsLater_resume {s : LiveActorSqlite} {t : Nat} (op : e.op = .resume t) :
    s.callsLater e = if s.alarmLaterIsInFlight then none else s.wantsLater e := by
  unfold callsLater
  rw [op]

theorem callsLater_laterDone {s : LiveActorSqlite} (op : e.op = .laterDone) : s.callsLater e = s.wantsLater e := by
  unfold callsLater
  rw [op]

theorem watch_other (kept : Later w.later w.actor) (watched : watch w e = some w') (resumes : ∀ t, e.op ≠ .resume t)
    (handles : e.op ≠ .laterDone) : Absorbs w e w' ∧ Later w'.later w'.actor := by
  obtain ⟨stepped, same⟩ := watch_cases watched
  have unwanted : w.actor.wantsLater e = none := wantsLater_other resumes handles
  have uncalled := callsLater_unwanted unwanted
  rw [if_neg fun called => called.1 uncalled] at same
  constructor
  · constructor
    · rintro (called | handling | ⟨r, -, exception, op⟩)
      · exact absurd uncalled called
      · exact absurd handling handles
      · unfold step at stepped
        rw [op] at stepped
        simp only at stepped
        split at stepped
        · rw [← Option.some.inj stepped]
          exact ⟨rfl, rfl, fun _ _ rejected => rejected⟩
        · cases stepped
    · intro time called
      rw [uncalled] at called
      cases called
    · intro time wanted
      rw [unwanted] at wanted
      cases wanted
  · rw [same]
    exact step_other kept stepped resumes handles

theorem watch_resume {t : Nat} (kept : Later w.later w.actor) (watched : watch w e = some w') (op : e.op = .resume t)
    (calm : Calm w e) : Absorbs w e w' ∧ Later w'.later w'.actor := by
  obtain ⟨stepped, same⟩ := watch_cases watched
  have calls := callsLater_resume (s := w.actor) op
  have quietly : Unseen w.actor w'.actor → w.actor.callsLater e ≠ none ∨ e.op = .laterDone ∨
      (∃ r ∈ w.later, ∃ exception, e.op = .answer r (.rejected exception)) → Unseen w.actor w'.actor :=
    fun unseen _ => unseen
  rcases resume_cases kept op stepped with ⟨unwanted, after⟩ | ⟨alarm, wanted, shape⟩
  · have uncalled := callsLater_unwanted unwanted
    rw [if_neg fun called => called.1 uncalled] at same
    refine ⟨⟨?_, ?_, ?_⟩, by rw [same]; exact after⟩
    · rintro (called | handling | ⟨r, -, exception, answers⟩)
      · exact absurd uncalled called
      · rw [op] at handling
        cases handling
      · rw [op] at answers
        cases answers
    · intro time called
      rw [uncalled] at called
      cases called
    · intro time wanted
      rw [unwanted] at wanted
      cases wanted
  rcases shape with ⟨flag, after⟩ | ⟨flag, returns, after⟩ | ⟨flag, throws, after⟩
  · rw [if_pos flag] at calls
    rw [if_neg fun called => called.1 calls] at same
    refine ⟨⟨?_, ?_, ?_⟩, ?_⟩
    · apply quietly
      rw [after]
      exact fulfilled_unseen (confirmed_unseen w.actor t alarm) t
    · intro time called
      rw [calls] at called
      cases called
    · intro time wants _
      rw [wanted] at wants
      cases wants
      rw [after]
      exact ⟨rfl, rfl⟩
    · rw [same, after]
      exact ((kept.steady.confirmed t alarm).toLater.parksTime alarm flag).fulfilled t
  · rw [if_neg flag, wanted] at calls
    rw [if_pos ⟨by rw [calls]; exact Option.some_ne_none _, returns⟩] at same
    refine ⟨⟨?_, ?_, ?_⟩, ?_⟩
    · apply quietly
      rw [after]
      exact fulfilled_unseen (movesLater_unseen (confirmed_unseen w.actor t alarm) alarm) t
    · intro time called _
      rw [calls] at called
      cases called
      rw [after]
      exact ⟨rfl, movesLater_time (w.actor.confirmed t alarm) alarm, rfl⟩
    · intro time _ uncalled
      rw [calls] at uncalled
      cases uncalled
    · rw [same, after]
      exact ((kept.steady.confirmed t alarm).toLater.movesLater alarm flag).fulfilled t
  · rw [if_neg flag, wanted] at calls
    have returns := calm (by rw [calls]; exact Option.some_ne_none _)
    rw [throws] at returns
    cases returns

theorem watch_laterDone (kept : Later w.later w.actor) (watched : watch w e = some w') (op : e.op = .laterDone)
    (calm : Calm w e) : Absorbs w e w' ∧ Later w'.later w'.actor := by
  obtain ⟨stepped, same⟩ := watch_cases watched
  have calls := callsLater_laterDone (s := w.actor) op
  have unseen := laterDone_unseen op stepped
  rcases laterDone_cases op stepped with ⟨unwanted, after⟩ | ⟨alarm, wanted, ⟨returns, after⟩ | ⟨throws, after⟩⟩
  · rw [unwanted] at calls
    rw [if_neg fun called => called.1 calls] at same
    refine ⟨⟨fun _ => unseen, ?_, ?_⟩, by rw [same, after]; exact kept.idled⟩
    · intro time called
      rw [calls] at called
      cases called
    · intro time wanted
      rw [unwanted] at wanted
      cases wanted
  · rw [wanted] at calls
    rw [if_pos ⟨by rw [calls]; exact Option.some_ne_none _, returns⟩] at same
    refine ⟨⟨fun _ => unseen, ?_, ?_⟩, ?_⟩
    · intro time called _
      rw [calls] at called
      cases called
      rw [after]
      exact ⟨rfl, movesLater_time w.actor.idled alarm, rfl⟩
    · intro time _ uncalled
      rw [calls] at uncalled
      cases uncalled
    · rw [same, after]
      exact kept.idled.movesLater alarm Bool.false_ne_true
  · rw [wanted] at calls
    have returns := calm (by rw [calls]; exact Option.some_ne_none _)
    rw [throws] at returns
    cases returns

/-- A call that throws leaves the flag up, and no completion handler to take it down. -/
theorem throw_sticks (kept : Later w.later w.actor) (watched : watch w e = some w') (uncalm : ¬ Calm w e) :
    w'.actor.alarmLaterIsInFlight = true ∧ w'.actor.laterHandler = none := by
  obtain ⟨stepped, -⟩ := watch_cases watched
  obtain ⟨called, throws⟩ : w.actor.callsLater e ≠ none ∧ e.env.scheduleThrows ≠ false := by
    unfold Calm at uncalm
    push_neg at uncalm
    exact uncalm
  have wanted : w.actor.wantsLater e ≠ none := fun unwanted => called (callsLater_unwanted unwanted)
  cases op : e.op with
  | resume t =>
    rcases resume_cases kept op stepped with ⟨unwanted, -⟩ | ⟨alarm, -, ⟨flag, -⟩ | ⟨-, returns, -⟩ | ⟨flag, -, after⟩⟩
    · exact absurd unwanted wanted
    · rw [callsLater_resume op, if_pos flag] at called
      exact absurd rfl called
    · exact absurd returns throws
    · rw [after, failing_laterHandler, failing_alarmLaterIsInFlight]
      constructor
      · exact moved_alarmLaterIsInFlight (w.actor.confirmed t alarm).raisesFlag alarm
      · exact (moved_laterHandler (w.actor.confirmed t alarm).raisesFlag alarm).trans (kept.idle flag)
  | laterDone =>
    rcases laterDone_cases op stepped with ⟨unwanted, -⟩ | ⟨alarm, -, ⟨returns, -⟩ | ⟨-, after⟩⟩
    · exact absurd unwanted wanted
    · exact absurd returns throws
    · rw [after, moved_laterHandler, moved_alarmLaterIsInFlight]
      exact ⟨rfl, rfl⟩
  | _ => exact absurd (wantsLater_other (fun t same => by rw [op] at same; cases same)
      fun same => by rw [op] at same; cases same) wanted

theorem watch_calm (kept : Later w.later w.actor) (watched : watch w e = some w') (calm : Calm w e) :
    Absorbs w e w' ∧ Later w'.later w'.actor := by
  by_cases resumes : ∃ t, e.op = .resume t
  · obtain ⟨t, op⟩ := resumes
    exact watch_resume kept watched op calm
  · by_cases handles : e.op = .laterDone
    · exact watch_laterDone kept watched handles calm
    · exact watch_other kept watched (fun t op => resumes ⟨t, op⟩) handles

theorem opened_later (alarm : Option Int) : Later [] (opened alarm) where
  made r member := by cases member
  awaits t r waits := by cases waits
  handler r impossible := by cases impossible
  flag := ⟨fun raised => absurd raised Bool.false_ne_true, fun some => absurd rfl some⟩
  parked set := absurd rfl set

/-- In a run in which `scheduleRun` has not thrown where it moves the alarm later, the failures of such requests are
absorbed by each step unless it throws there. -/
theorem later_failures_absorbed_iff {alarm : Option Int} {w w' : Watched} {e : Event}
    (reached : Transition.Reaches watch Calm ⟨opened alarm, []⟩ w) (watched : watch w e = some w') :
    Later w.later w.actor ∧ (Absorbs w e w' ∧ Later w'.later w'.actor ↔ Calm w e) := by
  have kept : Later w.later w.actor :=
    Transition.Reaches.invariant reached (P := fun w => Later w.later w.actor) (opened_later alarm)
      fun _ _ _ kept calm watched => (watch_calm kept watched calm).2
  refine ⟨kept, fun absorbed => ?_, watch_calm kept watched⟩
  by_contra uncalm
  obtain ⟨flag, idle⟩ := throw_sticks kept watched uncalm
  exact absorbed.2.flag.1 flag idle

end Watches

section Runs

def throwing : Surroundings := { calm with scheduleThrows := true }

/-- An alarm is moved from 10 to 20, and the commit that does so has been persisted. -/
def movedLater : List Event :=
  [⟨.setAlarm (some 20) false false, calm⟩, ⟨.checkpoint, calm⟩, ⟨.persisted 0 .fulfilled, calm⟩]

def persistedLater : Watched :=
  ((Transition.run watch ⟨opened (some 10), []⟩ movedLater).getD ⟨opened (some 10), []⟩)

def resumesCommit (env : Surroundings) : Event := ⟨.resume 0, env⟩

def commitEnded (env : Surroundings) : Watched := (watch persistedLater (resumesCommit env)).getD persistedLater

theorem persistedLater_reached (admits : Watched → Event → Prop) (admitted : ∀ u, ∀ e ∈ movedLater, admits u e) :
    Transition.Reaches watch admits ⟨opened (some 10), []⟩ persistedLater :=
  Transition.run_reaches_admitted movedLater admitted rfl

theorem later_failures_absorbed_once : Later persistedLater.later persistedLater.actor ∧
    (Absorbs persistedLater (resumesCommit calm) (commitEnded calm) ∧ Later (commitEnded calm).later (commitEnded calm).actor ↔
      Calm persistedLater (resumesCommit calm)) :=
  later_failures_absorbed_iff
    (persistedLater_reached Calm fun _ e member _ => by
      simp only [movedLater, List.mem_cons, List.not_mem_nil, or_false] at member
      rcases member with rfl | rfl | rfl <;> rfl) rfl

/-- The outlet throws where a persisted commit moves the alarm later: its task is rejected. -/
theorem persisted_commit_rejected : ¬ ∀ (alarm : Option Int) (w w' : Watched) (e : Event),
    Transition.Reaches watch (fun _ _ => True) ⟨opened alarm, []⟩ w → watch w e = some w' →
    Absorbs w e w' ∧ Later w'.later w'.actor := by
  intro claim
  have absorbed := (claim (some 10) persistedLater (commitEnded throwing) (resumesCommit throwing)
    (persistedLater_reached _ fun _ _ _ => trivial) rfl).1
  have called : persistedLater.actor.callsLater (resumesCommit throwing) = some (some 20) := by decide
  have unseen := absorbed.quiet (.inl (by rw [called]; exact Option.some_ne_none _))
  have rejected : ((commitEnded throwing).actor.tasks 0).phase = .rejected "scheduleRun threw" := by decide
  have before := unseen.2.2 0 "scheduleRun threw" rejected
  have persisting : (persistedLater.actor.tasks 0).phase = .persisting 0 (some 20) 1 := by decide
  rw [persisting] at before
  cases before

end Runs

end DoRuntime.Storage.LiveActorSqlite
