import DoRuntime.Storage.SyncTransaction

namespace DoRuntime.Storage.Sync

open ActorSqlite

variable {Time Data : Type}

/-- Savepoints of calls at this depth or deeper, and of a multi-put that could not be rolled back. -/
def SavepointName.Above (depth : Nat) : SavepointName → Prop
  | sync d => depth ≤ d
  | putMultiple => True

theorem SavepointName.Above.outer {depth : Nat} {name : SavepointName} (above : name.Above (depth + 1)) :
    name.Above depth := by
  cases name with
  | sync d => exact Nat.le_of_succ_le above
  | putMultiple => trivial

theorem SavepointName.Above.ne {depth : Nat} {name : SavepointName} (above : name.Above (depth + 1)) :
    name ≠ sync depth := by
  rintro rfl
  exact Nat.not_succ_le_self depth above

namespace CallRecord

/-- A call that returns keeps what the callback did in the implicit transaction around it; one that
    throws leaves nothing of it. Either way its savepoint is gone and the counter is back. -/
structure AllOrNothing (r : CallRecord Time Data) : Prop where
  contents : r.after.contents = if r.returned then r.ended.contents else r.before.contents
  savepoints : r.after.savepoints = r.before.savepoints
  begun : r.after.begun = r.opened.begun
  currentTxn : r.after.currentTxn = r.opened.currentTxn
  depth : r.after.transactionSyncDepth = r.before.transactionSyncDepth

/-- The two statements that undo a callback go through. -/
def Spared (a : ActorSqlite Time Data) : Prop := ∀ fault ∈ a.faults.take 2, fault = none

/-- No `deleteAll` closed the transaction around the call, SQLite did not roll it back, and
    what had to be undone could be. -/
structure Clean (r : CallRecord Time Data) : Prop where
  kept : r.emptied = false
  calm : r.before.criticalError = false → r.after.criticalError = false
  undone : ∀ a, r.undone = some a → a.criticalError = false → Spared a

end CallRecord

namespace ActorSqlite

/-- Every open implicit transaction has its `BEGIN`, and nothing is open without one. -/
structure Sane (a : ActorSqlite Time Data) : Prop where
  calm : a.criticalError = false
  known : ∀ id, a.currentTxn = some id → id < a.nextTxn ∧ a.begun.isSome = true
  idle : a.currentTxn = none → a.isOpen = false

/-- After a critical error. -/
structure Dead (a : ActorSqlite Time Data) : Prop where
  critical : a.criticalError = true
  broken : a.broken = true
  begun : a.begun = none

/-- The transaction around is still the same, with its savepoints. -/
structure Kept (depth : Nat) (a b : ActorSqlite Time Data) : Prop where
  sane : b.Sane
  ids : a.nextTxn ≤ b.nextTxn
  level : b.transactionSyncDepth = a.transactionSyncDepth
  fresh : ∀ id, b.currentTxn = some id → a.currentTxn = some id ∨ a.nextTxn ≤ id
  stays : a.currentTxn.isSome = true → b.currentTxn = a.currentTxn ∧ b.begun = a.begun
  stack : ∃ extra, (∀ s ∈ extra, s.1.Above depth) ∧ b.savepoints = extra ++ a.savepoints

/-- The transaction around has been closed. -/
structure Emptied (depth : Nat) (a b : ActorSqlite Time Data) : Prop where
  sane : b.Sane
  ids : a.nextTxn ≤ b.nextTxn
  level : b.transactionSyncDepth = a.transactionSyncDepth
  fresh : ∀ id, b.currentTxn = some id → a.nextTxn ≤ id
  stack : ∀ s ∈ b.savepoints, s.1.Above depth

variable {a b c : ActorSqlite Time Data} {depth : Nat}

theorem Kept.refl (sane : a.Sane) : Kept depth a a :=
  ⟨sane, Nat.le_refl _, rfl, fun _ same => .inl same, fun _ => ⟨rfl, rfl⟩, [], by simp, rfl⟩

theorem Kept.trans (first : Kept depth a b) (second : Kept depth b c) : Kept depth a c := by
  obtain ⟨extra, above, stack⟩ := first.stack
  obtain ⟨more, above', stack'⟩ := second.stack
  have stack := stack'.trans (congrArg (more ++ ·) stack)
  rw [← List.append_assoc] at stack
  refine ⟨second.sane, Nat.le_trans first.ids second.ids, second.level.trans first.level, fun id here =>
    ?_, fun opened => ?_,
    more ++ extra, List.forall_mem_append.2 ⟨above', above⟩, stack⟩
  · rcases second.fresh id here with before | later
    · exact first.fresh id before
    · exact .inr (Nat.le_trans first.ids later)
  · obtain ⟨txn, begun⟩ := first.stays opened
    obtain ⟨txn', begun'⟩ := second.stays (txn ▸ opened)
    exact ⟨txn'.trans txn, begun'.trans begun⟩

theorem Kept.emptied (first : Kept depth a b) (second : Emptied depth b c) : Emptied depth a c :=
  ⟨second.sane, Nat.le_trans first.ids second.ids, second.level.trans first.level,
    fun id here => Nat.le_trans first.ids (second.fresh id here), second.stack⟩

theorem Emptied.trans (first : Emptied depth a b) (second : Emptied depth b c) : Emptied depth a c :=
  ⟨second.sane, Nat.le_trans first.ids second.ids, second.level.trans first.level,
    fun id here => Nat.le_trans first.ids (second.fresh id here), second.stack⟩

theorem Emptied.kept (first : Emptied depth a b) (second : Kept depth b c) : Emptied depth a c := by
  obtain ⟨extra, above, stack⟩ := second.stack
  refine ⟨second.sane, Nat.le_trans first.ids second.ids, second.level.trans first.level, fun id here =>
    ?_, ?_⟩
  · rcases second.fresh id here with before | later
    · exact first.fresh id before
    · exact Nat.le_trans first.ids later
  · rw [stack]
    exact List.forall_mem_append.2 ⟨above, first.stack⟩

theorem Kept.outer (inner : Kept (depth + 1) a b) : Kept depth a b := by
  obtain ⟨extra, above, stack⟩ := inner.stack
  exact { inner with stack := ⟨extra, fun s member => (above s member).outer, stack⟩ }

theorem Emptied.outer (inner : Emptied (depth + 1) a b) : Emptied depth a b :=
  { inner with stack := fun s member => (inner.stack s member).outer }

theorem Sane.spent (sane : a.Sane) : a.spent.Sane := ⟨sane.calm, sane.known, sane.idle⟩

theorem execute_cases (calm : a.criticalError = false) (statement : Statement Time Data) :
    (a.execute statement = (false, a.spent) ∧ (a.spent.effect statement = none ∨ ∃ fault,
      a.faults.head? = some (some fault))) ∨
    (a.execute statement = (false, a.spent.autoRollback) ∧ ∃ fault, a.faults.head? = some (some fault)) ∨
    ∃ after, a.spent.effect statement = some after ∧ a.execute statement = (true, after) ∧
      ∀ fault ∈ a.faults.head?, fault = none := by
  by_cases silent : ∀ fault ∈ a.faults.head?, fault = none
  · have ran : a.execute statement =
        ((a.spent.effect statement).isSome, (a.spent.effect statement).getD a.spent) := by
      have known : a.faults.head? = none ∨ a.faults.head? = some none := by
        cases hit : a.faults.head? with
        | none => exact .inl rfl
        | some fault => exact .inr (congrArg some (silent fault hit))
      unfold execute
      rw [if_neg (by rw [calm]; exact Bool.false_ne_true)]
      cases did : a.spent.effect statement with
      | none => rcases known with hit | hit <;> rw [hit] <;> rfl
      | some after => rcases known with hit | hit <;> rw [hit] <;> rfl
    cases did : a.spent.effect statement with
    | none => exact .inl ⟨by rw [ran, did]; rfl, .inl rfl⟩
    | some after => exact .inr (.inr ⟨after, rfl, by rw [ran, did]; rfl, silent⟩)
  · obtain ⟨fault, hit⟩ : ∃ fault, a.faults.head? = some (some fault) := by
      by_contra none_
      refine silent fun fault here => ?_
      cases fault with
      | none => rfl
      | some fault => exact absurd ⟨fault, here⟩ none_
    unfold execute
    rw [if_neg (by rw [calm]; exact Bool.false_ne_true), hit]
    cases fault with
    | fails => exact .inl ⟨rfl, .inr ⟨_, rfl⟩⟩
    | rollsBack => exact .inr (.inl ⟨rfl, _, rfl⟩)

theorem autoRollback_cases (sane : a.Sane) : Dead a.autoRollback ∧ a.currentTxn.isSome = true ∨
    a.autoRollback = a ∧ a.currentTxn = none := by
  unfold autoRollback
  cases here : a.currentTxn with
  | none => exact .inr ⟨by rw [sane.idle here, if_neg Bool.false_ne_true], rfl⟩
  | some id =>
    have opened : a.isOpen = true := by
      unfold isOpen
      rw [(sane.known id here).2, Bool.true_or]
    rw [if_pos opened]
    exact .inl ⟨⟨rfl, rfl, rfl⟩, rfl⟩

theorem execute_dead (dead : Dead a) (statement : Statement Time Data) : a.execute statement = (false, a)
    := by
  rw [execute, if_pos dead.critical]

theorem notifyWrite_dead (dead : Dead a) : a.notifyWrite = (false, a) := by
  rw [notifyWrite, if_pos dead.broken]

/-- A change of nothing but the contents, the faults to come and what has broken. -/
theorem Kept.frame (sane : a.Sane) (calm : b.criticalError = false) (txn : b.currentTxn = a.currentTxn)
    (next : b.nextTxn = a.nextTxn) (begun : b.begun = a.begun) (stack : b.savepoints = a.savepoints)
    (level : b.transactionSyncDepth = a.transactionSyncDepth) : Kept depth a b := by
  have opened : b.isOpen = a.isOpen := by rw [isOpen, isOpen, begun, stack]
  refine ⟨⟨calm, ?_, ?_⟩, Nat.le_of_eq next.symm, level, fun id here => .inl (txn ▸ here), fun _ =>
    ⟨txn, begun⟩, [], by simp, stack⟩
  · rw [txn, next, begun]
    exact sane.known
  · rw [txn, opened]
    exact sane.idle

theorem Kept.spent (sane : a.Sane) : Kept depth a a.spent := .frame sane sane.calm rfl rfl rfl rfl rfl

/-- A critical error, or the same transaction around. -/
def Goes (depth : Nat) (a b : ActorSqlite Time Data) : Prop :=
  Dead b ∧ b.transactionSyncDepth = a.transactionSyncDepth ∨ Kept depth a b

theorem Kept.goes (first : Kept depth a b) (second : Goes depth b c) : Goes depth a c := by
  rcases second with ⟨dead, level⟩ | kept
  · exact .inl ⟨dead, level.trans first.level⟩
  · exact .inr (first.trans kept)

theorem execute_ok {P : ActorSqlite Time Data → Prop} (sane : a.Sane) {statement : Statement Time Data}
    (effects : ∀ after, a.spent.effect statement = some after → P after)
      (ok : (a.execute statement).1 = true) :
    P (a.execute statement).2 := by
  obtain ⟨ran, _⟩ | ⟨ran, _⟩ | ⟨after, did, ran, _⟩ := execute_cases sane.calm statement
  · rw [ran] at ok
    cases ok
  · rw [ran] at ok
    cases ok
  · rw [ran]
    exact effects after did

theorem execute_failed (sane : a.Sane) {statement : Statement Time Data}
    (failed : (a.execute statement).1 = false) :
    Dead (a.execute statement).2 ∧ (a.execute statement).2.transactionSyncDepth = a.transactionSyncDepth ∨
      (a.execute statement).2 = a.spent := by
  obtain ⟨ran, _⟩ | ⟨ran, _⟩ | ⟨after, did, ran, _⟩ := execute_cases sane.calm statement
  · exact .inr (by rw [ran])
  · rw [ran]
    obtain ⟨dead, _⟩ | ⟨same, _⟩ := autoRollback_cases sane.spent
    · refine .inl ⟨dead, ?_⟩
      unfold autoRollback
      split_ifs <;> rfl
    · exact .inr same
  · rw [ran] at failed
    cases failed

/-- One statement, whatever befalls it. -/
theorem Kept.execute {statement : Statement Time Data} (kept : Kept depth a b)
    (effects : ∀ after, b.spent.effect statement = some after → Kept depth a after) : Goes depth a
      (b.execute statement).2 := by
  cases ok : (b.execute statement).1 with
  | true => exact .inr (execute_ok kept.sane effects ok)
  | false =>
    rcases execute_failed kept.sane ok with ⟨dead, level⟩ | same
    · exact .inl ⟨dead, level.trans kept.level⟩
    · rw [same]
      exact .inr (kept.trans (.spent kept.sane))

variable (depth) in
theorem notifyWrite_spec (sane : a.Sane) : Kept depth a a.notifyWrite.2 ∧
    a.notifyWrite.2.contents = a.contents ∧
    a.notifyWrite.2.savepoints = a.savepoints ∧
      (a.notifyWrite.1 = true → a.notifyWrite.2.currentTxn.isSome = true) := by
  unfold notifyWrite
  by_cases broken : a.broken = true
  · rw [if_pos broken]
    exact ⟨.refl sane, rfl, rfl, fun failed => by cases failed⟩
  rw [if_neg broken]
  by_cases opened : a.currentTxn.isSome = true
  · rw [if_pos opened]
    exact ⟨.refl sane, rfl, rfl, fun _ => opened⟩
  rw [if_neg opened]
  have none_ : a.currentTxn = none := by simpa using opened
  obtain ⟨ran, _⟩ | ⟨ran, _⟩ | ⟨after, did, ran, _⟩ := execute_cases sane.calm .begin
  · rw [ran]
    exact ⟨.spent sane, rfl, rfl, fun failed => by cases failed⟩
  · obtain ⟨_, some_⟩ | ⟨same, _⟩ := autoRollback_cases sane.spent
    · exact absurd some_ opened
    · rw [ran, same]
      exact ⟨.spent sane, rfl, rfl, fun failed => by cases failed⟩
  · rw [ran]
    simp only [effect, Option.ite_none_left_eq_some] at did
    obtain ⟨_, did⟩ := did
    obtain rfl := Option.some.inj did
    refine ⟨⟨⟨sane.calm, ?_, fun none_ => by cases none_⟩, Nat.le_succ _, rfl, ?_, fun some_ =>
      absurd some_ opened,
      [], by simp, rfl⟩, rfl, rfl, fun _ => rfl⟩
    · intro id here
      obtain rfl := Option.some.inj here
      exact ⟨Nat.lt_succ_self _, rfl⟩
    · intro id here
      obtain rfl := Option.some.inj here
      exact .inr (Nat.le_refl _)

variable (depth) in
theorem write_goes (sane : a.Sane) (change : Contents Time Data → Option (Contents Time Data)) :
    Goes depth a (a.write change).2 ∧ ((a.write change).1 = true → Kept depth a (a.write change).2) := by
  obtain ⟨kept, _⟩ := notifyWrite_spec depth sane
  unfold write
  cases result : a.notifyWrite with
  | mk ok b =>
    rw [result] at kept
    cases ok with
    | false => exact ⟨.inr kept, fun failed => by cases failed⟩
    | true =>
      have effects : ∀ after, b.spent.effect (.write change) = some after → Kept depth a after := by
        intro after did
        obtain ⟨contents, _, rfl⟩ := Option.map_eq_some_iff.1 did
        exact kept.trans (.frame kept.sane kept.sane.calm rfl rfl rfl rfl rfl)
      exact ⟨kept.execute effects, execute_ok kept.sane effects⟩

variable (depth) in
theorem writeAll_goes (changes : List (Data → Option Data)) (sane : a.Sane) :
    Goes depth a (a.writeAll changes).2 ∧ ((a.writeAll changes).1 = true → Kept depth a
      (a.writeAll changes).2) := by
  induction changes generalizing a with
  | nil => exact ⟨.inr (.refl sane), fun _ => .refl sane⟩
  | cons change rest ih =>
    obtain ⟨goes, ok⟩ := write_goes depth sane
      fun contents => (change contents.data).map fun data => { contents with data }
    unfold writeAll
    cases result : a.write fun contents => (change contents.data).map fun data =>
      { contents with data } with
    | mk through b =>
      rw [result] at goes ok
      cases through with
      | false => exact ⟨goes, fun failed => by cases failed⟩
      | true =>
        have kept := ok rfl
        obtain ⟨goes', ok'⟩ := ih kept.sane
        exact ⟨kept.goes goes', fun through => kept.trans (ok' through)⟩

theorem savepoint_kept {name : SavepointName} (sane : a.Sane) (opened : a.currentTxn.isSome = true)
    (above : name.Above depth)
    {after : ActorSqlite Time Data} (did : a.spent.effect (.savepoint name) = some after)
      : Kept depth a after := by
  obtain rfl := Option.some.inj did
  refine ⟨⟨sane.calm, sane.known, fun none_ => ?_⟩, Nat.le_refl _, rfl, fun _ here => .inl here, fun _ =>
    ⟨rfl, rfl⟩,
    [(name, a.contents)], by simpa using above, rfl⟩
  have none_ : a.currentTxn = none := none_
  rw [none_] at opened
  cases opened

theorem downTo_found {name : SavepointName} {extra rest : List (SavepointName × Contents Time Data)}
    {before : Contents Time Data} (apart : ∀ s ∈ extra, s.1 ≠ name) :
    downTo name (extra ++ (name, before) :: rest) = (name, before) :: rest := by
  induction extra with
  | nil => exact if_pos rfl
  | cons top extra ih =>
    rw [List.cons_append, downTo, if_neg (apart top List.mem_cons_self)]
    exact ih fun s member => apart s (List.mem_cons_of_mem _ member)

theorem downTo_absent {name : SavepointName} {s : List (SavepointName × Contents Time Data)}
    (apart : ∀ x ∈ s, x.1 ≠ name) :
    downTo name s = [] := by
  induction s with
  | nil => rfl
  | cons top s ih =>
    rw [downTo, if_neg (apart top List.mem_cons_self)]
    exact ih fun x member => apart x (List.mem_cons_of_mem _ member)

theorem downTo_open {name : SavepointName} {extra : List (SavepointName × Contents Time Data)}
    (there : ∃ s ∈ extra, s.1 = name) (rest : List (SavepointName × Contents Time Data)) :
    ∃ before inner, downTo name (extra ++ rest) = (name, before) :: (inner ++ rest) ∧ ∀ s ∈ inner,
      s ∈ extra := by
  induction extra with
  | nil =>
    obtain ⟨s, member, _⟩ := there
    exact absurd member List.not_mem_nil
  | cons top extra ih =>
    by_cases same : top.1 = name
    · refine ⟨top.2, extra, ?_, fun s member => List.mem_cons_of_mem _ member⟩
      rw [List.cons_append, downTo, if_pos same, ← same]
    · have later : ∃ s ∈ extra, s.1 = name := by
        obtain ⟨s, member, named⟩ := there
        rcases List.mem_cons.1 member with rfl | member
        · exact absurd named same
        · exact ⟨s, member, named⟩
      obtain ⟨before, inner, found, among⟩ := ih later
      refine ⟨before, inner, ?_, fun s member => List.mem_cons_of_mem _ (among s member)⟩
      rw [List.cons_append, downTo, if_neg same]
      exact found

/-- A change of what is open above the transaction around. -/
theorem Kept.restack (kept : Kept depth a b) (opened : a.currentTxn.isSome = true)
    (calm : c.criticalError = false)
    (txn : c.currentTxn = b.currentTxn) (next : c.nextTxn = b.nextTxn) (begun : c.begun = b.begun)
    (level : c.transactionSyncDepth = b.transactionSyncDepth)
    {extra : List (SavepointName × Contents Time Data)} (above : ∀ s ∈ extra, s.1.Above depth)
    (stack : c.savepoints = extra ++ a.savepoints) : Kept depth a c := by
  obtain ⟨sameTxn, sameBegun⟩ := kept.stays opened
  refine ⟨⟨calm, ?_, fun none_ => ?_⟩, next ▸ kept.ids, level.trans kept.level, fun id here => .inl ?_,
    fun _ => ⟨txn.trans sameTxn, begun.trans sameBegun⟩, extra, above, stack⟩
  · rw [txn, next, begun]
    exact kept.sane.known
  · rw [← sameTxn, ← txn, none_] at opened
    cases opened
  · rw [← sameTxn, ← txn]
    exact here

/-- A savepoint of a name is open above the transaction around. -/
structure Opens (depth : Nat) (name : SavepointName) (a b : ActorSqlite Time Data) : Prop where
  kept : Kept depth a b
  opened : a.currentTxn.isSome = true
  stack : ∃ extra, (∀ s ∈ extra, s.1.Above depth) ∧ b.savepoints = extra ++ a.savepoints ∧ ∃ s ∈ extra,
    s.1 = name

theorem Opens.trans {name : SavepointName} (first : Opens depth name a b) (second : Kept depth b c) :
    Opens depth name a c := by
  obtain ⟨extra, above, stack, s, member, named⟩ := first.stack
  obtain ⟨more, above', stack'⟩ := second.stack
  refine ⟨first.kept.trans second, first.opened, more ++ extra, List.forall_mem_append.2 ⟨above', above⟩,
    ?_, s,
    List.mem_append_right _ member, named⟩
  rw [stack', stack, List.append_assoc]

theorem savepoint_opens {name : SavepointName} (sane : a.Sane) (opened : a.currentTxn.isSome = true)
    (named : name.Above depth) {after : ActorSqlite Time Data}
      (did : a.spent.effect (.savepoint name) = some after) :
    Opens depth name a after := by
  have kept := savepoint_kept sane opened named did
  obtain rfl := Option.some.inj did
  exact ⟨kept, opened, [(name, a.contents)], by simpa using named, rfl, _, List.mem_singleton.2 rfl, rfl⟩

theorem unwind_keeps {name : SavepointName} (inside : Opens depth name a b)
    {after : ActorSqlite Time Data} :
    (b.spent.effect (.release name) = some after → Kept depth a after) ∧
      (b.spent.effect (.rollbackTo name) = some after → Opens depth name a after) := by
  obtain ⟨extra, above, stack, there⟩ := inside.stack
  obtain ⟨before, inner, found, among⟩ := downTo_open there a.savepoints
  have higher : ∀ s ∈ inner, s.1.Above depth := fun s member => above s (among s member)
  have named : name.Above depth := by
    obtain ⟨s, member, rfl⟩ := there
    exact above s member
  have found : downTo name b.spent.savepoints = (name, before) :: (inner ++ a.savepoints) := by
    change downTo name b.savepoints = _
    rw [stack, found]
  constructor
  · intro did
    simp only [effect, found, Option.some.injEq] at did
    subst did
    exact inside.kept.restack inside.opened inside.kept.sane.calm rfl rfl rfl rfl higher rfl
  · intro did
    simp only [effect, found, Option.some.injEq] at did
    subst did
    have both : ∀ s ∈ (name, before) :: inner, s.1.Above depth := List.forall_mem_cons.2 ⟨named, higher⟩
    refine ⟨inside.kept.restack inside.opened inside.kept.sane.calm rfl rfl rfl rfl both rfl, inside.opened,
      (name, before) :: inner, both, rfl, _, List.mem_cons_self, rfl⟩

theorem release_goes {name : SavepointName} (inside : Opens depth name a b) :
    Goes depth a (b.execute (.release name)).2 := inside.kept.execute fun _ did =>
      (unwind_keeps inside).1 did

theorem rollbackMultiPut_goes (inside : Opens depth .putMultiple a b) : Goes depth a b.rollbackMultiPut :=
    by
  have goes : Goes depth a (b.execute (.rollbackTo .putMultiple)).2 :=
    inside.kept.execute fun _ did => ((unwind_keeps inside).2 did).kept
  have opens := execute_ok inside.kept.sane (P := Opens depth .putMultiple a) fun _ did =>
    (unwind_keeps inside).2 did
  unfold rollbackMultiPut
  cases result : b.execute (.rollbackTo .putMultiple) with
  | mk ok c =>
    rw [result] at goes opens
    cases ok with
    | false => exact goes
    | true => exact release_goes (opens rfl)

theorem putMultiple_goes (created pairs : List (Data → Option Data)) (sane : a.Sane) :
    Goes depth a (a.putMultiple created pairs).2 := by
  obtain ⟨written, _, _, opened⟩ := notifyWrite_spec depth sane
  unfold putMultiple
  cases result : a.notifyWrite with
  | mk ok b =>
    rw [result] at written opened
    cases ok with
    | false => exact .inr written
    | true =>
      refine written.goes ?_
      have opened := opened rfl
      obtain ⟨goes, kept⟩ := writeAll_goes depth created written.sane
      simp only
      cases made : b.writeAll created with
      | mk ok c =>
        rw [made] at goes kept
        cases ok with
        | false => exact goes
        | true =>
          have kept : Kept depth b c := kept rfl
          have named : SavepointName.Above depth .putMultiple := trivial
          refine kept.goes ?_
          have opened : c.currentTxn.isSome = true := by rw [(kept.stays opened).1, opened]
          have effects : ∀ after, c.spent.effect (.savepoint .putMultiple) = some after →
            Opens depth .putMultiple c after :=
            fun _ did => savepoint_opens kept.sane opened named did
          have goes := (Kept.refl kept.sane).execute fun after did => (effects after did).kept
          have opens := execute_ok kept.sane effects
          simp only
          cases saved : c.execute (.savepoint .putMultiple) with
          | mk ok d =>
            rw [saved] at goes opens
            cases ok with
            | false => exact goes
            | true =>
              have opens := opens rfl
              obtain ⟨goes, kept⟩ := writeAll_goes depth pairs opens.kept.sane
              simp only
              cases put : d.writeAll pairs with
              | mk ok e =>
                rw [put] at goes kept
                cases ok with
                | true => exact release_goes (opens.trans (kept rfl))
                | false =>
                  simp only
                  rcases goes with ⟨dead, level⟩ | kept
                  · have still : e.rollbackMultiPut = e := by rw [rollbackMultiPut, execute_dead dead]
                    rw [still]
                    exact opens.kept.goes (.inl ⟨dead, level⟩)
                  · exact rollbackMultiPut_goes (opens.trans kept)

theorem setAlarm_goes [DecidableEq Time] (sane : a.Sane) (cached : Bool) (time : Option Time) :
    Goes depth a (a.setAlarm cached time).2 := by
  unfold setAlarm
  split_ifs
  · exact .inr (.refl sane)
  · exact (write_goes depth sane _).1

variable (depth) in
theorem resetAll_goes (sane : a.Sane) (empty : Data) :
    Goes depth a (a.resetAll empty).2 ∧ ((a.resetAll empty).1 = true → Kept depth a (a.resetAll empty).2)
      := by
  have effects : ∀ after, a.spent.effect .select = some after → Kept depth a after := by
    intro after did
    obtain rfl := Option.some.inj did
    exact .spent sane
  have goes := (Kept.refl sane).execute effects
  have ok := execute_ok sane effects
  unfold resetAll
  cases result : a.execute .select with
  | mk through b =>
    rw [result] at goes ok
    cases through with
    | false => exact ⟨goes, fun failed => by cases failed⟩
    | true =>
      have kept : Kept depth a b := ok rfl
      simp only
      split_ifs
      · exact ⟨goes, fun failed => by cases failed⟩
      · have reset : Kept depth b { b with contents := { alarm := none, data := empty } } :=
          .frame kept.sane kept.sane.calm rfl rfl rfl rfl rfl
        exact ⟨.inr (kept.trans reset), fun _ => kept.trans reset⟩

theorem resetKeeping_goes [DecidableEq Time] (sane : a.Sane) (empty : Data) (alarm : Option Time) :
    Goes depth a (a.resetKeeping empty alarm).2 := by
  obtain ⟨goes, ok⟩ := resetAll_goes depth sane empty
  unfold resetKeeping
  cases result : a.resetAll empty with
  | mk through b =>
    rw [result] at goes ok
    cases through with
    | false => exact goes
    | true =>
      have kept : Kept depth a b := ok rfl
      simp only
      split_ifs
      · exact kept.goes (setAlarm_goes kept.sane false alarm)
      · exact goes

/-- A critical error, or the transaction around has been closed. -/
def Ends (depth : Nat) (a b : ActorSqlite Time Data) : Prop :=
  Dead b ∧ b.transactionSyncDepth = a.transactionSyncDepth ∨ Emptied depth a b

theorem Emptied.goes (first : Emptied depth a b) (second : Goes depth b c) : Ends depth a c := by
  rcases second with ⟨dead, level⟩ | kept
  · exact .inl ⟨dead, level.trans first.level⟩
  · exact .inr (first.kept kept)

variable (depth) in
theorem closeCurrent_spec (sane : a.Sane) :
    (a.closeCurrent.1 = false → Goes depth a a.closeCurrent.2) ∧
      (a.closeCurrent.1 = true → if a.currentTxn.isSome = true then Emptied depth a a.closeCurrent.2
        else a.closeCurrent.2 = a) := by
  unfold closeCurrent
  by_cases opened : a.currentTxn.isSome = true
  · rw [if_pos opened, if_pos opened]
    have effects : ∀ after, a.spent.effect .rollback = some after →
        after.criticalError = false ∧ after.nextTxn = a.nextTxn ∧ after.savepoints = [] ∧
          after.begun = none ∧
          after.transactionSyncDepth = a.transactionSyncDepth := by
      intro after did
      simp only [effect, Option.ite_none_right_eq_some] at did
      obtain ⟨_, did⟩ := did
      obtain rfl := Option.some.inj did
      exact ⟨sane.calm, rfl, rfl, rfl, rfl⟩
    have ok := execute_ok sane effects
    have failed : (a.execute .rollback).1 = false → _ := execute_failed sane
    cases result : a.execute .rollback with
    | mk through b =>
      rw [result] at ok failed
      cases through with
      | false =>
        refine ⟨fun _ => ?_, fun through => by cases through⟩
        rcases failed rfl with dead | same
        · exact .inl dead
        · simp only at same
          rw [same]
          exact .inr (.spent sane)
      | true =>
        obtain ⟨calm, next, stack, begun, level⟩ := ok rfl
        simp only at calm next stack begun level
        refine ⟨fun failed => (by cases failed), fun _ => ?_⟩
        refine ⟨⟨calm, fun id here => (by cases here), fun _ => ?_⟩, Nat.le_of_eq next.symm, level,
          fun id here => (by cases here), ?_⟩
        · simp only [isOpen, begun, stack]
          rfl
        · intro s member
          simp only [stack] at member
          cases member
  · rw [if_neg opened]
    exact ⟨fun failed => (by cases failed), fun _ => (by rw [if_neg opened])⟩

variable (depth) in
theorem deleteAll_spec [DecidableEq Time] (sane : a.Sane) (empty : Data) (deleteAlarm : Bool) :
    if (!a.broken && a.currentTxn.isSome && a.closeCurrent.1) = true then Ends depth a
      (deleteAll empty a deleteAlarm).2
    else Goes depth a (deleteAll empty a deleteAlarm).2 := by
  unfold deleteAll
  cases broken : a.broken with
  | true =>
    rw [if_pos rfl, if_neg (by simp)]
    exact .inr (.refl sane)
  | false =>
    obtain ⟨fails, closes⟩ := closeCurrent_spec depth sane
    rw [if_neg Bool.false_ne_true]
    cases result : a.closeCurrent with
    | mk through b =>
      rw [result] at fails closes
      cases through with
      | false =>
        rw [if_neg (by simp)]
        exact fails rfl
      | true =>
        have closes := closes rfl
        by_cases opened : a.currentTxn.isSome = true
        · rw [if_pos opened] at closes
          rw [if_pos (by simp [opened])]
          exact closes.goes (resetKeeping_goes closes.sane empty _)
        · rw [if_neg opened] at closes
          rw [if_neg (by simp [opened])]
          simp only at closes
          rw [closes]
          exact resetKeeping_goes sane empty _

theorem execute_silent (calm : a.criticalError = false) {statement : Statement Time Data}
    {after : ActorSqlite Time Data}
    (did : a.spent.effect statement = some after) :
    a.execute statement = (true, after) ∧ (∀ fault ∈ a.faults.head?, fault = none) ∨
      (a.execute statement).1 = false ∧ ¬ ∀ fault ∈ a.faults.head?, fault = none := by
  have struck : (∃ fault, a.faults.head? = some (some fault)) → ¬ ∀ fault ∈ a.faults.head?, fault = none :=
    by
    rintro ⟨fault, hit⟩ silent
    cases silent _ hit
  obtain ⟨ran, nothing | hit⟩ | ⟨ran, hit⟩ | ⟨other, same, ran, silent⟩ := execute_cases calm statement
  · rw [nothing] at did
    cases did
  · exact .inr ⟨by rw [ran], struck hit⟩
  · exact .inr ⟨by rw [ran], struck hit⟩
  · obtain rfl := Option.some.inj (same.symm.trans did)
    exact .inl ⟨ran, silent⟩

theorem spared_iff : CallRecord.Spared a ↔
    (∀ fault ∈ a.faults.head?, fault = none) ∧ ∀ fault ∈ a.faults.tail.head?, fault = none := by
  unfold CallRecord.Spared
  rcases a.faults with _ | ⟨first, _ | ⟨second, rest⟩⟩ <;> simp

/-- The callback of a call at this depth has ended, with the transaction around still open. -/
structure Ready (depth : Nat) (a b : ActorSqlite Time Data) : Prop where
  kept : Kept depth a b
  opened : a.currentTxn.isSome = true
  stack : ∃ extra, (∀ s ∈ extra, s.1.Above (depth + 1)) ∧ b.savepoints = extra ++ (.sync depth, a.contents)
    :: a.savepoints

theorem Ready.spent (ready : Ready depth a b) : Ready depth a b.spent :=
  ⟨ready.kept.trans (.spent ready.kept.sane), ready.opened, ready.stack⟩

theorem Ready.opens (ready : Ready depth a b) : Opens depth (.sync depth) a b := by
  obtain ⟨extra, above, stack⟩ := ready.stack
  refine ⟨ready.kept, ready.opened, extra ++ [(.sync depth, a.contents)], ?_,
    by rw [stack, List.append_assoc]; rfl,
    _, List.mem_append_right _ (List.mem_singleton.2 rfl), rfl⟩
  refine List.forall_mem_append.2 ⟨fun s member => (above s member).outer, ?_⟩
  intro s member
  rw [List.mem_singleton.1 member]
  exact Nat.le_refl depth

theorem Ready.found (ready : Ready depth a b) :
    downTo (.sync depth) b.savepoints = (.sync depth, a.contents) :: a.savepoints := by
  obtain ⟨extra, above, stack⟩ := ready.stack
  rw [stack]
  exact downTo_found fun s member => (above s member).ne

theorem Ready.longer (ready : Ready depth a b) : a.savepoints.length < b.savepoints.length := by
  obtain ⟨extra, above, stack⟩ := ready.stack
  rw [stack, List.length_append, List.length_cons]
  omega

/-- Nothing of the callback is left. -/
structure Restored (a b : ActorSqlite Time Data) : Prop where
  contents : b.contents = a.contents
  savepoints : b.savepoints = a.savepoints

theorem undo_ready (ready : Ready depth a b) : Goes depth a (undo depth b) ∧
    (CallRecord.Spared b → Restored a (undo depth b)) ∧
    (¬ CallRecord.Spared b → Dead (undo depth b) ∨ a.savepoints.length < (undo depth b).savepoints.length)
      := by
  have calm := ready.kept.sane.calm
  have did : b.spent.effect (.rollbackTo (.sync depth)) =
      some { b.spent with contents := a.contents, savepoints := (.sync depth, a.contents)
        :: a.savepoints } := by
    have found : downTo (.sync depth) b.spent.savepoints = _ := ready.found
    simp only [effect, found]
  have opens := (unwind_keeps ready.opens).2 did
  unfold undo
  rw [if_neg (by rw [calm]; exact Bool.false_ne_true)]
  rcases execute_silent calm did with ⟨ran, silent⟩ | ⟨failed, struck⟩
  · rw [ran]
    simp only
    have undone : ActorSqlite.effect (ActorSqlite.spent
        { b.spent with contents := a.contents, savepoints := (.sync depth, a.contents) :: a.savepoints })
          (.release (.sync depth)) =
        some { b.spent.spent with contents := a.contents, savepoints := a.savepoints } := by
      have found : downTo (.sync depth) ((.sync depth, a.contents) :: a.savepoints) = _ := if_pos rfl
      simp only [effect, ActorSqlite.spent, found]
    refine ⟨release_goes opens, fun spared => ?_, fun struck => ?_⟩
    · rcases execute_silent opens.kept.sane.calm undone with ⟨ran, _⟩ | ⟨_, struck⟩
      · rw [ran]
        exact ⟨rfl, rfl⟩
      · exact absurd (spared_iff.1 spared).2 struck
    · rcases execute_silent opens.kept.sane.calm undone with ⟨_, quiet⟩ | ⟨failed, _⟩
      · exact absurd (spared_iff.2 ⟨silent, quiet⟩) struck
      · rcases execute_failed opens.kept.sane failed with ⟨dead, _⟩ | same
        · exact .inl dead
        · rw [same]
          exact .inr (Nat.lt_succ_self _)
  · have result := execute_failed ready.kept.sane failed
    cases ran : b.execute (.rollbackTo (.sync depth)) with
    | mk through c =>
      rw [ran] at failed result
      simp only at failed
      subst failed
      simp only at result ⊢
      refine ⟨?_, fun spared => absurd (spared_iff.1 spared).1 struck, fun _ => ?_⟩
      · rcases result with ⟨dead, level⟩ | rfl
        · exact .inl ⟨dead, level.trans ready.kept.level⟩
        · exact .inr ready.spent.kept
      · rcases result with ⟨dead, _⟩ | rfl
        · exact .inl dead
        · exact .inr ready.longer

theorem undo_dead (dead : Dead a) : undo depth a = a := by
  rw [undo, if_pos dead.critical]

theorem conclude_ready {body : Run Time Data} (ready : Ready depth a body.actor) :
    Goes depth a (conclude depth body).2 ∧
    ((conclude depth body).1 = none → (conclude depth body).2.contents = body.actor.contents ∧
      (conclude depth body).2.savepoints = a.savepoints) ∧
    ∀ u, (conclude depth body).1 = some u → Dead (conclude depth body).2 ∨ u.criticalError = false ∧
      (CallRecord.Spared u → Restored a (conclude depth body).2) ∧
      (¬ CallRecord.Spared u → Dead (conclude depth body).2 ∨ a.savepoints.length <
        (conclude depth body).2.savepoints.length) := by
  have calm := ready.kept.sane.calm
  have undone {b : ActorSqlite Time Data} (ready : Ready depth a b) := undo_ready ready
  unfold conclude
  by_cases returned : body.returned = true
  · rw [if_pos ⟨returned, calm⟩]
    have did : body.actor.spent.effect (.release (.sync depth)) = some
      { body.actor.spent with savepoints := a.savepoints } := by
      have found : downTo (.sync depth) body.actor.spent.savepoints = _ := ready.found
      simp only [effect, found]
    rcases execute_silent calm did with ⟨ran, _⟩ | ⟨failed, _⟩
    · rw [ran]
      exact ⟨.inr ((unwind_keeps ready.opens).1 did), fun _ => ⟨rfl, rfl⟩, fun u none_ => by cases none_⟩
    · have result := execute_failed ready.kept.sane failed
      cases ran : body.actor.execute (.release (.sync depth)) with
      | mk through c =>
        rw [ran] at failed result
        simp only at failed
        subst failed
        simp only at result ⊢
        rcases result with ⟨dead, level⟩ | rfl
        · rw [undo_dead dead]
          exact ⟨.inl ⟨dead, level.trans ready.kept.level⟩, fun some_ => (by cases some_), fun u _ =>
            .inl dead⟩
        · obtain ⟨goes, restored, left_⟩ := undone ready.spent
          refine ⟨goes, fun some_ => (by cases some_), fun u here => ?_⟩
          obtain rfl := Option.some.inj here
          exact .inr ⟨calm, restored, left_⟩
  · rw [if_neg fun both => returned both.1]
    obtain ⟨goes, restored, left_⟩ := undone ready
    refine ⟨goes, fun some_ => (by cases some_), fun u here => ?_⟩
    obtain rfl := Option.some.inj here
    exact .inr ⟨calm, restored, left_⟩

/-- Where the transaction around was closed, the savepoint of the call is not found. -/
theorem conclude_emptied {body : Run Time Data} (emptied : Emptied (depth + 1) a body.actor) :
    (conclude depth body).1.isSome = true ∧ Ends (depth + 1) a (conclude depth body).2 := by
  have absent {b : ActorSqlite Time Data} (emptied : Emptied (depth + 1) a b)
    {statement : Statement Time Data}
      (which : statement = .release (.sync depth) ∨ statement = .rollbackTo (.sync depth)) :
      (b.execute statement).1 = false ∧ Ends (depth + 1) a (b.execute statement).2 := by
    have nothing : b.spent.effect statement = none := by
      have none_ : downTo (.sync depth) b.spent.savepoints = [] :=
        downTo_absent fun s member => (emptied.stack s member).ne
      rcases which with rfl | rfl <;> simp only [effect, none_]
    have failed : (b.execute statement).1 = false := by
      obtain ⟨ran, _⟩ | ⟨ran, _⟩ | ⟨after, did, _, _⟩ := execute_cases emptied.sane.calm statement
      · rw [ran]
      · rw [ran]
      · rw [nothing] at did
        cases did
    refine ⟨failed, ?_⟩
    rcases execute_failed emptied.sane failed with ⟨dead, level⟩ | same
    · exact .inl ⟨dead, level.trans emptied.level⟩
    · rw [same]
      exact .inr (emptied.kept (.spent emptied.sane))
  have undone {b : ActorSqlite Time Data} (ends : Ends (depth + 1) a b) : Ends (depth + 1) a (undo depth b)
    := by
    rcases ends with ⟨dead, level⟩ | emptied
    · rw [undo_dead dead]
      exact .inl ⟨dead, level⟩
    · obtain ⟨failed, ends⟩ := absent emptied (.inr rfl)
      unfold undo
      rw [if_neg (by rw [emptied.sane.calm]; exact Bool.false_ne_true)]
      cases ran : b.execute (.rollbackTo (.sync depth)) with
      | mk through c =>
        rw [ran] at failed ends
        simp only at failed
        subst failed
        exact ends
  unfold conclude
  split_ifs
  · obtain ⟨failed, ends⟩ := absent emptied (.inl rfl)
    cases ran : body.actor.execute (.release (.sync depth)) with
    | mk through c =>
      rw [ran] at failed ends
      simp only at failed
      subst failed
      exact ⟨rfl, undone ends⟩
  · exact ⟨rfl, undone (.inr emptied)⟩

theorem conclude_dead {body : Run Time Data} (dead : Dead body.actor) :
    conclude depth body = (some body.actor, body.actor) := by
  unfold conclude
  rw [if_neg (by rw [dead.critical]; simp), undo_dead dead]

/-- What a callback, or a part of one, comes to. -/
def Follows (depth : Nat) (emptied : Bool) (a b : ActorSqlite Time Data) : Prop :=
  Dead b ∧ b.transactionSyncDepth = a.transactionSyncDepth ∨
    (if emptied = true then Emptied depth a b else Kept depth a b)

theorem Kept.leave (kept : Kept depth (enter a) b) : Kept depth a (leave b) := by
  have level : (Sync.leave b).transactionSyncDepth = a.transactionSyncDepth := by
    change b.transactionSyncDepth - 1 = _
    rw [kept.level]
    rfl
  exact ⟨⟨kept.sane.calm, kept.sane.known, kept.sane.idle⟩, kept.ids, level, kept.fresh, kept.stays,
    kept.stack⟩

theorem Emptied.leave (emptied : Emptied depth (enter a) b) : Emptied depth a (leave b) := by
  have level : (Sync.leave b).transactionSyncDepth = a.transactionSyncDepth := by
    change b.transactionSyncDepth - 1 = _
    rw [emptied.level]
    rfl
  exact ⟨⟨emptied.sane.calm, emptied.sane.known, emptied.sane.idle⟩, emptied.ids, level, emptied.fresh,
    emptied.stack⟩

theorem Follows.leave {emptied : Bool} (follows : Follows depth emptied (enter a) b)
    : Follows depth emptied a (leave b) := by
  rcases follows with ⟨dead, level⟩ | lives
  · refine .inl ⟨⟨dead.critical, dead.broken, dead.begun⟩, ?_⟩
    change b.transactionSyncDepth - 1 = _
    rw [level]
    rfl
  · refine .inr ?_
    split_ifs at lives ⊢
    · exact lives.leave
    · exact lives.leave

theorem Kept.follows {emptied : Bool} (first : Kept depth a b) (second : Follows depth emptied b c) :
    Follows depth emptied a c := by
  rcases second with ⟨dead, level⟩ | lives
  · exact .inl ⟨dead, level.trans first.level⟩
  · refine .inr ?_
    split_ifs at lives ⊢
    · exact first.emptied lives
    · exact first.trans lives

/-- The actor at a call, and with the implicit transaction around it. -/
structure Begun (a opened : ActorSqlite Time Data) : Prop where
  calm : a.criticalError = false
  sane : opened.Sane
  some_ : opened.currentTxn.isSome = true
  contents : opened.contents = a.contents
  savepoints : opened.savepoints = a.savepoints
  level : opened.transactionSyncDepth = a.transactionSyncDepth

theorem Begun.around {opened : ActorSqlite Time Data} (begun : Begun a opened)
    : opened.begun.isSome = true := by
  obtain ⟨id, here⟩ := Option.isSome_iff_exists.1 begun.some_
  exact (begun.sane.known id here).2

theorem Begun.enter {opened : ActorSqlite Time Data} (begun : Begun a opened) : (enter opened).Sane :=
  ⟨begun.sane.calm, begun.sane.known, begun.sane.idle⟩

/-- Every call that ends with the transaction around closed is torn. -/
theorem called_torn {opened : ActorSqlite Time Data} {body : Run Time Data} (begun : Begun a opened)
    (closed : Dead (conclude depth body).2 ∨ ∃ inside, opened.nextTxn ≤ inside.nextTxn ∧
      Emptied (depth + 1) inside (conclude depth body).2) : ¬ (called depth a opened body).AllOrNothing :=
        by
  intro all
  rcases closed with dead | ⟨inside, later, emptied⟩
  · have around := begun.around
    have same : (conclude depth body).2.begun = opened.begun := all.begun
    rw [← same, dead.begun] at around
    cases around
  · obtain ⟨id, here⟩ := Option.isSome_iff_exists.1 begun.some_
    have same : (conclude depth body).2.currentTxn = some id := all.currentTxn.trans here
    have young := emptied.fresh id same
    have old := (begun.sane.known id here).1
    omega

theorem called_spec {opened inside : ActorSqlite Time Data} {body : Run Time Data} (begun : Begun a opened)
    (did : (enter opened).spent.effect (.savepoint (.sync depth)) = some inside)
    (follows : Follows (depth + 1) body.emptied inside body.actor) :
    ((called depth a opened body).AllOrNothing ↔ (called depth a opened body).Clean) ∧
      Follows depth body.emptied opened (called depth a opened body).after := by
  have named : SavepointName.Above depth (.sync depth) := Nat.le_refl depth
  have saved := savepoint_kept begun.enter begun.some_ named did
  obtain rfl := Option.some.inj did
  rcases follows with ⟨dead, level⟩ | lives
  · have concluded : conclude depth body = (some body.actor, body.actor) := conclude_dead dead
    have torn : ¬ (called depth a opened body).AllOrNothing := called_torn begun
      (.inl (by rw [concluded]; exact dead))
    refine ⟨⟨fun all => absurd all torn, fun clean => ?_⟩, ?_⟩
    · have calm := clean.calm begun.calm
      change (conclude depth body).2.criticalError = false at calm
      rw [concluded, dead.critical] at calm
      cases calm
    · refine Follows.leave (.inl ⟨by rw [concluded]; exact dead, ?_⟩)
      rw [concluded]
      exact level
  · by_cases gone : body.emptied = true
    · rw [if_pos gone] at lives
      obtain ⟨_, ends⟩ := conclude_emptied lives
      refine ⟨⟨fun all => absurd all (called_torn begun ?_), fun clean => ?_⟩, ?_⟩
      · rcases ends with ⟨dead, _⟩ | emptied
        · exact .inl dead
        · refine .inr ⟨_, ?_, emptied⟩
          exact Nat.le_refl opened.nextTxn
      · have kept : body.emptied = false := clean.kept
        rw [gone] at kept
        cases kept
      · refine Follows.leave (saved.follows ?_)
        rcases ends with dead | emptied
        · exact .inl dead
        · exact .inr (by rw [if_pos gone]; exact emptied.outer)
    · rw [if_neg gone] at lives
      have ready : Ready depth (enter opened) body.actor :=
        ⟨saved.trans lives.outer, begun.some_, by
          obtain ⟨extra, above, stack⟩ := lives.stack
          exact ⟨extra, above, stack⟩⟩
      obtain ⟨goes, returns, undone⟩ := conclude_ready ready
      refine ⟨⟨fun all => ⟨Bool.not_eq_true _ ▸ gone, fun _ => ?_, fun u here calm => ?_⟩, fun clean =>
        ?_⟩, ?_⟩
      · rcases goes with ⟨dead, _⟩ | kept
        · exact absurd all (called_torn begun (.inl dead))
        · exact kept.sane.calm
      · by_contra struck
        rcases undone u here with dead | ⟨_, _, left_⟩
        · exact called_torn begun (.inl dead) all
        · rcases left_ struck with dead | longer
          · exact called_torn begun (.inl dead) all
          · have stack : (conclude depth body).2.savepoints = a.savepoints := all.savepoints
            rw [stack, ← begun.savepoints] at longer
            exact Nat.lt_irrefl _ longer
      · rcases goes with ⟨dead, _⟩ | kept
        · have calm := clean.calm begun.calm
          change (conclude depth body).2.criticalError = false at calm
          rw [dead.critical] at calm
          cases calm
        have stays := kept.stays begun.some_
        have level := kept.leave.level
        have ended : (conclude depth body).2.contents =
            (if (conclude depth body).1.isNone then body.actor.contents else a.contents) ∧
              (conclude depth body).2.savepoints = a.savepoints := by
          cases result : (conclude depth body).1 with
          | none =>
            obtain ⟨contents, stack⟩ := returns result
            exact ⟨contents, stack.trans begun.savepoints⟩
          | some u =>
            rcases undone u result with dead | ⟨calm, restored, _⟩
            · have alive := kept.sane.calm
              rw [dead.critical] at alive
              cases alive
            · have back := restored (clean.undone u result calm)
              exact ⟨back.contents.trans begun.contents, back.savepoints.trans begun.savepoints⟩
        exact ⟨ended.1, ended.2, stays.2, stays.1, level.trans begun.level⟩
      · rcases goes with dead | kept
        · exact Follows.leave (.inl dead)
        · exact Follows.leave (.inr (by rw [if_neg gone]; exact kept))

end ActorSqlite

section Runs

variable [DecidableEq Time] {depth : Nat}

theorem writeAll_dead {a : ActorSqlite Time Data} (dead : Dead a) (changes : List (Data → Option Data)) :
    (a.writeAll changes).2 = a := by
  cases changes with
  | nil => rfl
  | cons change rest => rw [writeAll, write, notifyWrite_dead dead]

theorem putMultiple_dead {a : ActorSqlite Time Data} (dead : Dead a)
    (created pairs : List (Data → Option Data)) :
    (a.putMultiple created pairs).2 = a := by
  rw [putMultiple, notifyWrite_dead dead]

theorem deleteAll_dead {a : ActorSqlite Time Data} (dead : Dead a) (empty : Data) (deleteAlarm : Bool) :
    (deleteAll empty a deleteAlarm).2 = a := by
  rw [deleteAll, if_pos dead.broken]

/-- After a critical error nothing changes any more, and every call says so. -/
theorem exec_dead (empty : Data) (callback : Callback Time Data) {a : ActorSqlite Time Data}
    (dead : Dead a) :
    (exec empty callback a).actor = a ∧ (exec empty callback a).emptied = false ∧
      ∀ r ∈ (exec empty callback a).calls, r.AllOrNothing ↔ r.Clean := by
  induction callback with
  | returns thenable => exact ⟨rfl, rfl, fun r member => by cases member⟩
  | throws => exact ⟨rfl, rfl, fun r member => by cases member⟩
  | read next ih => exact ih _
  | writeAll changes next ih =>
    have same := writeAll_dead dead changes
    rw [exec, same]
    exact ih _
  | putMultiple created pairs next ih =>
    have same := putMultiple_dead dead created pairs
    rw [exec, same]
    exact ih _
  | setAlarm cached time next ih =>
    rw [exec, if_pos dead.broken]
    exact ih _
  | deleteAll deleteAlarm next ih =>
    have same := deleteAll_dead dead empty deleteAlarm
    rw [exec, same]
    simp only [dead.broken, Bool.not_true, Bool.false_and, Bool.false_or]
    exact ih _
  | transactionSync callback next _ ih =>
    rw [exec, notifyWrite_dead dead]
    obtain ⟨actor, emptied, calls⟩ := ih false
    refine ⟨actor, emptied, List.forall_mem_cons.2 ⟨⟨fun _ => ?_, fun _ => ⟨rfl, rfl, rfl, rfl, rfl⟩⟩,
      calls⟩⟩
    refine ⟨rfl, fun calm => ?_, fun u none_ => by cases none_⟩
    exact calm

/-- What is to be shown of each part of a callback. -/
def Accounts (empty : Data) (callback : Callback Time Data) (a : ActorSqlite Time Data) : Prop :=
  Follows a.transactionSyncDepth (exec empty callback a).emptied a (exec empty callback a).actor ∧
    ∀ r ∈ (exec empty callback a).calls, r.AllOrNothing ↔ r.Clean

theorem ActorSqlite.Goes.follows {a b : ActorSqlite Time Data} (goes : Goes depth a b)
    : Follows depth false a b := by
  rcases goes with dead | kept
  · exact .inl dead
  · exact .inr (by rw [if_neg Bool.false_ne_true]; exact kept)

theorem ActorSqlite.Follows.next {empty : Data} {emptied : Bool} {a b : ActorSqlite Time Data}
    {next : Callback Time Data}
    (follows : Follows a.transactionSyncDepth emptied a b)
    (ih : b.Sane → Accounts empty next b) :
    Follows a.transactionSyncDepth (emptied || (exec empty next b).emptied) a (exec empty next b).actor ∧
      ∀ r ∈ (exec empty next b).calls, r.AllOrNothing ↔ r.Clean := by
  rcases follows with ⟨dead, level⟩ | lives
  · obtain ⟨same, none_, calls⟩ := exec_dead empty next dead
    rw [same, none_, Bool.or_false]
    exact ⟨.inl ⟨dead, level⟩, calls⟩
  · cases emptied with
    | true =>
      rw [if_pos rfl] at lives
      obtain ⟨rest, calls⟩ := ih lives.sane
      rw [lives.level] at rest
      refine ⟨?_, calls⟩
      rw [Bool.true_or]
      rcases rest with ⟨dead, level⟩ | rest
      · exact .inl ⟨dead, level.trans lives.level⟩
      · refine .inr ?_
        rw [if_pos rfl]
        split_ifs at rest
        · exact lives.trans rest
        · exact lives.kept rest
    | false =>
      rw [if_neg Bool.false_ne_true] at lives
      obtain ⟨rest, calls⟩ := ih lives.sane
      rw [lives.level] at rest
      rw [Bool.false_or]
      exact ⟨lives.follows rest, calls⟩

theorem exec_spec (empty : Data) (callback : Callback Time Data) {a : ActorSqlite Time Data}
    (sane : a.Sane) :
    Accounts empty callback a := by
  induction callback generalizing a with
  | returns thenable => exact ⟨Goes.follows (.inr (.refl sane)), fun r member => by cases member⟩
  | throws => exact ⟨Goes.follows (.inr (.refl sane)), fun r member => by cases member⟩
  | read next ih => exact ih _ sane
  | writeAll changes next ih => exact (writeAll_goes _ changes sane).1.follows.next (ih _)
  | putMultiple created pairs next ih => exact (putMultiple_goes created pairs sane).follows.next (ih _)
  | setAlarm cached time next ih =>
    unfold Accounts
    rw [exec]
    split_ifs
    · exact ih _ sane
    · exact (setAlarm_goes sane cached time).follows.next (ih _)
  | deleteAll deleteAlarm next ih =>
    have spec := deleteAll_spec a.transactionSyncDepth sane empty deleteAlarm
    refine Follows.next (b := (deleteAll empty a deleteAlarm).2) ?_ (ih _)
    cases closed : !a.broken && a.currentTxn.isSome && a.closeCurrent.1 with
    | true =>
      rw [closed, if_pos rfl] at spec
      rcases spec with dead | emptied
      · exact .inl dead
      · exact .inr (by rw [if_pos rfl]; exact emptied)
    | false =>
      rw [closed, if_neg Bool.false_ne_true] at spec
      exact Goes.follows spec
  | transactionSync callback next ihc ih =>
    obtain ⟨kept, contents, savepoints, some_⟩ := notifyWrite_spec a.transactionSyncDepth sane
    unfold Accounts
    rw [exec]
    cases result : a.notifyWrite with
    | mk through opened =>
      rw [result] at kept contents savepoints some_
      have stays (after : ActorSqlite Time Data) (restored : Restored a after)
        (begun : after.begun = opened.begun)
          (txn : after.currentTxn = opened.currentTxn) (calm : after.criticalError = false)
          (level : after.transactionSyncDepth = a.transactionSyncDepth) : ∀ r, r =
            (CallRecord.mk a opened opened after false
            false none) → (r.AllOrNothing ↔ r.Clean) := by
        rintro r rfl
        refine ⟨fun _ => ⟨rfl, fun _ => calm, fun u none_ => (by cases none_)⟩, fun _ => ?_⟩
        exact ⟨restored.contents, restored.savepoints, begun, txn, level⟩
      cases through with
      | false =>
        obtain ⟨follows, calls⟩ := Follows.next (Goes.follows (.inr kept)) (ih false)
        refine ⟨follows, List.forall_mem_cons.2 ⟨?_, calls⟩⟩
        exact stays opened ⟨contents, savepoints⟩ rfl rfl kept.sane.calm kept.level _ rfl
      | true =>
        have begun : Begun a opened := ⟨sane.calm, kept.sane, some_ rfl, contents, savepoints, kept.level⟩
        simp only
        cases saved : (enter opened).execute (.savepoint (.sync opened.transactionSyncDepth)) with
        | mk through inside =>
          cases through with
          | false =>
            have failed : ((enter opened).execute
              (.savepoint (.sync opened.transactionSyncDepth))).1 = false → _ :=
              execute_failed begun.enter
            rw [saved] at failed
            rcases failed rfl with ⟨dead, level⟩ | same
            · have follows : Follows a.transactionSyncDepth false opened (leave inside) :=
                Follows.leave (.inl ⟨dead, level⟩)
              obtain ⟨follows, calls⟩ := Follows.next (kept.follows follows) (ih false)
              refine ⟨follows, List.forall_mem_cons.2 ⟨⟨fun all => ?_, fun clean => ?_⟩, calls⟩⟩
              · have around := begun.around
                have same : inside.begun = opened.begun := all.begun
                rw [← same, dead.begun] at around
                cases around
              · have calm : inside.criticalError = false := clean.calm sane.calm
                rw [dead.critical] at calm
                cases calm
            · simp only at same
              have spent : Kept a.transactionSyncDepth (enter opened) inside := same ▸ .spent begun.enter
              obtain ⟨follows, calls⟩ := Follows.next (Goes.follows (.inr (kept.trans spent.leave)))
                (ih false)
              refine ⟨follows, List.forall_mem_cons.2 ⟨?_, calls⟩⟩
              obtain ⟨txn, around⟩ := spent.stays begun.some_
              refine stays (leave inside) ⟨?_, ?_⟩ around txn spent.sane.calm
                (spent.leave.level.trans kept.level) _ rfl
              · rw [same]
                exact contents
              · rw [same]
                exact savepoints
          | true =>
            have did : (enter opened).spent.effect (.savepoint (.sync opened.transactionSyncDepth))
              = some inside := by
              obtain ⟨ran, _⟩ | ⟨ran, _⟩ | ⟨after, did, ran, _⟩ := execute_cases begun.enter.calm
                (.savepoint (.sync opened.transactionSyncDepth))
              · rw [ran] at saved
                cases saved
              · rw [ran] at saved
                cases saved
              · rw [ran] at saved
                rw [did, (Prod.mk.inj saved).2]
            have level : inside.transactionSyncDepth = opened.transactionSyncDepth + 1 := by
              obtain rfl := Option.some.inj did
              rfl
            have named : SavepointName.Above opened.transactionSyncDepth
              (.sync opened.transactionSyncDepth) := Nat.le_refl _
            obtain ⟨follows, inner⟩ := ihc (savepoint_kept begun.enter begun.some_ named did).sane
            rw [level] at follows
            obtain ⟨iff_, follows⟩ := called_spec begun did follows
            obtain ⟨record, known⟩ : ∃ record, record = called opened.transactionSyncDepth a opened
              (exec empty callback inside) :=
              ⟨_, rfl⟩
            simp only
            rw [← known] at iff_ follows ⊢
            rw [show opened.transactionSyncDepth = a.transactionSyncDepth from kept.level] at follows
            obtain ⟨follows, calls⟩ := Follows.next (kept.follows follows) (ih _)
            exact ⟨follows, List.forall_mem_append.2 ⟨inner, List.forall_mem_cons.2 ⟨iff_, calls⟩⟩⟩

/-- Every call of `transactionSync` that a callback makes, at any depth, keeps all of it or nothing exactly
    where no `deleteAll` took the transaction from around it and what had to be undone could be. -/
theorem transactionSync_allOrNothing_iff (empty : Data) (callback : Callback Time Data)
    (a : ActorSqlite Time Data)
    (sane : a.Sane) : ∀ r ∈ (exec empty callback a).calls, r.AllOrNothing ↔ r.Clean :=
  (exec_spec empty callback sane).2

end Runs

/-- An actor that has just been opened. -/
def idle (data : Nat) : ActorSqlite Nat Nat where
  contents := { alarm := none, data }
  begun := none
  savepoints := []
  faults := []
  criticalError := false
  broken := false
  currentTxn := none
  nextTxn := 0
  transactionSyncDepth := 0

theorem idle_sane (data : Nat) : (idle data).Sane := ⟨rfl, fun _ here => (by cases here), fun _ => rfl⟩

/-- A write, an alarm, and then a throw. -/
def throwing : Callback Nat Nat :=
  .transactionSync (.writeAll [fun n => some (n + 1)] fun _ => .setAlarm true (some 7) fun _ => .throws)
    fun _ => .returns false

theorem transactionSync_allOrNothing_throwing : (exec 0 throwing (idle 5)).calls.length = 1 ∧
    ∀ r ∈ (exec 0 throwing (idle 5)).calls, r.AllOrNothing ↔ r.Clean :=
  ⟨by decide, transactionSync_allOrNothing_iff 0 throwing (idle 5) (idle_sane 5)⟩

/-- `transactionSync(() => deleteAll())` -/
def emptying : Callback Nat Nat :=
  .transactionSync (.deleteAll false fun _ => .returns false) fun _ => .returns false

/-- The call throws, for its savepoint is gone, and what was stored is gone with it. -/
theorem deleteAll_tears_transactionSync : ∃ r ∈ (exec 0 emptying (idle 5)).calls,
    r.before.criticalError = false ∧ r.returned = false ∧ r.before.contents.data = 5 ∧
      r.after.contents.data = 0 ∧
      ¬ r.AllOrNothing := by
  refine ⟨_, List.mem_singleton.2 rfl, rfl, rfl, rfl, rfl, fun all => ?_⟩
  have contents := congrArg Contents.data all.contents
  cases contents

end DoRuntime.Storage.Sync
