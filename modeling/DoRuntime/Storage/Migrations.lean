import Mathlib

namespace DoRuntime.Storage.Migrations

/-- What a database file holds. -/
structure File (D : Type) where
  contents : D
  userVersion : Int

structure Transaction (D : Type) where
  working : File D
  /-- It was opened by `BEGIN`, and not by an outermost `SAVEPOINT`. -/
  explicit : Bool
  /-- The savepoints, the last one first, each with what the file held when it was made. -/
  savepoints : List (String × File D)

structure SqlDatabase (D : Type) where
  committed : File D
  transaction : Option (Transaction D)

/-- What becomes of a statement: it runs, it fails, or it fails and SQLite rolls the transaction back. -/
inductive Outcome
  | ran
  | failed
  | rolledBack
deriving DecidableEq

inductive Sql (D : Type)
  | update (write : D → D)
  | userVersion (version : Int)
  | begin_
  | commit
  | rollback
  | savepoint (name : String)
  | release (name : String)
  | rollbackTo (name : String)

def Sql.isControl {D : Type} : Sql D → Bool
  | .update _ | .userVersion _ => false
  | .begin_ | .commit | .rollback | .savepoint _ | .release _ | .rollbackTo _ => true

structure Statement (D : Type) where
  sql : Sql D
  outcome : Outcome

/-- What one call of a migration does: the statements it gets to, with what becomes of each, and whether it ends by a
throw, its own or one of theirs. -/
structure Step (D : Type) where
  statements : List (Statement D)
  throws : Bool

/-- What becomes of the statements of `ensureRuntimeStorageVersion` itself. -/
structure Fate where
  read : Bool
  begin_ : Bool
  stamp : Outcome
  commit : Outcome

inductive MigrationError
  | badTarget
  | unreadable
  | newer
  | inTransaction
  | notBegun
  | missing (version : Int)
  | thrown (version : Int)
  | closed (version : Int)
  | stamp
  | commit

namespace SqlDatabase

variable {D : Type} (db : SqlDatabase D)

def inTransaction : Bool := db.transaction.isSome

def current : File D :=
  match db.transaction with
  | none => db.committed
  | some transaction => transaction.working

/-- A write, which outside a transaction is one of its own. -/
def write (change : File D → File D) : SqlDatabase D :=
  match db.transaction with
  | none => { db with committed := change db.committed }
  | some transaction =>
    { db with transaction := some { transaction with working := change transaction.working } }

def close (file : File D) : SqlDatabase D := ⟨file, none⟩

/-- `ROLLBACK` -/
def rollback : SqlDatabase D := ⟨db.committed, none⟩

/-- The statement as SQLite runs it; one that the connection's state refuses changes nothing. -/
def execute : Sql D → SqlDatabase D
  | .update write => db.write fun file => { file with contents := write file.contents }
  | .userVersion version => db.write fun file => { file with userVersion := version }
  | .begin_ =>
    match db.transaction with
    | none => { db with transaction := some ⟨db.committed, true, []⟩ }
    | some _ => db
  | .commit => ⟨db.current, none⟩
  | .rollback => db.rollback
  | .savepoint name =>
    match db.transaction with
    | none => { db with transaction := some ⟨db.committed, false, [(name, db.committed)]⟩ }
    | some transaction =>
      { db with
        transaction := some { transaction with savepoints := (name, transaction.working) :: transaction.savepoints } }
  | .release name =>
    match db.transaction with
    | none => db
    | some transaction =>
      match transaction.savepoints.dropWhile (·.1 ≠ name) with
      | [] => db
      | _ :: outer =>
        if outer.isEmpty && !transaction.explicit then ⟨transaction.working, none⟩
        else { db with transaction := some { transaction with savepoints := outer } }
  | .rollbackTo name =>
    match db.transaction with
    | none => db
    | some transaction =>
      match transaction.savepoints.dropWhile (·.1 ≠ name) with
      | [] => db
      | (found, file) :: outer =>
        { db with transaction := some { transaction with working := file, savepoints := (found, file) :: outer } }

def exec (statement : Statement D) : SqlDatabase D :=
  match statement.outcome with
  | .ran => db.execute statement.sql
  | .failed => db
  | .rolledBack => db.rollback

def run (step : Step D) : SqlDatabase D := step.statements.foldl exec db

end SqlDatabase

variable {D : Type}

/-- The versions from `stored` up to `current` that have a migration to run, each with that migration. -/
def pending (stored current : Int) (migrations : List (Step D)) : List (Int × Option (Step D)) :=
  (List.range (current - max stored 1).toNat).map fun (i : Nat) =>
    (max stored 1 + i, migrations[(max stored 1 - 1).toNat + i]?)

/-- The loop of `ensureRuntimeStorageVersion`. -/
def migrate : List (Int × Option (Step D)) → SqlDatabase D → Option MigrationError × SqlDatabase D
  | [], db => (none, db)
  | (version, none) :: _, db => (some (.missing version), db)
  | (version, some step) :: rest, db =>
    if step.throws then (some (.thrown version), db.run step)
    else if (db.run step).inTransaction = false then (some (.closed version), db.run step)
    else migrate rest (db.run step)

/-- The steps that `migrate` calls. -/
def called : List (Int × Option (Step D)) → SqlDatabase D → List (Step D)
  | [], _ => []
  | (_, none) :: _, _ => []
  | (_, some step) :: rest, db =>
    step :: if step.throws ∨ (db.run step).inTransaction = false then [] else called rest (db.run step)

/-- The stamp and the commit that follow the loop. -/
def finish (target : Int) (fate : Fate) : Option MigrationError × SqlDatabase D → Option MigrationError × SqlDatabase D
  | (some error, db) => (some error, db)
  | (none, db) =>
    let stamped := db.exec ⟨.userVersion target, fate.stamp⟩
    if fate.stamp ≠ .ran then (some .stamp, stamped)
    else
      let committed := stamped.exec ⟨.commit, fate.commit⟩
      if fate.commit ≠ .ran then (some .commit, committed) else (none, committed)

/-- The `catch`. -/
def unwind : Option MigrationError × SqlDatabase D → Option MigrationError × SqlDatabase D
  | (none, db) => (none, db)
  | (some error, db) => (some error, if db.inTransaction then db.rollback else db)

def validTarget (current : Option Int) : Option Int :=
  current.filter fun target => decide (1 ≤ target ∧ target ≤ 0x7FFFFFFF)

/-- `ensureRuntimeStorageVersion`; a target that is no safe integer is `none`. -/
def ensureRuntimeStorageVersion (db : SqlDatabase D) (current : Option Int) (migrations : List (Step D)) (fate : Fate) :
    Option MigrationError × SqlDatabase D :=
  match validTarget current with
  | none => (some .badTarget, db)
  | some target =>
    if fate.read = false then (some .unreadable, db)
    else if db.current.userVersion = target then (none, db)
    else if target < db.current.userVersion then (some .newer, db)
    else if db.inTransaction then (some .inTransaction, db)
    else if fate.begin_ = false then (some .notBegun, db)
    else
      unwind (finish target fate
        (migrate (pending db.current.userVersion target migrations) (db.execute .begin_)))

/-- The steps that a call of `ensureRuntimeStorageVersion` calls, once it gets to its loop. -/
def calledSteps (db : SqlDatabase D) (target : Int) (migrations : List (Step D)) : List (Step D) :=
  called (pending db.committed.userVersion target migrations) (db.execute .begin_)

def Sql.change : Sql D → File D → File D
  | .update write, file => { file with contents := write file.contents }
  | .userVersion version, file => { file with userVersion := version }
  | _, file => file

/-- What a statement makes of a file on its own. -/
def Statement.effect (file : File D) (statement : Statement D) : File D :=
  if statement.outcome = .ran then statement.sql.change file else file

def Step.effect (file : File D) (step : Step D) : File D := step.statements.foldl Statement.effect file

/-- The step issues transaction control. -/
def Step.Controls (step : Step D) : Prop := ∃ statement ∈ step.statements, statement.sql.isControl = true

/-- The statement ends the transaction that it runs in. -/
def Statement.Ends (statement : Statement D) : Prop :=
  statement.outcome = .rolledBack ∨ (statement.outcome = .ran ∧ (statement.sql = .commit ∨ statement.sql = .rollback))

def Step.Ends (step : Step D) : Prop := ∃ statement ∈ step.statements, statement.Ends

/-- The step writes the version itself. -/
def Step.Stamps (step : Step D) : Prop := ∃ statement ∈ step.statements, ∃ version, statement.sql = .userVersion version

/-- The migrations of a call are all there, issue no transaction control, and are what made the file. -/
structure Migrated (db : SqlDatabase D) (target : Int) (migrations : List (Step D)) (file : File D) : Prop where
  steps : ∃ steps : List (Step D),
    (pending db.committed.userVersion target migrations).map (·.2) = steps.map some ∧
      (∀ step ∈ steps, ¬step.Controls) ∧ file = { steps.foldl Step.effect db.committed with userVersion := target }

/-- The migration is atomic. A step that ended its transaction leaves what it wrote, but no stamp of its own accord. -/
structure Atomic (db : SqlDatabase D) (current : Option Int) (migrations : List (Step D))
    (result : Option MigrationError × SqlDatabase D) : Prop where
  returned : result.1 = none → ∃ target, current = some target ∧ Migrated db target migrations result.2.committed
  thrown : result.1 ≠ none → result.2.committed = db.committed ∨
    ∃ target, current = some target ∧ (∃ step ∈ calledSteps db target migrations, step.Ends) ∧
      ((∃ step ∈ calledSteps db target migrations, step.Stamps) ∨
        result.2.committed.userVersion = db.committed.userVersion)
  closed : result.2.transaction = none

/-- No step is missing, none throws, and each leaves the connection in a transaction. -/
def Passes : List (Int × Option (Step D)) → SqlDatabase D → Prop
  | [], _ => True
  | (_, none) :: _, _ => False
  | (_, some step) :: rest, db =>
    step.throws = false ∧ (db.run step).inTransaction = true ∧ Passes rest (db.run step)

/-- The call begins outside a transaction; and where nothing throws, and every step is in a transaction when it ends,
no step issues transaction control. -/
structure Guarded (db : SqlDatabase D) (current : Option Int) (migrations : List (Step D)) (fate : Fate) : Prop where
  outside : db.transaction = none
  control : ∀ target, validTarget current = some target → fate = ⟨true, true, .ran, .ran⟩ →
    Passes (pending db.committed.userVersion target migrations) (db.execute .begin_) →
      ∀ version step, (version, some step) ∈ pending db.committed.userVersion target migrations → ¬step.Controls

/-- Every state of the file that the connection can come back to satisfies `P`. -/
structure Held (P : File D → Prop) (db : SqlDatabase D) : Prop where
  committed : P db.committed
  working : ∀ transaction, db.transaction = some transaction → P transaction.working
  savepoints : ∀ transaction, db.transaction = some transaction → ∀ saved ∈ transaction.savepoints, P saved.2

/-- The transaction that was begun over this file is open. -/
structure Within (original : File D) (db : SqlDatabase D) : Prop where
  committed : db.committed = original
  transaction : ∃ transaction, db.transaction = some transaction ∧ transaction.explicit = true

section Statements

variable {P : File D → Prop} {db : SqlDatabase D} {original : File D}

theorem Held.close {file : File D} (committed : P file) : Held P ⟨file, none⟩ := by
  refine ⟨committed, ?_, ?_⟩
  · intro transaction impossible
    cases impossible
  · intro transaction impossible
    cases impossible

theorem Held.opened {transaction : Transaction D} (committed : P db.committed) (working : P transaction.working)
    (savepoints : ∀ saved ∈ transaction.savepoints, P saved.2) : Held P { db with transaction := some transaction } := by
  refine ⟨committed, ?_, ?_⟩
  · intro _ same
    cases same
    exact working
  · intro _ same
    cases same
    exact savepoints

theorem Held.rollback (held : Held P db) : Held P db.rollback := .close held.committed

theorem Held.current (held : Held P db) : P db.current := by
  unfold SqlDatabase.current
  cases opened : db.transaction with
  | none => exact held.committed
  | some transaction => exact held.working transaction opened

theorem Held.write (held : Held P db) {change : File D → File D} (kept : ∀ file, P file → P (change file)) :
    Held P (db.write change) := by
  unfold SqlDatabase.write
  cases opened : db.transaction with
  | none => exact .close (kept _ held.committed)
  | some transaction =>
    exact Held.opened held.committed (kept _ (held.working transaction opened)) (held.savepoints transaction opened)

theorem found_mem {name : String} {savepoints outer : List (String × File D)} {found : String × File D}
    (dropped : savepoints.dropWhile (fun saved => decide (saved.1 ≠ name)) = found :: outer) :
    ∀ saved ∈ found :: outer, saved ∈ savepoints := by
  rw [← dropped]
  exact fun saved member => List.dropWhile_sublist _ |>.mem member

theorem Held.execute (held : Held P db) (sql : Sql D) (kept : ∀ file, P file → P (sql.change file)) :
    Held P (db.execute sql) := by
  cases sql with
  | update write => exact held.write kept
  | userVersion version => exact held.write kept
  | begin_ =>
    simp only [SqlDatabase.execute]
    split
    · apply Held.opened held.committed held.committed
      intro saved member
      cases member
    · exact held
  | commit => exact .close held.current
  | rollback => exact held.rollback
  | savepoint name =>
    simp only [SqlDatabase.execute]
    split
    · apply Held.opened held.committed held.committed
      intro saved member
      rw [List.mem_singleton.1 member]
      exact held.committed
    case h_2 transaction opened =>
      have working := held.working transaction opened
      apply Held.opened
      · exact held.committed
      · exact working
      · intro saved member
        rcases List.mem_cons.1 member with rfl | member
        · exact working
        · exact held.savepoints transaction opened saved member
  | release name =>
    simp only [SqlDatabase.execute]
    split
    · exact held
    case h_2 transaction opened =>
      split
      · exact held
      case h_2 found outer dropped =>
        split
        · exact .close (held.working transaction opened)
        · apply Held.opened
          · exact held.committed
          · exact held.working transaction opened
          · intro saved member
            exact held.savepoints transaction opened saved (found_mem dropped saved (List.mem_cons_of_mem _ member))
  | rollbackTo name =>
    simp only [SqlDatabase.execute]
    split
    · exact held
    case h_2 transaction opened =>
      split
      · exact held
      case h_2 found file outer dropped =>
        have every := fun saved member => held.savepoints transaction opened saved (found_mem dropped saved member)
        exact Held.opened held.committed (every _ (List.mem_cons_self ..)) every

theorem Held.exec (held : Held P db) (statement : Statement D) (kept : ∀ file, P file → P (statement.sql.change file)) :
    Held P (db.exec statement) := by
  unfold SqlDatabase.exec
  split
  · exact held.execute _ kept
  · exact held
  · exact held.rollback

theorem Within.execute (within : Within original db) (sql : Sql D) (open_ : sql ≠ .commit ∧ sql ≠ .rollback) :
    Within original (db.execute sql) := by
  obtain ⟨committed, transaction, opened, explicit⟩ := within
  cases sql with
  | commit => exact absurd rfl open_.1
  | rollback => exact absurd rfl open_.2
  | update write =>
    simp only [SqlDatabase.execute, SqlDatabase.write, opened]
    exact ⟨committed, _, rfl, explicit⟩
  | userVersion version =>
    simp only [SqlDatabase.execute, SqlDatabase.write, opened]
    exact ⟨committed, _, rfl, explicit⟩
  | begin_ =>
    simp only [SqlDatabase.execute, opened]
    exact ⟨committed, transaction, opened, explicit⟩
  | savepoint name =>
    simp only [SqlDatabase.execute, opened]
    exact ⟨committed, _, rfl, explicit⟩
  | release name =>
    simp only [SqlDatabase.execute, opened, explicit]
    split
    · exact ⟨committed, transaction, opened, explicit⟩
    · rw [if_neg (by simp)]
      exact ⟨committed, _, rfl, rfl⟩
  | rollbackTo name =>
    simp only [SqlDatabase.execute, opened]
    split
    · exact ⟨committed, transaction, opened, explicit⟩
    · exact ⟨committed, _, rfl, explicit⟩

theorem Within.exec (within : Within original db) (statement : Statement D) (open_ : ¬statement.Ends) :
    Within original (db.exec statement) := by
  unfold SqlDatabase.exec
  unfold Statement.Ends at open_
  cases outcome : statement.outcome with
  | ran =>
    apply within.execute
    constructor
    · intro commit
      exact open_ (.inr ⟨outcome, .inl commit⟩)
    · intro rollback
      exact open_ (.inr ⟨outcome, .inr rollback⟩)
  | failed => exact within
  | rolledBack => exact absurd (.inl outcome) open_

theorem Held.run (held : Held P db) (step : Step D)
    (kept : ∀ statement ∈ step.statements, ∀ file, P file → P (statement.sql.change file)) : Held P (db.run step) := by
  unfold SqlDatabase.run
  generalize step.statements = statements at kept
  induction statements generalizing db with
  | nil => exact held
  | cons statement rest ih =>
    apply ih (held.exec statement (kept statement (List.mem_cons_self ..)))
    exact fun later member => kept later (List.mem_cons_of_mem _ member)

theorem Within.run (within : Within original db) (step : Step D) (open_ : ¬step.Ends) :
    Within original (db.run step) := by
  unfold SqlDatabase.run
  unfold Step.Ends at open_
  generalize step.statements = statements at open_
  induction statements generalizing db with
  | nil => exact within
  | cons statement rest ih =>
    apply ih (within.exec statement fun ends => open_ ⟨statement, List.mem_cons_self .., ends⟩)
    rintro ⟨later, member, ends⟩
    exact open_ ⟨later, List.mem_cons_of_mem _ member, ends⟩

theorem exec_outside (statement : Statement D) (data : statement.sql.isControl = false) (outside : db.transaction = none) :
    (db.exec statement).transaction = none := by
  obtain ⟨committed, transaction⟩ := db
  cases outside
  obtain ⟨sql, outcome⟩ := statement
  cases outcome with
  | failed => rfl
  | rolledBack => rfl
  | ran =>
    cases sql with
    | update write => rfl
    | userVersion version => rfl
    | begin_ => cases data
    | commit => cases data
    | rollback => cases data
    | savepoint name => cases data
    | release name => cases data
    | rollbackTo name => cases data

theorem execs_outside (statements : List (Statement D)) (data : ∀ statement ∈ statements, statement.sql.isControl = false)
    (outside : db.transaction = none) : (statements.foldl SqlDatabase.exec db).transaction = none := by
  induction statements generalizing db with
  | nil => exact outside
  | cons statement rest ih =>
    apply ih (fun later member => data later (List.mem_cons_of_mem _ member))
    exact exec_outside statement (data statement (List.mem_cons_self ..)) outside

/-- A statement that is no transaction control has its effect in the open transaction, unless it ends it. -/
theorem exec_begun (statement : Statement D) (data : statement.sql.isControl = false) (file : File D) :
    SqlDatabase.exec ⟨original, some ⟨file, true, []⟩⟩ statement =
        ⟨original, some ⟨statement.effect file, true, []⟩⟩ ∨
      (SqlDatabase.exec ⟨original, some ⟨file, true, []⟩⟩ statement).transaction = none := by
  obtain ⟨sql, outcome⟩ := statement
  cases outcome with
  | failed => exact .inl rfl
  | rolledBack => exact .inr rfl
  | ran =>
    cases sql with
    | update write => exact .inl rfl
    | userVersion version => exact .inl rfl
    | begin_ => cases data
    | commit => cases data
    | rollback => cases data
    | savepoint name => cases data
    | release name => cases data
    | rollbackTo name => cases data

theorem run_begun (step : Step D) (data : ¬step.Controls) (file : File D) :
    SqlDatabase.run ⟨original, some ⟨file, true, []⟩⟩ step = ⟨original, some ⟨step.effect file, true, []⟩⟩ ∨
      (SqlDatabase.run ⟨original, some ⟨file, true, []⟩⟩ step).transaction = none := by
  have data : ∀ statement ∈ step.statements, statement.sql.isControl = false := by
    intro statement member
    cases control : statement.sql.isControl with
    | false => rfl
    | true => exact absurd ⟨statement, member, control⟩ data
  unfold SqlDatabase.run Step.effect
  generalize step.statements = statements at data
  induction statements generalizing file with
  | nil => exact .inl rfl
  | cons statement rest ih =>
    have later := fun next member => data next (List.mem_cons_of_mem _ member)
    rw [List.foldl_cons, List.foldl_cons]
    rcases exec_begun statement (data statement (List.mem_cons_self ..)) file with effect | outside
    · rw [effect]
      exact ih _ later
    · exact .inr (execs_outside rest later outside)

end Statements

section Chain

variable {P : File D → Prop} {original : File D}

theorem migrate_held (chain : List (Int × Option (Step D))) : ∀ {db : SqlDatabase D}, Held P db →
    (∀ step ∈ called chain db, ∀ statement ∈ step.statements, ∀ file, P file → P (statement.sql.change file)) →
    Held P (migrate chain db).2 := by
  induction chain with
  | nil =>
    intro db held _
    exact held
  | cons entry rest ih =>
    intro db held kept
    obtain ⟨version, step⟩ := entry
    cases step with
    | none => exact held
    | some step =>
      have first := held.run step (kept step (List.mem_cons_self ..))
      simp only [migrate]
      simp only [called] at kept
      split
      · exact first
      split
      · exact first
      case isFalse returns open_ =>
        apply ih first
        rw [if_neg (not_or.2 ⟨returns, open_⟩)] at kept
        exact fun later member => kept later (List.mem_cons_of_mem _ member)

theorem migrate_within (chain : List (Int × Option (Step D))) : ∀ {db : SqlDatabase D}, Within original db →
    (∀ step ∈ called chain db, ¬step.Ends) → Within original (migrate chain db).2 := by
  induction chain with
  | nil =>
    intro db within _
    exact within
  | cons entry rest ih =>
    intro db within open_
    obtain ⟨version, step⟩ := entry
    cases step with
    | none => exact within
    | some step =>
      have first := within.run step (open_ step (List.mem_cons_self ..))
      simp only [migrate]
      simp only [called] at open_
      split
      · exact first
      split
      · exact first
      case isFalse returns inside =>
        apply ih first
        rw [if_neg (not_or.2 ⟨returns, inside⟩)] at open_
        exact fun later member => open_ later (List.mem_cons_of_mem _ member)

theorem migrate_passes (chain : List (Int × Option (Step D))) : ∀ {db : SqlDatabase D}, db.inTransaction = true →
    (((migrate chain db).1 = none ↔ Passes chain db) ∧
      (Passes chain db → (migrate chain db).2.inTransaction = true)) := by
  induction chain with
  | nil =>
    intro db inside
    exact ⟨⟨fun _ => trivial, fun _ => rfl⟩, fun _ => inside⟩
  | cons entry rest ih =>
    intro db inside
    obtain ⟨version, step⟩ := entry
    cases step with
    | none =>
      constructor
      · constructor
        · intro impossible
          cases impossible
        · exact False.elim
      · exact False.elim
    | some step =>
      simp only [migrate, Passes]
      split
      case isTrue throws =>
        constructor
        · constructor
          · intro impossible
            cases impossible
          · rintro ⟨returns, -, -⟩
            rw [throws] at returns
            cases returns
        · rintro ⟨returns, -, -⟩
          rw [throws] at returns
          cases returns
      case isFalse returns =>
        have returns : step.throws = false := by simpa using returns
        split
        case isTrue outside =>
          constructor
          · constructor
            · intro impossible
              cases impossible
            · rintro ⟨-, inside, -⟩
              rw [outside] at inside
              cases inside
          · rintro ⟨-, inside, -⟩
            rw [outside] at inside
            cases inside
        case isFalse inside =>
          have inside : (db.run step).inTransaction = true := by simpa using inside
          obtain ⟨same, left⟩ := ih inside
          constructor
          · rw [same]
            exact ⟨fun passes => ⟨returns, inside, passes⟩, fun passes => passes.2.2⟩
          · exact fun passes => left passes.2.2

/-- A chain that passes without transaction control has applied its steps, once each and in order. -/
theorem migrate_applies (chain : List (Int × Option (Step D))) : ∀ {file : File D},
    Passes chain ⟨original, some ⟨file, true, []⟩⟩ → (∀ version step, (version, some step) ∈ chain → ¬step.Controls) →
    ∃ steps : List (Step D), chain.map (·.2) = steps.map some ∧ (∀ step ∈ steps, ¬step.Controls) ∧
      (migrate chain ⟨original, some ⟨file, true, []⟩⟩).2 = ⟨original, some ⟨steps.foldl Step.effect file, true, []⟩⟩ := by
  induction chain with
  | nil =>
    intro file _ _
    exact ⟨[], rfl, fun step member => (by cases member), rfl⟩
  | cons entry rest ih =>
    intro file passes data
    obtain ⟨version, step⟩ := entry
    cases step with
    | none => exact passes.elim
    | some step =>
      obtain ⟨returns, inside, later⟩ := passes
      have plain := data version step (List.mem_cons_self ..)
      have effect : SqlDatabase.run ⟨original, some ⟨file, true, []⟩⟩ step =
          ⟨original, some ⟨step.effect file, true, []⟩⟩ := by
        rcases run_begun step plain file with effect | outside
        · exact effect
        · unfold SqlDatabase.inTransaction at inside
          rw [outside] at inside
          cases inside
      rw [effect] at later
      obtain ⟨steps, every, plains, applied⟩ := ih later fun version step member =>
        data version step (List.mem_cons_of_mem _ member)
      refine ⟨step :: steps, ?_, ?_, ?_⟩
      · rw [List.map_cons, List.map_cons, every]
      · intro next member
        rcases List.mem_cons.1 member with rfl | member
        · exact plain
        · exact plains next member
      · simp only [migrate]
        rw [if_neg (by rw [returns]; simp), if_neg (by rw [inside]; simp), effect, applied]
        rfl

end Chain

section Outcome

variable {db : SqlDatabase D} {current : Option Int} {migrations : List (Step D)} {fate : Fate} {target : Int}

theorem validTarget_some (valid : validTarget current = some target) :
    current = some target ∧ 1 ≤ target ∧ target ≤ 0x7FFFFFFF := by
  unfold validTarget at valid
  rw [Option.filter_eq_some_iff] at valid
  exact ⟨valid.1, of_decide_eq_true valid.2⟩

theorem pending_none {stored : Int} (past : target ≤ max stored 1) : pending stored target migrations = [] := by
  unfold pending
  have none : (target - max stored 1).toNat = 0 := by omega
  rw [none]
  rfl

theorem current_outside (outside : db.transaction = none) : db.current = db.committed := by
  unfold SqlDatabase.current
  rw [outside]

theorem begin_outside (outside : db.transaction = none) :
    db.execute .begin_ = ⟨db.committed, some ⟨db.committed, true, []⟩⟩ := by
  simp only [SqlDatabase.execute, outside]

/-- A call that leaves everything as it was and throws. -/
theorem refused_atomic (outside : db.transaction = none) (error : MigrationError) :
    Atomic db current migrations (some error, db) where
  returned impossible := by cases impossible
  thrown _ := .inl rfl
  closed := outside

theorem exec_committed (inside : db.inTransaction = true) (statement : Statement D)
    (plain : statement.sql.isControl = false) :
    (db.exec statement).committed = db.committed := by
  obtain ⟨committed, transaction⟩ := db
  obtain ⟨sql, outcome⟩ := statement
  cases transaction with
  | none => cases inside
  | some transaction =>
    cases outcome with
    | failed => rfl
    | rolledBack => rfl
    | ran =>
      cases sql with
      | update write => rfl
      | userVersion version => rfl
      | begin_ => cases plain
      | commit => cases plain
      | rollback => cases plain
      | savepoint name => cases plain
      | release name => cases plain
      | rollbackTo name => cases plain

theorem unwind_closed (error : MigrationError) (db : SqlDatabase D) :
    (unwind (some error, db)).2 = ⟨db.committed, none⟩ := by
  obtain ⟨committed, transaction⟩ := db
  cases transaction with
  | none => rfl
  | some transaction => rfl

theorem exec_threw {sql : Sql D} {outcome : Outcome} (threw : outcome ≠ .ran) :
    (db.exec ⟨sql, outcome⟩).committed = db.committed := by
  cases outcome with
  | ran => exact absurd rfl threw
  | failed => rfl
  | rolledBack => rfl

/-- Where the stamp or the commit throws, the file is what the steps left it. -/
theorem finish_threw (inside : db.inTransaction = true) (threw : fate.stamp ≠ .ran ∨ fate.commit ≠ .ran) :
    ∃ error, (unwind (finish target fate (none, db))).1 = some error ∧
      (unwind (finish target fate (none, db))).2 = ⟨db.committed, none⟩ := by
  simp only [finish]
  by_cases stamp : fate.stamp = .ran
  · have commit : fate.commit ≠ .ran := threw.resolve_left (not_not.2 stamp)
    rw [if_neg (not_not.2 stamp), if_pos commit]
    refine ⟨_, rfl, ?_⟩
    rw [unwind_closed, exec_threw commit, exec_committed inside _ rfl]
  · rw [if_pos stamp]
    refine ⟨_, rfl, ?_⟩
    rw [unwind_closed, exec_committed inside _ rfl]

theorem finish_ran {original file : File D} (stamp : fate.stamp = .ran) (commit : fate.commit = .ran) :
    unwind (finish target fate (none, ⟨original, some ⟨file, true, []⟩⟩)) =
      (none, ⟨{ file with userVersion := target }, none⟩) := by
  simp only [finish, stamp, commit]
  rfl

/-- The call comes to its loop. -/
theorem ensure_begins (valid : validTarget current = some target) (read : fate.read = true)
    (outside : db.transaction = none) (older : db.committed.userVersion < target) (begun : fate.begin_ = true) :
    ensureRuntimeStorageVersion db current migrations fate =
      unwind (finish target fate
        (migrate (pending db.committed.userVersion target migrations) (db.execute .begin_))) := by
  have inside : db.inTransaction = false := by
    unfold SqlDatabase.inTransaction
    rw [outside]
    rfl
  unfold ensureRuntimeStorageVersion
  rw [valid, current_outside outside]
  simp only [read, inside, begun]
  rw [if_neg (by simp), if_neg (by omega), if_neg (by omega), if_neg (by simp), if_neg (by simp)]

theorem thrown_atomic (outside : db.transaction = none) (valid : validTarget current = some target)
    {result : Option MigrationError × SqlDatabase D} (error : MigrationError) (threw : result.1 = some error)
    (left : result.2 = ⟨(migrate (pending db.committed.userVersion target migrations) (db.execute .begin_)).2.committed,
      none⟩) : Atomic db current migrations result := by
  constructor
  · intro returned
    rw [threw] at returned
    cases returned
  · intro _
    rw [left]
    by_cases ends : ∃ step ∈ calledSteps db target migrations, step.Ends
    · right
      refine ⟨target, (validTarget_some valid).1, ends, ?_⟩
      by_cases stamps : ∃ step ∈ calledSteps db target migrations, step.Stamps
      · exact .inl stamps
      · right
        have held : Held (fun file : File D => file.userVersion = db.committed.userVersion) (db.execute .begin_) := by
          rw [begin_outside outside]
          exact Held.opened rfl rfl fun saved member => by cases member
        apply (migrate_held _ held _).committed
        intro step member statement inside file same
        cases sql : statement.sql with
        | userVersion version => exact absurd ⟨step, member, statement, inside, version, sql⟩ stamps
        | _ => exact same
    · left
      have within : Within db.committed (db.execute .begin_) := by
        rw [begin_outside outside]
        exact ⟨rfl, _, rfl, rfl⟩
      apply (migrate_within _ within _).committed
      intro step member ended
      exact ends ⟨step, member, ended⟩
  · rw [left]

theorem migrated_atomic (outside : db.transaction = none) (valid : validTarget current = some target)
    (older : db.committed.userVersion < target) (fates : fate = ⟨true, true, .ran, .ran⟩)
    (passes : Passes (pending db.committed.userVersion target migrations) (db.execute .begin_))
    (data : ∀ version step, (version, some step) ∈ pending db.committed.userVersion target migrations → ¬step.Controls) :
    Atomic db current migrations (ensureRuntimeStorageVersion db current migrations fate) := by
  subst fates
  have begun := begin_outside outside
  rw [ensure_begins valid rfl outside older rfl]
  rw [begun] at passes ⊢
  obtain ⟨steps, every, plain, applied⟩ := migrate_applies _ passes data
  have returns := (migrate_passes (pending db.committed.userVersion target migrations) rfl).1.2 passes
  have result : migrate (pending db.committed.userVersion target migrations) ⟨db.committed, some ⟨db.committed, true, []⟩⟩ =
      (none, ⟨db.committed, some ⟨steps.foldl Step.effect db.committed, true, []⟩⟩) := Prod.ext returns applied
  rw [result, finish_ran rfl rfl]
  constructor
  · intro _
    exact ⟨target, (validTarget_some valid).1, steps, every, plain, rfl⟩
  · intro impossible
    exact absurd rfl impossible
  · rfl

theorem current_atomic (outside : db.transaction = none) (valid : validTarget current = some target)
    (same : db.committed.userVersion = target) : Atomic db current migrations (none, db) := by
  constructor
  · intro _
    refine ⟨target, (validTarget_some valid).1, [], ?_, ?_, ?_⟩
    · rw [pending_none (by omega)]
      rfl
    · intro step member
      cases member
    · show db.committed = { db.committed with userVersion := target }
      rw [← same]
  · intro impossible
    exact absurd rfl impossible
  · exact outside

theorem atomic_of_guarded (guarded : Guarded db current migrations fate) :
    Atomic db current migrations (ensureRuntimeStorageVersion db current migrations fate) := by
  obtain ⟨outside, control⟩ := guarded
  have currently := current_outside outside
  cases valid : validTarget current with
  | none =>
    unfold ensureRuntimeStorageVersion
    rw [valid]
    exact refused_atomic outside .badTarget
  | some target =>
    by_cases older : db.committed.userVersion < target ∧ fate.read = true ∧ fate.begin_ = true
    · obtain ⟨older, read, begun⟩ := older
      have inside : (db.execute .begin_).inTransaction = true := by
        rw [begin_outside outside]
        rfl
      obtain ⟨returns, left⟩ := migrate_passes (pending db.committed.userVersion target migrations) inside
      by_cases passes : Passes (pending db.committed.userVersion target migrations) (db.execute .begin_)
      · by_cases threw : fate.stamp ≠ .ran ∨ fate.commit ≠ .ran
        · have done := returns.2 passes
          rw [ensure_begins valid read outside older begun]
          obtain ⟨error, result, file⟩ := @finish_threw _ _ fate target (left passes) threw
          rw [← done] at result file
          exact thrown_atomic outside valid error result file
        · have clear : fate = ⟨true, true, .ran, .ran⟩ := by
            obtain ⟨_, _, stamp, commit⟩ := fate
            simp only [not_or, not_not] at threw
            simp only at read begun
            rw [read, begun, threw.1, threw.2]
          exact migrated_atomic outside valid older clear passes (control target valid clear passes)
      · rw [ensure_begins valid read outside older begun]
        cases result : migrate (pending db.committed.userVersion target migrations) (db.execute .begin_) with
        | mk error file =>
          rw [result] at returns
          cases error with
          | none => exact absurd (returns.1 rfl) passes
          | some error =>
            apply thrown_atomic outside valid error
            · rfl
            · rw [result]
              exact unwind_closed error file
    · unfold ensureRuntimeStorageVersion
      rw [valid, currently]
      dsimp only
      split
      · exact refused_atomic outside .unreadable
      split
      case isTrue same => exact current_atomic outside valid same
      split
      · exact refused_atomic outside .newer
      split
      · exact refused_atomic outside .inTransaction
      split
      · exact refused_atomic outside .notBegun
      rename_i read same newer _ begun
      exact absurd ⟨by omega, by simpa using read, by simpa using begun⟩ older

theorem ensure_inside (inside : db.inTransaction = true) :
    (ensureRuntimeStorageVersion db current migrations fate).2 = db := by
  unfold ensureRuntimeStorageVersion
  split
  · rfl
  split
  · rfl
  split
  · rfl
  split
  · rfl
  · rfl

theorem guarded_of_atomic (atomic : Atomic db current migrations (ensureRuntimeStorageVersion db current migrations fate)) :
    Guarded db current migrations fate := by
  have outside : db.transaction = none := by
    cases opened : db.transaction with
    | none => rfl
    | some transaction =>
      have inside : db.inTransaction = true := by
        unfold SqlDatabase.inTransaction
        rw [opened]
        rfl
      have closed := atomic.closed
      rw [ensure_inside inside, opened] at closed
      cases closed
  refine ⟨outside, ?_⟩
  intro target valid clear passes version step member controls
  subst clear
  have older : db.committed.userVersion < target := by
    by_contra past
    rw [pending_none (by omega)] at member
    cases member
  have inside : (db.execute .begin_).inTransaction = true := by
    rw [begin_outside outside]
    rfl
  have returns := (migrate_passes (pending db.committed.userVersion target migrations) inside).1.2 passes
  rw [ensure_begins valid rfl outside older rfl] at atomic
  have returned := atomic.returned
  cases result : migrate (pending db.committed.userVersion target migrations) (db.execute .begin_) with
  | mk error file =>
    rw [result] at returns returned
    cases returns
    obtain ⟨target', same, steps, every, plain, -⟩ := returned rfl
    have target' : target' = target := Option.some.inj (same.symm.trans (validTarget_some valid).1)
    rw [target'] at every
    have called : some step ∈ steps.map some := every ▸ List.mem_map_of_mem (f := (·.2)) member
    obtain ⟨next, among, equal⟩ := List.mem_map.1 called
    cases equal
    exact plain step among controls

end Outcome

end DoRuntime.Storage.Migrations
