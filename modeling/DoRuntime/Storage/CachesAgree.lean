import DoRuntime.Lib.Transition
import DoRuntime.Storage.SqliteDatabase

namespace DoRuntime.Storage.CachedSqlite

open DoRuntime.Js

section Names

theorem dequoteFrom_closed {closing : CodeUnit} {content : JsString} (inside : closing ∉ content) :
    dequoteFrom closing (content ++ [closing]) = content := by
  induction content with
  | nil => simp [dequoteFrom]
  | cons c content ih =>
    have other : c ≠ closing := fun same => inside (by simp [same])
    have rest := ih fun later => inside (List.mem_cons_of_mem _ later)
    cases content with
    | nil => simpa [dequoteFrom, other] using rest
    | cons d content => simpa [dequoteFrom, other] using rest

theorem endsWith_quoted (opening closing : CodeUnit) (content : JsString) (c : CodeUnit) :
    endsWith (opening :: (content ++ [closing])) c = decide (closing = c) := by
  rw [endsWith, ← List.cons_append, List.getLast?_concat]
  simp

theorem sliceInner_quoted (opening closing : CodeUnit) (content : JsString) :
    sliceInner (opening :: (content ++ [closing])) = content := by
  simp [sliceInner]

theorem closingQuote_cases {opening closing : CodeUnit} (closes : closingQuote opening = some closing) :
    (closing = opening ∧ (opening = 34 ∨ opening = 39 ∨ opening = 96)) ∨ (opening = 91 ∧ closing = 93) := by
  unfold closingQuote at closes
  split_ifs at closes with same bracket
  · exact .inl ⟨(Option.some.inj closes).symm, same⟩
  · exact .inr ⟨bracket, (Option.some.inj closes).symm⟩

theorem letter_not_quote {c : CodeUnit} (letter : isLetter c = true ∨ c = 95) :
    c ≠ 34 ∧ c ≠ 39 ∧ c ≠ 96 ∧ c ≠ 91 := by
  refine ⟨?_, ?_, ?_, ?_⟩ <;>
    (rintro rfl
     revert letter
     decide)

theorem closingQuote_letter {c : CodeUnit} (letter : isLetter c = true ∨ c = 95) : closingQuote c = none := by
  simp [closingQuote, letter_not_quote letter]

/-- The name the code reads is the one SQLite compares. -/
theorem savepointName_dequote (name : NameToken) : savepointName name.raw = toLowerCase (dequote name.raw) := by
  obtain ⟨raw, ⟨opening, closing, content, closes, inside, rfl⟩ | ⟨first, rest, rfl, letter, _⟩⟩ := name
  · have dequoted : dequote (opening :: (content ++ [closing])) = content := by
      simp only [dequote, closes, dequoteFrom_closed inside]
    rw [dequoted]
    simp only [savepointName, startsWith, List.head?_cons, Option.some.injEq, endsWith_quoted, sliceInner_quoted,
      decide_eq_true_eq]
    obtain ⟨rfl, rfl | rfl | rfl⟩ | ⟨rfl, rfl⟩ := closingQuote_cases closes <;> rfl
  · have bare : dequote (first :: rest) = first :: rest := by
      simp only [dequote, closingQuote_letter letter]
    rw [bare]
    simp [savepointName, startsWith, letter_not_quote letter, toLowerCase]

end Names

variable {Time Key Value : Type}

def undo (callbacks : List (Callback Time)) (flags : Flags Time) : Flags Time := callbacks.foldl Flags.invoke flags

theorem undo_append (newer older : List (Callback Time)) (flags : Flags Time) :
    undo (newer ++ older) flags = undo older (undo newer flags) := List.foldl_append

/-- The flags say what a file with these contents would make them say. -/
structure Fits (flags : Flags Time) (contents : Contents Time Key Value) : Prop where
  metadata : flags.metadataCreated = contents.metadata.isSome
  kv : flags.kvCreated = contents.kv.isSome
  cache : ∀ cached, flags.cache = some cached → SqliteDatabase.Contents.alarm contents = cached

/-- Nothing set the alarm while these callbacks were registered. -/
def KeepsCache (callbacks : List (Callback Time)) : Prop := ∀ cached, Callback.restoreCache cached ∉ callbacks

/-- Each open level keeps the callbacks that lead the flags back to what it would restore. -/
def Backs (begun : Option (Contents Time Key Value)) : List Savepoint → List (JsString × Contents Time Key Value) →
    List (Callback Time) → Flags Time → Option Time → Prop
  | [], [], callbacks, flags, alarm =>
    match begun with
    | some before =>
      Fits (undo callbacks flags) before ∧ (KeepsCache callbacks → SqliteDatabase.Contents.alarm before = alarm)
    | none => callbacks = []
  | savepoint :: savepoints, (name, before) :: saved, callbacks, flags, alarm =>
    savepoint.name = toLowerCase name ∧ ∃ newer older, callbacks = newer ++ older ∧
      older.length = savepoint.rollbackCallbackIndex ∧ Fits (undo newer flags) before ∧
      (KeepsCache newer → SqliteDatabase.Contents.alarm before = alarm) ∧
      Backs begun savepoints saved older (undo newer flags) (SqliteDatabase.Contents.alarm before)
  | _, _, _, _, _ => False

namespace Backs

variable {begun : Option (Contents Time Key Value)} {savepoints : List Savepoint}
  {saved : List (JsString × Contents Time Key Value)} {callbacks : List (Callback Time)} {flags : Flags Time}
  {alarm : Option Time}

theorem names (backs : Backs begun savepoints saved callbacks flags alarm) :
    savepoints.map (·.name) = saved.map fun entry => toLowerCase entry.1 := by
  induction savepoints generalizing saved callbacks flags alarm with
  | nil =>
    cases saved with
    | nil => rfl
    | cons entry saved => exact backs.elim
  | cons savepoint savepoints ih =>
    cases saved with
    | nil => exact backs.elim
    | cons entry saved =>
      obtain ⟨name, newer, older, _, _, _, _, rest⟩ := backs
      rw [List.map_cons, List.map_cons, name, ih rest]

theorem push {callback : Callback Time} {flags' : Flags Time} {alarm' : Option Time}
    (backs : Backs begun savepoints saved callbacks flags alarm) (some_open : begun.isSome ∨ savepoints ≠ [])
    (undone : flags'.invoke callback = flags)
    (changed : alarm' = alarm ∨ ∃ cached, callback = .restoreCache cached) :
    Backs begun savepoints saved (callback :: callbacks) flags' alarm' := by
  have same {newer : List (Callback Time)} (kept : KeepsCache (callback :: newer)) :
      alarm' = alarm ∧ KeepsCache newer := by
    refine ⟨?_, fun cached later => kept cached (List.mem_cons_of_mem _ later)⟩
    obtain same | ⟨cached, rfl⟩ := changed
    · exact same
    · exact absurd (List.mem_cons_self ..) (kept cached)
  cases savepoints with
  | nil =>
    cases saved with
    | cons entry saved => exact backs.elim
    | nil =>
      cases begun with
      | none => simp at some_open
      | some before =>
        obtain ⟨fits, alarms⟩ := backs
        refine ⟨?_, ?_⟩
        · show Fits (undo callbacks (flags'.invoke callback)) before
          rw [undone]
          exact fits
        · intro kept
          obtain ⟨rfl, older⟩ := same kept
          exact alarms older
  | cons savepoint savepoints =>
    cases saved with
    | nil => exact backs.elim
    | cons entry saved =>
      obtain ⟨name, newer, older, rfl, index, fits, alarms, rest⟩ := backs
      have undone : undo (callback :: newer) flags' = undo newer flags := by
        show undo newer (flags'.invoke callback) = undo newer flags
        rw [undone]
      refine ⟨name, callback :: newer, older, rfl, index, ?_, ?_, ?_⟩
      · rwa [undone]
      · intro kept
        obtain ⟨rfl, older⟩ := same kept
        exact alarms older
      · rwa [undone]

theorem undo_cache (callbacks : List (Callback Time)) (flags : Flags Time) (cached : Option (Option Time)) :
    (KeepsCache callbacks → undo callbacks { flags with cache := cached } = { undo callbacks flags with cache := cached } ∧
      (undo callbacks flags).cache = flags.cache) ∧
    (¬ KeepsCache callbacks → undo callbacks { flags with cache := cached } = undo callbacks flags) := by
  induction callbacks generalizing flags with
  | nil => exact ⟨fun _ => ⟨rfl, rfl⟩, fun lost => absurd (fun _ => List.not_mem_nil) lost⟩
  | cons callback callbacks ih =>
    have tail (kept : ¬ KeepsCache (callback :: callbacks)) (other : ∀ c, callback ≠ .restoreCache c) :
        ¬ KeepsCache callbacks := by
      intro older
      apply kept
      intro c later
      rcases List.mem_cons.1 later with same | later
      · exact other c same.symm
      · exact older c later
    have older (kept : KeepsCache (callback :: callbacks)) : KeepsCache callbacks :=
      fun c later => kept c (List.mem_cons_of_mem _ later)
    cases callback with
    | restoreCache restored =>
      refine ⟨fun kept => absurd (List.mem_cons_self ..) (kept restored), fun _ => rfl⟩
    | forgetMetadata =>
      obtain ⟨kept, lost⟩ := ih { flags with metadataCreated := false }
      exact ⟨fun keeps => kept (older keeps), fun loses => lost (tail loses (by simp))⟩
    | forgetKv =>
      obtain ⟨kept, lost⟩ := ih { flags with kvCreated := false }
      exact ⟨fun keeps => kept (older keeps), fun loses => lost (tail loses (by simp))⟩

theorem fits_fill {contents : Contents Time Key Value} {flags : Flags Time} (fits : Fits flags contents) :
    Fits { flags with cache := some (SqliteDatabase.Contents.alarm contents) } contents :=
  ⟨fits.metadata, fits.kv, fun _ same => Option.some.inj same⟩

/-- The alarm may be read into an empty cache at any time. -/
theorem fill (backs : Backs begun savepoints saved callbacks flags alarm) (empty : flags.cache = none) :
    Backs begun savepoints saved callbacks { flags with cache := some alarm } alarm := by
  induction savepoints generalizing saved callbacks flags alarm with
  | nil =>
    cases saved with
    | cons entry saved => exact backs.elim
    | nil =>
      cases begun with
      | none => exact backs
      | some before =>
        obtain ⟨fits, alarms⟩ := backs
        refine ⟨?_, alarms⟩
        obtain ⟨kept, lost⟩ := undo_cache callbacks flags (some alarm)
        by_cases keeps : KeepsCache callbacks
        · rw [(kept keeps).1, ← alarms keeps]
          exact fits_fill fits
        · rwa [lost keeps]
  | cons savepoint savepoints ih =>
    cases saved with
    | nil => exact backs.elim
    | cons entry saved =>
      obtain ⟨name, newer, older, rfl, index, fits, alarms, rest⟩ := backs
      obtain ⟨kept, lost⟩ := undo_cache newer flags (some alarm)
      refine ⟨name, newer, older, rfl, index, ?_, alarms, ?_⟩
      · by_cases keeps : KeepsCache newer
        · rw [(kept keeps).1, ← alarms keeps]
          exact fits_fill fits
        · rwa [lost keeps]
      · by_cases keeps : KeepsCache newer
        · obtain ⟨filled, same⟩ := kept keeps
          rw [filled, ← alarms keeps]
          exact ih rest (same.trans empty)
        · rwa [lost keeps]

/-- A level that is released leaves its callbacks to the one around it. -/
theorem pop {savepoint : Savepoint} {entry : JsString × Contents Time Key Value}
    (backs : Backs begun (savepoint :: savepoints) (entry :: saved) callbacks flags alarm)
    (some_open : begun.isSome ∨ savepoints ≠ []) : Backs begun savepoints saved callbacks flags alarm := by
  obtain ⟨_, newer, older, rfl, _, _, alarms, rest⟩ := backs
  have both (kept : KeepsCache (newer ++ older)) : KeepsCache newer ∧ KeepsCache older :=
    ⟨fun c held => kept c (List.mem_append_left _ held), fun c held => kept c (List.mem_append_right _ held)⟩
  cases savepoints with
  | nil =>
    cases saved with
    | cons entry saved => exact rest.elim
    | nil =>
      cases begun with
      | none => simp at some_open
      | some before =>
        obtain ⟨fits, outer⟩ := rest
        refine ⟨by rwa [undo_append], ?_⟩
        intro kept
        rw [outer (both kept).2, alarms (both kept).1]
  | cons next savepoints =>
    cases saved with
    | nil => exact rest.elim
    | cons other saved =>
      obtain ⟨name, newer', older, rfl, index, fits, outer, rest⟩ := rest
      refine ⟨name, newer ++ newer', older, by rw [List.append_assoc], index, ?_, ?_, ?_⟩
      · rwa [undo_append]
      · intro kept
        have both : KeepsCache newer ∧ KeepsCache newer' :=
          ⟨fun c held => kept c (List.mem_append_left _ held), fun c held => kept c (List.mem_append_right _ held)⟩
        rw [outer both.2, alarms both.1]
      · rwa [undo_append]

/-- The bookkeeping finds a name where SQLite finds it. -/
theorem find (backs : Backs begun savepoints saved callbacks flags alarm) (name : JsString) :
    (Backend.downTo name saved = none ∧ SqliteDatabase.popTo (toLowerCase name) savepoints = []) ∨
    ∃ savepoint rest entry others, Backend.downTo name saved = some (entry :: others) ∧
      SqliteDatabase.popTo (toLowerCase name) savepoints = savepoint :: rest ∧
      Backs begun (savepoint :: rest) (entry :: others) callbacks flags alarm := by
  induction savepoints generalizing saved with
  | nil =>
    cases saved with
    | nil => exact .inl ⟨rfl, rfl⟩
    | cons entry saved => exact backs.elim
  | cons savepoint savepoints ih =>
    cases saved with
    | nil => exact backs.elim
    | cons entry saved =>
      have own := backs.1
      simp only [Backend.downTo, SqliteDatabase.popTo, own, sameName, decide_eq_true_eq]
      by_cases same : toLowerCase entry.1 = toLowerCase name
      · simp only [same, if_true]
        exact .inr ⟨savepoint, savepoints, entry, saved, rfl, rfl, backs⟩
      · simp only [same, if_false]
        cases savepoints with
        | nil =>
          have names := congrArg List.length (names backs)
          have none_saved : saved = [] := List.length_eq_zero_iff.1 (by simpa using names.symm)
          subst none_saved
          exact .inl ⟨rfl, rfl⟩
        | cons next savepoints => exact ih (backs.pop (.inr (by simp)))

theorem bottom {before : Contents Time Key Value} (backs : Backs (some before) savepoints saved callbacks flags alarm) :
    Fits (undo callbacks flags) before := by
  induction savepoints generalizing saved callbacks flags alarm with
  | nil =>
    cases saved with
    | cons entry saved => exact backs.elim
    | nil => exact backs.1
  | cons savepoint savepoints ih =>
    cases saved with
    | nil => exact backs.elim
    | cons entry saved =>
      obtain ⟨_, newer, older, rfl, _, _, _, rest⟩ := backs
      rw [undo_append]
      exact ih rest

end Backs

namespace SqliteDatabase

variable [LinearOrder Key]

/-- What is in memory is what SQLite has. -/
structure Agrees (s : SqliteDatabase Time Key Value) : Prop where
  inTransaction : s.inTransaction = s.backend.begun.isSome
  fits : Fits s.flags s.backend.contents
  backs : Backs s.backend.begun s.savepoints s.backend.savepoints s.rollbackCallbacks s.flags
    (Contents.alarm s.backend.contents)

/-- Either a critical error has been observed, or the memory agrees with SQLite. -/
def Holds (s : SqliteDatabase Time Key Value) : Prop := s.criticalError = true ∨ s.Agrees

/-- The state after a statement that did nothing: only the fault that befell it is spent. -/
def spent (s : SqliteDatabase Time Key Value) : SqliteDatabase Time Key Value :=
  { s with backend := { s.backend with faults := s.backend.faults.tail } }

namespace Agrees

variable {s : SqliteDatabase Time Key Value}

theorem spent (agrees : s.Agrees) : s.spent.Agrees := ⟨agrees.inTransaction, agrees.fits, agrees.backs⟩

theorem isOpen (agrees : s.Agrees) : s.isOpen = s.backend.inTransaction := by
  have names := congrArg List.length agrees.backs.names
  simp only [List.length_map] at names
  have empty : s.savepoints.isEmpty = s.backend.savepoints.isEmpty := by
    rw [Bool.eq_iff_iff, List.isEmpty_iff_length_eq_zero, List.isEmpty_iff_length_eq_zero, names]
  simp only [SqliteDatabase.isOpen, Backend.inTransaction, agrees.inTransaction, empty]

theorem closed (agrees : s.Agrees) (idle : s.isOpen = false) :
    s.inTransaction = false ∧ s.savepoints = [] ∧ s.backend.begun = none ∧ s.backend.savepoints = [] ∧
      s.rollbackCallbacks = [] := by
  have backend := agrees.isOpen.symm.trans idle
  simp only [SqliteDatabase.isOpen, Backend.inTransaction, Bool.or_eq_false_iff, Bool.not_eq_false',
    List.isEmpty_iff, Option.isSome_eq_false_iff, Option.isNone_iff_eq_none] at idle backend
  have backs := agrees.backs
  rw [idle.2, backend.1, backend.2] at backs
  exact ⟨idle.1, idle.2, backend.1, backend.2, backs⟩

end Agrees

variable {s : SqliteDatabase Time Key Value}

theorem execute_cases (b : Backend Time Key Value) (statement : Statement Time Key Value) :
    b.execute statement = (false, { b with faults := b.faults.tail }) ∨
    b.execute statement = (false, Backend.rollBack { b with faults := b.faults.tail }) ∨
    ∃ after, Backend.effect { b with faults := b.faults.tail } statement = some after ∧
      b.execute statement = (true, after) := by
  unfold Backend.execute
  split
  · exact .inl rfl
  · exact .inr (.inl rfl)
  · simp only
    cases effect : Backend.effect { b with faults := b.faults.tail } statement with
    | none => exact .inl rfl
    | some after => exact .inr (.inr ⟨after, rfl, rfl⟩)

theorem checkForAutoRollback_spent (agrees : s.Agrees) : checkForAutoRollback s.spent = s.spent := by
  have same := agrees.spent.isOpen
  unfold checkForAutoRollback
  rw [if_neg]
  rintro ⟨opened, apart⟩
  rw [same, apart] at opened
  cases opened

/-- SQLite's own rollback is observed where there was anything to roll back. -/
theorem checkForAutoRollback_rollBack (agrees : s.Agrees) :
    (checkForAutoRollback { s with backend := s.spent.backend.rollBack }).criticalError = true ∨
      checkForAutoRollback { s with backend := s.spent.backend.rollBack } = s.spent := by
  unfold checkForAutoRollback
  cases opened : s.isOpen with
  | true =>
    left
    have held : SqliteDatabase.isOpen { s with backend := s.spent.backend.rollBack } = true := opened
    rw [if_pos ⟨held, rfl⟩]
  | false =>
    right
    obtain ⟨_, _, begun, saved, _⟩ := agrees.closed opened
    have held : SqliteDatabase.isOpen { s with backend := s.spent.backend.rollBack } = false := opened
    rw [if_neg (by simp [held])]
    simp only [SqliteDatabase.spent, Backend.rollBack, Backend.outermost, begun, saved, List.getLast?_nil]

/-- A statement fails without effect, meets a critical error, or takes effect and is accounted for. -/
theorem run_cases (agrees : s.Agrees) (statement : Statement Time Key Value) :
    ((s.run statement).1 = false ∧ ((s.run statement).2.criticalError = true ∨ (s.run statement).2 = s ∨
      (s.run statement).2 = s.spent)) ∨
    ∃ b, s.spent.backend.effect statement = some b ∧
      s.run statement = applyChange { s with backend := b } (classify statement) := by
  unfold run
  by_cases critical : s.criticalError = true
  · rw [if_pos critical]
    exact .inl ⟨rfl, .inr (.inl rfl)⟩
  · rw [if_neg critical]
    obtain failed | rolledBack | ⟨after, effect, ran⟩ := execute_cases s.backend statement
    · rw [failed]
      exact .inl ⟨rfl, .inr (.inr (checkForAutoRollback_spent agrees))⟩
    · rw [rolledBack]
      exact .inl ⟨rfl, (checkForAutoRollback_rollBack agrees).imp id .inr⟩
    · rw [ran]
      exact .inr ⟨after, effect, rfl⟩

/-- A statement that changes no transaction state, as far as its caller is concerned. -/
theorem run_plain (agrees : s.Agrees) (statement : Statement Time Key Value)
    (plain : classify statement = .none) :
    ((s.run statement).1 = false ∧ Holds (s.run statement).2) ∨
    ∃ b, s.spent.backend.effect statement = some b ∧ s.run statement = (true, { s with backend := b }) := by
  obtain ⟨failed, critical | same | same⟩ | ⟨b, effect, ran⟩ := run_cases agrees statement
  · exact .inl ⟨failed, .inl critical⟩
  · exact .inl ⟨failed, .inr (by rwa [same])⟩
  · exact .inl ⟨failed, .inr (by rw [same]; exact agrees.spent)⟩
  · rw [plain] at ran
    exact .inr ⟨b, effect, ran⟩

theorem onRollback_eq (s : SqliteDatabase Time Key Value) (callback : Callback Time) :
    onRollback s callback = { s with
      rollbackCallbacks := if s.isOpen then callback :: s.rollbackCallbacks else s.rollbackCallbacks } := by
  unfold onRollback
  cases s.isOpen <;> rfl

/-- A flag is raised with a callback that lowers it again. -/
theorem Agrees.register (agrees : s.Agrees) (contents : Contents Time Key Value) (flags : Flags Time)
    (callback : Callback Time) (faults : List (Option Fault)) (fits : Fits flags contents)
    (undone : flags.invoke callback = s.flags)
    (changed : Contents.alarm contents = Contents.alarm s.backend.contents ∨ ∃ cached, callback = .restoreCache cached) :
    Agrees { s with
      backend := { s.backend with contents, faults }
      rollbackCallbacks := if s.isOpen then callback :: s.rollbackCallbacks else s.rollbackCallbacks
      flags } := by
  refine ⟨agrees.inTransaction, fits, ?_⟩
  cases opened : s.isOpen with
  | true =>
    refine agrees.backs.push ?_ undone changed
    rw [SqliteDatabase.isOpen, Bool.or_eq_true, agrees.inTransaction] at opened
    refine opened.imp id ?_
    intro held empty
    rw [empty] at held
    cases held
  | false =>
    obtain ⟨_, savepoints, begun, saved, callbacks⟩ := agrees.closed opened
    show Backs s.backend.begun s.savepoints s.backend.savepoints s.rollbackCallbacks flags _
    rw [savepoints, begun, saved]
    exact callbacks

section Metadata

theorem alarm_createMetadata (contents : Contents Time Key Value) (absent : contents.metadata.isSome = false) :
    Contents.alarm { contents with metadata := some (contents.metadata.getD none) } = Contents.alarm contents := by
  rw [Option.isSome_eq_false_iff, Option.isNone_iff_eq_none] at absent
  simp [Contents.alarm, absent]

theorem ensureMetadata_cases (agrees : s.Agrees) :
    (s.ensureMetadata.1 = false ∧ Holds s.ensureMetadata.2) ∨
    (s.ensureMetadata.1 = true ∧ s.ensureMetadata.2.Agrees ∧ s.ensureMetadata.2.flags.metadataCreated = true ∧
      s.ensureMetadata.2.flags.cache = s.flags.cache) := by
  unfold ensureMetadata
  cases created : s.flags.metadataCreated with
  | true => exact .inr ⟨rfl, agrees, created, rfl⟩
  | false =>
    simp only [Bool.false_eq_true, if_false]
    obtain ⟨failed, holds⟩ | ⟨b, effect, ran⟩ := run_plain agrees .createMetadata rfl
    · left
      cases result : s.run .createMetadata with
      | mk ok after =>
        rw [result] at failed holds
        cases failed
        exact ⟨rfl, holds⟩
    · rw [ran]
      cases effect
      have absent : s.backend.contents.metadata.isSome = false := agrees.fits.metadata.symm.trans created
      have registered := agrees.register
        { s.backend.contents with metadata := some (s.backend.contents.metadata.getD none) }
        { s.flags with metadataCreated := true } .forgetMetadata s.backend.faults.tail
        ⟨rfl, agrees.fits.kv, fun cached held => (alarm_createMetadata _ absent).trans (agrees.fits.cache cached held)⟩
        (by simp [Flags.invoke, ← created]) (.inl (alarm_createMetadata _ absent))
      right
      simp only [onRollback_eq]
      exact ⟨trivial, registered, trivial, trivial⟩

theorem setAlarm_holds [DecidableEq Time] (agrees : s.Agrees) (currentTime : Option Time) :
    Holds (s.setAlarm currentTime).2 := by
  unfold setAlarm
  by_cases cached : s.flags.cache = some currentTime
  · simp only [cached, if_true]
    exact .inr agrees
  · simp only [cached, if_false]
    obtain ⟨failed, holds⟩ | ⟨ready, initialized, created, kept⟩ := ensureMetadata_cases agrees
    · cases result : s.ensureMetadata with
      | mk ok after =>
        rw [result] at failed holds
        cases failed
        exact holds
    · cases result : s.ensureMetadata with
      | mk ok after =>
        rw [result] at ready initialized created kept
        cases ready
        simp only
        obtain ⟨failed, holds⟩ | ⟨b, effect, ran⟩ := run_plain initialized (.setAlarm currentTime) rfl
        · cases outcome : after.run (.setAlarm currentTime) with
          | mk ok final =>
            rw [outcome] at failed holds
            cases failed
            exact holds
        · rw [ran]
          obtain ⟨table, _, rfl⟩ := Option.map_eq_some_iff.1 effect
          right
          simp only [onRollback_eq]
          exact initialized.register _ _ _ after.backend.faults.tail
            ⟨created, initialized.fits.kv, fun _ held => Option.some.inj held⟩
            (by simp only [Flags.invoke, ← kept]) (.inr ⟨_, rfl⟩)

theorem getAlarm_cases [DecidableEq Time] (agrees : s.Agrees) :
    Holds s.getAlarm.2 ∧ ∀ alarmTime, s.getAlarm.1 = some alarmTime → Contents.alarm s.backend.contents = alarmTime := by
  unfold getAlarm
  by_cases critical : s.criticalError = true
  · rw [if_pos critical]
    exact ⟨.inl critical, fun _ impossible => by cases impossible⟩
  rw [if_neg critical]
  cases hit : s.flags.cache with
  | some cached =>
    refine ⟨.inr agrees, ?_⟩
    intro alarmTime same
    cases same
    exact agrees.fits.cache cached hit
  | none =>
    simp only
    unfold getAlarmUncached
    cases created : s.flags.metadataCreated with
    | false =>
      have absent : s.backend.contents.metadata = none := by
        simpa using agrees.fits.metadata.symm.trans created
      have null : Contents.alarm s.backend.contents = none := by simp [Contents.alarm, absent]
      simp only [Bool.false_eq_true, if_false]
      refine ⟨.inr ⟨agrees.inTransaction, ?_, ?_⟩, fun _ same => null.trans (Option.some.inj same)⟩
      · rw [← null]
        exact Backs.fits_fill agrees.fits
      · rw [← null]
        exact agrees.backs.fill hit
    | true =>
      simp only [if_true]
      obtain ⟨failed, holds⟩ | ⟨b, effect, ran⟩ := run_plain agrees .select rfl
      · cases outcome : s.run .select with
        | mk ok final =>
          rw [outcome] at failed holds
          cases failed
          exact ⟨holds, fun _ impossible => by cases impossible⟩
      · rw [ran]
        cases effect
        refine ⟨.inr ⟨agrees.inTransaction, ?_, ?_⟩, fun _ same => Option.some.inj same⟩
        · exact Backs.fits_fill agrees.fits
        · exact agrees.backs.fill hit

end Metadata

section Kv

theorem ensureKv_cases (agrees : s.Agrees) :
    (s.ensureKv.1 = false ∧ Holds s.ensureKv.2) ∨
    (s.ensureKv.1 = true ∧ s.ensureKv.2.Agrees ∧ s.ensureKv.2.flags.kvCreated = true) := by
  unfold ensureKv
  cases created : s.flags.kvCreated with
  | true => exact .inr ⟨rfl, agrees, created⟩
  | false =>
    simp only [Bool.false_eq_true, if_false]
    obtain ⟨failed, holds⟩ | ⟨b, effect, ran⟩ := run_plain agrees .createKv rfl
    · left
      cases result : s.run .createKv with
      | mk ok after =>
        rw [result] at failed holds
        cases failed
        exact ⟨rfl, holds⟩
    · rw [ran]
      cases effect
      have registered := agrees.register
        { s.backend.contents with kv := some (s.backend.contents.kv.getD []) }
        { s.flags with kvCreated := true } .forgetKv s.backend.faults.tail
        ⟨agrees.fits.metadata, rfl, agrees.fits.cache⟩ (by simp [Flags.invoke, ← created]) (.inl rfl)
      right
      simp only [onRollback_eq]
      exact ⟨trivial, registered, trivial⟩

/-- A statement on the rows alone changes nothing that is cached. -/
theorem run_rows (agrees : s.Agrees) (statement : Statement Time Key Value) (plain : classify statement = .none)
    (rows : ∀ b after : Backend Time Key Value, b.effect statement = some after →
      after.begun = b.begun ∧ after.savepoints = b.savepoints ∧ after.contents.metadata = b.contents.metadata ∧
        after.contents.kv.isSome = b.contents.kv.isSome) :
    Holds (s.run statement).2 ∧ ((s.run statement).1 = true → (s.run statement).2.Agrees) := by
  obtain ⟨failed, holds⟩ | ⟨b, effect, ran⟩ := run_plain agrees statement plain
  · exact ⟨holds, fun ok => absurd (ok.symm.trans failed) (by simp)⟩
  · obtain ⟨begun, savepoints, metadata, kv⟩ := rows _ _ effect
    have alarm : Contents.alarm b.contents = Contents.alarm s.backend.contents := by
      simp only [Contents.alarm, metadata, spent]
    have kept : Agrees { s with backend := b } := by
      refine ⟨agrees.inTransaction.trans (congrArg Option.isSome begun.symm), ⟨?_, ?_, ?_⟩, ?_⟩
      · exact agrees.fits.metadata.trans (congrArg Option.isSome metadata.symm)
      · exact agrees.fits.kv.trans kv.symm
      · intro cached held
        exact alarm.trans (agrees.fits.cache cached held)
      · simp only [begun, savepoints, alarm]
        exact agrees.backs
    rw [ran]
    exact ⟨.inr kept, fun _ => kept⟩

theorem put_cases (agrees : s.Agrees) (key : Key) (value : Value) :
    Holds (s.put key value).2 ∧ ((s.put key value).1 = true → (s.put key value).2.Agrees) := by
  unfold put
  obtain ⟨failed, holds⟩ | ⟨ready, initialized, _⟩ := ensureKv_cases agrees
  · cases result : s.ensureKv with
    | mk ok after =>
      rw [result] at failed holds
      cases failed
      exact ⟨holds, fun ok => by cases ok⟩
  · cases result : s.ensureKv with
    | mk ok after =>
      rw [result] at ready initialized
      cases ready
      refine run_rows initialized (.put key value) rfl ?_
      intro b after effect
      obtain ⟨rows, present, rfl⟩ := Option.map_eq_some_iff.1 effect
      exact ⟨rfl, rfl, rfl, by rw [present]; rfl⟩

theorem putAll_cases (agrees : s.Agrees) (pairs : List (Key × Value)) :
    Holds (s.putAll pairs).2 ∧ ((s.putAll pairs).1 = true → (s.putAll pairs).2.Agrees) := by
  induction pairs generalizing s with
  | nil => exact ⟨.inr agrees, fun _ => agrees⟩
  | cons pair pairs ih =>
    obtain ⟨holds, kept⟩ := put_cases agrees pair.1 pair.2
    unfold putAll
    cases result : s.put pair.1 pair.2 with
    | mk ok after =>
      rw [result] at holds kept
      cases ok with
      | false => exact ⟨holds, fun ok => by cases ok⟩
      | true => exact ih (kept rfl)

end Kv

section Transactions

theorem runCallbacks_undo (newer older : List (Callback Time)) (flags : Flags Time) :
    runCallbacks older.length (newer ++ older) flags = (older, undo newer flags) := by
  induction newer generalizing flags with
  | nil =>
    cases older with
    | nil => rfl
    | cons callback older => simp [runCallbacks, undo]
  | cons callback newer ih =>
    have deeper : older.length < (newer ++ older).length + 1 := by
      rw [List.length_append]
      omega
    rw [List.cons_append, runCallbacks, if_pos deeper]
    exact ih (flags.invoke callback)

theorem discardCallbacks_agrees {s : SqliteDatabase Time Key Value} (inTransaction : s.inTransaction = s.backend.begun.isSome)
    (fits : Fits s.flags s.backend.contents)
    (names : s.savepoints.map (·.name) = s.backend.savepoints.map fun entry => toLowerCase entry.1)
    (backs : s.isOpen = true → Backs s.backend.begun s.savepoints s.backend.savepoints s.rollbackCallbacks s.flags
      (Contents.alarm s.backend.contents)) : s.discardCallbacks.Agrees := by
  unfold discardCallbacks
  cases opened : s.isOpen with
  | true => exact ⟨inTransaction, fits, backs opened⟩
  | false =>
    simp only [isOpen, Bool.or_eq_false_iff, Bool.not_eq_false', List.isEmpty_iff] at opened
    have begun : s.backend.begun = none := by simpa using inTransaction.symm.trans opened.1
    have saved : s.backend.savepoints = [] := by simpa [opened.2] using names.symm
    refine ⟨inTransaction, fits, ?_⟩
    show Backs s.backend.begun s.savepoints s.backend.savepoints [] s.flags _
    rw [begun, opened.2, saved]
    rfl

/-- SQLite ends a transaction that a savepoint opened on COMMIT and ROLLBACK too. -/
def EndsSavepoint (b : Backend Time Key Value) (transaction : Transaction) : Prop :=
  (transaction = .commit ∨ transaction = .rollback) ∧ b.begun = none ∧ b.savepoints ≠ []

theorem begin_agrees (agrees : s.Agrees) {b : Backend Time Key Value}
    (effect : s.spent.backend.effect .begin = some b) : (applyChange { s with backend := b } (.begin none)).2.Agrees := by
  simp only [Backend.effect, Option.ite_none_left_eq_some, Bool.not_eq_true] at effect
  obtain ⟨idle, same⟩ := effect
  obtain ⟨inTransaction, savepoints, begun, saved, callbacks⟩ := agrees.closed (agrees.isOpen.trans idle)
  obtain rfl := Option.some.inj same
  simp only [applyChange, inTransaction, savepoints, callbacks, List.length_nil, and_self, if_true]
  refine ⟨rfl, agrees.fits, ?_⟩
  show Backs (some s.backend.contents) [] s.backend.savepoints [] s.flags _
  rw [saved]
  exact ⟨agrees.fits, fun _ => rfl⟩

theorem savepoint_agrees (agrees : s.Agrees) (name : NameToken) {b : Backend Time Key Value}
    (effect : s.spent.backend.effect (.savepoint name) = some b) :
    (applyChange { s with backend := b } (.begin (some (savepointName name.raw)))).2.Agrees := by
  obtain rfl := Option.some.inj effect
  refine ⟨agrees.inTransaction, agrees.fits, savepointName_dequote name, [], s.rollbackCallbacks, rfl, rfl, agrees.fits,
    fun _ => rfl, agrees.backs⟩

theorem release_agrees (agrees : s.Agrees) (name : NameToken) {b : Backend Time Key Value}
    (effect : s.spent.backend.effect (.release name) = some b) :
    (applyChange { s with backend := b } (.commit (some (savepointName name.raw)))).2.Agrees := by
  obtain ⟨found, down, rfl⟩ := Option.map_eq_some_iff.1 effect
  obtain ⟨absent, _⟩ | ⟨savepoint, rest, entry, others, there, popped, backs⟩ := agrees.backs.find (dequote name.raw)
  · exact absurd (absent.symm.trans down) (by simp)
  · obtain rfl := Option.some.inj (there.symm.trans down)
    simp only [applyChange, savepointName_dequote, popped]
    apply discardCallbacks_agrees
    · exact agrees.inTransaction
    · exact agrees.fits
    · exact List.tail_eq_of_cons_eq backs.names
    · intro opened
      apply backs.pop
      rw [isOpen, Bool.or_eq_true] at opened
      refine opened.imp (fun up => by rwa [← agrees.inTransaction]) ?_
      intro up empty
      simp only at up
      rw [empty] at up
      cases up

theorem rollbackTo_agrees (agrees : s.Agrees) (name : NameToken) {b : Backend Time Key Value}
    (effect : s.spent.backend.effect (.rollbackTo name) = some b) :
    (applyChange { s with backend := b } (.rollback (some (savepointName name.raw)))).2.Agrees := by
  obtain ⟨absent, _⟩ | ⟨savepoint, rest, entry, others, there, popped, backs⟩ := agrees.backs.find (dequote name.raw)
  · have nothing : Backend.downTo (dequote name.raw) s.spent.backend.savepoints = none := absent
    simp only [Backend.effect, nothing] at effect
    cases effect
  · have found : Backend.downTo (dequote name.raw) s.spent.backend.savepoints = some (entry :: others) := there
    simp only [Backend.effect, found] at effect
    obtain rfl := Option.some.inj effect
    obtain ⟨own, newer, older, callbacks, index, fits, _, rest⟩ := backs
    have within : older.length ≤ (newer ++ older).length := by
      rw [List.length_append]
      omega
    simp only [applyChange, savepointName_dequote, popped, runRollbackCallbacksDownTo, callbacks, ← index, if_pos within,
      runCallbacks_undo]
    exact ⟨agrees.inTransaction, fits, own, [], older, rfl, index, fits, fun _ => rfl, rest⟩

/-- Where no savepoint is the outermost level, a BEGIN is. -/
theorem begun_of_whole (agrees : s.Agrees) {transaction : Transaction} (ends : transaction = .commit ∨ transaction = .rollback)
    (whole : ¬ EndsSavepoint s.backend transaction) (opened : s.backend.inTransaction = true) :
    ∃ before, s.backend.begun = some before ∧ s.inTransaction = true := by
  cases begun : s.backend.begun with
  | some before => exact ⟨before, rfl, agrees.inTransaction.trans (by rw [begun]; rfl)⟩
  | none =>
    refine absurd ⟨ends, begun, ?_⟩ whole
    intro empty
    simp [Backend.inTransaction, begun, empty] at opened

theorem commit_agrees (agrees : s.Agrees) {b : Backend Time Key Value} (effect : s.spent.backend.effect .commit = some b)
    (whole : ¬ EndsSavepoint s.backend .commit) : (applyChange { s with backend := b } (.commit none)).2.Agrees := by
  simp only [Backend.effect, Option.ite_none_right_eq_some] at effect
  obtain ⟨opened, same⟩ := effect
  obtain rfl := Option.some.inj same
  obtain ⟨_, _, begun⟩ := begun_of_whole agrees (.inl rfl) whole opened
  simp only [applyChange, begun, if_true]
  apply discardCallbacks_agrees
  · rfl
  · exact agrees.fits
  · rfl
  · intro impossible
    cases impossible

theorem rollback_agrees (agrees : s.Agrees) {b : Backend Time Key Value}
    (effect : s.spent.backend.effect .rollback = some b) (whole : ¬ EndsSavepoint s.backend .rollback) :
    (applyChange { s with backend := b } (.rollback none)).2.Agrees := by
  simp only [Backend.effect, Option.ite_none_right_eq_some] at effect
  obtain ⟨opened, same⟩ := effect
  obtain rfl := Option.some.inj same
  obtain ⟨before, begun, inTransaction⟩ := begun_of_whole agrees (.inr rfl) whole opened
  have undone := runCallbacks_undo s.rollbackCallbacks [] s.flags
  rw [List.append_nil] at undone
  have backs := agrees.backs
  rw [begun] at backs
  have restored : s.spent.backend.outermost = before := by
    simp only [Backend.outermost, spent, begun]
  have fits : Fits (undo s.rollbackCallbacks s.flags) s.spent.backend.outermost := by
    rw [restored]
    exact backs.bottom
  simp only [applyChange, inTransaction, if_true, runRollbackCallbacksDownTo, Nat.zero_le, List.length_nil] at undone ⊢
  rw [undone]
  exact ⟨rfl, fits, rfl⟩

theorem transaction_holds (agrees : s.Agrees) (transaction : Transaction)
    (whole : ¬ EndsSavepoint s.backend transaction) : Holds (s.run transaction.statement).2 := by
  obtain ⟨_, critical | same | same⟩ | ⟨b, effect, ran⟩ := run_cases agrees transaction.statement
  · exact .inl critical
  · exact .inr (by rwa [same])
  · exact .inr (by rw [same]; exact agrees.spent)
  · right
    rw [ran]
    cases transaction with
    | begin => exact begin_agrees agrees effect
    | savepoint name => exact savepoint_agrees agrees name effect
    | release name => exact release_agrees agrees name effect
    | rollbackTo name => exact rollbackTo_agrees agrees name effect
    | commit => exact commit_agrees agrees effect whole
    | rollback => exact rollback_agrees agrees effect whole

end Transactions

section Critical

variable (critical : s.criticalError = true)

include critical

theorem run_critical (statement : Statement Time Key Value) : s.run statement = (false, s) := by
  rw [run, if_pos critical]

theorem ensureMetadata_critical : s.ensureMetadata.2 = s := by
  unfold ensureMetadata
  rw [run_critical critical]
  cases s.flags.metadataCreated <;> rfl

theorem setAlarm_critical [DecidableEq Time] (currentTime : Option Time) : (s.setAlarm currentTime).2 = s := by
  have same := ensureMetadata_critical critical
  unfold setAlarm
  by_cases cached : s.flags.cache = some currentTime
  · simp only [cached, if_true]
  · simp only [cached, if_false]
    cases result : s.ensureMetadata with
    | mk ok after =>
      rw [result] at same
      cases same
      cases ok with
      | false => rfl
      | true => simp only [run_critical critical]

theorem ensureKv_critical : s.ensureKv.2 = s := by
  unfold ensureKv
  rw [run_critical critical]
  cases s.flags.kvCreated <;> rfl

theorem put_critical (key : Key) (value : Value) : s.put key value = (false, s) := by
  have same := ensureKv_critical critical
  unfold put
  cases result : s.ensureKv with
  | mk ok after =>
    rw [result] at same
    cases same
    cases ok with
    | false => rfl
    | true => exact run_critical critical _

theorem putAll_critical (pairs : List (Key × Value)) : (s.putAll pairs).2 = s := by
  cases pairs with
  | nil => rfl
  | cons pair pairs => rw [putAll, put_critical critical]

theorem putMultiple_critical (pairs : List (Key × Value)) (throws : Bool) : (s.putMultiple pairs throws).2 = s := by
  have same := ensureKv_critical critical
  unfold putMultiple
  cases result : s.ensureKv with
  | mk ok after =>
    rw [result] at same
    cases same
    cases ok with
    | false => rfl
    | true => simp only [run_critical critical]

theorem delete_critical (key : Key) : (s.delete key).2 = s := by
  have same := ensureKv_critical critical
  unfold delete
  cases result : s.ensureKv with
  | mk ok after =>
    rw [result] at same
    cases same
    cases ok with
    | false => rfl
    | true => simp only [run_critical critical]

theorem select_critical : s.select = (none, s) := by
  rw [select, if_pos critical]

theorem reset_critical : s.reset = (false, s) := by
  rw [reset, if_pos (.inl critical)]

theorem deleteAll_critical : s.deleteAll.2 = s := by
  unfold deleteAll
  cases s.flags.kvCreated with
  | false => simp only [Bool.false_eq_true, if_false, reset_critical critical]
  | true => simp only [if_true, run_critical critical]

theorem apply_critical [DecidableEq Time] (op : Op Time Key Value) : s.apply op = s := by
  cases op with
  | setAlarm time => exact setAlarm_critical critical time
  | getAlarm => simp only [apply, getAlarm, if_pos critical]
  | put key value => simp only [apply, put_critical critical]
  | putMultiple pairs throws => exact putMultiple_critical critical pairs throws
  | get key => simp only [apply, get, select_critical critical]
  | delete key => exact delete_critical critical key
  | list first last limit order => simp only [apply, list, select_critical critical]
  | deleteAll => exact deleteAll_critical critical
  | reset => simp only [apply, reset_critical critical]
  | transaction transaction => simp only [apply, run_critical critical]

end Critical

section Runs

theorem run_holds (holds : s.Holds) (transaction : Transaction) (whole : ¬ EndsSavepoint s.backend transaction) :
    Holds (s.run transaction.statement).2 := by
  obtain critical | agrees := holds
  · rw [run_critical critical]
    exact .inl critical
  · exact transaction_holds agrees transaction whole

theorem putAll_holds (holds : s.Holds) (pairs : List (Key × Value)) : Holds (s.putAll pairs).2 := by
  obtain critical | agrees := holds
  · rw [putAll_critical critical]
    exact .inl critical
  · exact (putAll_cases agrees pairs).1

theorem named_whole (b : Backend Time Key Value) (name : NameToken) :
    ¬ EndsSavepoint b (.savepoint name) ∧ ¬ EndsSavepoint b (.release name) ∧ ¬ EndsSavepoint b (.rollbackTo name) := by
  simp [EndsSavepoint]

theorem rollbackMultiPut_holds (holds : s.Holds) : s.rollbackMultiPut.Holds := by
  unfold rollbackMultiPut
  have back := run_holds holds (.rollbackTo multiPutSavepoint) (named_whole _ _).2.2
  simp only [Transaction.statement] at back
  cases result : s.run (.rollbackTo multiPutSavepoint) with
  | mk ok after =>
    rw [result] at back
    cases ok with
    | false => exact back
    | true => exact run_holds back (.release multiPutSavepoint) (named_whole _ _).2.1

theorem putMultiple_holds (agrees : s.Agrees) (pairs : List (Key × Value)) (throws : Bool) :
    Holds (s.putMultiple pairs throws).2 := by
  unfold putMultiple
  obtain ⟨failed, holds⟩ | ⟨ready, initialized, _⟩ := ensureKv_cases agrees
  · cases result : s.ensureKv with
    | mk ok after =>
      rw [result] at failed holds
      cases failed
      exact holds
  · cases result : s.ensureKv with
    | mk ok after =>
      rw [result] at ready initialized
      cases ready
      simp only
      have entered := transaction_holds initialized (.savepoint multiPutSavepoint) (named_whole _ _).1
      simp only [Transaction.statement] at entered
      cases opened : after.run (.savepoint multiPutSavepoint) with
      | mk ok inside =>
        rw [opened] at entered
        cases ok with
        | false => exact entered
        | true =>
          have wrote := putAll_holds entered pairs
          simp only
          cases written : inside.putAll pairs with
          | mk ok final =>
            rw [written] at wrote
            cases ok with
            | false => exact rollbackMultiPut_holds wrote
            | true =>
              cases throws with
              | true => exact rollbackMultiPut_holds wrote
              | false => exact run_holds wrote (.release multiPutSavepoint) (named_whole _ _).2.1

theorem select_holds (agrees : s.Agrees) : Holds s.select.2 := by
  unfold select
  split_ifs with critical created
  · exact .inl critical
  · have read := run_rows agrees .select rfl (fun b after effect => by cases effect; exact ⟨rfl, rfl, rfl, rfl⟩)
    cases result : s.run .select with
    | mk ok after =>
      rw [result] at read
      cases ok <;> exact read.1
  · exact .inr agrees

theorem delete_holds (agrees : s.Agrees) (key : Key) : Holds (s.delete key).2 := by
  unfold delete
  obtain ⟨failed, holds⟩ | ⟨ready, initialized, _⟩ := ensureKv_cases agrees
  · cases result : s.ensureKv with
    | mk ok after =>
      rw [result] at failed holds
      cases failed
      exact holds
  · cases result : s.ensureKv with
    | mk ok after =>
      rw [result] at ready initialized
      cases ready
      have removed := run_rows initialized (.delete key) rfl (by
        intro b after effect
        obtain ⟨rows, present, rfl⟩ := Option.map_eq_some_iff.1 effect
        exact ⟨rfl, rfl, rfl, by rw [present]; rfl⟩)
      simp only
      cases outcome : after.run (.delete key) with
      | mk ok final =>
        rw [outcome] at removed
        cases ok <;> exact removed.1

theorem reset_holds (holds : s.Holds) : Holds s.reset.2 := by
  unfold reset
  obtain critical | agrees := holds
  · rw [if_pos (.inl critical)]
    exact .inl critical
  · split_ifs with refused
    · exact .inr agrees
    · right
      have idle : s.isOpen = false := by
        simpa using (not_or.1 refused).2
      obtain ⟨_, savepoints, begun, saved, callbacks⟩ := agrees.closed idle
      refine ⟨agrees.inTransaction, ⟨rfl, rfl, fun cached impossible => by cases impossible⟩, ?_⟩
      show Backs s.backend.begun s.savepoints s.backend.savepoints s.rollbackCallbacks _ _
      rw [savepoints, begun, saved]
      exact callbacks

theorem deleteAll_holds (agrees : s.Agrees) : Holds s.deleteAll.2 := by
  unfold deleteAll
  cases s.flags.kvCreated with
  | false =>
    simp only [Bool.false_eq_true, if_false]
    have cleared := reset_holds (.inr agrees)
    cases result : s.reset with
    | mk ok after =>
      rw [result] at cleared
      cases ok <;> exact cleared
  | true =>
    simp only [if_true]
    have read := run_rows agrees .select rfl (fun b after effect => by cases effect; exact ⟨rfl, rfl, rfl, rfl⟩)
    cases counted : s.run .select with
    | mk ok after =>
      rw [counted] at read
      cases ok with
      | false => exact read.1
      | true =>
        have cleared := reset_holds read.1
        simp only
        cases result : after.reset with
        | mk ok final =>
          rw [result] at cleared
          cases ok <;> exact cleared

/-- No COMMIT or ROLLBACK where the open transaction is one that a SAVEPOINT opened. -/
def Whole (s : SqliteDatabase Time Key Value) (op : Op Time Key Value) : Prop :=
  ∀ transaction, op = .transaction transaction → ¬ EndsSavepoint s.backend transaction

theorem apply_holds [DecidableEq Time] (holds : s.Holds) (op : Op Time Key Value) (whole : s.Whole op) :
    Holds (s.apply op) := by
  obtain critical | agrees := holds
  · rw [apply_critical critical]
    exact .inl critical
  cases op with
  | setAlarm time => exact setAlarm_holds agrees time
  | getAlarm => exact (getAlarm_cases agrees).1
  | put key value => exact (put_cases agrees key value).1
  | putMultiple pairs throws => exact putMultiple_holds agrees pairs throws
  | get key => exact select_holds agrees
  | delete key => exact delete_holds agrees key
  | list first last limit order => exact select_holds agrees
  | deleteAll => exact deleteAll_holds agrees
  | reset => exact reset_holds (.inr agrees)
  | transaction transaction => exact transaction_holds agrees transaction (whole transaction rfl)

theorem opened_agrees (contents : Contents Time Key Value) (faults : List (Option Fault)) :
    (opened contents faults).Agrees :=
  ⟨rfl, ⟨rfl, rfl, fun _ impossible => by cases impossible⟩, rfl⟩

def step [DecidableEq Time] (s : SqliteDatabase Time Key Value) (op : Op Time Key Value) :
    Option (SqliteDatabase Time Key Value) := some (s.apply op)

/-- The transaction state in memory is SQLite's, and what the classes answer from memory is in the file. -/
structure InStep [DecidableEq Time] (s : SqliteDatabase Time Key Value) : Prop where
  inTransaction : s.inTransaction = s.backend.begun.isSome
  savepoints : s.savepoints.map (·.name) = s.backend.savepoints.map fun entry => toLowerCase entry.1
  alarm : ∀ alarmTime, s.getAlarm.1 = some alarmTime → Contents.alarm s.backend.contents = alarmTime
  metadataCreated : s.flags.metadataCreated = s.backend.contents.metadata.isSome
  kvCreated : s.flags.kvCreated = s.backend.contents.kv.isSome

theorem Agrees.inStep [DecidableEq Time] (agrees : s.Agrees) : s.InStep :=
  ⟨agrees.inTransaction, agrees.backs.names, (getAlarm_cases agrees).2, agrees.fits.metadata, agrees.fits.kv⟩

theorem caches_agree [DecidableEq Time] {contents : Contents Time Key Value} {faults : List (Option Fault)}
    (reached : Transition.Reaches step Whole (opened contents faults) s) : s.criticalError = true ∨ s.InStep := by
  have holds : s.Holds := by
    refine reached.invariant (.inr (opened_agrees contents faults)) ?_
    intro s op t holds whole stepped
    obtain rfl := Option.some.inj stepped
    exact apply_holds holds op whole
  exact holds.imp id Agrees.inStep

def savepointA : NameToken where
  raw := js "a"
  isName := .inr ⟨97, [], by decide, .inl rfl, by simp⟩

/-- The same name, quoted and in capitals. -/
def quotedA : NameToken where
  raw := js "[A]"
  isName := .inl ⟨91, 93, js "A", rfl, by decide, by decide⟩

def emptyFile : Contents Nat Nat Unit := ⟨none, none⟩

theorem caches_agree_after_rollbackTo :
    ∃ s, Transition.run step (opened emptyFile [])
        [.transaction (.savepoint savepointA), .setAlarm (some 10), .transaction (.rollbackTo quotedA)] = some s ∧
      s.flags.metadataCreated = false ∧ (s.criticalError = true ∨ s.InStep) := by
  refine ⟨_, rfl, rfl, ?_⟩
  have whole (u : SqliteDatabase Nat Nat Unit) (op) (member : op ∈ [Op.transaction (.savepoint savepointA),
      .setAlarm (some 10), .transaction (.rollbackTo quotedA)]) : u.Whole op := by
    intro transaction same
    simp only [List.mem_cons, List.not_mem_nil, or_false] at member
    obtain rfl | rfl | rfl := member <;> cases same <;> simp [EndsSavepoint]
  exact caches_agree (Transition.run_reaches_admitted _ whole rfl)

/-- ROLLBACK of a transaction that a savepoint opened leaves the alarm of that transaction in the cache. -/
theorem cache_not_rolled_back :
    ∃ s, Transition.run step (opened emptyFile [])
        [.transaction (.savepoint savepointA), .setAlarm (some 10), .transaction .rollback] = some s ∧
      s.criticalError = false ∧ s.getAlarm.1 = some (some 10) ∧ Contents.alarm s.backend.contents = none ∧
      s.flags.metadataCreated = true ∧ s.backend.contents.metadata = none ∧
      s.savepoints.length = 1 ∧ s.backend.savepoints = [] :=
  ⟨_, rfl, rfl, rfl, rfl, rfl, rfl, rfl, rfl⟩

end Runs

end SqliteDatabase

end DoRuntime.Storage.CachedSqlite
