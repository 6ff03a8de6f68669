import DoRuntime.Backends.SahPool

namespace DoRuntime.Backends

open Js Prog

/-- The files that `open` creates under a prefix, and their journals. -/
def Owned (pre file : JsString) : Prop :=
  ∃ name, isSafeDatabaseName name = true ∧ (file = databaseFile pre name ∨ file = journalFile pre name)

/-- A file under `Q` has a name that starts like those under `P`. -/
def Clash (P Q : JsString) : Prop :=
  P ++ dot <+: Q ∨ ∃ name, isSafeDatabaseName name = true ∧ P = Q ++ dot ++ name

section Names

variable {P Q name file : JsString}

theorem no_dot_of_safe (safe : isSafeDatabaseName name = true) : 46 ∉ name := by
  intro member
  simp only [isSafeDatabaseName, Bool.and_eq_true, List.all_eq_true] at safe
  exact absurd (safe.2 46 member) (by decide)

theorem Owned.shape (owned : Owned Q file) :
    ∃ name rest, isSafeDatabaseName name = true ∧ 46 ∉ rest ∧ file = Q ++ dot ++ name ++ dot ++ rest := by
  obtain ⟨name, safe, rfl | rfl⟩ := owned
  · exact ⟨name, js "sqlite", safe, by decide, by simp [databaseFile, sqlite, dot, js]⟩
  · exact ⟨name, js "sqlite-journal", safe, by decide, by simp [journalFile, databaseFile, sqlite, journal,
      dot, js]⟩

/-- What stands before the only dot. -/
theorem before_dot {r rest : JsString} (clean : 46 ∉ name) (after : 46 ∉ rest)
    (starts : r ++ dot <+: name ++ dot ++ rest) :
    r = name := by
  have count : (r ++ dot).count 46 ≤ (name ++ dot ++ rest).count 46 := starts.sublist.count_le 46
  have one : dot.count 46 = 1 := by decide
  simp only [List.count_append, one, List.count_eq_zero_of_not_mem clean,
    List.count_eq_zero_of_not_mem after] at count
  have bare : 46 ∉ r := List.count_eq_zero.1 (by omega)
  obtain ⟨tail, same⟩ := starts
  have taken := congrArg (List.takeWhile fun c : Nat => decide (c ≠ 46)) same
  have stop : ∀ (xs ys : JsString), 46 ∉ xs → (xs ++ dot ++ ys).takeWhile (fun c : Nat => decide (c ≠ 46))
    = xs := by
    intro xs ys none
    rw [List.append_assoc, List.takeWhile_append_of_pos]
    · simp [dot, js]
    · intro c member
      simpa using fun same : c = 46 => none (same ▸ member)
  rwa [stop r tail bare, stop name rest clean] at taken

theorem clash_of_starts (distinct : P ≠ Q) (owned : Owned Q file) (starts : P ++ dot <+: file) : Clash P Q := by
  obtain ⟨name, rest, safe, clean, rfl⟩ := owned.shape
  have under : Q ++ dot <+: Q ++ dot ++ name ++ dot ++ rest := ⟨name ++ dot ++ rest, by simp⟩
  have lengths : (P ++ dot).length = P.length + 1 ∧ (Q ++ dot).length = Q.length + 1 := by simp [dot, js]
  rcases Nat.lt_trichotomy P.length Q.length with shorter | same | longer
  · have inner : Q <+: Q ++ dot ++ name ++ dot ++ rest := ⟨dot ++ name ++ dot ++ rest, by simp⟩
    exact .inl (List.prefix_of_prefix_length_le starts inner (by omega))
  · have equal := List.prefix_of_prefix_length_le starts under (by omega)
    have whole := equal.eq_of_length (by omega)
    exact absurd (List.append_cancel_right whole) distinct
  · have inner : P <+: Q ++ dot ++ name ++ dot ++ rest := (List.prefix_append P dot).trans starts
    obtain ⟨r, rfl⟩ := List.prefix_of_prefix_length_le under inner (by omega)
    have tail : r ++ dot <+: name ++ dot ++ rest := by
      obtain ⟨t, same⟩ := starts
      simp only [List.append_assoc, List.append_cancel_left_eq] at same
      exact ⟨t, by simpa using same⟩
    exact .inr ⟨name, safe, by rw [before_dot (no_dot_of_safe safe) clean tail]⟩

theorem Owned.starts (owned : Owned P file) : P ++ dot <+: file := by
  obtain ⟨name, rest, _, _, rfl⟩ := owned.shape
  exact ⟨name ++ dot ++ rest, by simp⟩

theorem databaseFile_of_sliced (starts : P ++ dot <+: file) (ends : sqlite <:+ file)
    (named : Pool.databaseName P file = .ok name) : isSafeDatabaseName name = true ∧
      file = databaseFile P name := by
  unfold Pool.databaseName at named
  dsimp only at named
  split at named
  case isFalse => cases named
  case isTrue safe =>
    cases named
    refine ⟨safe, ?_⟩
    obtain ⟨q, rfl⟩ := ends
    have sliced : Pool.slicedName P (q ++ sqlite) = q.drop (P.length + 1) := by
      simp [Pool.slicedName]
    rw [sliced] at safe ⊢
    have long : P.length + 1 < q.length := by
      by_contra short
      rw [List.drop_eq_nil_of_le (by omega)] at safe
      cases safe
    have inner : P ++ dot <+: q := List.prefix_of_prefix_length_le starts (List.prefix_append q sqlite)
      (by simp [dot, js]; omega)
    obtain ⟨r, rfl⟩ := inner
    have dropped : (P ++ dot ++ r).drop (P.length + 1) = r := by
      rw [show P.length + 1 = (P ++ dot).length by simp [dot, js], List.drop_left]
    rw [dropped]
    rfl

end Names

section Files

variable {file other : JsString} {image : Image} {files : List (JsString × Image)}

theorem lookup_discardFile (different : other ≠ file) :
    (discardFile file files).lookup other = files.lookup other := by
  unfold discardFile
  induction files with
  | nil => rfl
  | cons entry rest ih =>
    by_cases same : entry.1 = file
    · have skip : (other == entry.1) = false := by simpa [same] using different
      simp only [List.filter_cons, same, ne_eq, not_true_eq_false, decide_false, Bool.false_eq_true, if_false]
      rw [ih]
      simp [List.lookup, skip]
    · simp only [List.filter_cons, same, ne_eq, not_false_eq_true, decide_true, if_true, List.lookup]
      rw [ih]

theorem lookup_storeFile (different : other ≠ file) :
    (storeFile file image files).lookup other = files.lookup other := by
  have skip : (other == file) = false := by simpa using different
  unfold storeFile
  split
  · clear * - skip
    induction files with
    | nil => rfl
    | cons entry rest ih =>
      by_cases same : entry.1 = file
      · rw [List.map_cons, if_pos same, List.lookup_cons, List.lookup_cons, skip, same, skip]
        exact ih
      · rw [List.map_cons, if_neg same, List.lookup_cons, List.lookup_cons, ih]
  · rw [List.lookup_append, List.lookup_cons, skip]
    simp

theorem mem_names_discardFile {f : JsString} (member : f ∈ (discardFile file files).map (·.1)) :
    f ∈ files.map (·.1) := by
  obtain ⟨entry, kept, rfl⟩ := List.mem_map.1 member
  exact List.mem_map.2 ⟨entry, (List.mem_filter.1 kept).1, rfl⟩

theorem mem_names_storeFile {f : JsString} (member : f ∈ (storeFile file image files).map (·.1)) :
    f ∈ files.map (·.1) ∨ f = file := by
  unfold storeFile at member
  split at member
  · rw [List.map_map] at member
    obtain ⟨entry, kept, rfl⟩ := List.mem_map.1 member
    by_cases same : entry.1 = file
    · exact .inr (by simp [same])
    · exact .inl (List.mem_map.2 ⟨entry, kept, by simp [same]⟩)
  · rw [List.map_append, List.mem_append] at member
    rcases member with before | added
    · exact .inl before
    · exact .inr (by simpa using added)

end Files

namespace Pool

def Allowed (pre source : JsString) : Touch → Prop
  | .exported file => Owned pre file ∨ Owned source file
  | .unlinked file | .imported file => Owned pre file

/-- An operation under a prefix has kept to its own files since `before`. -/
structure Within (pre source : JsString) (before pool : Pool) : Prop where
  touches : ∀ touch ∈ pool.touches, Allowed pre source touch
  touched : ∀ file ∈ pool.touched, Owned pre file
  outside : ∀ file, ¬ Owned pre file → pool.contents file = before.contents file
  names : ∀ file ∈ pool.getFileNames, file ∈ before.getFileNames ∨ Owned pre file
  connections : ∀ storage, ∀ name ∈ pool.opened storage, isSafeDatabaseName name = true

section Operations

variable {driver : Driver} {pre source : JsString} {before : Pool} {file : JsString} {image : Image}

theorem call_keeps : Keeps (Within pre source before) (call driver) :=
  Keeps.state fun _ _ => Keeps.bind
    (Keeps.update fun _ kept => ⟨kept.touches, kept.touched, kept.outside, kept.names, kept.connections⟩)
    fun _ => Keeps.pure

theorem touch_keeps (action : Touch) (allowed : Allowed pre source action) :
    Keeps (Within pre source before) (touch action) := by
  apply Keeps.update
  intro pool kept
  have recorded : ∀ other ∈ pool.touches ++ [action], Allowed pre source other := by
    intro other member
    rcases List.mem_append.1 member with earlier | last
    · exact kept.touches other earlier
    · rwa [List.mem_singleton.1 last]
  exact ⟨recorded, kept.touched, kept.outside, kept.names, kept.connections⟩

theorem Within.discard (own : Owned pre file) {pool : Pool} (kept : Within pre source before pool) :
    Within pre source before { pool with files := discardFile file pool.files } where
  touches := kept.touches
  touched := kept.touched
  outside other foreign :=
    (lookup_discardFile fun same => foreign (by rwa [same])).trans (kept.outside other foreign)
  names other member := kept.names other (mem_names_discardFile member)
  connections := kept.connections

theorem Within.store (own : Owned pre file) {pool : Pool} (kept : Within pre source before pool) :
    Within pre source before { pool with files := storeFile file image pool.files } where
  touches := kept.touches
  touched := kept.touched
  outside other foreign :=
    (lookup_storeFile fun same => foreign (by rwa [same])).trans (kept.outside other foreign)
  names other member := by
    rcases mem_names_storeFile member with earlier | rfl
    · exact kept.names other earlier
    · exact .inr own
  connections := kept.connections

theorem fail_keeps {failure : Failure} : Keeps (Within pre source before) (fail failure : Act α) :=
  Keeps.bind (Keeps.update fun _ kept => ⟨kept.touches, kept.touched, kept.outside, kept.names,
    kept.connections⟩)
    fun _ => Keeps.raise

theorem failCall_keeps : Keeps (Within pre source before) (failCall : Act α) := Keeps.state fun _ _ =>
    fail_keeps

theorem exportFile_keeps (own : Owned pre file ∨ Owned source file) : Keeps (Within pre source before)
    (exportFile driver file) := by
  unfold exportFile
  apply Keeps.bind (touch_keeps (.exported file) own)
  intro _
  apply Keeps.bind call_keeps
  intro fate
  apply Keeps.state
  intro pool _
  cases fate with
  | done =>
    cases pool.contents file with
    | none => exact fail_keeps
    | some image => exact Keeps.pure
  | refused | failed | torn _ => exact failCall_keeps

theorem unlink_keeps (own : Owned pre file) : Keeps (Within pre source before) (unlink driver file) := by
  unfold unlink
  apply Keeps.bind (touch_keeps (.unlinked file) own)
  intro _
  apply Keeps.bind call_keeps
  intro fate
  cases fate with
  | done =>
    apply Keeps.state
    intro pool _
    apply Keeps.bind (Keeps.update fun _ kept => kept.discard own)
    intro _
    split
    · exact fail_keeps
    · exact Keeps.pure
  | refused => exact fail_keeps
  | failed => exact failCall_keeps
  | torn _ => exact Keeps.bind (Keeps.update fun _ kept => kept.discard own) fun _ => failCall_keeps

theorem importDb_keeps (own : Owned pre file) : Keeps (Within pre source before) (importDb driver file image)
    := by
  unfold importDb
  apply Keeps.bind (touch_keeps (.imported file) own)
  intro _
  apply Keeps.bind call_keeps
  intro fate
  cases fate with
  | done => exact Keeps.update fun _ kept => kept.store own
  | refused | failed => exact failCall_keeps
  | torn _ => exact Keeps.bind (Keeps.update fun _ kept => kept.store own) fun _ => failCall_keeps

theorem openHandle_keeps (own : Owned pre file) : Keeps (Within pre source before) (openHandle driver file) :=
    by
  unfold openHandle
  have created : ∀ pool, Within pre source before pool → Within pre source before (create file pool) := by
    intro pool kept
    unfold create
    split
    · exact kept.store own
    · exact kept
  apply Keeps.bind call_keeps
  intro fate
  cases fate with
  | done => exact Keeps.update created
  | refused | failed => exact failCall_keeps
  | torn _ => exact Keeps.bind (Keeps.update created) fun _ => failCall_keeps

theorem Within.connect {storage : Storage} {names : List JsString} {pool : Pool}
    (kept : Within pre source before pool)
    (safe : ∀ name ∈ names, isSafeDatabaseName name = true) :
    Within pre source before { pool with opened := Function.update pool.opened storage names } where
  touches := kept.touches
  touched := kept.touched
  outside := kept.outside
  names := kept.names
  connections other name member := by
    by_cases same : other = storage
    · subst same
      exact safe name (by simpa using member)
    · exact kept.connections other name (by simpa [same] using member)

theorem close_keeps {storage : Storage} : Keeps (Within pre source before) (close storage) :=
  Keeps.update fun _ kept => kept.connect nofun

theorem reserve_keeps : Keeps (Within pre source before) (reserve driver) := by
  apply Keeps.bind call_keeps
  intro fate
  cases fate with
  | done => exact Keeps.pure
  | refused | failed | torn _ => exact failCall_keeps

theorem requireNoOpenHandles_keeps {storage : Storage} : Keeps (Within pre source before)
    (requireNoOpenHandles storage) := by
  apply Keeps.state
  intro pool _
  split
  · exact Keeps.pure
  · exact Keeps.raise

theorem promiseAll_spec {I : Pool → Prop} {R : α → Prop} {each : JsString → Act α} {files : List JsString}
    (kept : ∀ file ∈ files, Ensures I (each file) (fun a pool => I pool ∧ R a) I) :
    Ensures I (promiseAll each files) (fun found pool => I pool ∧ ∀ a ∈ found, R a) I := by
  induction files with
  | nil => exact Ensures.pure fun _ start => ⟨start, nofun⟩
  | cons file rest ih =>
    have others := ih fun file member => kept file (List.mem_cons_of_mem _ member)
    unfold promiseAll
    apply Ensures.bind (Q := fun first pool => I pool ∧ ∀ a, first = .ok a → R a)
    · apply Ensures.attempt (F := I)
      · exact Ensures.bind (kept file List.mem_cons_self) fun a => Ensures.pure fun _ held =>
          ⟨held.1, fun _ same => Except.ok.inj same ▸ held.2⟩
      · exact fun failure => Ensures.pure fun _ start => ⟨start, nofun⟩
    intro first
    cases first with
    | ok a =>
      apply Ensures.bind (Q := fun found pool => I pool ∧ ∀ b ∈ a :: found, R b)
      · intro pool held
        have done := others pool held.1
        rcases ran : promiseAll each rest pool with ⟨_ | found, after⟩ <;> simp only [ran] at done ⊢
        · exact done
        · exact ⟨done.1, List.forall_mem_cons.2 ⟨held.2 a rfl, done.2⟩⟩
      · exact fun found => Ensures.pure fun _ held => held
    | error failure =>
      apply Ensures.bind (Q := fun _ => I)
      · apply Ensures.attempt (F := I)
        · exact Ensures.bind (others.weaken (fun _ held => held.1) (fun _ _ held => held) fun _ held => held)
            fun _ => Ensures.pure fun _ held => held.1
        · exact fun _ => Ensures.pure fun _ held => held
      · exact fun _ => Ensures.raise fun _ held => held

theorem promiseAll_keeps {I : Pool → Prop} {each : JsString → Act α} {files : List JsString}
    (kept : ∀ file ∈ files, Keeps I (each file)) : Keeps I (promiseAll each files) :=
  (promiseAll_spec (R := fun _ => True) fun file member =>
    (kept file member).weaken (fun _ held => held) (fun _ _ held => ⟨held, trivial⟩) fun _ held => held).weaken
    (fun _ held => held) (fun _ _ held => held.1) fun _ held => held

theorem collect_keeps {I : Pool → Prop} {each : α → Act Unit} {xs : List α} (kept : ∀ x ∈ xs, Keeps I (each x))
    :
    Keeps I (collect each xs) := by
  induction xs with
  | nil => exact Keeps.pure
  | cons x rest ih =>
    unfold collect
    apply Keeps.bind
    · exact Keeps.attempt (Keeps.bind (kept x List.mem_cons_self) fun _ => Keeps.pure) fun _ => Keeps.pure
    intro _
    exact Keeps.bind (ih fun y member => kept y (List.mem_cons_of_mem _ member)) fun _ => Keeps.pure

theorem requireNoRecoverySidecars_spec {I : Pool → Prop} (files : List JsString) (action : String) :
    Ensures I (requireNoRecoverySidecars files action) (fun _ pool => I pool ∧ ∀ file ∈ files, sqlite <:+ file)
      I := by
  unfold requireNoRecoverySidecars
  cases sidecar : files.find? fun file => !sqlite.isSuffixOf file with
  | some file => exact Ensures.raise fun _ start => start
  | none =>
    rw [List.find?_eq_none] at sidecar
    exact Ensures.pure fun _ start => ⟨start, fun file member => by simpa using sidecar file member⟩

theorem exportDatabases_spec {files : List JsString} {action : String}
    (starts : ∀ file ∈ files, source ++ dot <+: file) :
    Ensures (Within pre source before) (exportDatabases driver source files action)
      (fun images pool => Within pre source before pool ∧ ∀ image ∈ images, isSafeDatabaseName image.1 = true)
      (Within pre source before) := by
  unfold exportDatabases
  apply Ensures.bind (requireNoRecoverySidecars_spec files action)
  intro _ pool checked
  apply promiseAll_spec (I := Within pre source before) _ pool checked.1
  intro file member
  cases named : databaseName source file with
  | error failure => exact Ensures.raise fun _ kept => kept
  | ok name =>
    obtain ⟨safe, rfl⟩ := databaseFile_of_sliced (starts file member) (checked.2 file member) named
    apply Ensures.bind (Q := fun found pool => Within pre source before pool ∧ isSafeDatabaseName found = true)
    · exact Ensures.pure fun _ kept => ⟨kept, safe⟩
    intro found
    apply Ensures.bind (Q := fun _ pool => Within pre source before pool ∧ isSafeDatabaseName found = true)
    · intro pool held
      have exports : Keeps (Within pre source before) (exportFile driver (databaseFile source name)) :=
        exportFile_keeps (.inr ⟨name, safe, .inl rfl⟩)
      have done := exports pool held.1
      rcases ran : exportFile driver (databaseFile source name) pool with ⟨_ | image, after⟩ <;>
        simp only [ran] at done ⊢
      · exact done
      · exact ⟨done, held.2⟩
    · exact fun _ => Ensures.pure fun _ held => held

theorem touchedBy_keeps (own : Owned pre file) : Keeps (Within pre source before) (touchedBy file) := by
  apply Keeps.update
  intro pool kept
  have recorded : ∀ other ∈ file :: pool.touched, Owned pre other := List.forall_mem_cons.2 ⟨own, kept.touched⟩
  exact ⟨kept.touches, recorded, kept.outside, kept.names, kept.connections⟩

theorem replacePoolFiles_keeps {files : List JsString} {replacement : List (JsString × Image)}
    {rollbackFailed : List Failure → List (JsString × Image) → Failure} (own : ∀ file ∈ files, Owned pre file)
    (replaces : ∀ entry ∈ replacement, Owned pre entry.1) :
    Keeps (Within pre source before) (replacePoolFiles driver files replacement rollbackFailed) := by
  unfold replacePoolFiles
  apply Keeps.bind
  · apply promiseAll_keeps
    intro file member
    exact Keeps.bind (exportFile_keeps (.inl (own file member))) fun _ => Keeps.pure
  intro original
  apply Keeps.bind (Keeps.update fun _ kept => ⟨kept.touches, nofun, kept.outside, kept.names,
    kept.connections⟩)
  intro _
  apply Keeps.attempt
  · apply Keeps.bind
    · exact Keeps.forEach fun file member =>
        Keeps.bind (touchedBy_keeps (own file member)) fun _ => unlink_keeps (own file member)
    · exact fun _ => Keeps.forEach fun entry member =>
        Keeps.bind (touchedBy_keeps (replaces entry member)) fun _ => importDb_keeps (replaces entry member)
  intro failure
  apply Keeps.state
  intro pool kept
  apply Keeps.bind
  · apply collect_keeps
    intro file member
    exact unlink_keeps (kept.touched file (by simpa using (List.mem_filter.1 member).2))
  intro unlinked
  apply Keeps.bind
  · apply collect_keeps
    intro entry member
    exact importDb_keeps (kept.touched entry.1 (by simpa using (List.mem_filter.1 member).2))
  intro restored
  split
  · exact Keeps.raise
  · exact Keeps.raise

theorem databaseNames_spec {I : Pool → Prop} (files : List JsString) :
    Ensures I (forEach files fun file => lift (databaseName pre file) >>= fun _ => pure ())
      (fun _ pool => I pool ∧ ∀ file ∈ files, ∃ name, databaseName pre file = .ok name) I := by
  induction files with
  | nil => exact Ensures.pure fun _ start => ⟨start, nofun⟩
  | cons file rest ih =>
    unfold forEach
    cases named : databaseName pre file with
    | error failure => exact Ensures.raise fun _ start => start
    | ok name =>
      apply Ensures.bind (Q := fun _ => I)
      · exact Ensures.pure fun _ start => start
      · intro _
        exact ih.weaken (fun _ start => start)
          (fun _ _ held => ⟨held.1, List.forall_mem_cons.2 ⟨⟨name, named⟩, held.2⟩⟩) fun _ start => start

theorem starts_of_prefixFiles {pool : Pool} (member : file ∈ pool.prefixFiles pre) : pre ++ dot <+: file :=
  List.isPrefixOf_iff_prefix.1 (List.mem_filter.1 member).2

theorem replaceDatabases_keeps {databases : List (JsString × Image)} {action : String}
    (safe : ∀ database ∈ databases, isSafeDatabaseName database.1 = true) :
    Keeps (Within pre source before) (replaceDatabases driver pre databases action) := by
  unfold replaceDatabases
  apply Keeps.state
  intro pool _
  apply Ensures.bind (requireNoRecoverySidecars_spec (pool.prefixFiles pre) action)
  intro _
  apply Ensures.each
  intro after checked
  apply Ensures.bind (Q := fun _ named => Within pre source before named ∧
    ∀ file ∈ pool.prefixFiles pre, ∃ name, databaseName pre file = .ok name)
  · exact (databaseNames_spec (pool.prefixFiles pre)).weaken (fun _ same => same ▸ checked.1)
      (fun _ _ held => held)
      fun _ held => held
  intro _ named held
  apply replacePoolFiles_keeps _ _ named held.1
  · intro file member
    obtain ⟨name, named⟩ := held.2 file member
    obtain ⟨safe, rfl⟩ := databaseFile_of_sliced (starts_of_prefixFiles member) (checked.2 file member) named
    exact ⟨name, safe, .inl rfl⟩
  · intro entry member
    obtain ⟨database, known, rfl⟩ := List.mem_map.1 member
    exact ⟨database.1, safe database known, .inl rfl⟩

end Operations

section Steps

variable {P Q : JsString}

/-- Every file of the pool belongs to one of two prefixes. -/
structure Sorted (P Q : JsString) (pool : Pool) : Prop where
  names : ∀ file ∈ pool.getFileNames, Owned P file ∨ Owned Q file
  connections : ∀ storage, ∀ name ∈ pool.opened storage, isSafeDatabaseName name = true

/-- The event is of storages under the two prefixes. -/
def Among (P Q : JsString) (e : Event) : Prop :=
  (e.op.storage.pre = P ∨ e.op.storage.pre = Q) ∧ (e.op.source.pre = P ∨ e.op.source.pre = Q)

/-- An operation keeps to the files of its storage, and leaves the databases of the other prefix as they were. -/
def Isolated (P Q : JsString) (s : Pool) (e : Event) (t : Pool) : Prop :=
  (∀ touch ∈ t.touches, Allowed e.op.storage.pre e.op.source.pre touch) ∧
    ∀ pre name, pre = P ∨ pre = Q → pre ≠ e.op.storage.pre → isSafeDatabaseName name = true →
      t.contents (databaseFile pre name) = s.contents (databaseFile pre name)

theorem owned_of_starts (apart : ¬ Clash P Q) (distinct : P ≠ Q) {file : JsString}
    (owned : Owned P file ∨ Owned Q file)
    (starts : P ++ dot <+: file) : Owned P file := by
  rcases owned with own | foreign
  · exact own
  · exact absurd (clash_of_starts distinct foreign starts) apart

theorem deleteAll_keeps {driver : Driver} {storage : Storage} {before : Pool}
    (own : ∀ file ∈ before.getFileNames, storage.pre ++ dot <+: file → Owned storage.pre file) :
    Keeps (Within storage.pre storage.pre before) (deleteAll driver storage) := by
  unfold deleteAll
  apply Keeps.bind close_keeps
  intro _
  apply Keeps.state
  intro pool kept
  apply Keeps.forEach
  intro file member
  apply unlink_keeps
  rcases kept.names file (List.mem_filter.1 member).1 with earlier | owned
  · exact own file earlier (starts_of_prefixFiles member)
  · exact owned

theorem copyFrom_keeps {driver : Driver} {storage source : Storage} {before : Pool} :
    Keeps (Within storage.pre source.pre before) (copyFrom driver storage source) := by
  unfold copyFrom
  apply Keeps.state
  intro pool _
  apply Ensures.bind (exportDatabases_spec fun file member => starts_of_prefixFiles member)
  intro images
  apply Ensures.each
  intro exported held
  have rest : Keeps (Within storage.pre source.pre before) (do
      reserve driver
      close storage
      replaceDatabases driver storage.pre images "clone actor storage") := by
    apply Keeps.bind reserve_keeps
    intro _
    apply Keeps.bind close_keeps
    exact fun _ => replaceDatabases_keeps held.2
  exact rest.weaken (fun _ same => same ▸ held.1) (fun _ _ kept => kept) fun _ kept => kept

theorem exportSnapshot_keeps {driver : Driver} {storage : Storage} {before : Pool} :
    Keeps (Within storage.pre storage.pre before) (exportSnapshot driver storage) := by
  unfold exportSnapshot
  apply Keeps.bind requireNoOpenHandles_keeps
  intro _
  apply Keeps.state
  intro pool _
  apply Keeps.bind
  · refine (exportDatabases_spec fun file member => ?_).weaken (fun _ kept => kept) (fun _ _ held => held.1)
      fun _ kept => kept
    exact starts_of_prefixFiles (List.mem_mergeSort.1 member)
  · intro databases
    split
    · exact Keeps.pure
    · exact Keeps.raise

theorem importSnapshot_keeps {driver : Driver} {storage : Storage} {snapshot : List (JsString × Image)}
    {before : Pool} :
    Keeps (Within storage.pre storage.pre before) (importSnapshot driver storage snapshot) := by
  unfold importSnapshot
  apply Keeps.bind requireNoOpenHandles_keeps
  intro _
  split
  case isFalse => exact Keeps.raise
  case isTrue valid =>
    split
    · apply Keeps.bind reserve_keeps
      intro _
      apply Keeps.bind requireNoOpenHandles_keeps
      intro _
      apply replaceDatabases_keeps
      intro database member
      simp only [validSnapshot, Bool.and_eq_true, List.all_eq_true] at valid
      exact (valid.1 database member).1
    · exact Keeps.raise

theorem openDatabase_keeps {driver : Driver} {storage : Storage} {name : JsString} {before : Pool} :
    Keeps (Within storage.pre storage.pre before) (openDatabase driver storage name) := by
  unfold openDatabase
  split
  case isFalse => exact Keeps.raise
  case isTrue safe =>
    apply Keeps.bind reserve_keeps
    intro _
    apply Keeps.bind (openHandle_keeps ⟨name, safe, .inl rfl⟩)
    exact fun _ => Keeps.update fun _ kept => kept.connect fun other member => by
      rcases List.mem_cons.1 member with rfl | earlier
      · exact safe
      · exact kept.connections storage other earlier

theorem step_within {s t : Pool} {e : Event} (apart : ¬ Clash P Q ∧ ¬ Clash Q P) (distinct : P ≠ Q)
    (sorted : Sorted P Q s) (among : Among P Q e) (stepped : step s e = some t) :
    Within e.op.storage.pre e.op.source.pre s t := by
  have start : ∀ X source, Within X source s { s with touches := [], touched := [], calls := 0, thrown :=
    [] } := fun _ _ =>
    ⟨nofun, nofun, fun _ _ => rfl, fun _ member => .inl member, sorted.connections⟩
  have named : ∀ storage name, s.connected storage name → Owned storage.pre (databaseFile storage.pre name) ∧
      Owned storage.pre (journalFile storage.pre name) := fun storage name member =>
    ⟨⟨name, sorted.connections storage name member, .inl rfl⟩, ⟨name, sorted.connections storage name member,
      .inr rfl⟩⟩
  obtain ⟨op, driver⟩ := e
  unfold step run at stepped
  cases op with
  | openDatabase storage name =>
    rw [← Option.some.inj stepped]
    exact openDatabase_keeps.reached (start _ _)
  | close storage =>
    rw [← Option.some.inj stepped]
    exact close_keeps.reached (start _ _)
  | write storage name image =>
    dsimp only at stepped
    split at stepped
    case isFalse => cases stepped
    case isTrue member =>
      rw [← Option.some.inj stepped]
      exact (start _ _).store (named storage name member).1
  | journal storage name image =>
    dsimp only at stepped
    split at stepped
    case isFalse => cases stepped
    case isTrue member =>
      rw [← Option.some.inj stepped]
      cases image with
      | none => exact (start _ _).discard (named storage name member).2
      | some image => exact (start _ _).store (named storage name member).2
  | reset storage name =>
    dsimp only at stepped
    split at stepped
    case isFalse => cases stepped
    case isTrue member =>
      rw [← Option.some.inj stepped]
      have own := (named storage name member).1
      have kept : Keeps (Within storage.pre storage.pre s) (reset driver storage name) :=
        Keeps.bind (unlink_keeps own) fun _ => openHandle_keeps own
      exact kept.reached (start _ _)
  | deleteAll storage =>
    rw [← Option.some.inj stepped]
    have kept : Keeps (Within storage.pre storage.pre s) (deleteAll driver storage) := by
      apply deleteAll_keeps
      intro file member starts
      rcases among.1 with same | same <;> change storage.pre = _ at same <;> rw [same] at starts ⊢
      · exact owned_of_starts apart.1 distinct (sorted.names file member) starts
      · exact owned_of_starts apart.2 distinct.symm (sorted.names file member).symm starts
    exact kept.reached (start _ _)
  | copyFrom storage source =>
    rw [← Option.some.inj stepped]
    exact copyFrom_keeps.reached (start _ _)
  | exportSnapshot storage =>
    rw [← Option.some.inj stepped]
    exact exportSnapshot_keeps.reached (start _ _)
  | importSnapshot storage snapshot =>
    rw [← Option.some.inj stepped]
    exact importSnapshot_keeps.reached (start _ _)

theorem Sorted.step {s t : Pool} {e : Event} (apart : ¬ Clash P Q ∧ ¬ Clash Q P) (distinct : P ≠ Q)
    (sorted : Sorted P Q s) (among : Among P Q e) (stepped : step s e = some t) : Sorted P Q t := by
  have within := step_within apart distinct sorted among stepped
  refine ⟨fun file member => ?_, within.connections⟩
  rcases within.names file member with earlier | own
  · exact sorted.names file earlier
  · rcases among.1 with same | same <;> rw [same] at own
    · exact .inl own
    · exact .inr own

theorem isolated_step {s t : Pool} {e : Event} (apart : ¬ Clash P Q ∧ ¬ Clash Q P) (distinct : P ≠ Q)
    (sorted : Sorted P Q s) (among : Among P Q e) (stepped : Pool.step s e = some t) : Isolated P Q s e t := by
  have within := step_within apart distinct sorted among stepped
  refine ⟨within.touches, fun pre name either other safe => within.outside _ fun own => ?_⟩
  have starts := own.starts
  have theirs : Owned pre (databaseFile pre name) := ⟨name, safe, .inl rfl⟩
  have clash := clash_of_starts other.symm theirs starts
  rcases among.1 with actor | actor <;> rcases either with rfl | rfl
  · exact other actor.symm
  · exact apart.1 (actor ▸ clash)
  · exact apart.2 (actor ▸ clash)
  · exact other actor.symm

end Steps

section Clashes

variable {P Q : JsString}

theorem starts_of_clash (clash : Clash P Q) : ∃ name, isSafeDatabaseName name = true ∧
    P ++ dot <+: databaseFile Q name := by
  rcases clash with ⟨r, rfl⟩ | ⟨name, safe, rfl⟩
  · exact ⟨js "a", by decide, r ++ dot ++ js "a" ++ sqlite, by simp [databaseFile]⟩
  · exact ⟨name, safe, js "sqlite", by simp [databaseFile, sqlite, dot, js]⟩

def obedient : Driver where
  fate := fun _ => .done
  importable := true

def holding (storage : Storage) (name : JsString) : Pool :=
  { empty with
    files := [(databaseFile storage.pre name, [])]
    opened := Function.update empty.opened storage [name]
    calls := 2 }

theorem step_openDatabase {storage : Storage} {name : JsString} (safe : isSafeDatabaseName name = true) :
    step empty { op := .openDatabase storage name, driver := obedient } = some (holding storage name) := by
  unfold step run
  dsimp only
  unfold openDatabase
  rw [if_pos safe]
  rfl

theorem unlink_obedient {pool : Pool} {file : JsString} (known : pool.contents file ≠ none) :
    unlink obedient file pool = (.ok (),
      { pool with
        touches := pool.touches ++ [.unlinked file]
        calls := pool.calls + 1
        files := discardFile file pool.files }) := by
  change (if pool.contents file = none then fail (.notUnlinked file) else pure () : Act Unit)
    { pool with
      touches := pool.touches ++ [.unlinked file]
      calls := pool.calls + 1
      files := discardFile file pool.files } = _
  rw [if_neg known]
  rfl

theorem deleteAll_files {storage : Storage} {pool : Pool} {file : JsString} {image : Image}
    (starts : storage.pre ++ dot <+: file) (alone : pool.files = [(file, image)]) :
    (deleteAll obedient storage pool).2.contents file = none := by
  have listed :
      prefixFiles { pool with opened := Function.update pool.opened storage [] } storage.pre = [file] := by
    unfold prefixFiles getFileNames
    rw [alone]
    simpa using starts
  have known : contents { pool with opened := Function.update pool.opened storage [] } file ≠ none := by
    unfold contents
    rw [alone, List.lookup_cons_self]
    exact Option.some_ne_none image
  change (forEach (prefixFiles { pool with opened := Function.update pool.opened storage [] } storage.pre)
    (fun file => unlink obedient file)
      { pool with opened := Function.update pool.opened storage [] }).2.contents file = none
  rw [listed]
  unfold forEach
  rw [bind_run_ok (unlink_obedient known)]
  change (discardFile file pool.files).lookup file = none
  rw [alone]
  simp [discardFile]

/-- `deleteAll` under one prefix removes a database of the other. -/
theorem not_isolated_of_clash {own other : Storage} (clash : Clash own.pre other.pre)
    (different : own.pre ≠ other.pre)
    (ours : own.pre = P ∨ own.pre = Q) (theirs : other.pre = P ∨ other.pre = Q) :
    ¬ ∀ s e t, Transition.Reaches step (fun _ e => Among P Q e) empty s → Among P Q e → step s e = some t →
      Isolated P Q s e t := by
  intro isolated
  obtain ⟨name, safe, starts⟩ := starts_of_clash clash
  have reached : Transition.Reaches step (fun _ e => Among P Q e) empty (holding other name) :=
    Transition.Reaches.head { op := .openDatabase other name, driver := obedient } ⟨theirs, theirs⟩
      (step_openDatabase safe) .refl
  have kept := (isolated _ { op := .deleteAll own, driver := obedient } _ reached ⟨ours,
    ours⟩ rfl).2 other.pre name
    theirs different.symm safe
  rw [@deleteAll_files _ _ _ [] starts rfl] at kept
  have there : (holding other name).contents (databaseFile other.pre name) = some [] := List.lookup_cons_self
  rw [there] at kept
  cases kept

/-- The databases of the two prefixes are apart in every run just when no name of one starts like those of the
    other. -/
theorem isolated_iff (absoluteP : P.head? = some 47) (absoluteQ : Q.head? = some 47) (distinct : P ≠ Q) :
    (∀ s e t, Transition.Reaches step (fun _ e => Among P Q e) empty s → Among P Q e → step s e = some t →
      Isolated P Q s e t) ↔ ¬ Clash P Q ∧ ¬ Clash Q P := by
  constructor
  · intro isolated
    constructor
    · intro clash
      exact @not_isolated_of_clash P Q ⟨P, absoluteP, 0⟩ ⟨Q, absoluteQ, 0⟩ clash distinct (.inl rfl)
        (.inr rfl) isolated
    · intro clash
      exact @not_isolated_of_clash P Q ⟨Q, absoluteQ, 0⟩ ⟨P, absoluteP, 0⟩ clash distinct.symm (.inr rfl)
        (.inl rfl) isolated
  · intro apart s e t reached among stepped
    have sorted : Sorted P Q s := reached.invariant ⟨nofun, nofun⟩ fun _ _ _ kept among stepped =>
      kept.step apart distinct among stepped
    exact isolated_step apart distinct sorted among stepped

theorem no_clash_of_length {P Q : JsString} (same : P.length = Q.length) : ¬ Clash P Q := by
  rintro (⟨r, rfl⟩ | ⟨name, _, rfl⟩)
  · simp only [List.length_append, dot, js] at same
    simp at same
    omega
  · simp only [List.length_append, dot, js] at same
    simp at same
    omega

theorem actors_isolated : js "/actor-1" ≠ js "/actor-2" ∧
    ∀ s e t, Transition.Reaches step (fun _ e => Among (js "/actor-1") (js "/actor-2") e) empty s →
      Among (js "/actor-1") (js "/actor-2") e → step s e = some t → Isolated (js "/actor-1") (js "/actor-2")
        s e t := by
  have apart : js "/actor-1" ≠ js "/actor-2" := by decide
  refine ⟨apart, (isolated_iff (by decide) (by decide) apart).2 ⟨?_, ?_⟩⟩
  · exact no_clash_of_length (by decide)
  · exact no_clash_of_length (by decide)

def plain : Storage := ⟨js "/a", by decide, 0⟩

def dotted : Storage := ⟨js "/a.b", by decide, 0⟩

theorem dotted_clash : Clash plain.pre dotted.pre := .inl ⟨js "b", by decide⟩

/-- Two prefixes of which one is the other with a dot and more are not isolated. -/
theorem dotted_not_isolated : ¬ ∀ P Q : JsString, P.head? = some 47 → Q.head? = some 47 → P ≠ Q →
    ∀ s e t, Transition.Reaches step (fun _ e => Among P Q e) empty s → Among P Q e → step s e = some t →
      Isolated P Q s e t := by
  intro claim
  have distinct : plain.pre ≠ dotted.pre := by decide
  exact not_isolated_of_clash dotted_clash distinct (.inl rfl) (.inr rfl)
    (claim plain.pre dotted.pre plain.absolute dotted.absolute distinct)

end Clashes

end Pool

end DoRuntime.Backends
