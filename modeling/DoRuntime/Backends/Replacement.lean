import DoRuntime.Backends.PrefixIsolation

namespace DoRuntime.Backends

open Js Prog

section Files

variable {file : JsString} {image : Image} {files : List (JsString × Image)}

theorem lookup_discardFile_self : (discardFile file files).lookup file = none := by
  unfold discardFile
  induction files with
  | nil => rfl
  | cons entry rest ih =>
    by_cases same : entry.1 = file
    · rw [List.filter_cons_of_neg (by simpa using same)]
      exact ih
    · have skip : (file == entry.1) = false := by simpa using Ne.symm same
      rw [List.filter_cons_of_pos (by simpa using same), List.lookup_cons, skip]
      exact ih

theorem lookup_storeFile_self : (storeFile file image files).lookup file = some image := by
  unfold storeFile
  split
  · rename_i there
    induction files with
    | nil => cases there
    | cons entry rest ih =>
      by_cases same : entry.1 = file
      · simp [same]
      · have skip : (file == entry.1) = false := by simpa using Ne.symm same
        have later : rest.any (·.1 == file) = true := by simpa [same] using there
        rw [List.map_cons, if_neg same, List.lookup_cons, skip]
        exact ih later
  · rename_i absent
    induction files with
    | nil => simp
    | cons entry rest ih =>
      have absent : entry.1 ≠ file ∧ ¬ rest.any (·.1 == file) = true := by simpa using absent
      have skip : (file == entry.1) = false := by simpa using Ne.symm absent.1
      rw [List.cons_append, List.lookup_cons, skip]
      exact ih absent.2

theorem mem_names_of_lookup (known : files.lookup file ≠ none) : file ∈ files.map (·.1) := by
  by_contra absent
  refine known (List.lookup_eq_none_iff.2 fun entry member => ?_)
  have other : entry.1 ≠ file := fun same => absent (List.mem_map.2 ⟨entry, member, same⟩)
  simpa using Ne.symm other

theorem lookup_of_mem_names (member : file ∈ files.map (·.1)) : files.lookup file ≠ none := by
  intro absent
  obtain ⟨entry, kept, rfl⟩ := List.mem_map.1 member
  have other := List.lookup_eq_none_iff.1 absent entry kept
  simp at other

theorem lookup_of_mem (names : (files.map (·.1)).Nodup) (member : (file, image) ∈ files) :
    files.lookup file = some image := by
  induction files with
  | nil => cases member
  | cons entry rest ih =>
    obtain ⟨fresh, names⟩ := List.nodup_cons.1 names
    rcases List.mem_cons.1 member with rfl | later
    · simp
    · have other : entry.1 ≠ file := by
        rintro rfl
        exact fresh (List.mem_map.2 ⟨_, later, rfl⟩)
      have skip : (file == entry.1) = false := by simpa using Ne.symm other
      rw [List.lookup_cons, skip]
      exact ih names later

end Files

namespace Pool

/-- What the files hold once the originals are gone and these are installed. -/
def replaced (before : Pool) (files : List JsString) (installed : List (JsString × Image)) (file : JsString)
    : Option Image :=
  (installed.lookup file).or (if file ∈ files then none else before.contents file)

section Driver

variable (driver : Driver) (file : JsString) (image : Image)

/-- The calls so far have thrown `T`, and the files are `F`. -/
def At (F : List (JsString × Image)) (T : List Failure) (touched : List JsString) (pool : Pool) : Prop :=
  pool.files = F ∧ pool.thrown = T ∧ pool.touched = touched

variable {F : List (JsString × Image)} {T : List Failure} {U : List JsString}

theorem fail_meets {α : Type} {Q : α → Pool → Prop} (failure : Failure) :
    Meets (At F T U) (fail failure) Q fun e pool => e = failure ∧ At F (T ++ [e]) U pool := by
  apply Meets.bind (Q := fun _ => At F (T ++ [failure]) U)
  · exact Meets.update fun pool at_ => ⟨at_.1, by rw [at_.2.1], at_.2.2⟩
  · exact fun _ => Meets.raise fun pool at_ => ⟨rfl, at_⟩

theorem failCall_meets {α : Type} {Q : α → Pool → Prop} :
    Meets (At F T U) failCall Q fun e pool => At F (T ++ [e]) U pool :=
  Meets.state fun pool at_ => (fail_meets (.driver pool.calls)).weaken (fun _ same => same ▸ at_)
    (fun _ _ done => done)
    fun _ _ failed => failed.2

theorem call_meets {E : Failure → Pool → Prop} : Meets (At F T U) (call driver) (fun _ => At F T U) E :=
  Meets.state fun _ at_ => Meets.bind (Q := fun _ => At F T U) (Meets.update fun _ same => same ▸ at_)
    fun _ => Meets.pure fun _ at_ => at_

theorem touch_meets {E : Failure → Pool → Prop} (touch : Touch) :
    Meets (At F T U) (Pool.touch touch) (fun _ => At F T U) E := Meets.update fun _ at_ => at_

theorem exportFile_meets : Meets (At F T U) (exportFile driver file)
    (fun image pool => At F T U pool ∧ F.lookup file = some image) fun e pool => At F (T ++ [e]) U pool := by
  unfold exportFile
  apply Meets.bind (touch_meets _)
  intro _
  apply Meets.bind (call_meets driver)
  intro fate
  apply Meets.state
  intro pool at_
  have from_here : ∀ other, other = pool → At F T U other := fun other same => same ▸ at_
  cases fate with
  | done =>
    cases known : pool.contents file with
    | none => exact (fail_meets _).weaken from_here (fun _ _ done => done) fun _ _ failed => failed.2
    | some image =>
      refine Meets.pure fun other same => ⟨from_here other same, ?_⟩
      rw [← at_.1]
      exact known
  | refused | failed | torn _ =>
    exact failCall_meets.weaken from_here (fun _ _ done => done)
      fun _ _ failed => failed

theorem unlink_meets : Meets (At F T U) (unlink driver file) (fun _ => At (discardFile file F) T U)
    fun e pool => At F (T ++ [e]) U pool ∨ At (discardFile file F) (T ++ [e]) U pool := by
  have discard : ∀ {E : Failure → Pool → Prop}, Meets (At F T U)
      (update fun pool => { pool with files := discardFile file pool.files })
        (fun _ => At (discardFile file F) T U) E :=
    Meets.update fun pool at_ => ⟨by rw [at_.1], at_.2⟩
  unfold unlink
  apply Meets.bind (touch_meets _)
  intro _
  apply Meets.bind (call_meets driver)
  intro fate
  cases fate with
  | done =>
    apply Meets.state
    intro pool at_
    refine (Meets.bind discard fun _ => ?_).weaken (fun other same => same ▸ at_) (fun _ _ done => done)
      fun _ _ failed => failed
    split
    · exact (fail_meets _).weaken (fun _ at_ => at_) (fun _ _ done => done) fun _ _ failed => .inr failed.2
    · exact Meets.pure fun _ at_ => at_
  | refused =>
    exact (fail_meets _).weaken (fun _ at_ => at_) (fun _ _ done => done)
      fun _ _ failed => .inl failed.2
  | failed =>
    exact failCall_meets.weaken (fun _ at_ => at_) (fun _ _ done => done)
      fun _ _ failed => .inl failed
  | torn _ =>
    exact Meets.bind discard fun _ => failCall_meets.weaken (fun _ at_ => at_) (fun _ _ done => done)
      fun _ _ failed => .inr failed

theorem importDb_meets : Meets (At F T U) (importDb driver file image)
    (fun _ => At (storeFile file image F) T U)
    fun e pool => At F (T ++ [e]) U pool ∨ ∃ part, At (storeFile file part F) (T ++ [e]) U pool := by
  have store : ∀ (part : Image) {E : Failure → Pool → Prop}, Meets (At F T U)
      (update fun pool => { pool with files := storeFile file part pool.files })
        (fun _ => At (storeFile file part F) T U) E :=
    fun part _ => Meets.update fun pool at_ => ⟨by rw [at_.1], at_.2⟩
  unfold importDb
  apply Meets.bind (touch_meets _)
  intro _
  apply Meets.bind (call_meets driver)
  intro fate
  cases fate with
  | done => exact store image
  | refused | failed =>
    exact failCall_meets.weaken (fun _ at_ => at_) (fun _ _ done => done)
      fun _ _ failed => .inl failed
  | torn part =>
    exact Meets.bind (store part) fun _ => failCall_meets.weaken (fun _ at_ => at_) (fun _ _ done => done)
      fun _ _ failed => .inr ⟨part, failed⟩

/-- All the exports are made, and the first that fails decides. -/
theorem exportFiles_meets (files : List JsString) : Meets (At F T U) (exportFiles driver files)
    (fun images pool => At F T U pool ∧ images.map (·.1) = files ∧ ∀ entry ∈ images,
      F.lookup entry.1 = some entry.2)
    fun e pool => ∃ more, At F (T ++ e :: more) U pool := by
  unfold exportFiles
  induction files generalizing T with
  | nil => exact Meets.pure fun pool at_ => ⟨at_, rfl, fun _ member => absurd member List.not_mem_nil⟩
  | cons file rest ih =>
    unfold promiseAll
    apply Meets.bind (Q := fun first pool =>
      (∃ image, first = .ok (file, image) ∧ At F T U pool ∧ F.lookup file = some image) ∨
        ∃ e, first = .error e ∧ At F (T ++ [e]) U pool)
    · apply Meets.attempt (F := fun e pool => At F (T ++ [e]) U pool)
      · apply Meets.bind (Q := fun entry pool => entry.1 = file ∧ At F T U pool ∧ F.lookup file = some entry.2)
        · exact Meets.bind (exportFile_meets driver file) fun image => Meets.pure fun pool got => ⟨rfl, got⟩
        · intro entry
          refine Meets.pure fun pool got => .inl ⟨entry.2, ?_, got.2⟩
          rw [← got.1]
      · exact fun e => Meets.pure fun pool at_ => .inr ⟨e, rfl, at_⟩
    · intro first
      cases first with
      | ok entry =>
        refine (Meets.each fun pool got => ?_)
        obtain ⟨image, same, at_, known⟩ := got.resolve_right fun other => by
          obtain ⟨_, impossible, _⟩ := other
          cases impossible
        obtain rfl := Except.ok.inj same
        refine (Meets.bind ih fun others => ?_).weaken (fun other same => same ▸ at_) (fun _ _ done => done)
          fun _ _ failed => failed
        refine Meets.pure fun pool got => ⟨got.1, congrArg (file :: ·) got.2.1, fun entry member => ?_⟩
        rcases List.mem_cons.1 member with rfl | later
        · exact known
        · exact got.2.2 entry later
      | error e =>
        refine (Meets.each fun pool got => ?_)
        obtain ⟨e', same, at_⟩ := got.resolve_left fun other => by
          obtain ⟨_, impossible, _⟩ := other
          cases impossible
        obtain rfl := Except.error.inj same
        refine (Meets.bind (Q := fun _ pool => ∃ more, At F (T ++ e :: more) U pool) ?_ fun _ => Meets.raise
          fun _ thrown => thrown).weaken
          (fun other same => same ▸ at_) (fun _ _ done => done) fun _ _ failed => failed
        apply Meets.attempt (F := fun _ pool => ∃ more, At F (T ++ e :: more) U pool)
        · refine Meets.bind (ih.weaken (fun _ at_ => at_) (fun _ _ done => ⟨[], done.1⟩) fun _ _ failed => ?_)
            fun _ => Meets.pure fun _ thrown => thrown
          obtain ⟨more, at_⟩ := failed
          exact ⟨_ :: more, by simpa using at_⟩
        · exact fun _ => Meets.pure fun _ thrown => thrown

/-- The undo goes through all of its steps, whatever they throw. -/
theorem collect_meets {α : Type} (step : α → Act Unit) {I : Pool → Prop} {E : Failure → Pool → Prop}
    (J : List α → Pool → Prop) (xs : List α)
    (safe : ∀ x ∈ xs, ∀ T, Meets (fun pool => I pool ∧ pool.thrown = T) (step x)
      (fun _ pool => I pool ∧ pool.thrown = T)
      fun e pool => I pool ∧ pool.thrown = T ++ [e])
    (body : ∀ x ∈ xs, ∀ rest T, Meets (fun pool => I pool ∧ pool.thrown = T ∧ J (x :: rest) pool) (step x)
      (fun _ => J rest) fun _ _ => True)
    (T : List Failure) (good : Prop) :
    Meets (fun pool => I pool ∧ pool.thrown = T ∧ (good → J xs pool)) (collect step xs)
      (fun failures pool => I pool ∧ pool.thrown = T ++ failures ∧ (failures = [] → good → J [] pool)) E := by
  induction xs generalizing T good with
  | nil =>
    exact Meets.pure fun pool start => ⟨start.1, by rw [List.append_nil]; exact start.2.1, fun _ => start.2.2⟩
  | cons x rest ih =>
    unfold collect
    apply Meets.bind (Q := fun failure pool => I pool ∧ pool.thrown = T ++ failure.toList ∧
      (failure = none → good → J rest pool))
    · apply Meets.attempt (F := fun e pool => I pool ∧ pool.thrown = T ++ [e])
      · apply Meets.bind (Q := fun _ pool => I pool ∧ pool.thrown = T ∧ (good → J rest pool))
        · intro pool start
          obtain ⟨returned, thrown⟩ := safe x List.mem_cons_self T pool ⟨start.1, start.2.1⟩
          refine ⟨fun _ t ran => ?_, thrown⟩
          obtain ⟨kept, same⟩ := returned _ t ran
          exact ⟨kept, same, fun holds =>
            (body x List.mem_cons_self rest T pool ⟨start.1, start.2.1, start.2.2 holds⟩).1 _ t ran⟩
        · exact fun _ => Meets.pure fun pool done => ⟨done.1, by simpa using done.2.1, fun _ => done.2.2⟩
      · exact fun e => Meets.pure fun pool done => ⟨done.1, done.2, fun none_ => by cases none_⟩
    · intro failure
      have others := ih (fun y later => safe y (List.mem_cons_of_mem x later))
        (fun y later => body y (List.mem_cons_of_mem x later))
      refine Meets.bind ((others (T ++ failure.toList) (failure = none ∧ good)).weaken
        (fun pool start => ⟨start.1, start.2.1, fun holds => start.2.2 holds.1 holds.2⟩) (fun _ _ done => done)
        fun _ _ failed => failed) fun others => Meets.pure fun pool done => ⟨done.1, ?_, fun none_ holds => ?_⟩
      · rw [← List.append_assoc]
        exact done.2.1
      · obtain ⟨first, later⟩ := List.append_eq_nil_iff.1 none_
        exact done.2.2 later ⟨by cases failure <;> simp_all, holds⟩

end Driver

section Replace

variable (driver : Driver) {before : Pool} {files : List JsString} {replacement : List (JsString × Image)}

/-- A step that fails, or does its work, leaves every other file. -/
theorem unlink_spec (file : JsString) (pool : Pool) :
    (∀ a t, unlink driver file pool = (.ok a, t) → t.thrown = pool.thrown ∧ t.touched = pool.touched ∧
      t.contents file = none ∧ ∀ f, f ≠ file → t.contents f = pool.contents f) ∧
    ∀ e t, unlink driver file pool = (.error e, t) → t.thrown = pool.thrown ++ [e] ∧ t.touched = pool.touched ∧
      ∀ f, f ≠ file → t.contents f = pool.contents f := by
  obtain ⟨returned, thrown⟩ := unlink_meets driver file pool ⟨rfl, rfl, rfl⟩
  have others : ∀ t : Pool, t.files = discardFile file pool.files → ∀ f, f ≠ file →
    t.contents f = pool.contents f := by
    intro t changed f other
    unfold contents
    rw [changed]
    exact lookup_discardFile other
  refine ⟨fun a t ran => ?_, fun e t ran => ?_⟩
  · obtain ⟨changed, same, touched⟩ := returned a t ran
    refine ⟨same, touched, ?_, others t changed⟩
    unfold contents
    rw [changed]
    exact lookup_discardFile_self
  · rcases thrown e t ran with ⟨kept, same, touched⟩ | ⟨changed, same, touched⟩
    · exact ⟨same, touched, fun f _ => by unfold contents; rw [kept]⟩
    · exact ⟨same, touched, others t changed⟩

theorem importDb_spec (file : JsString) (image : Image) (pool : Pool) :
    (∀ a t, importDb driver file image pool = (.ok a, t) → t.thrown = pool.thrown ∧ t.touched = pool.touched ∧
      t.contents file = some image ∧ ∀ f, f ≠ file → t.contents f = pool.contents f) ∧
    ∀ e t, importDb driver file image pool = (.error e, t) → t.thrown = pool.thrown ++ [e] ∧
      t.touched = pool.touched ∧
      ∀ f, f ≠ file → t.contents f = pool.contents f := by
  obtain ⟨returned, thrown⟩ := importDb_meets driver file image pool ⟨rfl, rfl, rfl⟩
  have others : ∀ (t : Pool) (part : Image), t.files = storeFile file part pool.files →
      ∀ f, f ≠ file → t.contents f = pool.contents f := by
    intro t part changed f other
    unfold contents
    rw [changed]
    exact lookup_storeFile other
  refine ⟨fun a t ran => ?_, fun e t ran => ?_⟩
  · obtain ⟨changed, same, touched⟩ := returned a t ran
    refine ⟨same, touched, ?_, others t image changed⟩
    unfold contents
    rw [changed]
    exact lookup_storeFile_self
  · rcases thrown e t ran with ⟨kept, same, touched⟩ | ⟨part, changed, same, touched⟩
    · exact ⟨same, touched, fun f _ => by unfold contents; rw [kept]⟩
    · exact ⟨same, touched, others t part changed⟩

/-- What is not touched holds what it held before. -/
structure Reverted (before : Pool) (files : List JsString) (replacement : List (JsString × Image))
    (pool : Pool) : Prop where
  among : ∀ f ∈ pool.touched, f ∈ files ∨ f ∈ replacement.map (·.1)
  outside : ∀ f, f ∉ pool.touched → pool.contents f = before.contents f

/-- Where the removal of the originals stands. -/
structure Removing (before : Pool) (files : List JsString) (replacement : List (JsString × Image))
    (rest : List JsString)
    (pool : Pool) : Prop extends Reverted before files replacement pool where
  quiet : pool.thrown = []
  own : ∀ f ∈ pool.touched, f ∈ files
  listed : ∀ f ∈ rest, f ∈ files
  gone : ∀ f ∈ files, f ∈ rest ∨ (f ∈ pool.touched ∧ pool.contents f = none)

/-- Where the installation of the replacement stands. -/
structure Installing (before : Pool) (files : List JsString) (replacement rest : List (JsString × Image))
    (pool : Pool) : Prop
    extends Reverted before files replacement pool where
  quiet : pool.thrown = []
  touched : ∀ f ∈ files, f ∈ pool.touched
  installed : ∃ done, replacement = done ++ rest ∧ ∀ f, pool.contents f = before.replaced files done f

theorem removing_step (file : JsString) (rest : List JsString) :
    Meets (Removing before files replacement (file :: rest)) (do touchedBy file; unlink driver file)
      (fun _ => Removing before files replacement rest)
      fun e pool => pool.thrown = [e] ∧ Reverted before files replacement pool := by
  intro pool removing
  have mine := removing.listed file List.mem_cons_self
  have among : ∀ f ∈ file :: pool.touched, f ∈ files ∨ f ∈ replacement.map (·.1) := by
    intro f touched
    rcases List.mem_cons.1 touched with rfl | earlier
    · exact .inl mine
    · exact removing.among f earlier
  obtain ⟨returned, thrown⟩ := unlink_spec driver file { pool with touched := file :: pool.touched }
  refine ⟨fun a t ran => ?_, fun e t ran => ?_⟩
  · obtain ⟨same, touched, none_, others⟩ := returned a t ran
    refine ⟨⟨by rw [touched]; exact among, fun f out => ?_⟩, same.trans removing.quiet, fun f now => ?_,
      fun f later => removing.listed f (List.mem_cons_of_mem _ later), fun f member => ?_⟩
    · rw [touched] at out
      obtain ⟨other, out⟩ := not_or.1 (mt List.mem_cons.2 out)
      exact (others f other).trans (removing.outside f out)
    · rw [touched] at now
      rcases List.mem_cons.1 now with rfl | earlier
      · exact mine
      · exact removing.own f earlier
    · rw [touched]
      by_cases this : f = file
      · rw [this]
        exact .inr ⟨List.mem_cons_self, none_⟩
      · refine (removing.gone f member).imp (fun left => (List.mem_cons.1 left).resolve_left this) fun gone =>
          ?_
        exact ⟨List.mem_cons_of_mem _ gone.1, (others f this).trans gone.2⟩
  · obtain ⟨same, touched, others⟩ := thrown e t ran
    refine ⟨same.trans (by rw [show
      ({ pool with touched := file :: pool.touched } : Pool).thrown = [] from removing.quiet]; rfl),
      by rw [touched]; exact among, fun f out => ?_⟩
    rw [touched] at out
    obtain ⟨other, out⟩ := not_or.1 (mt List.mem_cons.2 out)
    exact (others f other).trans (removing.outside f out)

theorem installing_step (distinct : (replacement.map (·.1)).Nodup) (entry : JsString × Image)
    (rest : List (JsString × Image)) :
    Meets (Installing before files replacement (entry :: rest))
      (do touchedBy entry.1; importDb driver entry.1 entry.2)
      (fun _ => Installing before files replacement rest)
      fun e pool => pool.thrown = [e] ∧ Reverted before files replacement pool := by
  intro pool installing
  obtain ⟨done, split, installed⟩ := installing.installed
  have mine : entry.1 ∈ replacement.map (·.1) := by simp [split]
  have among : ∀ f ∈ entry.1 :: pool.touched, f ∈ files ∨ f ∈ replacement.map (·.1) := by
    intro f touched
    rcases List.mem_cons.1 touched with rfl | earlier
    · exact .inr mine
    · exact installing.among f earlier
  obtain ⟨returned, thrown⟩ := importDb_spec driver entry.1 entry.2
    { pool with touched := entry.1 :: pool.touched }
  refine ⟨fun a t ran => ?_, fun e t ran => ?_⟩
  · obtain ⟨same, touched, stored, others⟩ := returned a t ran
    refine ⟨⟨by rw [touched]; exact among, fun f out => ?_⟩, same.trans installing.quiet,
      fun f member => by rw [touched]; exact List.mem_cons_of_mem _ (installing.touched f member),
      done ++ [entry], by simp [split], fun f => ?_⟩
    · rw [touched] at out
      obtain ⟨other, out⟩ := not_or.1 (mt List.mem_cons.2 out)
      exact (others f other).trans (installing.outside f out)
    · unfold replaced
      rw [List.lookup_append]
      by_cases this : f = entry.1
      · have fresh : done.lookup f = none := by
          by_contra known
          have twice := mem_names_of_lookup known
          rw [split, List.map_append, List.map_cons, List.nodup_append] at distinct
          exact distinct.2.2 f twice entry.1 List.mem_cons_self this
        rw [fresh, this, stored]
        simp [List.lookup]
      · have skip : (f == entry.1) = false := by simpa using this
        have old := installed f
        unfold replaced at old
        rw [others f this, List.lookup_cons, skip]
        simpa [contents] using old
  · obtain ⟨same, touched, others⟩ := thrown e t ran
    refine ⟨same.trans (by rw [show
      ({ pool with touched := entry.1 :: pool.touched } : Pool).thrown = [] from installing.quiet]; rfl),
      by rw [touched]; exact among, fun f out => ?_⟩
    rw [touched] at out
    obtain ⟨other, out⟩ := not_or.1 (mt List.mem_cons.2 out)
    exact (others f other).trans (installing.outside f out)

/-- How a replacement that throws leaves the files: as they were, with what was thrown first, or
    with every original image in what it throws. -/
def Undone (before : Pool) (files : List JsString) (replacement : List (JsString × Image))
    (rollbackFailed : List Failure → List (JsString × Image) → Failure) (e : Failure) (pool : Pool) : Prop :=
  (∀ f, f ∉ files → f ∉ replacement.map (·.1) → pool.contents f = before.contents f) ∧
    ((pool.thrown.head? = some e ∧ ∀ f, pool.contents f = before.contents f) ∨
      ∃ original, e = rollbackFailed pool.thrown original ∧ original.map (·.1) = files ∧
        ∀ entry ∈ original, before.contents entry.1 = some entry.2)

theorem undo_meets {Q : Unit → Pool → Prop} (rollbackFailed : List Failure → List (JsString × Image) → Failure)
    (covers : ∀ f ∈ replacement.map (·.1), before.contents f ≠ none → f ∈ files)
      {original : List (JsString × Image)}
    (names : original.map (·.1) = files) (images : ∀ entry ∈ original, before.contents entry.1 = some entry.2)
    (failure : Failure) :
    Meets (fun pool => pool.thrown = [failure] ∧ Reverted before files replacement pool) (do
      let pool ← state
      let unlinked ← collect (unlink driver) (pool.getFileNames.filter (· ∈ pool.touched))
      let restored ← collect (fun entry => importDb driver entry.1 entry.2)
        (original.filter (·.1 ∈ pool.touched))
      if (unlinked ++ restored).isEmpty then raise failure
      else raise (rollbackFailed (failure :: unlinked ++ restored) original)) Q
      (Undone before files replacement rollbackFailed) := by
  apply Meets.state
  intro pool start
  obtain ⟨thrown, among, outside⟩ := start
  -- whatever happens, only touched files change
  let I : Pool → Prop := fun t => t.touched = pool.touched ∧ ∀ f, f ∉ pool.touched →
    t.contents f = before.contents f
  have first := collect_meets (unlink driver) (I := I) (E := Undone before files replacement rollbackFailed)
    (fun rest t => ∀ f ∈ pool.touched, t.contents f = none ∨ f ∈ rest)
      (pool.getFileNames.filter (· ∈ pool.touched))
    (fun file member T t start => ?_) (fun file member rest T t start => ?_) [failure] True
  rotate_left
  · have mine : file ∈ pool.touched := of_decide_eq_true (List.mem_filter.1 member).2
    obtain ⟨returned, failed⟩ := unlink_spec driver file t
    have apart : ∀ f, f ∉ pool.touched → f ≠ file := fun f out same => out (same ▸ mine)
    refine ⟨fun a u ran => ?_, fun e u ran => ?_⟩
    · obtain ⟨same, touched, _, others⟩ := returned a u ran
      exact ⟨⟨touched.trans start.1.1, fun f out => (others f (apart f out)).trans (start.1.2 f out)⟩,
        same.trans start.2⟩
    · obtain ⟨same, touched, others⟩ := failed e u ran
      exact ⟨⟨touched.trans start.1.1, fun f out => (others f (apart f out)).trans (start.1.2 f out)⟩,
        same.trans (by rw [start.2])⟩
  · obtain ⟨returned, _⟩ := unlink_spec driver file t
    refine ⟨fun a u ran f touched => ?_, fun _ _ _ => trivial⟩
    obtain ⟨_, _, none_, others⟩ := returned a u ran
    by_cases this : f = file
    · exact .inl (this ▸ none_)
    · refine (start.2.2 f touched).imp (fun gone => (others f this).trans gone) fun left =>
        (List.mem_cons.1 left).resolve_left this
  refine Meets.bind (first.weaken (fun t same => ?_) (fun _ _ done => done) fun _ _ failed => failed)
    fun unlinked => ?_
  · rw [same]
    refine ⟨⟨rfl, outside⟩, thrown, fun _ f touched => ?_⟩
    by_cases there : pool.contents f = none
    · exact .inl there
    · exact .inr (List.mem_filter.2 ⟨mem_names_of_lookup there, decide_eq_true touched⟩)
  have second := collect_meets (fun entry => importDb driver entry.1 entry.2) (I := I)
    (E := Undone before files replacement rollbackFailed)
    (fun rest t => ∀ f ∈ pool.touched, t.contents f = before.contents f ∨ ∃ image, (f, image) ∈ rest)
    (original.filter (·.1 ∈ pool.touched)) (fun entry member T t start => ?_)
      (fun entry member rest T t start => ?_)
    ([failure] ++ unlinked) (unlinked = [])
  rotate_left
  · have mine : entry.1 ∈ pool.touched := of_decide_eq_true (List.mem_filter.1 member).2
    obtain ⟨returned, failed⟩ := importDb_spec driver entry.1 entry.2 t
    have apart : ∀ f, f ∉ pool.touched → f ≠ entry.1 := fun f out same => out (same ▸ mine)
    refine ⟨fun a u ran => ?_, fun e u ran => ?_⟩
    · obtain ⟨same, touched, _, others⟩ := returned a u ran
      exact ⟨⟨touched.trans start.1.1, fun f out => (others f (apart f out)).trans (start.1.2 f out)⟩,
        same.trans start.2⟩
    · obtain ⟨same, touched, others⟩ := failed e u ran
      exact ⟨⟨touched.trans start.1.1, fun f out => (others f (apart f out)).trans (start.1.2 f out)⟩,
        same.trans (by rw [start.2])⟩
  · obtain ⟨returned, _⟩ := importDb_spec driver entry.1 entry.2 t
    have image := images entry (List.mem_filter.1 member).1
    refine ⟨fun a u ran f touched => ?_, fun _ _ _ => trivial⟩
    obtain ⟨_, _, stored, others⟩ := returned a u ran
    by_cases this : f = entry.1
    · exact .inl (this ▸ stored.trans image.symm)
    · refine (start.2.2 f touched).imp (fun back => (others f this).trans back) fun left => ?_
      obtain ⟨image, left⟩ := left
      refine ⟨image, (List.mem_cons.1 left).resolve_left fun same => this (congrArg Prod.fst same)⟩
  refine Meets.bind (second.weaken (fun t done => ⟨done.1, done.2.1, fun all f touched => ?_⟩)
    (fun _ _ done => done)
    fun _ _ failed => failed) fun restored => ?_
  · have gone := (done.2.2 all trivial f touched).resolve_right List.not_mem_nil
    by_cases mine : f ∈ files
    · rw [← names] at mine
      obtain ⟨entry, member, rfl⟩ := List.mem_map.1 mine
      exact .inr ⟨entry.2, List.mem_filter.2 ⟨member, decide_eq_true touched⟩⟩
    · have new := (among f touched).resolve_left mine
      by_cases there : before.contents f = none
      · exact .inl (gone.trans there.symm)
      · exact absurd (covers f new there) mine
  have apart : ∀ t, I t → ∀ f, f ∉ files → f ∉ replacement.map (·.1) → t.contents f = before.contents f :=
    fun t kept f other new => kept.2 f fun touched => (among f touched).elim other new
  split
  · rename_i none_
    obtain ⟨firsts, seconds⟩ := List.append_eq_nil_iff.1 (List.isEmpty_iff.1 none_)
    refine Meets.raise fun t done => ⟨apart t done.1, .inl ⟨?_, fun f => ?_⟩⟩
    · rw [done.2.1, firsts, seconds]
      rfl
    · by_cases touched : f ∈ pool.touched
      · refine (done.2.2 seconds firsts f touched).resolve_right fun left => ?_
        obtain ⟨_, left⟩ := left
        cases left
      · exact done.1.2 f touched
  · refine Meets.raise fun t done => ⟨apart t done.1, .inr ⟨original, ?_, names, images⟩⟩
    rw [done.2.1]
    rfl

theorem replacePoolFiles_meets (rollbackFailed : List Failure → List (JsString × Image) → Failure)
    (distinct : (replacement.map (·.1)).Nodup)
      (covers : ∀ f ∈ replacement.map (·.1), before.contents f ≠ none → f ∈ files) :
    Meets (fun pool => pool.files = before.files ∧ pool.thrown = [])
      (replacePoolFiles driver files replacement rollbackFailed)
      (fun _ pool => ∀ f, pool.contents f = before.replaced files replacement f)
      (Undone before files replacement rollbackFailed) := by
  unfold replacePoolFiles
  apply Meets.each
  intro pool start
  have same : ∀ t : Pool, t.files = before.files → ∀ f, t.contents f = before.contents f := by
    intro t same f
    unfold contents
    rw [same]
  refine Meets.bind ((exportFiles_meets driver (F := before.files) (T := []) (U := pool.touched) files).weaken
    (fun t here => by subst here; exact ⟨start.1, start.2, rfl⟩) (fun _ _ done => done) fun e t failed => ?_)
      fun original => ?_
  · obtain ⟨more, files_, thrown, _⟩ := failed
    refine ⟨fun f _ _ => same t files_ f, .inl ⟨?_, same t files_⟩⟩
    rw [thrown]
    rfl
  · apply Meets.each
    intro pool exported
    obtain ⟨⟨files_, thrown, _⟩, names, images⟩ := exported
    refine Meets.bind (Q := fun _ => Removing before files replacement files) ?_ fun _ => ?_
    · refine Meets.update fun t here => ⟨⟨fun f touched => absurd touched List.not_mem_nil, fun f _ => ?_⟩, ?_,
        fun f touched => absurd touched List.not_mem_nil, fun f => id, fun f => .inl⟩
      · exact same _ (by rw [here]; exact files_) f
      · rw [here]
        exact thrown
    · apply Meets.attempt (F := fun e pool => pool.thrown = [e] ∧ Reverted before files replacement pool)
      · refine Meets.bind (Meets.forEach _ (removing_step driver)) fun _ => ?_
        refine ((Meets.forEach _ (installing_step driver distinct)).weaken (fun t removed => ?_)
          (fun _ t done => ?_)
          fun _ _ failed => failed)
        · refine ⟨removed.toReverted, removed.quiet, fun f member => ?_, [], rfl, fun f => ?_⟩
          · exact ((removed.gone f member).resolve_left List.not_mem_nil).1
          · unfold replaced
            by_cases mine : f ∈ files
            · rw [if_pos mine]
              exact ((removed.gone f mine).resolve_left List.not_mem_nil).2
            · rw [if_neg mine]
              exact removed.outside f fun touched => mine (removed.own f touched)
        · obtain ⟨all, split, installed⟩ := done.installed
          rw [split, List.append_nil]
          exact installed
      · exact undo_meets driver rollbackFailed covers names images

end Replace

section Snapshots

variable {driver : Driver} {before : Pool} {pre : JsString}

/-- Every file of the list is exported, and the files are as they were. -/
theorem promiseAll_meets {α : Type} {I : Pool → Prop} {R : JsString → α → Prop} {each : JsString → Act α}
    {files : List JsString}
    (one : ∀ file ∈ files, Meets I (each file) (fun a pool => I pool ∧ R file a) fun _ => I) :
    Meets I (promiseAll each files) (fun found pool => I pool ∧ List.Forall₂ R files found) fun _ => I := by
  induction files with
  | nil => exact Meets.pure fun pool kept => ⟨kept, .nil⟩
  | cons file rest ih =>
    have others := ih fun file later => one file (List.mem_cons_of_mem _ later)
    unfold promiseAll
    apply Meets.bind (Q := fun first pool => I pool ∧ ∀ a, first = .ok a → R file a)
    · apply Meets.attempt (F := fun _ => I)
      · refine Meets.bind (one file List.mem_cons_self) fun a => Meets.pure fun pool got =>
          ⟨got.1, fun b same => ?_⟩
        rw [← Except.ok.inj same]
        exact got.2
      · exact fun e => Meets.pure fun pool kept => ⟨kept, fun a same => by cases same⟩
    · intro first
      cases first with
      | ok a =>
        apply Meets.each
        intro pool got
        refine (Meets.bind others fun found => Meets.pure fun _ done => ?_).weaken
          (fun _ same => by rw [same]; exact got.1) (fun _ _ done => done) fun _ _ kept => kept
        exact ⟨done.1, .cons (got.2 a rfl) done.2⟩
      | error e =>
        refine Meets.bind (Q := fun _ => I) ?_ fun _ => Meets.raise fun _ kept => kept
        apply Meets.attempt (F := fun _ => I)
        · exact (Meets.bind others fun _ => Meets.pure fun _ done => done.1).weaken (fun _ got => got.1)
            (fun _ _ done => done) fun _ _ kept => kept
        · exact fun _ => Meets.pure fun _ kept => kept

theorem lift_meets {α : Type} {I : Pool → Prop} (result : Except Failure α) :
    Meets I (lift result) (fun a pool => I pool ∧ result = .ok a) fun _ => I := by
  cases result with
  | ok a => exact Meets.pure fun pool kept => ⟨kept, rfl⟩
  | error e => exact Meets.raise fun pool kept => kept

theorem sidecars_meets {I : Pool → Prop} (files : List JsString) (action : String) :
    Meets I (requireNoRecoverySidecars files action) (fun _ pool => I pool ∧ ∀ file ∈ files, sqlite <:+ file)
      fun _ => I := by
  unfold requireNoRecoverySidecars
  cases sidecar : files.find? fun file => !sqlite.isSuffixOf file with
  | some file => exact Meets.raise fun _ kept => kept
  | none =>
    rw [List.find?_eq_none] at sidecar
    exact Meets.pure fun pool kept => ⟨kept, fun file member => by simpa using sidecar file member⟩

/-- The database that a file of the pool is, as a snapshot has it. -/
def Pictured (before : Pool) (pre file : JsString) (database : JsString × Image) : Prop :=
  isSafeDatabaseName database.1 = true ∧ file = databaseFile pre database.1 ∧
    before.contents file = some database.2

theorem pictured_file {file : JsString} {files : List JsString} {found : List (JsString × Image)}
    (all : List.Forall₂ (Pictured before pre) files found) (member : file ∈ files) :
    ∃ database ∈ found, Pictured before pre file database := by
  induction all with
  | nil => cases member
  | cons first _ ih =>
    rcases List.mem_cons.1 member with rfl | later
    · exact ⟨_, List.mem_cons_self, first⟩
    · obtain ⟨database, kept, pictured⟩ := ih later
      exact ⟨database, List.mem_cons_of_mem _ kept, pictured⟩

theorem pictured_database {database : JsString × Image} {files : List JsString}
    {found : List (JsString × Image)}
    (all : List.Forall₂ (Pictured before pre) files found) (member : database ∈ found) :
    Pictured before pre (databaseFile pre database.1) database := by
  induction all with
  | nil => cases member
  | cons first _ ih =>
    rcases List.mem_cons.1 member with rfl | later
    · rw [← first.2.1]
      exact first
    · exact ih later

theorem exportDatabases_meets (before : Pool) {files : List JsString} {action : String}
    (starts : ∀ file ∈ files, pre ++ dot <+: file) :
    Meets (fun pool => pool.files = before.files) (exportDatabases driver pre files action)
      (fun found pool => pool.files = before.files ∧ List.Forall₂ (Pictured before pre) files found)
      fun _ pool => pool.files = before.files := by
  unfold exportDatabases
  apply Meets.bind (sidecars_meets files action)
  intro _
  apply Meets.each
  intro pool checked
  refine (promiseAll_meets (I := fun pool => pool.files = before.files) (R := Pictured before pre)
    fun file member => ?_).weaken
    (fun _ same => by rw [same]; exact checked.1) (fun _ _ done => done) fun _ _ kept => kept
  refine Meets.bind (lift_meets _) fun name => Meets.each fun pool named => ?_
  refine (Meets.bind ((exportFile_meets driver file (F := before.files) (T := pool.thrown)
    (U := pool.touched)).weaken
    (fun t same => by rw [same]; exact ⟨named.1, rfl, rfl⟩) (fun _ _ done => done) fun e t failed => failed.1)
      fun image => ?_)
  refine Meets.pure fun t got => ⟨got.1.1, ?_⟩
  obtain ⟨safe, same⟩ := databaseFile_of_sliced (starts file member) (checked.2 file member) named.2
  exact ⟨safe, same, got.2⟩

theorem databaseFile_injective (pre : JsString) {name other : JsString}
    (same : databaseFile pre name = databaseFile pre other) : name = other := by
  unfold databaseFile at same
  simpa using same

theorem mem_prefixFiles {file : JsString} : file ∈ before.prefixFiles pre ↔ before.contents file ≠ none ∧
    pre ++ dot <+: file := by
  unfold prefixFiles
  rw [List.mem_filter, List.isPrefixOf_iff_prefix]
  exact and_congr_left fun _ => ⟨lookup_of_mem_names, mem_names_of_lookup⟩

theorem databaseFile_starts (name : JsString) : pre ++ dot <+: databaseFile pre name :=
  ⟨name ++ sqlite, by simp [databaseFile]⟩

/-- The two callers name no file outside the originals. -/
theorem replaceDatabases_meets {databases : List (JsString × Image)} {action : String}
    (distinct : (databases.map (·.1)).Nodup) :
    Meets (fun pool => pool.files = before.files ∧ pool.thrown = [])
      (replaceDatabases driver pre databases action)
      (fun _ pool => ∀ f, pool.contents f =
        before.replaced (before.prefixFiles pre)
          (databases.map fun database => (databaseFile pre database.1, database.2)) f)
      fun _ _ => True := by
  unfold replaceDatabases
  apply Meets.state
  intro pool start
  have same : pool.prefixFiles pre = before.prefixFiles pre := by
    unfold prefixFiles getFileNames
    rw [start.1]
  rw [same]
  have names : (databases.map fun database => (databaseFile pre database.1, database.2)).map (·.1) =
      (databases.map (·.1)).map (databaseFile pre) := by
    rw [List.map_map, List.map_map]
    rfl
  refine Meets.bind (Q := fun _ pool => pool.files = before.files ∧ pool.thrown = []) ?_ fun _ =>
    Meets.bind (Q := fun _ pool => pool.files = before.files ∧ pool.thrown = []) ?_ fun _ => ?_
  · exact (sidecars_meets (I := fun pool => pool.files = before.files ∧ pool.thrown = []) _ action).weaken
      (fun _ here => by rw [here]; exact start) (fun _ _ done => done.1) fun _ _ _ => trivial
  · refine Meets.forEach (fun _ (pool : Pool) => pool.files = before.files ∧ pool.thrown = [])
      fun file rest => ?_
    exact (Meets.bind (lift_meets (I := fun pool => pool.files = before.files ∧ pool.thrown = []) _) fun _ =>
      Meets.pure fun _ done => done.1).weaken (fun _ kept => kept) (fun _ _ done => done) fun _ _ _ => trivial
  · refine (replacePoolFiles_meets driver _ ?_ fun f new there => ?_).weaken (fun _ kept => kept)
      (fun _ _ done => done)
      fun _ _ _ => trivial
    · rw [names]
      exact distinct.map fun _ _ => databaseFile_injective pre
    · rw [names] at new
      obtain ⟨name, _, rfl⟩ := List.mem_map.1 new
      exact mem_prefixFiles.2 ⟨there, databaseFile_starts name⟩

theorem handles_meets {I : Pool → Prop} (storage : Storage) :
    Meets I (requireNoOpenHandles storage) (fun _ => I) fun _ _ => True := by
  apply Meets.state
  intro pool kept
  split
  · exact Meets.pure fun _ same => by rw [same]; exact kept
  · exact Meets.raise fun _ _ => trivial

theorem exportSnapshot_meets (before : Pool) (storage : Storage) :
    Meets (fun pool => pool.files = before.files) (exportSnapshot driver storage)
      (fun snapshot _ => (∀ file, before.contents file ≠ none → storage.pre ++ dot <+: file →
          ∃ database ∈ snapshot, Pictured before storage.pre file database) ∧
        ∀ database ∈ snapshot, Pictured before storage.pre (databaseFile storage.pre database.1) database)
          fun _ _ => True := by
  unfold exportSnapshot
  apply Meets.bind (handles_meets storage)
  intro _
  apply Meets.state
  intro pool start
  have same : pool.prefixFiles storage.pre = before.prefixFiles storage.pre := by
    unfold prefixFiles getFileNames
    rw [start]
  rw [same]
  refine Meets.bind ((exportDatabases_meets before fun file member => ?_).weaken
    (fun _ here => by rw [here]; exact start) (fun _ _ done => done) fun _ _ _ => trivial) fun found => ?_
  · exact (mem_prefixFiles.1 (List.mem_mergeSort.1 member)).2
  · split
    · refine Meets.pure fun _ done => ⟨fun file there starts => ?_, fun database member => ?_⟩
      · exact pictured_file done.2 (List.mem_mergeSort.2 (mem_prefixFiles.2 ⟨there, starts⟩))
      · exact pictured_database done.2 member
    · exact Meets.raise fun _ _ => trivial

theorem reserve_meets {I : Pool → Prop}
    (kept : ∀ pool : Pool, I pool → I { pool with calls := pool.calls + 1 }) :
    Meets I (reserve driver) (fun _ => I) fun _ _ => True := by
  refine Meets.bind (Q := fun _ => I) (Meets.state fun pool start => Meets.bind (Q := fun _ => I)
    (Meets.update fun _ same => by rw [same]; exact kept pool start) fun _ => Meets.pure fun _ here => here)
      fun fate => ?_
  cases fate with
  | done => exact Meets.pure fun _ here => here
  | refused | failed | torn _ =>
    intro pool _
    refine ⟨fun _ _ ran => ?_, fun _ _ _ => trivial⟩
    cases ran

theorem importSnapshot_meets (before : Pool) (storage : Storage) {snapshot : List (JsString × Image)} :
    Meets (fun pool => pool.files = before.files ∧ pool.thrown = []) (importSnapshot driver storage snapshot)
      (fun _ pool => (snapshot.map (·.1)).Nodup ∧ ∀ f, pool.contents f = before.replaced
        (before.prefixFiles storage.pre)
        (snapshot.map fun database => (databaseFile storage.pre database.1, database.2)) f)
      fun _ _ => True := by
  unfold importSnapshot
  apply Meets.bind (handles_meets storage)
  intro _
  split
  · rename_i valid
    have distinct : (snapshot.map (·.1)).Nodup := by
      simp only [validSnapshot, Bool.and_eq_true, decide_eq_true_eq] at valid
      exact valid.2
    split
    · refine Meets.bind (reserve_meets fun _ start => start) fun _ => Meets.bind (handles_meets storage)
        fun _ => ?_
      exact (replaceDatabases_meets distinct).weaken (fun _ start => start) (fun _ _ done => ⟨distinct, done⟩)
        fun _ _ _ => trivial
    · exact Meets.raise fun _ _ => trivial
  · exact Meets.raise fun _ _ => trivial

/-- The files of a prefix are those of the snapshot, once it is restored. -/
theorem restored {after now : Pool} {snapshot : List (JsString × Image)} (distinct : (snapshot.map (·.1)).Nodup)
    (files : ∀ file, before.contents file ≠ none → pre ++ dot <+: file → ∃ database ∈ snapshot,
      Pictured before pre file database)
    (databases : ∀ database ∈ snapshot, Pictured before pre (databaseFile pre database.1) database)
    (replaced : ∀ f, after.contents f = now.replaced (now.prefixFiles pre)
      (snapshot.map fun database => (databaseFile pre database.1, database.2)) f) (file : JsString) :
    (pre ++ dot <+: file → after.contents file = before.contents file) ∧
      (¬ pre ++ dot <+: file → after.contents file = now.contents file) := by
  have names : ((snapshot.map fun database => (databaseFile pre database.1, database.2)).map (·.1)).Nodup := by
    have injected := distinct.map fun _ _ => databaseFile_injective pre
    rw [List.map_map] at injected ⊢
    exact injected
  rw [replaced file]
  unfold Pool.replaced
  refine ⟨fun starts => ?_, fun other => ?_⟩
  · by_cases there : before.contents file = none
    · have absent : (snapshot.map fun database =>
        (databaseFile pre database.1, database.2)).lookup file = none := by
        by_contra known
        obtain ⟨entry, member, rfl⟩ := List.mem_map.1 (mem_names_of_lookup known)
        obtain ⟨database, kept, rfl⟩ := List.mem_map.1 member
        rw [(databases database kept).2.2] at there
        cases there
      rw [absent, there, Option.none_or]
      split
      · rfl
      · rename_i out
        by_contra known
        exact out (mem_prefixFiles.2 ⟨known, starts⟩)
    · obtain ⟨database, kept, _, rfl, image⟩ := files file there starts
      have member : (databaseFile pre database.1, database.2) ∈
          snapshot.map fun database => (databaseFile pre database.1, database.2) :=
            List.mem_map.2 ⟨database, kept, rfl⟩
      rw [image, lookup_of_mem names member]
      rfl
  · have absent : (snapshot.map fun database =>
      (databaseFile pre database.1, database.2)).lookup file = none := by
      by_contra known
      obtain ⟨entry, member, rfl⟩ := List.mem_map.1 (mem_names_of_lookup known)
      obtain ⟨database, _, rfl⟩ := List.mem_map.1 member
      exact other (databaseFile_starts _)
    rw [absent, Option.none_or, if_neg]
    exact fun member => other (mem_prefixFiles.1 member).2

end Snapshots

/-- A replacement that names no file outside the originals is all or nothing, whatever the driver does;
    and a snapshot that is restored brings back what it was exported from. -/
theorem replacement_all_or_nothing :
    (∀ (driver : Driver) (before : Pool) (files : List JsString) (replacement : List (JsString × Image))
      (rollbackFailed : List Failure → List (JsString × Image) → Failure), before.thrown = [] →
      (replacement.map (·.1)).Nodup → (∀ f ∈ replacement.map (·.1), before.contents f ≠ none → f ∈ files) →
      (∀ t, replacePoolFiles driver files replacement rollbackFailed before = (.ok (), t) →
        ∀ f, t.contents f = before.replaced files replacement f) ∧
      ∀ e t, replacePoolFiles driver files replacement rollbackFailed before = (.error e, t) →
        Undone before files replacement rollbackFailed e t) ∧
    ∀ (exporting importing : Driver) (storage : Storage) (before before' now now' : Pool)
      (snapshot : List (JsString × Image)),
      now.thrown = [] → exportSnapshot exporting storage before = (.ok snapshot, before') →
      importSnapshot importing storage snapshot now = (.ok (), now') → ∀ file,
        (storage.pre ++ dot <+: file → now'.contents file = before.contents file) ∧
          (¬ storage.pre ++ dot <+: file → now'.contents file = now.contents file) := by
  refine ⟨fun driver before files replacement rollbackFailed quiet distinct covers => ?_,
    fun exporting importing storage before before' now now' snapshot quiet exported imported file => ?_⟩
  · obtain ⟨returned, thrown⟩ := replacePoolFiles_meets driver rollbackFailed distinct covers
      before ⟨rfl, quiet⟩
    exact ⟨fun t ran => returned () t ran, thrown⟩
  · obtain ⟨files, databases⟩ := (exportSnapshot_meets before storage before rfl).1 snapshot before' exported
    obtain ⟨distinct, replaced⟩ := (importSnapshot_meets now storage now ⟨rfl, quiet⟩).1 () now' imported
    exact restored distinct files databases replaced file

/-- The second call fails, and the third on do what they are asked. -/
def stumbling (call : Nat) : Driver where
  fate := fun n => if n = call then .failed else .done
  importable := true

def oneFile : Pool := { empty with files := [(js "a", [1])] }

/-- The import of the one file fails, and the original comes back. -/
theorem replacement_all_or_nothing_undone :
    Undone oneFile [js "a"] [(js "a", [2])] (fun errors original => .restore errors original) (.driver 3)
      (replacePoolFiles (stumbling 2) [js "a"] [(js "a", [2])]
        (fun errors original => .restore errors original) oneFile).2 :=
  (replacement_all_or_nothing.1 (stumbling 2) oneFile [js "a"] [(js "a", [2])]
    (fun errors original => .restore errors original)
    rfl (by decide) (by decide)).2 _ _ rfl

/-- A file that the replacement names and the originals do not is overwritten, and the undo removes it. -/
theorem replacement_loses_unlisted_file :
    ¬ ∀ (driver : Driver) (before : Pool) (files : List JsString) (replacement : List (JsString × Image))
      (rollbackFailed : List Failure → List (JsString × Image) → Failure), before.thrown = [] →
      (replacement.map (·.1)).Nodup →
      ∀ e t, replacePoolFiles driver files replacement rollbackFailed before = (.error e, t) →
        Undone before files replacement rollbackFailed e t := by
  intro undone
  obtain ⟨_, ⟨_, kept⟩ | ⟨original, thrown, _⟩⟩ := undone (stumbling 1)
    oneFile [] [(js "a", [2]), (js "b", [3])]
    (fun errors original => .restore errors original) rfl (by decide) (.driver 2) _ rfl
  · have lost := kept (js "a")
    revert lost
    decide
  · cases thrown

end Pool

end DoRuntime.Backends
