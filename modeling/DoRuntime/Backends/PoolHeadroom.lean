import DoRuntime.Backends.SharedPool

namespace DoRuntime.Backends

open Js Prog Transition

/-- The journal that a connection may have, until it is closed. -/
def WasmDatabase.ownJournal (database : WasmDatabase) : Option JsString :=
  if database.closed then none else some database.journalFile

namespace PoolStep

def Named : PoolStep → Prop
  | .openDatabase _ filename => sqlite <:+ filename
  | _ => True

/-- The files that a step may add. -/
def promised : PoolStep → Finset JsString
  | .openDatabase _ filename => {filename}
  | .importSnapshot storage names | .copyFrom storage names => (names.map (databaseFile storage.pre)).toFinset
  | .importPool files => files.toFinset

def opening : PoolStep → Nat
  | .openDatabase _ _ => 1
  | _ => 0

theorem adding_enough (step : PoolStep) (files : List JsString) :
    (files.toFinset ∪ step.promised).card + step.opening ≤ files.length + step.adding files := by
  have old : files.toFinset.card ≤ files.length := List.toFinset_card_le files
  have whole := Finset.card_union_le files.toFinset step.promised
  cases step with
  | openDatabase storage filename =>
    simp only [promised, opening, adding] at whole ⊢
    by_cases there : filename ∈ files
    · have same : files.toFinset ∪ {filename} = files.toFinset := by
        rw [Finset.union_comm, ← Finset.insert_eq, Finset.insert_eq_of_mem (List.mem_toFinset.2 there)]
      rw [same, if_pos there]
      omega
    · rw [Finset.card_singleton] at whole
      rw [if_neg there]
      omega
  | importSnapshot storage names =>
    have new := List.toFinset_card_le (names.map (databaseFile storage.pre))
    rw [List.length_map] at new
    simp only [promised, opening, adding] at whole ⊢
    omega
  | copyFrom storage names =>
    have new := List.toFinset_card_le (names.map (databaseFile storage.pre))
    rw [List.length_map] at new
    simp only [promised, opening, adding] at whole ⊢
    omega
  | importPool replacement =>
    have new := List.toFinset_card_le replacement
    simp only [promised, opening, adding] at whole ⊢
    omega

end PoolStep

namespace Turn

def promised : Turn → Finset JsString
  | .idle => ∅
  | .reserving step _ => step.promised
  | .exporting files replacement => files.toFinset ∪ replacement.toFinset
  | .importing original rest => original.toFinset ∪ rest.toFinset
  | .failing original => original.toFinset
  | .restoring rest => rest.toFinset

def opening : Turn → Nat
  | .reserving step _ => step.opening
  | _ => 0

/-- What the step under way may count on. -/
def room (capacity : Nat) : Turn → Nat
  | .reserving _ minimum => minimum
  | _ => capacity

def Named : Turn → Prop
  | .reserving step _ => step.Named
  | _ => True

end Turn

namespace SharedPool

/-- The journals that the open connections may have. -/
def journals (s : SharedPool) : Finset JsString := (s.databases.filterMap WasmDatabase.ownJournal).toFinset

/-- The files that are no journal of an open connection. -/
def settled (s : SharedPool) : Finset JsString := s.files.toFinset \ s.journals

structure Sound (s : SharedPool) : Prop where
  nodup : s.files.Nodup
  counted : (s.databases.filterMap WasmDatabase.ownJournal).length = s.openConnections
  connected : ∀ d ∈ s.databases, d.closed = true → d.handle = false
  writes : ∀ d ∈ s.databases, d.writing = true → d.handle = true
  named : ∀ d ∈ s.databases, sqlite <:+ d.filename
  queued : ∀ step ∈ s.queue, step.Named
  spared : s.exhausted = []

/-- The pool takes its files, those held and a journal for each connection, and the room takes those promised. -/
structure Room (capacity : Nat) (turn : Turn) (held promised : Finset JsString) (room : Nat) (s : SharedPool) :
    Prop where
  sound : Sound s
  capacity_eq : s.capacity = capacity
  turn_eq : s.turn = turn
  within : (s.settled ∪ held).card + s.openConnections ≤ capacity
  fits : (s.settled ∪ promised).card + s.openConnections ≤ room

section Files

variable {s t : SharedPool} {capacity room : Nat} {turn : Turn} {held promised : Finset JsString} {file : JsString}

theorem mem_journals : file ∈ s.journals ↔ ∃ d ∈ s.databases, d.closed = false ∧ d.journalFile = file := by
  simp only [journals, List.mem_toFinset, List.mem_filterMap, WasmDatabase.ownJournal]
  constructor
  · rintro ⟨d, member, own⟩
    cases closed : d.closed <;> simp only [closed] at own
    · exact ⟨d, member, closed, Option.some.inj own⟩
    · cases own
  · rintro ⟨d, member, closed, rfl⟩
    exact ⟨d, member, by simp [closed]⟩

theorem Sound.journals_card (sound : Sound s) : s.journals.card ≤ s.openConnections := by
  have card := List.toFinset_card_le (s.databases.filterMap WasmDatabase.ownJournal)
  rwa [sound.counted] at card

theorem Sound.files_length (sound : Sound s) :
    s.files.length = s.settled.card + (s.files.toFinset ∩ s.journals).card := by
  rw [← List.toFinset_card_of_nodup sound.nodup, settled, Finset.card_sdiff_add_card_inter]

theorem Sound.length_le (sound : Sound s) : s.files.length ≤ s.settled.card + s.openConnections := by
  have inner : (s.files.toFinset ∩ s.journals).card ≤ s.journals.card :=
    Finset.card_le_card Finset.inter_subset_right
  have length := sound.files_length
  have card := sound.journals_card
  omega

/-- There is a slot for a file held. -/
theorem Room.free (has : Room capacity turn held promised room s) (among : file ∈ held)
    (missing : file ∉ s.files) : s.files.length < capacity := by
  have new : file ∉ s.settled := fun there => missing (List.mem_toFinset.1 (Finset.mem_sdiff.1 there).1)
  have more : (insert file s.settled).card ≤ (s.settled ∪ held).card := by
    apply Finset.card_le_card
    intro other member
    rcases Finset.mem_insert.1 member with rfl | old
    · exact Finset.mem_union_right _ among
    · exact Finset.mem_union_left _ old
  rw [Finset.card_insert_of_notMem new] at more
  have length := has.sound.length_le
  have within := has.within
  omega

/-- There is a slot for the journal of a connection. -/
theorem Room.free_journal (has : Room capacity turn held promised room s) (own : file ∈ s.journals)
    (missing : file ∉ s.files) : s.files.length < capacity := by
  have fewer : (s.files.toFinset ∩ s.journals).card < s.journals.card := by
    apply Finset.card_lt_card
    rw [Finset.ssubset_iff_of_subset Finset.inter_subset_right]
    exact ⟨file, own, fun there => missing (List.mem_toFinset.1 (Finset.mem_inter.1 there).1)⟩
  have length := has.sound.files_length
  have card := has.sound.journals_card
  have within := has.within
  have part := Finset.card_le_card (show s.settled ⊆ s.settled ∪ held from Finset.subset_union_left)
  omega

theorem settled_remove (file : JsString) (s : SharedPool) : (remove file s).settled ⊆ s.settled := by
  intro other member
  obtain ⟨there, apart⟩ := Finset.mem_sdiff.1 member
  exact Finset.mem_sdiff.2 ⟨List.mem_toFinset.2 (List.mem_of_mem_erase (List.mem_toFinset.1 there)), apart⟩

theorem Room.shrink (has : Room capacity turn held promised room s) (sound : Sound t) (same : t.capacity = s.capacity)
    (still : t.turn = s.turn) (fewer : t.settled ⊆ s.settled) (count : t.openConnections = s.openConnections) :
    Room capacity turn held promised room t where
  sound := sound
  capacity_eq := same.trans has.capacity_eq
  turn_eq := still.trans has.turn_eq
  within := by
    have within := has.within
    have card := Finset.card_le_card (Finset.union_subset_union_left (t := held) fewer)
    omega
  fits := by
    have fits := has.fits
    have card := Finset.card_le_card (Finset.union_subset_union_left (t := promised) fewer)
    omega

theorem Room.remove (has : Room capacity turn held promised room s) (file : JsString) :
    Room capacity turn held promised room (s.remove file) :=
  has.shrink { has.sound with nodup := has.sound.nodup.erase file } rfl rfl (settled_remove file s) rfl

end Files

section Calls

variable {answer : Nat → Answer} {capacity room : Nat} {turn : Turn} {held promised : Finset JsString} {file : JsString}

theorem takeSlot_there {s : SharedPool} (there : file ∈ s.files) : takeSlot file s = (.ok (), s) := by
  unfold takeSlot
  rw [state_bind, if_pos there]
  rfl

theorem takeSlot_free {s : SharedPool} (missing : file ∉ s.files) (free : s.files.length < s.capacity) :
    takeSlot file s = (.ok (), { s with files := s.files ++ [file] }) := by
  unfold takeSlot
  rw [state_bind, if_neg missing, if_pos free]
  rfl

theorem settled_append (s : SharedPool) (file : JsString) :
    ({ s with files := s.files ++ [file] } : SharedPool).settled ⊆ insert file s.settled := by
  intro other member
  obtain ⟨there, apart⟩ := Finset.mem_sdiff.1 member
  rcases List.mem_append.1 (List.mem_toFinset.1 there) with old | new
  · exact Finset.mem_insert_of_mem (Finset.mem_sdiff.2 ⟨List.mem_toFinset.2 old, apart⟩)
  · exact Finset.mem_insert.2 (.inl (List.mem_singleton.1 new))

theorem Sound.append {s : SharedPool} (sound : Sound s) (missing : file ∉ s.files) :
    Sound { s with files := s.files ++ [file] } :=
  { sound with nodup := List.nodup_append.2 ⟨sound.nodup, List.nodup_singleton file, by
      intro other old last new same
      exact missing (List.mem_singleton.1 new ▸ same ▸ old)⟩ }

theorem union_append {s : SharedPool} {P : Finset JsString} (among : file ∈ P) :
    (({ s with files := s.files ++ [file] } : SharedPool).settled ∪ P).card ≤ (s.settled ∪ P).card := by
  apply Finset.card_le_card
  intro other member
  rcases Finset.mem_union.1 member with old | new
  · rcases Finset.mem_insert.1 (settled_append s file old) with rfl | old
    · exact Finset.mem_union_right _ among
    · exact Finset.mem_union_left _ old
  · exact Finset.mem_union_right _ new

theorem takeSlot_keeps (holding : file ∈ held) (among : file ∈ promised) :
    Keeps (Room capacity turn held promised room) (takeSlot file) := by
  intro s has
  by_cases there : file ∈ s.files
  · rw [takeSlot_there there]
    exact has
  have free := has.free holding there
  rw [takeSlot_free there (by rw [has.capacity_eq]; exact free)]
  exact ⟨has.sound.append there, has.capacity_eq, has.turn_eq,
    (Nat.add_le_add_right (union_append holding) _).trans has.within,
    (Nat.add_le_add_right (union_append among) _).trans has.fits⟩

theorem Room.silent {s : SharedPool} (has : Room capacity turn held promised room s) (calls : Nat) (touched : List JsString) :
    Room capacity turn held promised room { s with calls, touched } :=
  has.shrink { has.sound with nodup := has.sound.nodup } rfl rfl (Finset.Subset.refl _) rfl

theorem call_keeps : Keeps (Room capacity turn held promised room) (call answer) := by
  apply Keeps.state
  intro s _
  apply Keeps.bind
  · exact Keeps.update fun t has => has.silent _ t.touched
  · exact fun _ => Keeps.pure

theorem failCall_keeps {α : Type} : Keeps (Room capacity turn held promised room) (failCall : Act α) :=
  Keeps.state fun _ _ => Keeps.raise

theorem remove_keeps : Keeps (Room capacity turn held promised room) (update (remove file) : Act Unit) :=
  Keeps.update fun _ has => has.remove file

theorem unlink_keeps : Keeps (Room capacity turn held promised room) (unlink answer file) := by
  apply Keeps.bind call_keeps
  intro result
  cases result with
  | done =>
    apply Keeps.state
    intro s _
    apply Keeps.bind remove_keeps
    intro _
    split
    · exact Keeps.pure
    · exact Keeps.raise
  | refused => exact Keeps.raise
  | throws there =>
    cases there
    · exact Keeps.bind remove_keeps fun _ => failCall_keeps
    · exact failCall_keeps

theorem importDb_keeps (holding : file ∈ held) (among : file ∈ promised) :
    Keeps (Room capacity turn held promised room) (importDb answer file) := by
  apply Keeps.bind call_keeps
  intro result
  cases result with
  | done => exact takeSlot_keeps holding among
  | refused => exact failCall_keeps
  | throws there =>
    cases there
    · exact Keeps.bind (takeSlot_keeps holding among) fun _ => Keeps.bind remove_keeps fun _ => failCall_keeps
    · exact Keeps.bind (takeSlot_keeps holding among) fun _ => failCall_keeps

theorem openHandle_keeps (holding : file ∈ held) (among : file ∈ promised) :
    Keeps (Room capacity turn held promised room) (openHandle answer file) := by
  apply Keeps.bind call_keeps
  intro result
  cases result with
  | done => exact takeSlot_keeps holding among
  | refused => exact failCall_keeps
  | throws there =>
    cases there
    · exact failCall_keeps
    · exact Keeps.bind (takeSlot_keeps holding among) fun _ => failCall_keeps

theorem endJournal_keeps : Keeps (Room capacity turn held promised room) (endJournal answer file) := by
  apply Keeps.bind call_keeps
  intro result
  cases result with
  | done => exact remove_keeps
  | refused => exact Keeps.pure
  | throws there => exact Keeps.pure

end Calls

section Databases

variable {answer : Nat → Answer} {capacity room i : Nat} {turn : Turn} {held promised : Finset JsString}
  {s : SharedPool} {d b : WasmDatabase}

theorem set_split {α : Type} {l : List α} {i : Nat} {a : α} (found : l[i]? = some a) :
    ∃ front back, l = front ++ a :: back ∧ ∀ b, l.set i b = front ++ b :: back := by
  obtain ⟨inside, rfl⟩ := List.getElem?_eq_some_iff.1 found
  refine ⟨l.take i, l.drop (i + 1), ?_, fun b => ?_⟩
  · rw [List.getElem_cons_drop, List.take_append_drop]
  · rw [List.set_eq_take_append_cons_drop, if_pos inside]

/-- A database changes, and keeps its journal. -/
theorem Room.setDatabase (has : Room capacity turn held promised room s) (found : s.databases[i]? = some d)
    (name : b.filename = d.filename) (still : b.closed = d.closed) (opened : b.handle = true → d.closed = false)
    (writes : b.writing = true → b.handle = true) :
    Room capacity turn held promised room { s with databases := s.databases.set i b } := by
  obtain ⟨front, back, whole, changed⟩ := set_split found
  have member : d ∈ s.databases := List.mem_of_getElem? found
  have own : b.ownJournal = d.ownJournal := by
    unfold WasmDatabase.ownJournal WasmDatabase.journalFile
    rw [name, still]
  have same : (s.databases.set i b).filterMap WasmDatabase.ownJournal = s.databases.filterMap WasmDatabase.ownJournal := by
    rw [changed, whole]
    simp only [List.filterMap_append, List.filterMap_cons, own]
  have settled : ({ s with databases := s.databases.set i b } : SharedPool).settled = s.settled := by
    unfold SharedPool.settled journals
    rw [same]
  have among : ∀ e ∈ s.databases.set i b, e ∈ s.databases ∨ e = b := fun e member => List.mem_or_eq_of_mem_set member
  have sound : Sound { s with databases := s.databases.set i b } := { has.sound with
    counted := by rw [← has.sound.counted, same]
    connected := by
      intro e changed closed
      rcases among e changed with old | rfl
      · exact has.sound.connected e old closed
      · cases handle : e.handle
        · rfl
        · rw [still, opened handle] at closed
          cases closed
    writes := by
      intro e changed writing
      rcases among e changed with old | rfl
      · exact has.sound.writes e old writing
      · exact writes writing
    named := by
      intro e changed
      rcases among e changed with old | rfl
      · exact has.sound.named e old
      · rw [name]
        exact has.sound.named d member }
  exact has.shrink sound rfl rfl settled.subset rfl

/-- A database is closed, and what is left of its journal is settled. -/
theorem Room.forget (has : Room capacity turn held promised room s) (found : s.databases[i]? = some d)
    (living : d.closed = false) (name : b.filename = d.filename) (closed : b.closed = true)
    (handle : b.handle = false) (idle : b.writing = false) (opened : Storage → List Nat) :
    Room capacity turn held promised room { s with
      databases := s.databases.set i b
      openConnections := s.openConnections - 1
      openDatabases := opened } := by
  obtain ⟨front, back, whole, changed⟩ := set_split found
  have member : d ∈ s.databases := List.mem_of_getElem? found
  have own : d.ownJournal = some d.journalFile := by simp [WasmDatabase.ownJournal, living]
  have gone : b.ownJournal = none := by simp [WasmDatabase.ownJournal, closed]
  have counted := has.sound.counted
  rw [whole] at counted
  simp only [List.filterMap_append, List.filterMap_cons, own, List.length_append, List.length_cons] at counted
  have among : ∀ e ∈ s.databases.set i b, e ∈ s.databases ∨ e = b := fun e member => List.mem_or_eq_of_mem_set member
  have sound : Sound { s with
      databases := s.databases.set i b
      openConnections := s.openConnections - 1
      openDatabases := opened } :=
    { has.sound with
      counted := by
        rw [changed]
        simp only [List.filterMap_append, List.filterMap_cons, gone, List.length_append]
        omega
      connected := by
        intro e changed ended
        rcases among e changed with old | rfl
        · exact has.sound.connected e old ended
        · exact handle
      writes := by
        intro e changed writing
        rcases among e changed with old | rfl
        · exact has.sound.writes e old writing
        · rw [idle] at writing
          cases writing
      named := by
        intro e changed
        rcases among e changed with old | rfl
        · exact has.sound.named e old
        · rw [name]
          exact has.sound.named d member }
  have settled : ({ s with
      databases := s.databases.set i b
      openConnections := s.openConnections - 1
      openDatabases := opened } : SharedPool).settled ⊆ insert d.journalFile s.settled := by
    intro file among
    obtain ⟨there, apart⟩ := Finset.mem_sdiff.1 among
    by_cases own : file = d.journalFile
    · exact Finset.mem_insert.2 (.inl own)
    apply Finset.mem_insert_of_mem
    refine Finset.mem_sdiff.2 ⟨there, fun journal => apart ?_⟩
    obtain ⟨e, listed, alive, rfl⟩ := mem_journals.1 journal
    apply mem_journals.2
    refine ⟨e, ?_, alive, rfl⟩
    rw [whole] at listed
    change e ∈ s.databases.set i b
    rw [changed]
    rcases List.mem_append.1 listed with front | rest
    · exact List.mem_append_left _ front
    · rcases List.mem_cons.1 rest with rfl | back
      · exact absurd rfl own
      · exact List.mem_append_right _ (List.mem_cons_of_mem _ back)
  have card : ∀ P : Finset JsString, (({ s with
      databases := s.databases.set i b
      openConnections := s.openConnections - 1
      openDatabases := opened } : SharedPool).settled ∪ P).card ≤ (s.settled ∪ P).card + 1 := by
    intro P
    apply (Finset.card_le_card (Finset.union_subset_union_left settled)).trans
    rw [Finset.insert_union]
    exact Finset.card_insert_le d.journalFile (s.settled ∪ P)
  have within := has.within
  have fits := has.fits
  have one := card held
  have two := card promised
  exact ⟨sound, has.capacity_eq, has.turn_eq, by dsimp only at *; omega, by dsimp only at *; omega⟩

def Finds (i : Nat) (d : WasmDatabase) (s : SharedPool) : Prop := s.databases[i]? = some d

section Finds

variable {file : JsString}

theorem call_finds : Keeps (Finds i d) (call answer) :=
  Keeps.state fun _ _ => Keeps.bind (Keeps.update fun _ => id) fun _ => Keeps.pure

theorem failCall_finds : Keeps (Finds i d) (failCall : Act Unit) := Keeps.state fun _ _ => Keeps.raise

theorem remove_finds : Keeps (Finds i d) (update (remove file) : Act Unit) := Keeps.update fun _ => id

theorem takeSlot_finds : Keeps (Finds i d) (takeSlot file) := by
  apply Keeps.state
  intro s _
  split
  · exact Keeps.pure
  · split
    · exact Keeps.update fun _ => id
    · exact Keeps.bind (Keeps.update fun _ => id) fun _ => failCall_finds

theorem endJournal_finds : Keeps (Finds i d) (endJournal answer file) := by
  apply Keeps.bind call_finds
  intro result
  cases result with
  | done => exact remove_finds
  | refused => exact Keeps.pure
  | throws there => exact Keeps.pure

theorem unlink_finds : Keeps (Finds i d) (unlink answer file) := by
  apply Keeps.bind call_finds
  intro result
  cases result with
  | done =>
    apply Keeps.state
    intro s _
    apply Keeps.bind remove_finds
    intro _
    split
    · exact Keeps.pure
    · exact Keeps.raise
  | refused => exact Keeps.raise
  | throws there =>
    cases there
    · exact Keeps.bind remove_finds fun _ => failCall_finds
    · exact failCall_finds

theorem openHandle_finds : Keeps (Finds i d) (openHandle answer file) := by
  apply Keeps.bind call_finds
  intro result
  cases result with
  | done => exact takeSlot_finds
  | refused => exact failCall_finds
  | throws there =>
    cases there
    · exact failCall_finds
    · exact Keeps.bind takeSlot_finds fun _ => failCall_finds

end Finds

theorem rollBack_keeps :
    Keeps (fun s => Room capacity turn held promised room s ∧ Finds i d s) (rollBack answer d) := by
  unfold rollBack
  split
  · exact endJournal_keeps.and_keeps endJournal_finds
  · exact Keeps.pure

theorem closeHandle_spec :
    Ensures (fun s => Room capacity turn held promised room s ∧ Finds i d s) (closeHandle answer i d)
      (fun _ s => Room capacity turn held promised room s ∧ Finds i { d with handle := false, writing := false } s)
      (Room capacity turn held promised room) := by
  apply Ensures.bind (rollBack_keeps.weaken (fun _ => id) (fun _ _ => id) fun _ => And.left)
  intro _
  apply Ensures.update
  intro s ⟨has, found⟩
  constructor
  · exact has.setDatabase found rfl rfl (by simp) (by simp)
  · exact List.getElem?_set_self (List.getElem?_eq_some_iff.1 found).1

theorem close_keeps : Keeps (Room capacity turn held promised room) (close answer i) := by
  apply Ensures.state
  intro s _
  cases found : s.databases[i]? with
  | none => exact Ensures.pure fun _ => And.right
  | some d =>
    dsimp only
    split
    · exact Ensures.pure fun _ => And.right
    · rename_i living
      apply Ensures.bind (closeHandle_spec.weaken _ (fun _ _ => id) fun _ => id)
      · intro _
        apply Ensures.update
        intro t ⟨has, found⟩
        apply has.forget found
        · simpa using living
        all_goals rfl
      · rintro t ⟨rfl, has⟩
        exact ⟨has, found⟩

theorem closeAll_keeps {storage : Storage} :
    Keeps (Room capacity turn held promised room) (closeAll answer storage) :=
  Keeps.state fun _ _ => Keeps.forEach fun _ _ => close_keeps

theorem deleteAll_keeps {storage : Storage} :
    Keeps (Room capacity turn held promised room) (deleteAll answer storage) :=
  Keeps.bind closeAll_keeps fun _ => Keeps.state fun _ _ => Keeps.forEach fun _ _ => unlink_keeps

theorem unlink_missing {file : JsString} :
    Ensures (fun s => Room capacity turn held promised room s ∧ file ∉ s.files) (unlink answer file)
      (fun _ _ => False) (Room capacity turn held promised room) := by
  apply Ensures.bind (Q := fun _ s => Room capacity turn held promised room s ∧ file ∉ s.files)
  · apply (call_keeps.and_keeps (I := fun s => file ∉ s.files) _).weaken (fun _ => id) (fun _ _ => id) fun _ => And.left
    exact Keeps.state fun _ _ => Keeps.bind (Keeps.update fun _ => id) fun _ => Keeps.pure
  · intro result
    cases result with
    | done =>
      apply Ensures.state
      intro s ⟨_, missing⟩
      apply Ensures.bind (Q := fun _ => Room capacity turn held promised room)
      · apply Ensures.update
        intro t ⟨_, has, _⟩
        exact has.remove file
      · intro _
        rw [if_neg missing]
        exact Ensures.raise fun _ => id
    | refused => exact Ensures.raise fun _ => And.left
    | throws there =>
      cases there
      · exact Ensures.bind (Q := fun _ => Room capacity turn held promised room)
          (Ensures.update fun _ has => has.1.remove file) fun _ => Ensures.state fun _ _ => Ensures.raise fun _ => And.right
      · exact Ensures.state fun _ _ => Ensures.raise fun _ has => has.2.1

/-- What is settled may be held besides. -/
theorem Room.hold {more : Finset JsString} (has : Room capacity turn held promised room s) (there : more ⊆ s.settled) :
    Room capacity turn (more ∪ held) (more ∪ promised) room s := by
  have same : ∀ P : Finset JsString, s.settled ∪ (more ∪ P) = s.settled ∪ P := by
    intro P
    rw [← Finset.union_assoc, Finset.union_eq_left.2 there]
  exact ⟨has.sound, has.capacity_eq, has.turn_eq, by rw [same]; exact has.within, by rw [same]; exact has.fits⟩

theorem Room.release {held' promised' : Finset JsString} (has : Room capacity turn held promised room s)
    (fewer : held' ⊆ held) (fewer' : promised' ⊆ promised) : Room capacity turn held' promised' room s := by
  have within := has.within
  have fits := has.fits
  have one := Finset.card_le_card (Finset.union_subset_union_right (s := s.settled) fewer)
  have two := Finset.card_le_card (Finset.union_subset_union_right (s := s.settled) fewer')
  exact ⟨has.sound, has.capacity_eq, has.turn_eq, by omega, by omega⟩

theorem journal_apart {file : JsString} (ends : sqlite <:+ file) : ¬ journal <:+ file := by
  intro other
  have inner := List.suffix_of_suffix_length_le ends other (by decide)
  exact absurd inner (by decide)

theorem Sound.settled_of {file : JsString} (sound : Sound s) (there : file ∈ s.files) (ends : sqlite <:+ file) :
    file ∈ s.settled := by
  apply Finset.mem_sdiff.2 ⟨List.mem_toFinset.2 there, fun own => ?_⟩
  obtain ⟨d, _, _, rfl⟩ := mem_journals.1 own
  exact journal_apart ends ⟨d.filename, rfl⟩

theorem reset_keeps (living : d.closed = false) :
    Ensures (fun s => Room capacity turn held promised room s ∧ Finds i d s) (reset answer i)
      (fun _ => Room capacity turn held promised room) (Room capacity turn held promised room) := by
  apply Ensures.state
  intro s ⟨_, found⟩
  simp only [show s.databases[i]? = some d from found]
  apply Ensures.bind (closeHandle_spec.weaken (fun _ => And.right) (fun _ _ => id) fun _ => id)
  intro _ t ⟨has, found⟩
  by_cases there : d.filename ∈ t.files
  · have ends : sqlite <:+ d.filename := has.sound.named { d with handle := false, writing := false }
      (List.mem_of_getElem? found)
    have hold := has.hold (Finset.singleton_subset_iff.2 (has.sound.settled_of there ends))
    have back : ∀ u, Room capacity turn ({d.filename} ∪ held) ({d.filename} ∪ promised) room u ∧
        Finds i { d with handle := false, writing := false } u → Room capacity turn held promised room u :=
      fun u still => still.1.release Finset.subset_union_right Finset.subset_union_right
    refine Ensures.bind ((unlink_keeps.and_keeps unlink_finds).weaken (fun _ => id) (fun _ _ => id) back)
      (fun _ => Ensures.bind ((Ensures.and_keeps (openHandle_keeps ?_ ?_) openHandle_finds).weaken (fun _ => id)
        (fun _ _ => id) back) fun _ => Ensures.update ?_) t ⟨hold, found⟩
    · exact Finset.mem_union_left _ (Finset.mem_singleton_self _)
    · exact Finset.mem_union_left _ (Finset.mem_singleton_self _)
    · intro u ⟨still, found⟩
      have opened := still.setDatabase (b := { d with handle := true, writing := false }) found rfl rfl
        (fun _ => living) (fun _ => rfl)
      exact opened.release Finset.subset_union_right Finset.subset_union_right
  · exact Ensures.bind unlink_missing (fun _ _ none => none.elim) t ⟨has, there⟩

theorem takeSlot_journal {file : JsString} :
    Ensures (fun s => (Room capacity turn held promised room s ∧ Finds i d s) ∧ file ∈ s.journals) (takeSlot file)
      (fun _ s => Room capacity turn held promised room s ∧ Finds i d s) (Room capacity turn held promised room) := by
  intro s ⟨⟨has, found⟩, own⟩
  by_cases there : file ∈ s.files
  · rw [takeSlot_there there]
    exact ⟨has, found⟩
  rw [takeSlot_free there (by rw [has.capacity_eq]; exact has.free_journal own there)]
  refine ⟨has.shrink (has.sound.append there) rfl rfl ?_ rfl, found⟩
  intro other member
  obtain ⟨listed, apart⟩ := Finset.mem_sdiff.1 member
  rcases List.mem_append.1 (List.mem_toFinset.1 listed) with old | new
  · exact Finset.mem_sdiff.2 ⟨List.mem_toFinset.2 old, apart⟩
  · exact absurd (List.mem_singleton.1 new ▸ own) apart

theorem beginJournal_keeps (handle : d.handle = true) :
    Ensures (fun s => Room capacity turn held promised room s ∧ Finds i d s) (beginJournal i d)
      (fun _ => Room capacity turn held promised room) (Room capacity turn held promised room) := by
  have living : ∀ s, Room capacity turn held promised room s → Finds i d s → d.closed = false := by
    intro s has found
    cases closed : d.closed
    · rfl
    · have shut := has.sound.connected d (List.mem_of_getElem? found) closed
      rw [handle] at shut
      cases shut
  apply Ensures.bind ((takeSlot_journal (d := d) (i := i)).weaken _ (fun _ _ => id) fun _ => id)
  · intro _
    apply Ensures.update
    intro s ⟨has, found⟩
    exact has.setDatabase found rfl rfl (fun _ => living s has found) fun _ => handle
  · intro s ⟨has, found⟩
    exact ⟨⟨has, found⟩, mem_journals.2 ⟨d, List.mem_of_getElem? found, living s has found, rfl⟩⟩

theorem endWrite_keeps :
    Ensures (fun s => Room capacity turn held promised room s ∧ Finds i d s) (endWrite answer i d)
      (fun _ => Room capacity turn held promised room) (Room capacity turn held promised room) := by
  apply Ensures.bind ((endJournal_keeps.and_keeps endJournal_finds).weaken (fun _ => id) (fun _ _ => id)
    fun _ => And.left)
  intro _
  apply Ensures.update
  intro s ⟨has, found⟩
  refine has.setDatabase (b := { d with writing := false }) found rfl rfl (fun handle => ?_) (by simp)
  cases closed : d.closed
  · rfl
  · have shut := has.sound.connected d (List.mem_of_getElem? found) closed
    rw [show d.handle = true from handle] at shut
    cases shut

end Databases

/-- The step under way has the room that it counts on. -/
structure Ready (s : SharedPool) : Prop where
  counts : s.turn.opening ≤ s.turn.room s.capacity
  has : Room s.capacity s.turn ∅ s.turn.promised (s.turn.room s.capacity - s.turn.opening) s
  named : s.turn.Named

section Steps

variable {answer : Nat → Answer} {capacity room : Nat} {turn next : Turn} {held promised : Finset JsString}
  {s : SharedPool} {pre : JsString} {names files : List JsString} {action : String}

theorem Room.setTurn (has : Room capacity turn held promised room s) (fewer : next.promised ⊆ held)
    (plain : next.opening = 0) (whole : next.room capacity = capacity) (named : next.Named) :
    Ready { s with turn := next } := by
  have same := has.capacity_eq
  have within := has.within
  have none := Finset.card_le_card (Finset.union_subset_union_right (s := s.settled) (Finset.empty_subset held))
  have some := Finset.card_le_card (Finset.union_subset_union_right (s := s.settled) fewer)
  refine ⟨?_, ⟨{ has.sound with nodup := has.sound.nodup }, rfl, rfl, ?_, ?_⟩, named⟩
  · rw [plain]
    exact Nat.zero_le _
  · change (s.settled ∪ ∅).card + s.openConnections ≤ s.capacity
    omega
  · change (s.settled ∪ next.promised).card + s.openConnections ≤ next.room s.capacity - next.opening
    rw [plain, same, whole]
    omega

theorem Room.idle (has : Room capacity .idle held promised room s) : Ready s := by
  have ready : Ready { s with turn := .idle } := has.setTurn (Finset.empty_subset _) rfl rfl trivial
  rwa [show { s with turn := Turn.idle } = s by rw [← has.turn_eq]] at ready

theorem Ready.keep {t : SharedPool} (ready : Ready s)
    (has : Room s.capacity s.turn ∅ s.turn.promised (s.turn.room s.capacity - s.turn.opening) t) : Ready t := by
  have same := has.capacity_eq
  have still := has.turn_eq
  refine ⟨?_, ?_, ?_⟩
  · rw [same, still]
    exact ready.counts
  · rw [same, still]
    exact has
  · rw [still]
    exact ready.named

theorem Room.register (has : Room capacity .idle held promised room s) (less : room + 1 ≤ capacity) (storage : Storage)
    {filename : JsString} (named : sqlite <:+ filename) (opened : Storage → List Nat) :
    Ready { s with
      databases := s.databases ++ [⟨storage, filename, true, false, false⟩]
      openConnections := s.openConnections + 1
      openDatabases := opened } := by
  have among : ∀ d ∈ s.databases ++ [(⟨storage, filename, true, false, false⟩ : WasmDatabase)],
      d ∈ s.databases ∨ d = ⟨storage, filename, true, false, false⟩ := by
    intro d member
    simpa using member
  have sound : Sound { s with
      databases := s.databases ++ [⟨storage, filename, true, false, false⟩]
      openConnections := s.openConnections + 1
      openDatabases := opened } := { has.sound with
    counted := by
      rw [List.filterMap_append, List.length_append, has.sound.counted]
      rfl
    connected := by
      intro d member closed
      rcases among d member with old | rfl
      · exact has.sound.connected d old closed
      · cases closed
    writes := by
      intro d member writing
      rcases among d member with old | rfl
      · exact has.sound.writes d old writing
      · cases writing
    named := by
      intro d member
      rcases among d member with old | rfl
      · exact has.sound.named d old
      · exact named }
  have fewer : ({ s with
      databases := s.databases ++ [⟨storage, filename, true, false, false⟩]
      openConnections := s.openConnections + 1
      openDatabases := opened } : SharedPool).settled ⊆ s.settled := by
    intro file member
    obtain ⟨there, apart⟩ := Finset.mem_sdiff.1 member
    refine Finset.mem_sdiff.2 ⟨there, fun own => apart ?_⟩
    obtain ⟨d, old, living, rfl⟩ := mem_journals.1 own
    exact mem_journals.2 ⟨d, List.mem_append_left _ old, living, rfl⟩
  have fits := has.fits
  have card := Finset.card_le_card (fewer.trans (show s.settled ⊆ s.settled ∪ promised from Finset.subset_union_left))
  have bound : ∀ P, P = ∅ → (({ s with
      databases := s.databases ++ [⟨storage, filename, true, false, false⟩]
      openConnections := s.openConnections + 1
      openDatabases := opened } : SharedPool).settled ∪ P).card + (s.openConnections + 1) ≤ capacity := by
    intro P none
    rw [none, Finset.union_empty]
    omega
  have opened : Room capacity .idle ∅ ∅ capacity _ := ⟨sound, has.capacity_eq, has.turn_eq, bound ∅ rfl, bound ∅ rfl⟩
  exact opened.idle

theorem sidecars_spec {I : SharedPool → Prop} :
    Ensures I (requireNoRecoverySidecars files action) (fun _ s => I s ∧ ∀ file ∈ files, sqlite <:+ file) I := by
  unfold requireNoRecoverySidecars
  cases found : files.find? fun file => !sqlite.isSuffixOf file with
  | some file => exact Ensures.raise fun _ => id
  | none =>
    apply Ensures.pure
    intro s kept
    refine ⟨kept, fun file member => ?_⟩
    have ends := List.find?_eq_none.1 found file member
    exact List.isSuffixOf_iff_suffix.1 (by simpa using ends)

theorem requireDatabaseName_keeps {I : SharedPool → Prop} {file : JsString} : Keeps I (requireDatabaseName pre file) := by
  unfold requireDatabaseName
  split
  · exact Keeps.pure
  · exact Keeps.raise

theorem requireNoOpenHandles_spec {I : SharedPool → Prop} {opened : Nat} :
    Ensures I (requireNoOpenHandles opened) (fun _ s => I s ∧ opened = 0) I := by
  unfold requireNoOpenHandles
  split
  · exact Ensures.raise fun _ => id
  · rename_i none
    exact Ensures.pure fun _ kept => ⟨kept, by omega⟩

theorem Sound.settled_all (sound : Sound s) (there : ∀ file ∈ files, file ∈ s.files)
    (ends : ∀ file ∈ files, sqlite <:+ file) : files.toFinset ⊆ s.settled := by
  intro file member
  have listed := List.mem_toFinset.1 member
  exact sound.settled_of (there file listed) (ends file listed)

/-- `replacePoolFiles` waits with its originals held besides its replacement. -/
theorem Room.export (has : Room capacity turn held promised room s) (there : ∀ file ∈ files, file ∈ s.files)
    (ends : ∀ file ∈ files, sqlite <:+ file) (replaces : names.toFinset ⊆ held) :
    Ready { s with turn := .exporting files names } := by
  apply (has.hold (has.sound.settled_all there ends)).setTurn
  · exact Finset.union_subset_union_right replaces
  · rfl
  · rfl
  · trivial

theorem replaceDatabases_ready (replaces : (names.map (databaseFile pre)).toFinset ⊆ held) :
    Ensures (Room capacity .idle held promised room) (replaceDatabases pre names action) (fun _ => Ready) Ready := by
  apply Ensures.state
  intro s _
  apply Ensures.bind (sidecars_spec.weaken (fun _ => id) (fun _ _ => id) fun _ has => has.2.idle)
  intro _
  apply Ensures.bind (Q := fun _ t => (t = s ∧ Room capacity .idle held promised room t) ∧
    ∀ file ∈ s.prefixFiles pre, sqlite <:+ file)
  · have checked : Keeps (fun t => (t = s ∧ Room capacity .idle held promised room t) ∧
        ∀ file ∈ s.prefixFiles pre, sqlite <:+ file) (forEach (s.prefixFiles pre) (requireDatabaseName pre)) :=
      Keeps.forEach fun _ _ => requireDatabaseName_keeps
    exact checked.weaken (fun _ => id) (fun _ _ => id) fun _ has => has.1.2.idle
  intro _
  apply Ensures.update
  intro t ⟨⟨same, has⟩, ends⟩
  subst same
  exact has.export (fun file member => (List.mem_filter.1 member).1) ends replaces

/-- The files of a pool without connections are held while the hot journals among them are rolled back. -/
theorem recoveredPoolFiles_spec :
    Ensures (Room capacity .idle held promised room) (recoveredPoolFiles answer action)
      (fun recovered s => Room capacity .idle held promised room s ∧ s.files = recovered ∧
        ∀ file ∈ recovered, sqlite <:+ file) Ready := by
  apply Ensures.state
  intro s _
  apply Ensures.bind (requireNoOpenHandles_spec.weaken (fun _ => id) (fun _ _ => id) fun _ has => has.2.idle)
  intro _ t ⟨⟨same, has⟩, unopened⟩
  subst same
  have all : t.files.toFinset ⊆ t.settled := by
    have journals := has.sound.journals_card
    rw [unopened, Nat.le_zero, Finset.card_eq_zero] at journals
    unfold settled
    rw [journals, Finset.sdiff_empty]
  have rolled : Keeps (Room capacity .idle (t.files.toFinset ∪ held) (t.files.toFinset ∪ promised) room)
      (forEach t.files fun file =>
        if journal.isSuffixOf file && decide (file.take (file.length - journal.length) ∈ t.files) then
          rollBackHotJournal answer file
        else pure ()) := by
    apply Keeps.forEach
    intro file _
    split
    · rename_i hot
      have there : file.take (file.length - journal.length) ∈ t.files := of_decide_eq_true (Bool.and_eq_true _ _ ▸ hot).2
      have among := List.mem_toFinset.2 there
      exact Keeps.bind (openHandle_keeps (Finset.mem_union_left _ among) (Finset.mem_union_left _ among))
        fun _ => endJournal_keeps
    · exact Keeps.pure
  refine Ensures.bind (rolled.weaken (fun _ => id) (fun _ _ => id) fun _ has => has.idle) (fun _ => ?_) t (has.hold all)
  apply Ensures.state
  intro u _
  apply Ensures.bind (sidecars_spec.weaken (fun _ => id) (fun _ _ => id) fun _ has => has.2.idle)
  intro _
  apply Ensures.pure
  intro v ⟨⟨same, has⟩, ends⟩
  subst same
  exact ⟨has.release Finset.subset_union_right Finset.subset_union_right, rfl, ends⟩

theorem runStep_ready {step : PoolStep} (named : step.Named) (least : step.opening ≤ capacity) :
    Ensures (Room capacity .idle step.promised step.promised (capacity - step.opening)) (runStep answer step)
      (fun _ => Ready) Ready := by
  cases step with
  | openDatabase storage filename =>
    apply Ensures.bind
    · exact (openHandle_keeps (Finset.mem_singleton_self _) (Finset.mem_singleton_self _)).weaken
        (fun _ => id) (fun _ _ => id) fun _ has => has.idle
    · intro _
      apply Ensures.update
      intro s has
      exact has.register (Nat.sub_add_cancel least).le storage named _
  | importSnapshot storage names =>
    apply Ensures.state
    intro s _
    apply Ensures.bind (requireNoOpenHandles_spec.weaken (fun _ => id) (fun _ _ => id) fun _ has => has.2.idle)
    exact fun _ => (replaceDatabases_ready (Finset.Subset.refl _)).weaken (fun _ has => has.1.2) (fun _ _ => id) fun _ => id
  | copyFrom storage names =>
    apply Ensures.bind (closeAll_keeps.weaken (fun _ => id) (fun _ _ => id) fun _ has => has.idle)
    exact fun _ => replaceDatabases_ready (Finset.Subset.refl _)
  | importPool replacement =>
    apply Ensures.bind recoveredPoolFiles_spec
    intro recovered
    apply Ensures.update
    intro s ⟨has, same, ends⟩
    subst same
    exact has.export (fun _ => id) ends (Finset.Subset.refl _)

theorem touch_keeps {file : JsString} : Keeps (Room capacity turn held promised room) (touch file) :=
  Keeps.update fun s has => has.silent s.calls _

theorem importNext_ready {E : SharedPool → Prop} {original rest : List JsString}
    (holds : original.toFinset ∪ rest.toFinset ⊆ held) :
    Ensures (Room capacity turn held held room) (importNext answer original rest) (fun _ => Ready) E := by
  cases rest with
  | nil => exact Ensures.update fun s has => has.setTurn (Finset.empty_subset _) rfl rfl trivial
  | cons file rest =>
    apply Ensures.bind (Q := fun _ => Room capacity turn held held room)
    · exact fun s has => touch_keeps s has
    intro _
    apply Ensures.attempt (F := Room capacity turn held held room)
    · have among : file ∈ held := holds (by simp)
      apply Ensures.bind (importDb_keeps among among)
      intro _
      apply Ensures.update
      intro s has
      refine has.setTurn ?_ rfl rfl trivial
      intro other member
      apply holds
      rcases Finset.mem_union.1 member with old | later
      · exact Finset.mem_union_left _ old
      · exact Finset.mem_union_right _ (List.mem_toFinset.2 (List.mem_cons_of_mem _ (List.mem_toFinset.1 later)))
    · intro _
      apply Ensures.update
      intro s has
      exact has.setTurn (Finset.subset_union_left.trans holds) rfl rfl trivial

theorem restoreNext_ready {E : SharedPool → Prop} {rest : List JsString} (holds : rest.toFinset ⊆ held) :
    Ensures (Room capacity turn held held room) (restoreNext answer rest) (fun _ => Ready) E := by
  cases rest with
  | nil => exact Ensures.update fun s has => has.setTurn (Finset.empty_subset _) rfl rfl trivial
  | cons file rest =>
    have among : file ∈ held := holds (by simp)
    apply Ensures.bind (Q := fun _ => Room capacity turn held held room)
    · exact Ensures.attempt (importDb_keeps among among) fun _ => Ensures.pure fun _ => id
    · intro _
      apply Ensures.update
      intro s has
      refine has.setTurn ?_ rfl rfl trivial
      intro other member
      exact holds (List.mem_toFinset.2 (List.mem_cons_of_mem _ (List.mem_toFinset.1 member)))

theorem undo_ready {E : SharedPool → Prop} {original : List JsString} (holds : original.toFinset ⊆ held) :
    Ensures (Room capacity turn held held room) (undo answer original) (fun _ => Ready) E := by
  apply Ensures.state
  intro s _
  apply Ensures.bind (Q := fun _ => Room capacity turn held held room)
  · have removed : ∀ files : List JsString, Ensures (Room capacity turn held held room)
        (forEach files fun file => attempt (unlink answer file) fun _ => pure ())
        (fun _ => Room capacity turn held held room) E := by
      intro files
      apply Ensures.forEach (J := fun _ => Room capacity turn held held room)
      exact fun _ _ => Ensures.attempt unlink_keeps fun _ => Ensures.pure fun _ => id
    exact (removed _).weaken (fun _ => And.right) (fun _ _ => id) fun _ => id
  · intro _
    apply restoreNext_ready
    intro file member
    exact holds (List.mem_toFinset.2 (List.mem_filter.1 (List.mem_toFinset.1 member)).1)

theorem replaceExported_ready {E : SharedPool → Prop} {original replacement : List JsString}
    (holds : original.toFinset ∪ replacement.toFinset ⊆ held) :
    Ensures (Room capacity turn held held room) (replaceExported answer original replacement) (fun _ => Ready) E := by
  apply Ensures.bind (Q := fun _ => Room capacity turn held held room)
  · exact Ensures.update fun s has => has.silent s.calls _
  intro _
  apply Ensures.attempt (F := Room capacity turn held held room)
  · apply Ensures.bind (Q := fun _ => Room capacity turn held held room)
    · exact Keeps.forEach fun _ _ => Keeps.bind touch_keeps fun _ => unlink_keeps
    · exact fun _ => importNext_ready holds
  · exact fun _ => undo_ready (Finset.subset_union_left.trans holds)

theorem Ready.noted (ready : Ready s) (calls : Nat) (copies : List (Storage × List JsString)) :
    Ready { s with calls, copies } where
  counts := ready.counts
  has := ready.has.shrink { ready.has.sound with nodup := ready.has.sound.nodup } rfl rfl (Finset.Subset.refl _) rfl
  named := ready.named

theorem Ready.enqueue (ready : Ready s) {step : PoolStep} (named : step.Named) : Ready (s.enqueue step) where
  counts := ready.counts
  has := by
    have sound : Sound (s.enqueue step) := { ready.has.sound with
      queued := by
        intro other member
        rcases List.mem_append.1 member with old | new
        · exact ready.has.sound.queued other old
        · exact List.mem_singleton.1 new ▸ named }
    exact ready.has.shrink sound rfl rfl (Finset.Subset.refl _) rfl
  named := ready.named

theorem Ready.grow (ready : Ready s) (slots : Nat) : Ready { s with capacity := s.capacity + slots } := by
  have more : s.turn.room s.capacity ≤ s.turn.room (s.capacity + slots) := by
    cases s.turn <;> simp [Turn.room]
  have within := ready.has.within
  have fits := ready.has.fits
  refine ⟨ready.counts.trans more, ⟨{ ready.has.sound with nodup := ready.has.sound.nodup }, rfl, rfl, ?_, ?_⟩, ready.named⟩
  · exact within.trans (Nat.le_add_right _ _)
  · exact fits.trans (Nat.sub_le_sub_right more _)

theorem Ready.reserve {t : SharedPool} (ready : Ready s) (stepped : s.reserve = some t) : Ready t := by
  unfold SharedPool.reserve at stepped
  split at stepped
  case h_2 => cases stepped
  case h_1 step queue is queued =>
    cases stepped
    have enough := step.adding_enough s.files
    have named : ∀ other ∈ step :: queue, other.Named := fun other member =>
      ready.has.sound.queued other (by rw [queued]; exact member)
    have within := ready.has.within
    have part := Finset.card_le_card (Finset.union_subset_union_left (t := step.promised)
      (show s.settled ⊆ s.files.toFinset from Finset.sdiff_subset))
    refine ⟨?_, ⟨{ ready.has.sound with queued := fun other member => named other (List.mem_cons_of_mem _ member) },
      rfl, rfl, within, ?_⟩, named step List.mem_cons_self⟩
    · change step.opening ≤ s.files.length + step.adding s.files + s.openConnections
      omega
    · change (s.settled ∪ step.promised).card + s.openConnections ≤
        s.files.length + step.adding s.files + s.openConnections - step.opening
      omega

theorem Ready.reject {t : SharedPool} (ready : Ready s) (stepped : s.reject = some t) : Ready t := by
  unfold SharedPool.reject at stepped
  split at stepped
  case h_3 => cases stepped
  all_goals
    cases stepped
    exact ready.has.setTurn (Finset.empty_subset _) rfl rfl trivial

theorem Ready.proceed {t : SharedPool} (ready : Ready s) (stepped : s.proceed answer = some t) : Ready t := by
  have has := ready.has
  have counts := ready.counts
  have named := ready.named
  have fits := has.fits
  cases is : s.turn with
  | idle =>
    rw [SharedPool.proceed, is] at stepped
    cases stepped
  | reserving step minimum =>
    simp only [SharedPool.proceed, is] at stepped
    split at stepped
    · cases stepped
    · rename_i grown
      cases stepped
      simp only [is, Turn.opening, Turn.promised, Turn.room] at counts fits
      have bound : (s.settled ∪ step.promised).card + s.openConnections ≤ s.capacity - step.opening := by omega
      have least : step.opening ≤ s.capacity := by omega
      rw [is] at named
      exact (runStep_ready named least).reached ⟨{ has.sound with nodup := has.sound.nodup }, rfl, rfl,
        bound.trans (Nat.sub_le _ _), bound⟩
  | exporting files replacement =>
    simp only [SharedPool.proceed, is, Option.some.injEq] at stepped
    simp only [is, Turn.opening, Turn.promised, Turn.room, Nat.sub_zero] at fits
    rw [← stepped]
    exact (replaceExported_ready (Finset.Subset.refl _)).reached ⟨has.sound, rfl, is, fits, fits⟩
  | importing original rest =>
    simp only [SharedPool.proceed, is, Option.some.injEq] at stepped
    simp only [is, Turn.opening, Turn.promised, Turn.room, Nat.sub_zero] at fits
    rw [← stepped]
    exact (importNext_ready (Finset.Subset.refl _)).reached ⟨has.sound, rfl, is, fits, fits⟩
  | failing original =>
    simp only [SharedPool.proceed, is, Option.some.injEq] at stepped
    simp only [is, Turn.opening, Turn.promised, Turn.room, Nat.sub_zero] at fits
    rw [← stepped]
    exact (undo_ready (Finset.Subset.refl _)).reached ⟨has.sound, rfl, is, fits, fits⟩
  | restoring rest =>
    simp only [SharedPool.proceed, is, Option.some.injEq] at stepped
    simp only [is, Turn.opening, Turn.promised, Turn.room, Nat.sub_zero] at fits
    rw [← stepped]
    exact (restoreNext_ready (Finset.Subset.refl _)).reached ⟨has.sound, rfl, is, fits, fits⟩

/-- No database is reset once it is closed. -/
def ResetsOpen (s : SharedPool) (e : Event) : Prop :=
  ∀ i, e.op = .reset i → ∀ d, s.databases[i]? = some d → d.closed = false

theorem step_ready {t : SharedPool} {e : Event} (ready : Ready s) (orderly : ResetsOpen s e)
    (stepped : step s e = some t) : Ready t := by
  have ready : Ready { s with calls := 0 } := ready.noted 0 s.copies
  obtain ⟨op, answer⟩ := e
  generalize begun : ({ s with calls := 0 } : SharedPool) = u at ready
  have found : ∀ i : Nat, u.databases[i]? = s.databases[i]? := by
    intro i
    rw [← begun]
  simp only [step, begun] at stepped
  cases op <;> simp only [run] at stepped
  case openDatabase storage name =>
    split at stepped <;> cases stepped
    · exact ready.enqueue ⟨storage.pre ++ dot ++ name, rfl⟩
    · exact ready
  case importSnapshot storage snapshot importable =>
    split at stepped <;> cases stepped
    · exact ready.enqueue trivial
    · exact ready
  case importPool files valid =>
    split at stepped <;> cases stepped
    · exact ready.enqueue trivial
    · exact ready
  case copyFrom storage source =>
    split at stepped <;> cases stepped
    · exact ready.noted u.calls _
    · exact ready
  case exported i failed =>
    split at stepped
    · split at stepped <;> cases stepped
      · exact ready.noted u.calls _
      · exact (ready.noted u.calls (u.copies.eraseIdx i)).enqueue trivial
    · cases stepped
  case close i =>
    cases stepped
    exact ready.keep (close_keeps.reached ready.has)
  case closeAll storage =>
    cases stepped
    exact ready.keep (closeAll_keeps.reached ready.has)
  case reset i =>
    cases stepped
    cases is : u.databases[i]? with
    | none =>
      have same : (reset answer i u).2 = u := by
        unfold reset
        rw [state_bind]
        simp only [is]
        rfl
      rwa [same]
    | some d => exact ready.keep ((reset_keeps (orderly i rfl d (found i ▸ is))).reached ⟨ready.has, is⟩)
  case deleteAll storage =>
    cases stepped
    exact ready.keep (deleteAll_keeps.reached ready.has)
  case createJournal i =>
    split at stepped
    · rename_i d is
      split at stepped
      · rename_i may
        cases stepped
        have handle : d.handle = true := (Bool.and_eq_true _ _ ▸ may).1
        exact ready.keep ((beginJournal_keeps handle).reached ⟨ready.has, is⟩)
      · cases stepped
    · cases stepped
  case endJournal i =>
    split at stepped
    · rename_i d is
      split at stepped
      · cases stepped
        exact ready.keep (endWrite_keeps.reached ⟨ready.has, is⟩)
      · cases stepped
    · cases stepped
  case reserve => exact ready.reserve stepped
  case grow slots =>
    cases stepped
    exact ready.grow slots
  case reject => exact ready.reject stepped
  case proceed => exact ready.proceed stepped

theorem started_ready (fits : files.length ≤ capacity) (distinct : files.Nodup) : Ready (started capacity files) := by
  have sound : Sound (started capacity files) :=
    ⟨distinct, rfl, fun _ none => (List.not_mem_nil none).elim, fun _ none => (List.not_mem_nil none).elim,
      fun _ none => (List.not_mem_nil none).elim, fun _ none => (List.not_mem_nil none).elim, rfl⟩
  have card : (started capacity files).settled.card ≤ capacity := by
    apply (Finset.card_le_card (show _ ⊆ files.toFinset from Finset.sdiff_subset)).trans
    exact (List.toFinset_card_le files).trans fits
  have bound : ∀ P, P = ∅ → ((started capacity files).settled ∪ P).card + 0 ≤ capacity := by
    intro P none
    rw [none, Finset.union_empty]
    exact card
  exact (show Room capacity .idle ∅ ∅ capacity (started capacity files) from
    ⟨sound, rfl, rfl, bound ∅ rfl, bound ∅ rfl⟩).idle

/-- No file of a pool finds it full, as long as no database is reset once it is closed: the pool holds the files that
    are no journal of an open connection and a journal for each connection. -/
theorem pool_headroom (fits : files.length ≤ capacity) (distinct : files.Nodup)
    (reached : Reaches step ResetsOpen (started capacity files) s) :
    s.exhausted = [] ∧ s.settled.card + s.openConnections ≤ s.capacity ∧
      ∀ d ∈ s.databases, d.handle = true → d.journalFile ∉ s.files → s.files.length < s.capacity := by
  have ready := reached.invariant (started_ready fits distinct) fun _ _ _ ready orderly stepped =>
    step_ready ready orderly stepped
  have has := ready.has
  refine ⟨has.sound.spared, ?_, fun d member handle missing => has.free_journal (mem_journals.2 ?_) missing⟩
  · have within := has.within
    rwa [Finset.union_empty] at within
  · refine ⟨d, member, ?_, rfl⟩
    cases closed : d.closed
    · rfl
    · have shut := has.sound.connected d member closed
      rw [handle] at shut
      cases shut

/-- The journal of the only connection takes the last slot. -/
theorem pool_headroom_full : ∃ s, Reaches step ResetsOpen (started 0 []) s ∧ s.files.length = s.capacity ∧
    s.exhausted = [] := by
  have done : ∀ op, (∀ i, op ≠ .reset i) → ∀ u, ResetsOpen u ⟨op, fun _ => .done⟩ :=
    fun op other u i same => absurd same (other i)
  have ran : (Transition.run step (started 0 []) ([.openDatabase ⟨js "/a", rfl, 0⟩ (js "root"), .reserve, .grow 2,
      .proceed, .createJournal 0].map fun op => ⟨op, fun _ => .done⟩)).map (fun s => (s.files.length, s.capacity)) =
      some (2, 2) := by
    decide +kernel
  obtain ⟨s, ran, slots⟩ := Option.map_eq_some_iff.1 ran
  obtain ⟨files, capacity⟩ := Prod.mk.inj slots
  have reached : Reaches step ResetsOpen (started 0 []) s := by
    apply run_reaches_admitted _ _ ran
    intro u event among
    simp only [List.map_cons, List.map_nil, List.mem_cons, List.not_mem_nil, or_false] at among
    obtain rfl | rfl | rfl | rfl | rfl := among
    all_goals exact done _ (by simp) u
  exact ⟨s, reached, files.trans capacity.symm, (pool_headroom (Nat.le_refl _) List.nodup_nil reached).1⟩

/-- A database that is reset once it is closed has a connection that is not counted. -/
example : (Transition.run step (started 0 []) ([.openDatabase ⟨js "/a", rfl, 0⟩ (js "root"), .reserve, .grow 2, .proceed,
    .close 0, .reset 0, .openDatabase ⟨js "/b", rfl, 1⟩ (js "root"), .reserve, .grow 1, .proceed, .createJournal 0,
    .createJournal 1].map fun op => ⟨op, fun _ => .done⟩)).map (fun s => s.exhausted) =
    some [js "/b.root.sqlite-journal"] := by
  decide +kernel

end Steps

end SharedPool

end DoRuntime.Backends
