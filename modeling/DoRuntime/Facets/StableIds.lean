import DoRuntime.Facets.TreeIndex

namespace DoRuntime.Facets

open Js

/-- The facets that have ids, in the order of their ids: a parent and the bytes of a name. -/
abbrev Registry := List (Nat × Bytes)

def position (r : Registry) (facet : Nat × Bytes) : Option Nat := if facet ∈ r then some (r.idxOf facet) else none

def entriesData (r : Registry) : Bytes := r.flatMap fun facet => entryData facet.1 facet.2

/-- The file that holds a registry. -/
def image (r : Registry) : Bytes := magic ++ entriesData r

/-- A facet that may be given the next id. -/
structure Appendable (r : Registry) (facet : Nat × Bytes) : Prop where
  named : 0 < facet.2.length
  short : facet.2.length ≤ maxId
  under : facet.1 ≤ r.length
  fresh : facet ∉ r
  room : r.length < maxId

inductive WellFormed : Registry → Prop
  | nil : WellFormed []
  | append (r : Registry) (facet : Nat × Bytes) (before : WellFormed r) (appendable : Appendable r facet) :
    WellFormed (r ++ [facet])

theorem colon_not_digit (parent : Nat) : 58 ∉ js (toString parent) := by
  intro member
  obtain ⟨c, digit, code⟩ := List.mem_map.1 member
  have listed : c ∈ Nat.toDigits 10 parent := by
    have same : (toString parent).toList = Nat.toDigits 10 parent := Nat.toList_repr
    rwa [← same]
  have numeral := Nat.isDigit_of_mem_toDigits (by decide) (by decide) listed
  have colon : c = ':' := Char.ext (UInt32.toNat_inj.1 code)
  rw [colon] at numeral
  cases numeral

/-- A text is split at its first mark in one way. -/
theorem split_first {mark : Nat} {xs xs' ys ys' : List Nat} (clean : mark ∉ xs) (clean' : mark ∉ xs')
    (same : xs ++ mark :: ys = xs' ++ mark :: ys') : xs = xs' ∧ ys = ys' := by
  induction xs generalizing xs' with
  | nil =>
    cases xs' with
    | nil => exact ⟨rfl, (List.cons.inj same).2⟩
    | cons x xs' => exact absurd ((List.cons.inj same).1 ▸ List.mem_cons_self) clean'
  | cons x xs ih =>
    cases xs' with
    | nil => exact absurd ((List.cons.inj same).1 ▸ List.mem_cons_self) clean
    | cons x' xs' =>
      obtain ⟨rfl, rest⟩ := List.cons.inj same
      obtain ⟨rfl, rfl⟩ := ih (fun member => clean (List.mem_cons_of_mem _ member))
        (fun member => clean' (List.mem_cons_of_mem _ member)) rest
      exact ⟨rfl, rfl⟩

theorem js_inj {a b : String} (same : js a = js b) : a = b := by
  have injective : Function.Injective Char.toNat := fun _ _ code => Char.ext (UInt32.toNat_inj.1 code)
  exact String.toList_inj.1 (injective.list_map same)

theorem entryKey_inj {parent parent' : Nat} {name name' : Bytes} :
    entryKey parent name = entryKey parent' name' ↔ (parent, name) = (parent', name') := by
  constructor
  · intro same
    have colon : js ":" = [58] := by decide
    simp only [entryKey, colon, List.append_assoc, List.singleton_append] at same
    obtain ⟨digits, rfl⟩ := split_first (colon_not_digit parent) (colon_not_digit parent') same
    rw [Nat.repr_inj.1 (js_inj digits)]
  · intro same
    cases same
    rfl

theorem position_none {r : Registry} {facet : Nat × Bytes} : position r facet = none ↔ facet ∉ r := by
  unfold position
  split <;> simp [*]

theorem position_append {r : Registry} {facet other : Nat × Bytes} (fresh : facet ∉ r) :
    position (r ++ [facet]) other = if other = facet then some r.length else position r other := by
  unfold position
  by_cases same : other = facet
  · subst same
    rw [if_pos (by simp), if_pos rfl, List.idxOf_append_of_notMem fresh]
    simp
  · rw [if_neg same]
    by_cases known : other ∈ r
    · rw [if_pos (List.mem_append_left _ known), if_pos known, List.idxOf_append_of_mem known]
    · rw [if_neg (by simp [known, same]), if_neg known]

/-- The index in memory knows the registry. -/
structure Knows (r : Registry) (index : TreeIndex) : Prop where
  offset : index.offset = (image r).length
  entries : index.entries = r.map fun facet => { parent := facet.1, name := decode facet.2, nameKey := facet.2 }
  byKey : ∀ facet : Nat × Bytes, index.byKey (entryKey facet.1 facet.2) = position r facet

/-- The index and its file hold the registry. -/
structure Holds (r : Registry) (index : TreeIndex) : Prop extends Knows r index where
  file : index.file = image r

theorem entryData_length (parent : Nat) (name : Bytes) : (entryData parent name).length = entryHeaderLength + name.length := by
  simp [entryData, setUint16, entryHeaderLength]
  omega

theorem image_append (r : Registry) (facet : Nat × Bytes) : image (r ++ [facet]) = image r ++ entryData facet.1 facet.2 := by
  simp [image, entriesData]

theorem Knows.length {r : Registry} {index : TreeIndex} (knows : Knows r index) : index.entries.length = r.length := by
  rw [knows.entries, List.length_map]

/-- The pairs that have ids, in the order of their ids. -/
def TreeIndex.registry (index : TreeIndex) : Registry := index.entries.map fun entry => (entry.parent, entry.nameKey)

theorem Knows.registry {r : Registry} {index : TreeIndex} (knows : Knows r index) : index.registry = r := by
  unfold TreeIndex.registry
  rw [knows.entries, List.map_map]
  exact List.map_id r

theorem Knows.append {r : Registry} {index : TreeIndex} {facet : Nat × Bytes} (knows : Knows r index) (fresh : facet ∉ r)
    (file : Bytes) {offset : Nat} (past : offset = index.offset + (entryData facet.1 facet.2).length) :
    Knows (r ++ [facet])
      { index.append { parent := facet.1, name := decode facet.2, nameKey := facet.2 } with file, offset } where
  offset := by
    rw [image_append, List.length_append, ← knows.offset]
    exact past
  entries := by
    rw [List.map_append, ← knows.entries]
    rfl
  byKey other := by
    rw [position_append fresh, ← knows.byKey other]
    change Function.update index.byKey (entryKey facet.1 facet.2) (some index.entries.length) (entryKey other.1 other.2) = _
    by_cases same : other = facet
    · subst same
      rw [if_pos rfl, Function.update_self, knows.length]
    · rw [if_neg same, Function.update_of_ne]
      exact fun equal => same (entryKey_inj.1 equal)

theorem WellFormed.member {r : Registry} (formed : WellFormed r) {facet : Nat × Bytes} (member : facet ∈ r) :
    0 < facet.2.length ∧ facet.2.length ≤ maxId ∧ facet.1 ≤ r.idxOf facet := by
  induction formed with
  | nil => cases member
  | append r last _ appendable ih =>
    by_cases known : facet ∈ r
    · rw [List.idxOf_append_of_mem known]
      exact ih known
    · have same : facet = last := by simpa [known] using member
      subst same
      rw [List.idxOf_append_of_notMem known]
      exact ⟨appendable.named, appendable.short, Nat.le_trans appendable.under (Nat.le_add_right _ _)⟩

theorem WellFormed.nodup {r : Registry} (formed : WellFormed r) : r.Nodup := by
  induction formed with
  | nil => exact List.nodup_nil
  | append r last _ appendable ih =>
    rw [List.nodup_append]
    refine ⟨ih, List.nodup_singleton last, fun a member b single => ?_⟩
    rw [List.mem_singleton.1 single]
    exact fun same => appendable.fresh (same ▸ member)

theorem WellFormed.length {r : Registry} (formed : WellFormed r) : r.length ≤ maxId := by
  cases formed with
  | nil => exact Nat.zero_le _
  | append r last _ appendable =>
    rw [List.length_append]
    exact appendable.room

theorem getId_known {r : Registry} {index : TreeIndex} {parent : Nat} {name : JsString} (formed : WellFormed r)
    (knows : Knows r index) (known : (parent, encode name) ∈ r) :
    index.getId parent name = .ok (r.idxOf (parent, encode name) + 1, index) := by
  obtain ⟨named, short, under⟩ := formed.member known
  have place := List.idxOf_lt_length_of_mem known
  have found : index.byKey (entryKey parent (encode name)) = some (r.idxOf (parent, encode name)) := by
    rw [knows.byKey (parent, encode name), position, if_pos known]
  unfold TreeIndex.getId
  rw [if_neg (Nat.ne_of_gt named), if_neg (Nat.not_lt.2 short), if_neg]
  · simp only [found]
  · rw [knows.length]
    exact Nat.not_lt.2 (Nat.le_trans under (Nat.le_of_lt place))

theorem getId_cases {r : Registry} {index index' : TreeIndex} {parent id : Nat} {name : JsString}
    (holds : Holds r index) (done : index.getId parent name = .ok (id, index')) :
    ((parent, encode name) ∈ r ∧ id = r.idxOf (parent, encode name) + 1 ∧ index' = index) ∨
      (Appendable r (parent, encode name) ∧ id = r.length + 1 ∧ Holds (r ++ [(parent, encode name)]) index') := by
  unfold TreeIndex.getId at done
  dsimp only at done
  split at done
  · cases done
  split at done
  · cases done
  split at done
  · cases done
  rename_i named short under
  have key := holds.byKey (parent, encode name)
  cases found : index.byKey (entryKey parent (encode name)) with
  | some i =>
    rw [found] at done key
    cases done
    unfold position at key
    split at key
    case isTrue known =>
      cases key
      exact .inl ⟨known, rfl, rfl⟩
    case isFalse => cases key
  | none =>
    rw [found] at done key
    dsimp only at done
    split at done
    · cases done
    rename_i room
    cases done
    have fresh := position_none.1 key.symm
    have size := holds.length
    refine .inr ⟨⟨Nat.pos_of_ne_zero named, Nat.not_lt.1 short, ?_, fresh, ?_⟩, by rw [size], ?_⟩
    · exact size ▸ Nat.not_lt.1 under
    · unfold TreeIndex.nextId at room
      omega
    · have knows := holds.toKnows.append fresh (writeFile index.file index.offset (entryData parent (encode name))) rfl
      refine ⟨knows, ?_⟩
      change writeFile index.file index.offset (entryData parent (encode name)) = _
      rw [image_append, holds.file, holds.offset]
      simp [writeFile]

theorem WellFormed.last {r : Registry} {facet : Nat × Bytes} (formed : WellFormed (r ++ [facet])) :
    WellFormed r ∧ Appendable r facet := by
  generalize whole : r ++ [facet] = all at formed
  cases formed with
  | nil => simp at whole
  | append before other earlier appendable =>
    obtain ⟨rfl, single⟩ := List.append_inj' whole rfl
    cases single
    exact ⟨earlier, appendable⟩

theorem WellFormed.before {r rest : Registry} (formed : WellFormed (r ++ rest)) : WellFormed r := by
  induction rest using List.reverseRecOn with
  | nil => rwa [List.append_nil] at formed
  | append_singleton rest last ih =>
    rw [← List.append_assoc] at formed
    exact ih formed.last.1

/-- What a crash may leave behind the entries: an entry that was being appended, not all of it. -/
def Torn (r : Registry) (torn : Bytes) : Prop :=
  torn = [] ∨ ∃ facet, Appendable r facet ∧ torn <+: entryData facet.1 facet.2 ∧
    torn.length < (entryData facet.1 facet.2).length

theorem getUint16_setUint16 (n : Nat) : getUint16 (n % 0x100) (n / 0x100) = n := by
  unfold getUint16
  omega

theorem entryData_cons (parent : Nat) (name rest : Bytes) : entryData parent name ++ rest =
    parent % 0x100 :: parent / 0x100 :: name.length % 0x100 :: name.length / 0x100 :: (name ++ rest) := by
  simp [entryData, setUint16]

theorem readEntries_torn {r : Registry} {index : TreeIndex} {torn : Bytes} (knows : Knows r index) (cut : Torn r torn) :
    index.readEntries torn = .ok index := by
  rcases cut with rfl | ⟨facet, appendable, ⟨tail, whole⟩, shorter⟩
  · rw [TreeIndex.readEntries]
    intro _ _ _ _ _ impossible
    cases impossible
  · have shape := entryData_cons facet.1 facet.2 []
    rw [List.append_nil, List.append_nil, ← whole] at shape
    unfold TreeIndex.readEntries
    split
    case h_2 => rfl
    case h_1 parentLow parentHigh lengthLow lengthHigh rest =>
      simp only [List.cons_append, List.cons.injEq] at shape
      obtain ⟨_, _, rfl, rfl, split⟩ := shape
      have cutName : rest.length < facet.2.length := by
        have lengths := entryData_length facet.1 facet.2
        simp only [List.length_cons, entryHeaderLength] at shorter lengths
        omega
      have room := appendable.room
      have named := appendable.named
      rw [getUint16_setUint16, if_neg, if_neg (Nat.ne_of_gt named), if_pos cutName]
      unfold TreeIndex.nextId
      rw [knows.length]
      omega

theorem readEntries_entry {r : Registry} {index : TreeIndex} {facet : Nat × Bytes} (knows : Knows r index)
    (appendable : Appendable r facet) (rest : Bytes) : ∃ next, Knows (r ++ [facet]) next ∧
      index.readEntries (entryData facet.1 facet.2 ++ rest) = next.readEntries rest := by
  have taken : (facet.2 ++ rest).take facet.2.length = facet.2 := List.take_left
  have dropped : (facet.2 ++ rest).drop facet.2.length = rest := List.drop_left
  have fresh : (index.byKey (entryKey facet.1 facet.2)).isSome = false := by
    rw [knows.byKey facet, position_none.2 appendable.fresh]
    rfl
  have size : index.nextId = r.length + 1 := by
    unfold TreeIndex.nextId
    rw [knows.length]
  have room := appendable.room
  have under := appendable.under
  have named := appendable.named
  have past : index.offset + entryHeaderLength + facet.2.length = index.offset + (entryData facet.1 facet.2).length := by
    rw [entryData_length]
    omega
  refine ⟨_, knows.append appendable.fresh index.file past, ?_⟩
  rw [entryData_cons, TreeIndex.readEntries]
  simp only [getUint16_setUint16, taken, dropped, fresh]
  rw [if_neg (by omega), if_neg (by omega), if_neg (by simp), if_neg (by omega), if_neg (by simp)]
  rfl

/-- The entries of a registry are read back, before whatever stands behind them. -/
theorem readEntries_entries {rest : Bytes} (todo : Registry) : ∀ {before : Registry} {index : TreeIndex},
    WellFormed (before ++ todo) → Knows before index →
    ∃ read, Knows (before ++ todo) read ∧ index.readEntries (entriesData todo ++ rest) = read.readEntries rest := by
  induction todo with
  | nil =>
    intro before index _ knows
    rw [List.append_nil]
    exact ⟨index, knows, rfl⟩
  | cons facet todo ih =>
    intro before index formed knows
    have regroup : before ++ facet :: todo = before ++ [facet] ++ todo := by simp
    rw [regroup] at formed ⊢
    obtain ⟨_, appendable⟩ := formed.before.last
    have data : entriesData (facet :: todo) ++ rest = entryData facet.1 facet.2 ++ (entriesData todo ++ rest) := by
      simp [entriesData]
    obtain ⟨next, knowsNext, first⟩ := readEntries_entry knows appendable (entriesData todo ++ rest)
    obtain ⟨read, knowsRead, others⟩ := ih formed knowsNext
    rw [data, first]
    exact ⟨read, knowsRead, others⟩

theorem knows_nothing (file : Bytes) :
    Knows [] { file, offset := magicLength, entries := [], byKey := fun _ => none } where
  offset := rfl
  entries := rfl
  byKey _ := rfl

/-- A file without entries is begun anew, whatever part of the magic number it holds. -/
theorem openFile_new {file : Bytes} (part : file <+: magic) : ∃ index, TreeIndex.openFile file = .ok index ∧ Holds [] index := by
  have short : file.length ≤ magicLength := part.length_le
  unfold TreeIndex.openFile
  dsimp only
  rw [if_pos short]
  refine ⟨_, rfl, knows_nothing _, ?_⟩
  have dropped : file.drop (0 + magic.length) = [] := List.drop_eq_nil_of_le (by simpa [magicLength, magic] using short)
  change writeFile file 0 magic = image []
  unfold writeFile
  rw [dropped]
  simp [image, entriesData]

/-- A file opens with the entries that the loop reads before it stops. -/
theorem openFile_stops {r : Registry} {rest : Bytes} (formed : WellFormed r)
    (stops : ∀ read, Knows r read → read.readEntries rest = .ok read) :
    ∃ index, TreeIndex.openFile (image r ++ rest) = .ok index ∧ Holds r index := by
  have size : (image r ++ rest).length = magicLength + (entriesData r ++ rest).length := by
    simp [image, magic, magicLength]
    omega
  by_cases nothing : (entriesData r ++ rest).length = 0
  · have empty := List.append_eq_nil_iff.1 (List.length_eq_zero_iff.1 nothing)
    have none : r = [] := by
      cases r with
      | nil => rfl
      | cons facet rest => simp [entriesData, entryData, setUint16] at empty
    subst none
    rw [empty.2, List.append_nil]
    exact openFile_new (List.prefix_refl magic)
  · have head : (image r ++ rest).take magicLength = magic := by
      rw [image, List.append_assoc]
      exact @List.take_left _ magic _
    have tail : (image r ++ rest).drop magicLength = entriesData r ++ rest := by
      rw [image, List.append_assoc]
      exact @List.drop_left _ magic _
    obtain ⟨read, knows, entries⟩ := @readEntries_entries rest r [] _ formed (knows_nothing (image r ++ rest))
    unfold TreeIndex.openFile
    dsimp only
    rw [if_neg (by omega), if_neg (not_not.2 head), tail, entries, stops read knows]
    refine ⟨_, rfl, ⟨knows.offset, knows.entries, knows.byKey⟩, ?_⟩
    dsimp only
    rw [knows.offset, List.nil_append]
    split
    · exact List.take_left
    case isFalse whole =>
      have empty : rest = [] := by
        rw [List.length_append] at whole
        exact List.length_eq_zero_iff.1 (by omega)
      rw [empty, List.append_nil]

theorem openFile_spec {r : Registry} {torn : Bytes} (formed : WellFormed r) (cut : Torn r torn) :
    ∃ index, TreeIndex.openFile (image r ++ torn) = .ok index ∧ Holds r index :=
  openFile_stops formed fun _ knows => readEntries_torn knows cut

/-- An index in use, with what its callers were given. -/
structure Session where
  index : TreeIndex
  returned : List ((Nat × Bytes) × Nat)

inductive Event
  | getId (parent : Nat) (name : Utf16)
  /-- The file is opened again, with what a crash left behind its entries. -/
  | reopen (torn : Bytes)

namespace Session

def step (s : Session) : Event → Option Session
  | .getId parent name =>
    match s.index.getId parent name.units with
    | .ok (id, index) => some { index, returned := s.returned ++ [((parent, encode name.units), id)] }
    | .error _ => some s
  | .reopen torn =>
    match TreeIndex.openFile (s.index.file ++ torn) with
    | .ok index => some { s with index }
    | .error _ => none

/-- The pairs that were given ids, in the order of their first assignment. -/
def assigned (s : Session) : Registry :=
  s.returned.foldl (fun r answer => if answer.1 ∈ r then r else r ++ [answer.1]) []

/-- The crash cut off at most one entry. -/
def Crashes (s : Session) : Event → Prop
  | .getId _ _ => True
  | .reopen torn => Torn s.assigned torn

/-- The index holds what was assigned, and every answer was the place of its pair. -/
structure Consistent (s : Session) : Prop where
  formed : WellFormed s.assigned
  holds : Holds s.assigned s.index
  answers : ∀ answer ∈ s.returned, answer.1 ∈ s.assigned ∧ answer.2 = s.assigned.idxOf answer.1 + 1

theorem assigned_answer (s : Session) (index : TreeIndex) (pair : Nat × Bytes) (id : Nat) :
    assigned { index, returned := s.returned ++ [(pair, id)] } =
      if pair ∈ s.assigned then s.assigned else s.assigned ++ [pair] := by
  unfold assigned
  rw [List.foldl_append]
  rfl

theorem Consistent.step {s t : Session} {e : Event} (consistent : s.Consistent) (crash : s.Crashes e)
    (stepped : s.step e = some t) : t.Consistent := by
  obtain ⟨formed, holds, answers⟩ := consistent
  cases e with
  | reopen torn =>
    obtain ⟨index, opened, again⟩ := openFile_spec formed crash
    unfold Session.step at stepped
    dsimp only at stepped
    rw [holds.file, opened] at stepped
    cases stepped
    exact ⟨formed, again, answers⟩
  | getId parent name =>
    unfold Session.step at stepped
    dsimp only at stepped
    split at stepped
    case h_2 =>
      cases stepped
      exact ⟨formed, holds, answers⟩
    case h_1 id index done =>
      cases stepped
      have now := assigned_answer s index (parent, encode name.units) id
      rcases getId_cases holds done with ⟨known, place, rfl⟩ | ⟨appendable, place, added⟩
      · rw [if_pos known] at now
        refine ⟨by rwa [now], by rwa [now], fun answer member => ?_⟩
        rw [now]
        rcases List.mem_append.1 member with earlier | last
        · exact answers answer earlier
        · rw [List.mem_singleton.1 last]
          exact ⟨known, place⟩
      · rw [if_neg appendable.fresh] at now
        refine ⟨by rw [now]; exact .append _ _ formed appendable, by rwa [now], fun answer member => ?_⟩
        rw [now]
        rcases List.mem_append.1 member with earlier | last
        · obtain ⟨known, place⟩ := answers answer earlier
          exact ⟨List.mem_append_left _ known, by rw [List.idxOf_append_of_mem known]; exact place⟩
        · rw [List.mem_singleton.1 last]
          refine ⟨by simp, ?_⟩
          rw [List.idxOf_append_of_notMem appendable.fresh]
          simpa using place

/-- What a reopened index answers, over the whole of what was ever returned. -/
structure Survives (s : Session) (index : TreeIndex) : Prop where
  same : ∀ parent (name : Utf16) id, ((parent, encode name.units), id) ∈ s.returned →
    index.getId parent name.units = .ok (id, index)
  distinct : ∀ answer ∈ s.returned, ∀ other ∈ s.returned, answer.2 = other.2 ↔ answer.1 = other.1
  /-- Ids are given in the order of first assignment, from one on. -/
  sequential : ∀ pair i, s.assigned[i]? = some pair ↔ (pair, i + 1) ∈ s.returned
  parents : ∀ i entry, index.entries[i]? = some entry → entry.parent < i + 1
  file : index.file = magic ++ index.entries.flatMap fun entry => entryData entry.parent entry.nameKey

theorem mem_assigned {s : Session} {pair : Nat × Bytes} (member : pair ∈ s.assigned) :
    ∃ id, (pair, id) ∈ s.returned := by
  have folded : ∀ (answers : List ((Nat × Bytes) × Nat)) (r : Registry),
      pair ∈ answers.foldl (fun r answer => if answer.1 ∈ r then r else r ++ [answer.1]) r →
        pair ∈ r ∨ ∃ id, (pair, id) ∈ answers := by
    intro answers
    induction answers with
    | nil => exact fun r known => .inl known
    | cons answer rest ih =>
      intro r known
      rcases ih _ known with before | ⟨id, later⟩
      · dsimp only at before
        split at before
        · exact .inl before
        · rcases List.mem_append.1 before with earlier | added
          · exact .inl earlier
          · exact .inr ⟨answer.2, by rw [List.mem_singleton.1 added]; exact List.mem_cons_self⟩
      · exact .inr ⟨id, List.mem_cons_of_mem _ later⟩
  rcases folded s.returned [] member with none | known
  · cases none
  · exact known

theorem Consistent.survives {s : Session} {index : TreeIndex} (consistent : s.Consistent) (holds : Holds s.assigned index) :
    s.Survives index := by
  obtain ⟨formed, _, answers⟩ := consistent
  have placed : ∀ answer ∈ s.returned, s.assigned[answer.2 - 1]? = some answer.1 ∧ 0 < answer.2 := by
    intro answer member
    obtain ⟨known, place⟩ := answers answer member
    rw [place, Nat.add_sub_cancel]
    exact ⟨List.getElem?_idxOf known, Nat.succ_pos _⟩
  constructor
  · intro parent name id member
    obtain ⟨known, place⟩ := answers _ member
    change id = _ at place
    rw [place]
    exact getId_known formed holds.toKnows known
  · intro answer member other member'
    constructor
    · intro equal
      have first := (placed answer member).1
      rw [equal, (placed other member').1] at first
      exact (Option.some.inj first).symm
    · intro equal
      rw [(answers answer member).2, (answers other member').2, equal]
  · intro pair i
    constructor
    · intro at_
      obtain ⟨id, returned⟩ := mem_assigned (List.mem_of_getElem? at_)
      obtain ⟨known, place⟩ := answers _ returned
      have index := (List.getElem?_inj (List.getElem?_eq_some_iff.1 at_).1 formed.nodup).1
        (at_.trans (List.getElem?_idxOf known).symm)
      change id = _ at place
      rw [index, ← place]
      exact returned
    · intro member
      exact (placed _ member).1
  · intro i entry at_
    rw [holds.entries, List.getElem?_map] at at_
    obtain ⟨facet, there, rfl⟩ := Option.map_eq_some_iff.1 at_
    have under := (formed.member (List.mem_of_getElem? there)).2.2
    have place := formed.nodup.idxOf_getElem i (List.getElem?_eq_some_iff.1 there).1
    rw [(List.getElem?_eq_some_iff.1 there).2] at place
    rw [place] at under
    exact Nat.lt_succ_of_le under
  · rw [holds.file, holds.entries, List.flatMap_map]
    rfl

end Session

end DoRuntime.Facets
