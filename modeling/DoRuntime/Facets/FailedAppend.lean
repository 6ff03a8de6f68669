import DoRuntime.Facets.StableIds

namespace DoRuntime.Facets

open Js

/-- What becomes of an entry's write and of the sync after it; `stored` says which bytes of a write that throws
reached the file. -/
inductive Outcome
  | done
  | writeThrows (stored : List Bool)
  | syncThrows

/-- What a write that throws makes of the bytes at its offset. A gap before a stored byte is filled with zeros. -/
def storeSome : Bytes → Bytes → List Bool → Bytes
  | old, [], _ => old
  | old, _ :: _, [] => old
  | old, byte :: data, true :: stored => byte :: storeSome old.tail data stored
  | byte :: old, _ :: data, false :: stored => byte :: storeSome old data stored
  | [], _ :: data, false :: stored =>
    if storeSome [] data stored = [] then [] else 0 :: storeSome [] data stored

def Outcome.store (outcome : Outcome) (file : Bytes) (offset : Nat) (data : Bytes) : Bytes :=
  match outcome with
  | .done | .syncThrows => writeFile file offset data
  | .writeThrows stored => file.take offset ++ storeSome (file.drop offset) data stored

inductive Thrown
  | failure (failure : Failure)
  | write
  | datasync

namespace TreeIndex

variable (index : TreeIndex)

/-- What `getId` does for a pair that is to have the next id. -/
def assign (parent : Nat) (nameBytes : Bytes) (outcome : Outcome) : Except Thrown Nat × TreeIndex :=
  let data := entryData parent nameBytes
  let written := { index with file := outcome.store index.file index.offset data }
  match outcome with
  | .writeThrows _ => (.error .write, written)
  | .syncThrows => (.error .datasync, written)
  | .done =>
    (.ok (index.entries.length + 1),
      { written.append { parent, name := decode nameBytes, nameKey := nameBytes } with
        offset := index.offset + data.length })

/-- `FacetTreeIndex.getId` over a file whose write or sync may throw. -/
def getIdOn (parent : Nat) (name : JsString) (outcome : Outcome) : Except Thrown Nat × TreeIndex :=
  let nameBytes := encode name
  if nameBytes.length = 0 then (.error (.failure .emptyName), index)
  else if maxId < nameBytes.length then (.error (.failure .nameTooLong), index)
  else if index.entries.length < parent then (.error (.failure .invalidParent), index)
  else
    match index.byKey (entryKey parent nameBytes) with
    | some found => (.ok (found + 1), index)
    | none =>
      if maxId < index.nextId then (.error (.failure .tooMany), index)
      else index.assign parent nameBytes outcome

/-- What stands in the file behind the entries. -/
def stale : Bytes := index.file.drop index.offset

end TreeIndex

/-- The constructor's loop does not stop at these bytes: they begin with the whole of an entry that could be
appended, or with a header when every id is taken. -/
def Readable (r : Registry) (bytes : Bytes) : Prop :=
  (∃ facet, Appendable r facet ∧ entryData facet.1 facet.2 <+: bytes) ∨
    (r.length = maxId ∧ entryHeaderLength ≤ bytes.length)

/-- What the append of a new entry leaves behind the entries does not read as a further one. A sync that throws
always leaves one: the whole entry was written by then. -/
def Outcome.LeavesNothing (r : Registry) (rest : Bytes) (facet : Nat × Bytes) : Outcome → Prop
  | .done => ¬Readable (r ++ [facet]) (rest.drop (entryData facet.1 facet.2).length)
  | .writeThrows stored => ¬Readable r (storeSome rest (entryData facet.1 facet.2) stored)
  | .syncThrows => False

structure Call where
  parent : Nat
  name : Utf16
  outcome : Outcome

namespace Session

def call (s : Session) (c : Call) : Session :=
  let answer := s.index.getIdOn c.parent c.name.units c.outcome
  match answer.1 with
  | .ok id => { index := answer.2, returned := s.returned ++ [((c.parent, encode c.name.units), id)] }
  | .error _ => { s with index := answer.2 }

/-- The file opens, with the index's own entries and no others, and answers what was returned. -/
def Agrees (s : Session) : Prop :=
  ∃ reopened, TreeIndex.openFile s.index.file = .ok reopened ∧ reopened.entries = s.index.entries ∧
    ∀ parent (name : Utf16) id, ((parent, encode name.units), id) ∈ s.returned →
      reopened.getId parent name.units = .ok (id, reopened)

def Harmless (s : Session) (c : Call) : Prop :=
  Appendable s.index.registry (c.parent, encode c.name.units) →
    c.outcome.LeavesNothing s.index.registry s.index.stale (c.parent, encode c.name.units)

def AgreesThroughout (s : Session) : List Call → Prop
  | [] => s.Agrees
  | c :: rest => s.Agrees ∧ (s.call c).AgreesThroughout rest

def HarmlessThroughout (s : Session) : List Call → Prop
  | [] => True
  | c :: rest => s.Harmless c ∧ (s.call c).HarmlessThroughout rest

end Session

def AreBytes (bytes : Bytes) : Prop := ∀ b ∈ bytes, b < 0x100

section Bytes

theorem encodeScalar_bytes {c : Nat} (valid : IsScalar c) : AreBytes (encodeScalar c) := by
  intro b member
  unfold IsScalar at valid
  unfold encodeScalar at member
  split at member
  · rw [List.mem_singleton.1 member]
    omega
  split at member
  · simp only [List.mem_cons, List.not_mem_nil, or_false] at member
    omega
  split at member
  · simp only [List.mem_cons, List.not_mem_nil, or_false] at member
    omega
  · simp only [List.mem_cons, List.not_mem_nil, or_false] at member
    omega

theorem encode_bytes (name : Utf16) : AreBytes (encode name.units) := by
  intro b member
  obtain ⟨c, scalar, inside⟩ := List.mem_flatMap.1 member
  exact encodeScalar_bytes (scalars_valid name.bounded c scalar) b inside

theorem AreBytes.append {left right : Bytes} (first : AreBytes left) (second : AreBytes right) :
    AreBytes (left ++ right) := by
  intro b member
  rcases List.mem_append.1 member with member | member
  · exact first b member
  · exact second b member

theorem AreBytes.drop {bytes : Bytes} (valid : AreBytes bytes) (n : Nat) : AreBytes (bytes.drop n) :=
  fun b member => valid b (List.mem_of_mem_drop member)

theorem setUint16_bytes {n : Nat} (small : n ≤ maxId) : AreBytes (setUint16 n) := by
  intro b member
  unfold maxId at small
  simp only [setUint16, List.mem_cons, List.not_mem_nil, or_false] at member
  omega

theorem storeSome_bytes (old data : Bytes) (stored : List Bool) (valid : AreBytes old) (new : AreBytes data) :
    AreBytes (storeSome old data stored) := by
  fun_induction storeSome old data stored with
  | case1 => exact valid
  | case2 => exact valid
  | case3 old byte data stored ih =>
    have rest := ih (fun b member => valid b (List.mem_of_mem_tail member))
      (fun b member => new b (List.mem_cons_of_mem _ member))
    intro b member
    rcases List.mem_cons.1 member with rfl | member
    · exact new _ (List.mem_cons_self ..)
    · exact rest b member
  | case4 byte old _ data stored ih =>
    have rest := ih (fun b member => valid b (List.mem_cons_of_mem _ member))
      (fun b member => new b (List.mem_cons_of_mem _ member))
    intro b member
    rcases List.mem_cons.1 member with rfl | member
    · exact valid _ (List.mem_cons_self ..)
    · exact rest b member
  | case5 => exact valid
  | case6 _ data stored _ ih =>
    have rest := ih valid (fun b member => new b (List.mem_cons_of_mem _ member))
    intro b member
    rcases List.mem_cons.1 member with rfl | member
    · decide
    · exact rest b member

end Bytes

section Reading

variable {r : Registry} {index read : TreeIndex} {bytes rest : Bytes}

theorem setUint16_getUint16 {low high : Nat} (first : low < 0x100) : setUint16 (getUint16 low high) = [low, high] := by
  unfold setUint16 getUint16
  congr 1
  · omega
  · congr 1
    omega

theorem header_full (knows : Knows r index) (full : r.length = maxId) (header : entryHeaderLength ≤ bytes.length) :
    index.readEntries bytes = .error .tooMany := by
  unfold TreeIndex.readEntries
  have past : maxId < index.nextId := by
    unfold TreeIndex.nextId
    rw [knows.length, full]
    exact Nat.lt_succ_self _
  split
  case h_1 => rw [if_pos past]
  case h_2 short =>
    unfold entryHeaderLength at header
    rcases bytes with _ | ⟨a, _ | ⟨b, _ | ⟨c, _ | ⟨d, rest⟩⟩⟩⟩
    · exact absurd header (by simp)
    · exact absurd header (by simp)
    · exact absurd header (by simp)
    · exact absurd header (by simp)
    · exact absurd rfl (short a b c d rest)

theorem header_entryData {parentLow parentHigh lengthLow lengthHigh : Nat}
    (valid : AreBytes (parentLow :: parentHigh :: lengthLow :: lengthHigh :: rest))
    (long : getUint16 lengthLow lengthHigh ≤ rest.length) :
    entryData (getUint16 parentLow parentHigh) (rest.take (getUint16 lengthLow lengthHigh)) =
      parentLow :: parentHigh :: lengthLow :: lengthHigh :: rest.take (getUint16 lengthLow lengthHigh) := by
  have parent : parentLow < 0x100 := valid _ (by simp)
  have length : lengthLow < 0x100 := valid _ (by simp)
  have taken : (rest.take (getUint16 lengthLow lengthHigh)).length = getUint16 lengthLow lengthHigh := by
    rw [List.length_take]
    omega
  rw [entryData, taken, setUint16_getUint16 parent, setUint16_getUint16 length]
  rfl

theorem readEntries_stops (formed : WellFormed r) (knows : Knows r index) (valid : AreBytes bytes)
    (unreadable : ¬Readable r bytes) : index.readEntries bytes = .ok index := by
  have limit := formed.length
  have size : index.nextId = r.length + 1 := by
    unfold TreeIndex.nextId
    rw [knows.length]
  unfold TreeIndex.readEntries
  split
  case h_2 => rfl
  case h_1 parentLow parentHigh lengthLow lengthHigh rest =>
    dsimp only
    split
    · exfalso
      apply unreadable
      right
      constructor
      · omega
      · simp [entryHeaderLength]
    rename_i room
    split
    · rfl
    rename_i named
    split
    · rfl
    rename_i long
    split
    · rfl
    rename_i under
    split
    · rfl
    rename_i fresh
    exfalso
    apply unreadable
    left
    have long := Nat.not_lt.1 long
    have header := header_entryData valid long
    have taken : (rest.take (getUint16 lengthLow lengthHigh)).length = getUint16 lengthLow lengthHigh := by
      rw [List.length_take]
      omega
    refine ⟨(getUint16 parentLow parentHigh, rest.take (getUint16 lengthLow lengthHigh)), ?_, ?_⟩
    · constructor
      · show 0 < (rest.take _).length
        omega
      · show (rest.take _).length ≤ maxId
        have high : lengthHigh < 0x100 := valid _ (by simp)
        have low : lengthLow < 0x100 := valid _ (by simp)
        rw [taken]
        unfold getUint16 maxId
        omega
      · show getUint16 parentLow parentHigh ≤ r.length
        omega
      · rw [← position_none, ← knows.byKey]
        exact Option.not_isSome_iff_eq_none.1 fresh
      · omega
    · rw [header]
      refine ⟨rest.drop (getUint16 lengthLow lengthHigh), ?_⟩
      simp

theorem readEntries_grows (index : TreeIndex) (bytes : Bytes) :
    ∀ read, index.readEntries bytes = .ok read → index.entries.length ≤ read.entries.length := by
  fun_induction TreeIndex.readEntries index bytes with
  | case1 => intro read done; cases done
  | case2 => intro read done; cases done; exact le_rfl
  | case3 => intro read done; cases done; exact le_rfl
  | case4 => intro read done; cases done; exact le_rfl
  | case5 => intro read done; cases done; exact le_rfl
  | case6 index parentLow parentHigh lengthLow lengthHigh rest _ _ _ _ _ _ _ _ ih =>
    intro read done
    have grown := ih read done
    simp only [TreeIndex.append, List.length_append] at grown
    exact (Nat.le_add_right ..).trans grown
  | case7 => intro read done; cases done; exact le_rfl

theorem readEntries_readable (knows : Knows r index) (readable : Readable r bytes)
    (done : index.readEntries bytes = .ok read) : r.length < read.entries.length := by
  rcases readable with ⟨facet, appendable, rest, rfl⟩ | ⟨full, header⟩
  · obtain ⟨next, known, first⟩ := readEntries_entry knows appendable rest
    rw [first] at done
    have grown := readEntries_grows next rest read done
    rw [known.length, List.length_append] at grown
    exact grown
  · rw [header_full knows full header] at done
    cases done

/-- What the loop reads is a registry and what it leaves of the bytes. -/
theorem readEntries_knows (formed : WellFormed r) (knows : Knows r index) (valid : AreBytes bytes)
    (done : index.readEntries bytes = .ok read) :
    ∃ more rest, bytes = entriesData more ++ rest ∧ WellFormed (r ++ more) ∧ Knows (r ++ more) read := by
  induction size : bytes.length using Nat.strongRecOn generalizing bytes r index with
  | ind n ih =>
    by_cases readable : Readable r bytes
    · rcases readable with ⟨facet, appendable, rest, rfl⟩ | ⟨full, header⟩
      · obtain ⟨next, known, first⟩ := readEntries_entry knows appendable rest
        rw [first] at done
        have shorter : rest.length < n := by
          rw [← size, List.length_append, entryData_length]
          unfold entryHeaderLength
          omega
        have valid : AreBytes rest := fun b member => valid b (List.mem_append_right _ member)
        obtain ⟨more, left, rfl, formedAll, knowsAll⟩ :=
          ih rest.length shorter (.append r facet formed appendable) known valid done rfl
        refine ⟨facet :: more, left, ?_, ?_, ?_⟩
        · simp [entriesData]
        · simpa using formedAll
        · simpa using knowsAll
      · rw [header_full knows full header] at done
        cases done
    · rw [readEntries_stops formed knows valid readable] at done
      cases done
      refine ⟨[], bytes, rfl, ?_, ?_⟩
      · rwa [List.append_nil]
      · rwa [List.append_nil]

theorem openFile_holds {file : Bytes} (valid : AreBytes file) (opened : TreeIndex.openFile file = .ok index) :
    ∃ r, WellFormed r ∧ Holds r index := by
  unfold TreeIndex.openFile at opened
  dsimp only at opened
  split at opened
  case isTrue short =>
    cases opened
    refine ⟨[], .nil, knows_nothing _, ?_⟩
    have dropped : file.drop (0 + magic.length) = [] := List.drop_eq_nil_of_le (by simpa [magicLength, magic] using short)
    show writeFile file 0 magic = image []
    unfold writeFile
    rw [dropped]
    simp [image, entriesData]
  split at opened
  case isTrue => cases opened
  rename_i long head
  cases loop : TreeIndex.readEntries { file, offset := magicLength, entries := [], byKey := fun _ => none }
      (file.drop magicLength) with
  | error failure =>
    rw [loop] at opened
    cases opened
  | ok read =>
    rw [loop] at opened
    cases opened
    obtain ⟨r, rest, split, formed, knows⟩ := readEntries_knows .nil (knows_nothing file) (valid.drop _) loop
    rw [List.nil_append] at formed knows
    refine ⟨r, formed, ⟨knows.offset, knows.entries, knows.byKey⟩, ?_⟩
    have whole : file = image r ++ rest := by
      rw [image, List.append_assoc, ← split, ← not_not.1 head, List.take_append_drop]
    show (if read.offset < file.length then file.take read.offset else file) = image r
    rw [knows.offset, whole]
    split
    · exact List.take_left
    case isFalse nothing =>
      rw [List.length_append] at nothing
      have empty : rest = [] := List.length_eq_zero_iff.1 (by omega)
      rw [empty, List.append_nil]

theorem openFile_reads {stale : Bytes} {reopened : TreeIndex} (formed : WellFormed r) (more : stale ≠ [])
    (opened : TreeIndex.openFile (image r ++ stale) = .ok reopened) :
    ∃ known read, Knows r known ∧ known.readEntries stale = .ok read ∧ reopened.entries = read.entries := by
  have head : (image r ++ stale).take magicLength = magic := by
    rw [image, List.append_assoc]
    exact @List.take_left _ magic _
  have tail : (image r ++ stale).drop magicLength = entriesData r ++ stale := by
    rw [image, List.append_assoc]
    exact @List.drop_left _ magic _
  have long : ¬(image r ++ stale).length ≤ magicLength := by
    have some := List.length_pos_of_ne_nil more
    simp only [image, List.length_append, magic, magicLength, List.length_cons, List.length_nil]
    omega
  obtain ⟨known, knows, entries⟩ := @readEntries_entries stale r [] _ formed (knows_nothing (image r ++ stale))
  rw [List.nil_append] at knows
  unfold TreeIndex.openFile at opened
  dsimp only at opened
  rw [if_neg long, if_neg (not_not.2 head), tail, entries] at opened
  cases loop : known.readEntries stale with
  | error failure =>
    rw [loop] at opened
    cases opened
  | ok read =>
    rw [loop] at opened
    cases opened
    exact ⟨known, read, knows, loop, rfl⟩

theorem Readable.ne_nil {bytes : Bytes} (readable : Readable r bytes) : bytes ≠ [] := by
  rintro rfl
  rcases readable with ⟨facet, -, whole⟩ | ⟨-, header⟩
  · have shape := entryData_length facet.1 facet.2
    rw [List.prefix_nil.1 whole] at shape
    unfold entryHeaderLength at shape
    simp only [List.length_nil] at shape
    omega
  · exact absurd header (by decide)

end Reading

namespace Session

/-- The index knows a registry, its file holds it and what is left of failed calls, and every answer was the place of
its pair. -/
structure Appending (r : Registry) (rest : Bytes) (s : Session) : Prop where
  formed : WellFormed r
  knows : Knows r s.index
  file : s.index.file = image r ++ rest
  bytes : AreBytes rest
  answers : ∀ answer ∈ s.returned, answer.1 ∈ r ∧ answer.2 = r.idxOf answer.1 + 1

variable {r : Registry} {rest : Bytes} {s : Session}

theorem Appending.registry (kept : s.Appending r rest) : s.index.registry = r := kept.knows.registry

theorem Appending.stale (kept : s.Appending r rest) : s.index.stale = rest := by
  unfold TreeIndex.stale
  rw [kept.file, kept.knows.offset]
  exact List.drop_left

theorem Appending.agrees_iff (kept : s.Appending r rest) : s.Agrees ↔ ¬Readable r rest := by
  constructor
  · rintro ⟨reopened, opened, same, -⟩ readable
    rw [kept.file] at opened
    obtain ⟨known, read, knows, loop, entries⟩ := openFile_reads kept.formed readable.ne_nil opened
    have more := readEntries_readable knows readable loop
    rw [← entries, same, kept.knows.length] at more
    exact absurd more (Nat.lt_irrefl _)
  · intro unreadable
    obtain ⟨reopened, opened, holds⟩ := openFile_stops kept.formed fun _ knows =>
      readEntries_stops kept.formed knows kept.bytes unreadable
    refine ⟨reopened, ?_, ?_, ?_⟩
    · rw [kept.file, opened]
    · rw [holds.entries, kept.knows.entries]
    · intro parent name id member
      obtain ⟨known, place⟩ := kept.answers _ member
      show reopened.getId parent name.units = .ok (id, reopened)
      rw [getId_known kept.formed holds.toKnows known]
      exact congrArg (fun i => Except.ok (i, reopened)) place.symm

theorem getIdOn_new {index : TreeIndex} {parent : Nat} {name : JsString} {outcome : Outcome} (knows : Knows r index)
    (appendable : Appendable r (parent, encode name)) :
    index.getIdOn parent name outcome = index.assign parent (encode name) outcome := by
  have unknown : index.byKey (entryKey parent (encode name)) = none := by
    rw [knows.byKey (parent, encode name), position_none]
    exact appendable.fresh
  have named := appendable.named
  have short := appendable.short
  have under := appendable.under
  have room := appendable.room
  have size := knows.length
  unfold TreeIndex.getIdOn TreeIndex.nextId
  dsimp only at named short under ⊢
  rw [if_neg (by omega), if_neg (by omega), if_neg (by omega), unknown]
  dsimp only
  rw [if_neg (by omega)]

theorem getIdOn_old {index : TreeIndex} {parent : Nat} {name : JsString} {outcome : Outcome} (knows : Knows r index)
    (old : ¬Appendable r (parent, encode name)) :
    (index.getIdOn parent name outcome).2 = index ∧
      ∀ id, (index.getIdOn parent name outcome).1 = .ok id →
        (parent, encode name) ∈ r ∧ id = r.idxOf (parent, encode name) + 1 := by
  have size := knows.length
  have key := knows.byKey (parent, encode name)
  unfold TreeIndex.getIdOn
  dsimp only at key ⊢
  split
  · exact ⟨rfl, fun id impossible => by cases impossible⟩
  split
  · exact ⟨rfl, fun id impossible => by cases impossible⟩
  split
  · exact ⟨rfl, fun id impossible => by cases impossible⟩
  rename_i named short under
  cases found : index.byKey (entryKey parent (encode name)) with
  | some i =>
    refine ⟨rfl, fun id done => ?_⟩
    cases done
    rw [found] at key
    unfold position at key
    split at key
    case isTrue known =>
      cases key
      exact ⟨known, rfl⟩
    case isFalse => cases key
  | none =>
    dsimp only
    split
    · exact ⟨rfl, fun id impossible => by cases impossible⟩
    rename_i room
    exfalso
    rw [found] at key
    apply old
    constructor
    · exact Nat.pos_of_ne_zero named
    · exact Nat.not_lt.1 short
    · exact size ▸ Nat.not_lt.1 under
    · exact position_none.1 key.symm
    · unfold TreeIndex.nextId at room
      omega

theorem entryData_bytes {facet : Nat × Bytes} (appendable : Appendable r facet) (name : AreBytes facet.2) :
    AreBytes (entryData facet.1 facet.2) := by
  have under := appendable.under
  have room := appendable.room
  unfold entryData
  apply AreBytes.append _ name
  apply AreBytes.append (setUint16_bytes (by omega)) (setUint16_bytes appendable.short)

theorem writeFile_image (data : Bytes) :
    writeFile (image r ++ rest) (image r).length data = image r ++ data ++ rest.drop data.length := by
  have none : (image r).length - (image r ++ rest).length = 0 := by
    rw [List.length_append]
    omega
  unfold writeFile
  rw [none, List.replicate_zero, List.append_nil, List.take_left, List.drop_append]
  simp

theorem Appending.harmless_iff (kept : s.Appending r rest) {c : Call}
    (appendable : Appendable r (c.parent, encode c.name.units)) :
    s.Harmless c ↔ c.outcome.LeavesNothing r rest (c.parent, encode c.name.units) := by
  unfold Harmless
  rw [kept.registry, kept.stale]
  exact ⟨fun harmless => harmless appendable, fun harmless _ => harmless⟩

theorem Appending.done (kept : s.Appending r rest) {parent : Nat} {name : Utf16}
    (appendable : Appendable r (parent, encode name.units)) :
    (s.call ⟨parent, name, .done⟩).Appending (r ++ [(parent, encode name.units)])
      (rest.drop (entryData parent (encode name.units)).length) := by
  have answer := @getIdOn_new r s.index parent name.units .done kept.knows appendable
  unfold Session.call
  dsimp only
  rw [answer]
  constructor
  · exact .append r _ kept.formed appendable
  · exact kept.knows.append appendable.fresh _ rfl
  · show writeFile s.index.file s.index.offset (entryData parent (encode name.units)) = _
    rw [kept.file, kept.knows.offset, writeFile_image, image_append]
  · exact kept.bytes.drop _
  · intro answer member
    rcases List.mem_append.1 member with earlier | last
    · obtain ⟨known, place⟩ := kept.answers answer earlier
      exact ⟨List.mem_append_left _ known, by rw [List.idxOf_append_of_mem known]; exact place⟩
    · rw [List.mem_singleton.1 last]
      refine ⟨by simp, ?_⟩
      rw [List.idxOf_append_of_notMem appendable.fresh, kept.knows.length]
      simp

/-- A call that throws changes only what stands behind the entries. -/
theorem Appending.refile (kept : s.Appending r rest) {left : Bytes} (bytes : AreBytes left) :
    Appending r left { s with index := { s.index with file := image r ++ left } } where
  formed := kept.formed
  knows := ⟨kept.knows.offset, kept.knows.entries, kept.knows.byKey⟩
  file := rfl
  bytes := bytes
  answers := kept.answers

theorem Appending.writeThrows (kept : s.Appending r rest) {parent : Nat} {name : Utf16} (stored : List Bool)
    (appendable : Appendable r (parent, encode name.units)) :
    (s.call ⟨parent, name, .writeThrows stored⟩).Appending r
      (storeSome rest (entryData parent (encode name.units)) stored) := by
  have answer := @getIdOn_new r s.index parent name.units (.writeThrows stored) kept.knows appendable
  have data := entryData_bytes appendable (encode_bytes name)
  have file : Outcome.store (.writeThrows stored) s.index.file s.index.offset (entryData parent (encode name.units)) =
      image r ++ storeSome rest (entryData parent (encode name.units)) stored := by
    unfold Outcome.store
    rw [kept.file, kept.knows.offset, List.take_left, List.drop_left]
  unfold Session.call
  dsimp only
  rw [answer, TreeIndex.assign, file]
  exact kept.refile (storeSome_bytes _ _ stored kept.bytes data)

theorem Appending.syncThrows (kept : s.Appending r rest) {parent : Nat} {name : Utf16}
    (appendable : Appendable r (parent, encode name.units)) :
    (s.call ⟨parent, name, .syncThrows⟩).Appending r
      (entryData parent (encode name.units) ++ rest.drop (entryData parent (encode name.units)).length) := by
  have answer := @getIdOn_new r s.index parent name.units .syncThrows kept.knows appendable
  have data := entryData_bytes appendable (encode_bytes name)
  have file : Outcome.store .syncThrows s.index.file s.index.offset (entryData parent (encode name.units)) =
      image r ++ (entryData parent (encode name.units) ++ rest.drop (entryData parent (encode name.units)).length) := by
    unfold Outcome.store
    rw [kept.file, kept.knows.offset, writeFile_image, List.append_assoc]
  unfold Session.call
  dsimp only
  rw [answer, TreeIndex.assign, file]
  exact kept.refile (data.append (kept.bytes.drop _))

theorem Appending.old (kept : s.Appending r rest) {c : Call}
    (old : ¬Appendable r (c.parent, encode c.name.units)) : (s.call c).Appending r rest := by
  obtain ⟨same, known⟩ := @getIdOn_old r s.index c.parent c.name.units c.outcome kept.knows old
  unfold Session.call
  dsimp only
  split
  case h_1 id done =>
    rw [same]
    refine ⟨kept.formed, kept.knows, kept.file, kept.bytes, fun answer member => ?_⟩
    rcases List.mem_append.1 member with earlier | last
    · exact kept.answers answer earlier
    · rw [List.mem_singleton.1 last]
      exact known id done
  case h_2 =>
    rw [same]
    exact ⟨kept.formed, kept.knows, kept.file, kept.bytes, kept.answers⟩

/-- After a call that is to give a new id the file agrees with the index if and only if the call was harmless; any
other call changes neither. -/
theorem Appending.call (kept : s.Appending r rest) (agrees : s.Agrees) (c : Call) :
    (∃ r' rest', (s.call c).Appending r' rest') ∧ ((s.call c).Agrees ↔ s.Harmless c) := by
  by_cases appendable : Appendable r (c.parent, encode c.name.units)
  · have harmless := kept.harmless_iff appendable
    obtain ⟨parent, name, outcome⟩ := c
    cases outcome with
    | done =>
      have next := kept.done appendable
      exact ⟨⟨_, _, next⟩, next.agrees_iff.trans harmless.symm⟩
    | writeThrows stored =>
      have next := kept.writeThrows stored appendable
      exact ⟨⟨_, _, next⟩, next.agrees_iff.trans harmless.symm⟩
    | syncThrows =>
      have next := kept.syncThrows appendable
      refine ⟨⟨_, _, next⟩, ?_⟩
      rw [next.agrees_iff, harmless]
      constructor
      · intro unreadable
        exact unreadable (.inl ⟨_, appendable, List.prefix_append ..⟩)
      · exact False.elim
  · have next := kept.old appendable
    refine ⟨⟨_, _, next⟩, ?_⟩
    rw [next.agrees_iff, ← kept.agrees_iff]
    constructor
    · intro _ again
      rw [kept.registry] at again
      exact absurd again appendable
    · exact fun _ => agrees

theorem Appending.throughout (calls : List Call) : ∀ {s : Session} {r : Registry} {rest : Bytes},
    s.Appending r rest → s.Agrees → (s.AgreesThroughout calls ↔ s.HarmlessThroughout calls) := by
  induction calls with
  | nil =>
    intro s r rest _ agrees
    exact ⟨fun _ => trivial, fun _ => agrees⟩
  | cons c calls ih =>
    intro s r rest kept agrees
    obtain ⟨⟨r', rest', next⟩, same⟩ := kept.call agrees c
    constructor
    · rintro ⟨-, later⟩
      have here : (s.call c).Agrees := by
        cases calls with
        | nil => exact later
        | cons => exact later.1
      exact ⟨same.1 here, (ih next here).1 later⟩
    · rintro ⟨harmless, later⟩
      exact ⟨agrees, (ih next (same.2 harmless)).2 later⟩

theorem held_appending {index : TreeIndex} (formed : WellFormed r) (holds : Holds r index) :
    Appending r [] { index, returned := [] } := by
  refine ⟨formed, holds.toKnows, ?_, ?_, ?_⟩
  · rw [List.append_nil]
    exact holds.file
  · intro b member
    cases member
  · intro answer member
    cases member

theorem thrown_keeps_ids (index : TreeIndex) (parent : Nat) (name : JsString) (outcome : Outcome) (thrown : Thrown)
    (threw : (index.getIdOn parent name outcome).1 = .error thrown) :
    ∃ file, (index.getIdOn parent name outcome).2 = { index with file } := by
  unfold TreeIndex.getIdOn at *
  dsimp only at *
  split
  · exact ⟨_, rfl⟩
  split
  · exact ⟨_, rfl⟩
  split
  · exact ⟨_, rfl⟩
  split
  · exact ⟨_, rfl⟩
  split
  · exact ⟨_, rfl⟩
  rename_i named short under _ unknown room
  rw [if_neg named, if_neg short, if_neg under, unknown] at threw
  dsimp only at threw
  rw [if_neg room] at threw
  cases outcome with
  | done => cases threw
  | writeThrows stored => exact ⟨_, rfl⟩
  | syncThrows => exact ⟨_, rfl⟩

/-- A name whose bytes after its first letter are those of an entry `b` under the root. -/
def nested : Utf16 := ⟨[97, 0, 0, 1, 0, 98, 99], by decide⟩

end Session

end DoRuntime.Facets
