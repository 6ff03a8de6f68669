import DoRuntime.Api.ListExact

namespace DoRuntime.Api

open Js

/-- `SELECT value FROM _cf_KV WHERE key = ?`, with the key bound as UTF-8. -/
def selectValue {α : Type} (table : KvTable α) (key : JsString) : Option α :=
  (table.rows.find? fun row => encode row.1 = encode key).map (·.2)

def codeUnitOrder {α : Type} (a b : JsString × α) : Bool := decide (a.1 ≤ b.1)

/-- `ActorSqlite.getMultiple`. -/
def getMultiple {α : Type} (keys : List JsString) (table : KvTable α) : List (JsString × α) :=
  (keys.filterMap fun key => (selectValue table key).map fun value => (key, value)).mergeSort codeUnitOrder

/-- `Map.prototype.set` -/
def mapSet {β : Type} (map : List (JsString × β)) (entry : JsString × β) : List (JsString × β) :=
  if map.any (·.1 = entry.1) then map.map fun old =>
    if old.1 = entry.1 then entry else old else map ++ [entry]

def addResult {ε α β : Type} (deserializeValue : JsString → α → Except ε β) (map : List (JsString × β))
    (row : JsString × α) : Except (ListError ε) (List (JsString × β)) :=
  (entryOf deserializeValue row).map (mapSet map)

def listResultsToMap {ε α β : Type} (deserializeValue : JsString → α → Except ε β)
    (rows : List (JsString × α)) :
    Except (ListError ε) (List (JsString × β)) :=
  rows.foldlM (addResult deserializeValue) []

/-- `get(keys)` -/
def getBatch {ε α β : Type} (deserializeValue : JsString → α → Except ε β) (keys : List JsString)
    (table : KvTable α) :
    Except (ListError ε) (List (JsString × β)) :=
  listResultsToMap deserializeValue (getMultiple keys table)

def noOptions : ListOptions where
  start := none
  startAfter := none
  end_ := none
  prefix_ := none
  reverse := none
  limit := none

/-- The rows of `list()` without options. -/
def listRows {α : Type} (table : KvTable α) : List (JsString × α) := table.rows.mergeSort (inOrder false)

/-- Those of them that are asked for. -/
def listed {α : Type} (keys : List JsString) (table : KvTable α) : List (JsString × α) :=
  (listRows table).filter fun row => row.1 ∈ keys

section Map

variable {α β ε : Type} (deserializeValue : JsString → α → Except ε β)

/-- Of rows with one key that follow each other, the last. -/
def merged : List (JsString × α) → List (JsString × α)
  | [] => []
  | [row] => [row]
  | row :: next :: rest => if row.1 = next.1 then merged (next :: rest) else row :: merged (next :: rest)

theorem mapSet_again (map : List (JsString × β)) (entry : JsString × β) :
    mapSet (mapSet map entry) entry = mapSet map entry := by
  have found : (mapSet map entry).any (·.1 = entry.1) = true := by
    unfold mapSet
    split_ifs with known
    · rw [List.any_eq_true] at known ⊢
      obtain ⟨old, member, same⟩ := known
      refine ⟨entry, List.mem_map.2 ⟨old, member, if_pos (of_decide_eq_true same)⟩, by simp⟩
    · rw [List.any_append, List.any_cons]
      simp
  rw [mapSet, if_pos found]
  unfold mapSet
  split_ifs with known
  · rw [List.map_map]
    apply List.map_congr_left
    intro old _
    show (if (if old.1 = entry.1 then entry else old).1 = entry.1 then entry else if old.1 = entry.1 then entry else old) = _
    by_cases same : old.1 = entry.1
    · rw [if_pos same, if_pos rfl]
    · rw [if_neg same, if_neg same]
  · have none_ : ∀ old ∈ map, old.1 ≠ entry.1 := by
      intro old member same
      apply known
      exact List.any_eq_true.2 ⟨old, member, decide_eq_true same⟩
    rw [List.map_append, List.map_cons, List.map_nil, if_pos rfl]
    congr 1
    conv_rhs => rw [← List.map_id map]
    exact List.map_congr_left fun old member => if_neg (none_ old member)

theorem mapSet_new {map : List (JsString × β)} {entry : JsString × β}
    (apart : ∀ old ∈ map, old.1 ≠ entry.1) :
    mapSet map entry = map ++ [entry] := by
  apply if_neg
  rw [List.any_eq_true]
  rintro ⟨old, member, same⟩
  exact apart old member (of_decide_eq_true same)

theorem foldlM_ok {row : JsString × α} {entry : JsString × β}
    (read : (entryOf deserializeValue row : Except (ListError ε) _) = .ok entry)
      (rest : List (JsString × α))
    (map : List (JsString × β)) : (row :: rest).foldlM (addResult deserializeValue) map =
      rest.foldlM (addResult deserializeValue) (mapSet map entry) := by
  rw [List.foldlM_cons, addResult, read]
  rfl

theorem foldlM_error {row : JsString × α} {e : ListError ε}
    (read : (entryOf deserializeValue row : Except (ListError ε) (JsString × β)) = .error e)
      (rest : List (JsString × α))
    (map : List (JsString × β)) : (row :: rest).foldlM (addResult deserializeValue) map = .error e := by
  rw [List.foldlM_cons, addResult, read]
  rfl

theorem foldlM_merged (rows : List (JsString × α)) (once : ∀ a ∈ rows, ∀ b ∈ rows, a.1 = b.1 → a = b)
    (map : List (JsString × β)) :
    rows.foldlM (addResult deserializeValue) map =
      (merged rows).foldlM (addResult deserializeValue) map := by
  induction rows using merged.induct generalizing map with
  | case1 => rfl
  | case2 row => rfl
  | case3 row next rest same ih =>
    have equal : row = next := once row (by simp) next (by simp) same
    have later := ih (fun a member b other => once a (List.mem_cons_of_mem _ member) b
      (List.mem_cons_of_mem _ other))
    rw [merged, if_pos same, ← later, equal]
    cases read : (entryOf deserializeValue next : Except (ListError ε) _) with
    | error e => rw [foldlM_error _ read, foldlM_error _ read]
    | ok entry => rw [foldlM_ok _ read, foldlM_ok _ read, foldlM_ok _ read, mapSet_again]
  | case4 row next rest other ih =>
    have later := ih (fun a member b other => once a (List.mem_cons_of_mem _ member) b
      (List.mem_cons_of_mem _ other))
    rw [merged, if_neg other]
    cases read : (entryOf deserializeValue row : Except (ListError ε) _) with
    | error e => rw [foldlM_error _ read, foldlM_error _ read]
    | ok entry => rw [foldlM_ok _ read, foldlM_ok _ read, later]

theorem entryOf_key {row : JsString × α} {entry : JsString × β}
    (read : (entryOf deserializeValue row : Except (ListError ε) _) = .ok entry) : entry.1 = row.1 := by
  unfold entryOf at read
  cases value : deserializeValue row.1 row.2 with
  | ok v =>
    rw [value] at read
    rw [← Except.ok.inj read]
  | error e =>
    rw [value] at read
    cases read

/-- Rows with different keys become the entries of the map one by one. -/
theorem foldlM_distinct (rows : List (JsString × α)) (distinct : (rows.map (·.1)).Nodup)
    (map : List (JsString × β))
    (apart : ∀ old ∈ map, ∀ row ∈ rows, old.1 ≠ row.1) :
    rows.foldlM (addResult deserializeValue) map =
      (rows.mapM (entryOf deserializeValue)).map (map ++ ·) := by
  induction rows generalizing map with
  | nil => simp [pure, Except.pure, Except.map]
  | cons row rest ih =>
    rw [List.map_cons, List.nodup_cons] at distinct
    cases read : (entryOf deserializeValue row : Except (ListError ε) _) with
    | error e =>
      rw [foldlM_error _ read, List.mapM_cons, read]
      rfl
    | ok entry =>
      have key := entryOf_key deserializeValue read
      have new : mapSet map entry = map ++ [entry] :=
        mapSet_new fun old member same => apart old member row List.mem_cons_self (same.trans key)
      have later := ih distinct.2 (map ++ [entry]) (by
        intro old member other inside
        rcases List.mem_append.1 member with before | this
        · exact apart old before other (List.mem_cons_of_mem _ inside)
        · rw [List.mem_singleton.1 this, key]
          intro same
          exact distinct.1 (same ▸ List.mem_map_of_mem inside))
      rw [foldlM_ok _ read, new, later, List.mapM_cons, read]
      cases (rest.mapM (entryOf deserializeValue) : Except (ListError ε) _) with
      | error e => rfl
      | ok entries =>
        show Except.ok (map ++ [entry] ++ entries) = Except.ok (map ++ (entry :: entries))
        rw [List.append_assoc]
        rfl

theorem mem_merged {rows : List (JsString × α)} {row : JsString × α} (member : row ∈ merged rows)
    : row ∈ rows := by
  induction rows using merged.induct with
  | case1 => exact member
  | case2 => exact member
  | case3 first next rest same ih =>
    rw [merged, if_pos same] at member
    exact List.mem_cons_of_mem _ (ih member)
  | case4 first next rest other ih =>
    rw [merged, if_neg other] at member
    rcases List.mem_cons.1 member with rfl | later
    · exact List.mem_cons_self
    · exact List.mem_cons_of_mem _ (ih later)

theorem merged_keeps {rows : List (JsString × α)} (once : ∀ a ∈ rows, ∀ b ∈ rows, a.1 = b.1 → a = b)
    {row : JsString × α} (member : row ∈ rows) : row ∈ merged rows := by
  induction rows using merged.induct with
  | case1 => exact member
  | case2 => exact member
  | case3 first next rest same ih =>
    rw [merged, if_pos same]
    have later := ih (fun a member b other => once a (List.mem_cons_of_mem _ member) b
      (List.mem_cons_of_mem _ other))
    rcases List.mem_cons.1 member with rfl | inside
    · apply later
      rw [once row (by simp) next (by simp) same]
      exact List.mem_cons_self
    · exact later inside
  | case4 first next rest other ih =>
    rw [merged, if_neg other]
    have later := ih (fun a member b other => once a (List.mem_cons_of_mem _ member) b
      (List.mem_cons_of_mem _ other))
    rcases List.mem_cons.1 member with rfl | inside
    · exact List.mem_cons_self
    · exact List.mem_cons_of_mem _ (later inside)

theorem merged_sorted {rows : List (JsString × α)} (sorted : rows.Pairwise fun a b => a.1 ≤ b.1) :
    (merged rows).Pairwise fun a b => a.1 < b.1 := by
  induction rows using merged.induct with
  | case1 => exact .nil
  | case2 row => exact List.pairwise_singleton ..
  | case3 first next rest same ih =>
    rw [merged, if_pos same]
    exact ih (List.pairwise_cons.1 sorted).2
  | case4 first next rest other ih =>
    rw [merged, if_neg other]
    obtain ⟨below, sorted⟩ := List.pairwise_cons.1 sorted
    apply List.pairwise_cons.2
    constructor
    · intro row member
      have near : first.1 < next.1 := lt_of_le_of_ne (below next List.mem_cons_self) other
      rcases List.mem_cons.1 (mem_merged member) with rfl | later
      · exact near
      · exact lt_of_lt_of_le near ((List.pairwise_cons.1 sorted).1 row later)
    · exact ih sorted

end Map

section Batched

variable {α : Type} {keys : List JsString} {table : KvTable α}

theorem selectValue_some {key : JsString} {value : α} (found : selectValue table key = some value) :
    ∃ row ∈ table.rows, encode row.1 = encode key ∧ row.2 = value := by
  obtain ⟨row, hit, same⟩ := Option.map_eq_some_iff.1 found
  have equal := List.find?_some hit
  exact ⟨row, List.mem_of_find?_eq_some hit, of_decide_eq_true equal, same⟩

theorem row_eq {a b : JsString × α} (left : a ∈ table.rows) (right : b ∈ table.rows) (same : a.1 = b.1)
    : a = b := by
  have names := List.pairwise_map.1 table.distinct
  have : Std.Symm fun a b : JsString × α => a.1 ≠ b.1 := ⟨fun _ _ apart => apart.symm⟩
  by_contra other
  exact names.forall left right other same

theorem selectValue_of_row {row : JsString × α} (stored : row ∈ table.rows)
    : selectValue table row.1 = some row.2 := by
  cases hit : table.rows.find? fun other => encode other.1 = encode row.1 with
  | none =>
    have none_ := List.find?_eq_none.1 hit row stored
    simp at none_
  | some other =>
    have member := List.mem_of_find?_eq_some hit
    have equal := List.find?_some hit
    have same := encode_injective (table.text other member) (table.text row stored)
      (of_decide_eq_true equal)
    rw [selectValue, hit, row_eq member stored same]
    rfl

theorem mem_getMultiple {row : JsString × α} : row ∈ getMultiple keys table ↔
    row.1 ∈ keys ∧ selectValue table row.1 = some row.2 := by
  rw [getMultiple, (List.mergeSort_perm _ _).mem_iff, List.mem_filterMap]
  constructor
  · rintro ⟨key, asked, found⟩
    obtain ⟨value, read, rfl⟩ := Option.map_eq_some_iff.1 found
    exact ⟨asked, read⟩
  · rintro ⟨asked, read⟩
    exact ⟨row.1, asked, by rw [read]; rfl⟩

theorem getMultiple_once : ∀ a ∈ getMultiple keys table, ∀ b ∈ getMultiple keys table, a.1 = b.1 → a = b :=
    by
  intro a left b right same
  have first := (mem_getMultiple.1 left).2
  rw [same, (mem_getMultiple.1 right).2] at first
  exact Prod.ext same (Option.some.inj first).symm

variable (keys table) in
theorem getMultiple_sorted : (getMultiple keys table).Pairwise fun a b => a.1 ≤ b.1 := by
  have sorted := @List.pairwise_mergeSort _ codeUnitOrder (fun (a b c : JsString × α) first second => by
    simp only [codeUnitOrder, decide_eq_true_eq] at first second ⊢
    exact le_trans first second) (fun a b => by
    simp only [codeUnitOrder, Bool.or_eq_true, decide_eq_true_eq]
    exact le_total _ _) (keys.filterMap fun key => (selectValue table key).map fun value => (key, value))
  exact sorted.imp fun ordered => of_decide_eq_true ordered

/-- The entries of the map are what is found, once each, in the order of the code units. -/
theorem getBatch_eq {ε β : Type} (deserializeValue : JsString → α → Except ε β) :
    getBatch deserializeValue keys table = (merged (getMultiple keys table)).mapM
      (entryOf deserializeValue) := by
  unfold getBatch listResultsToMap
  have strictly := merged_sorted (getMultiple_sorted keys table)
  have distinct : ((merged (getMultiple keys table)).map (·.1)).Nodup :=
    List.pairwise_map.2 (strictly.imp fun less => ne_of_lt less)
  rw [foldlM_merged _ _ getMultiple_once, foldlM_distinct _ _ distinct _ (fun old none_ => by cases none_)]
  cases (merged (getMultiple keys table)).mapM (entryOf deserializeValue) with
  | error e => rfl
  | ok entries => rfl

theorem mem_listed {row : JsString × α} : row ∈ listed keys table ↔ row ∈ table.rows ∧ row.1 ∈ keys := by
  rw [listed, List.mem_filter, listRows, (List.mergeSort_perm _ _).mem_iff, decide_eq_true_eq]

theorem listed_sorted : (listed keys table).Pairwise fun a b => encode a.1 < encode b.1 := by
  have sorted := sorted_strictly false table.distinct table.text
  simp only [Bool.false_eq_true, if_false] at sorted
  exact sorted.sublist List.filter_sublist

/-- What is asked for is text, or not there; and of two keys that are there and asked for, the one with
    the smaller code units has the smaller code points. -/
structure Batchable (keys : List JsString) (table : KvTable α) : Prop where
  text : ∀ key ∈ keys, ∀ row ∈ table.rows, encode row.1 = encode key → row.1 = key
  order : ∀ row ∈ table.rows, ∀ other ∈ table.rows, row.1 ∈ keys → other.1 ∈ keys → row.1 < other.1 →
    encode row.1 < encode other.1

theorem nodup_of_bytes {rows : List (JsString × α)}
    (sorted : rows.Pairwise fun a b => encode a.1 < encode b.1) : rows.Nodup := by
  apply sorted.imp
  rintro a b less rfl
  exact lt_irrefl _ less

theorem merged_eq_listed_iff : merged (getMultiple keys table)
    = listed keys table ↔ Batchable keys table := by
  have strictly := merged_sorted (getMultiple_sorted keys table)
  constructor
  · intro same
    constructor
    · intro key asked row stored equal
      cases found : selectValue table key with
      | none =>
        rw [selectValue, Option.map_eq_none_iff] at found
        have none_ := List.find?_eq_none.1 found row stored
        simp [equal] at none_
      | some value =>
        have there : (key, value) ∈ listed keys table := same ▸ merged_keeps getMultiple_once
          (mem_getMultiple.2 ⟨asked, found⟩)
        have stored' := (mem_listed.1 there).1
        exact encode_injective (table.text row stored) (table.text _ stored') equal
    · intro row stored other stored' asked asked' less
      have both := (same ▸ strictly).and listed_sorted
      have apart : row ≠ other := fun equal => lt_irrefl _ (equal ▸ less)
      have : Std.Symm fun a b : JsString × α =>
          (a.1 < b.1 ∧ encode a.1 < encode b.1) ∨ (b.1 < a.1 ∧ encode b.1 < encode a.1) :=
            ⟨fun _ _ => Or.symm⟩
      have either : (listed keys table).Pairwise fun a b =>
          (a.1 < b.1 ∧ encode a.1 < encode b.1) ∨ (b.1 < a.1 ∧ encode b.1 < encode a.1) := both.imp .inl
      rcases either.forall (mem_listed.2 ⟨stored, asked⟩) (mem_listed.2 ⟨stored', asked'⟩)
        apart with ⟨_, ordered⟩ | ⟨more, _⟩
      · exact ordered
      · exact absurd more (lt_asymm less)
  · intro batchable
    have members : ∀ row, row ∈ merged (getMultiple keys table) ↔ row ∈ listed keys table := by
      intro row
      rw [mem_listed]
      constructor
      · intro member
        obtain ⟨asked, found⟩ := mem_getMultiple.1 (mem_merged member)
        obtain ⟨stored, there, equal, value⟩ := selectValue_some found
        have same := batchable.text row.1 asked stored there equal
        have whole : stored = row := Prod.ext same value
        exact ⟨whole ▸ there, asked⟩
      · rintro ⟨stored, asked⟩
        exact merged_keeps getMultiple_once (mem_getMultiple.2 ⟨asked, selectValue_of_row stored⟩)
    have ordered : (merged (getMultiple keys table)).Pairwise fun a b => encode a.1 < encode b.1 := by
      apply strictly.imp_of_mem
      intro a b left right less
      obtain ⟨stored, asked⟩ := mem_listed.1 ((members a).1 left)
      obtain ⟨stored', asked'⟩ := mem_listed.1 ((members b).1 right)
      exact batchable.order a stored b stored' asked asked' less
    apply List.Perm.eq_of_pairwise (fun a b _ _ less more => absurd more (lt_asymm less))
      ordered listed_sorted
    exact (List.perm_ext_iff_of_nodup (nodup_of_bytes ordered) (nodup_of_bytes listed_sorted)).2 members

theorem list_noOptions {ε β : Type} (deserializeValue : JsString → α → Except ε β) :
    list deserializeValue noOptions table = (listRows table).mapM (entryOf deserializeValue) := by
  have all : (table.rows.filter fun row => decide (encode [] ≤ encode row.1) &&
      (none : Option JsString).all fun end_ => decide (encode row.1 < encode end_)) = table.rows := by
    apply List.filter_eq_self.2
    intro row _
    rw [Option.all_none, Bool.and_true]
    exact decide_eq_true encode_nil_le
  show (selectList [] none none false table >>= fun rows => rows.mapM (entryOf deserializeValue)) = _
  rw [selectList, all]
  rfl

/-- `get(keys)` finds what `list()` finds of the keys, in its order, exactly where what is asked for is text
    or not there, and the code units order the keys that are there as their code points do. -/
theorem getBatch_agrees_iff (keys : List JsString) (table : KvTable α) :
    ((∀ (ε β : Type) (deserializeValue : JsString → α → Except ε β) (entries : List (JsString × β)),
        getBatch deserializeValue keys table = .ok entries →
          (listed keys table).mapM (entryOf deserializeValue) = (.ok entries : Except (ListError ε) _)) ↔
      Batchable keys table) ∧
    ∀ (ε β : Type) (deserializeValue : JsString → α → Except ε β),
      list deserializeValue noOptions table = (listRows table).mapM (entryOf deserializeValue) := by
  refine ⟨?_, fun _ _ deserializeValue => list_noOptions deserializeValue⟩
  rw [← merged_eq_listed_iff]
  have plain (rows : List (JsString × α)) :
      rows.mapM (entryOf fun _ value => .ok value) = (.ok rows : Except (ListError Unit) _) := by
    induction rows with
    | nil => rfl
    | cons row rest ih =>
      rw [List.mapM_cons, ih]
      rfl
  constructor
  · intro agrees
    have same := agrees Unit α (fun _ value => .ok value) (merged (getMultiple keys table))
      (by rw [getBatch_eq, plain])
    rw [plain] at same
    exact (Except.ok.inj same).symm
  · intro same ε β deserializeValue entries read
    rw [← same, ← getBatch_eq]
    exact read

end Batched

def wide : JsString := [0xFF01]

/-- Two keys whose code units and whose bytes are in different orders. -/
def apart : KvTable Nat where
  rows := [(wide, 2), (smile, 1)]
  distinct := by decide
  text := by
    intro row member
    rcases List.mem_cons.1 member with rfl | last
    · exact ⟨[0xFF01], by simp [IsScalar], by decide⟩
    · rw [List.mem_singleton.1 last]
      exact ⟨[0x1F600], by simp [IsScalar], by decide⟩

theorem getBatch_out_of_order :
    (getBatch (fun _ value => .ok value) [smile, wide] apart : Except (ListError Unit) _)
      = .ok [(smile, 1), (wide, 2)] ∧
      (list (fun _ value => .ok value) noOptions apart : Except (ListError Unit) _)
        = .ok [(wide, 2), (smile, 1)] := by
  have found : getMultiple [smile, wide] apart = [(smile, 1), (wide, 2)] := by
    apply List.mergeSort_of_pairwise
    decide
  have rows : listRows apart = [(wide, 2), (smile, 1)] := by
    apply List.mergeSort_of_pairwise
    decide
  constructor
  · rw [getBatch, found]
    rfl
  · rw [list_noOptions, rows]
    rfl

end DoRuntime.Api
