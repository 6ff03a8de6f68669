import DoRuntime.Api.ListOptions

namespace DoRuntime.Api

open Js Lexicographic

/-- What the options ask of a key. -/
structure Matches (options : ListOptions) (key : JsString) : Prop where
  start : ∀ s, options.start = some s → encode s.units ≤ encode key
  startAfter : ∀ s, options.startAfter = some s → encode s.units < encode key
  end_ : ∀ e, options.end_ = some e → encode key < encode e.units
  prefix_ : ∀ p, options.prefix_ = some p → p.units <+: key

/-- The rows that match, in the order asked for, cut to the limit. -/
def Exact {α : Type} (options : ListOptions) (table : KvTable α) (rows : List (JsString × α)) : Prop :=
  ∃ found : List (JsString × α), (∀ row, row ∈ found ↔ row ∈ table.rows ∧ Matches options row.1) ∧
    (found.Pairwise fun a b =>
      if options.reverse = some true then encode b.1 < encode a.1 else encode a.1 < encode b.1) ∧
    ((options.limit = none ∧ rows = found) ∨
      ∃ (limit : Float) (count : Nat), options.limit = some limit ∧ integralValue limit = some (count : Int) ∧
        rows = found.take count)

/-- The order of the code units is that of the bytes. -/
def Alike (s t : JsString) : Prop := s < t ↔ encode s < encode t

instance (s t : JsString) : Decidable (Alike s t) := inferInstanceAs (Decidable (_ ↔ _))

structure Comparable (options : ListOptions) : Prop where
  startPrefix : ∀ p, options.prefix_ = some p → Alike options.startKey p.units
  prefixEnd : ∀ p e, options.prefix_ = some p → options.end_ = some e → Alike p.units e.units
  startEnd : ∀ e, options.end_ = some e → Alike options.startKey e.units
  prefixText : ∀ p, options.prefix_ = some p → WellFormed p.units
  prefixLast : ∀ p (last : Nat), options.prefix_ = some p → p.units.getLast? = some last →
    last ≠ 0xD7FF ∧ last ≠ 0xDFFF ∧ last ≠ 0xFFFF
  limit : ∀ limit, options.limit = some limit → ∃ count : Nat, integralValue limit = some (count : Int) ∧ count < 2 ^ 63

section Strings

variable {s t p key : JsString}

/-- Outside the astral planes and without lone surrogates the two orders agree. -/
theorem alike_of_basic (left : ∀ u ∈ s, u < 0x10000 ∧ isSurrogate u = false)
    (right : ∀ u ∈ t, u < 0x10000 ∧ isSurrogate u = false) : Alike s t := by
  unfold Alike
  rw [encode_lt_iff (fun u member => (left u member).1) fun u member => (right u member).1,
    scalars_of_basic fun u member => (left u member).2, scalars_of_basic fun u member => (right u member).2]

theorem encode_le_iff (left : ∀ u ∈ s, u < 0x10000) (right : ∀ u ∈ t, u < 0x10000) :
    encode s ≤ encode t ↔ scalars s ≤ scalars t := by
  rw [← not_lt, ← not_lt, encode_lt_iff right left]

theorem scalars_append_null (s : JsString) : scalars (s ++ nullCharacter) = scalars s ++ [0] := by
  have plain : isSurrogate 0 = false := rfl
  have trail : ∀ u : Nat, (isLead u && isTrail 0) = false := fun u => Bool.and_false _
  unfold nullCharacter
  induction s using scalars.induct with
  | case1 => rfl
  | case2 u => simp [scalars, trail, plain]
  | case3 u v rest pair ih => simp only [List.cons_append, scalars, pair, if_true, ih]
  | case4 u v rest apart ih =>
    rw [List.cons_append] at ih
    simp only [List.cons_append, scalars, apart, if_false, ih, Bool.false_eq_true]

theorem lt_iff_null_le (left : ∀ u ∈ s, u < 0x10000) (right : ∀ u ∈ key, u < 0x10000) :
    encode s < encode key ↔ encode (s ++ nullCharacter) ≤ encode key := by
  have longer : ∀ u ∈ s ++ nullCharacter, u < 0x10000 := by
    intro u member
    rcases List.mem_append.1 member with old | new
    · exact left u old
    · rw [nullCharacter, List.mem_singleton] at new
      rw [new]
      exact Nat.zero_lt_succ _
  rw [encode_lt_iff left right, encode_le_iff longer right, scalars_append_null]
  exact lt_iff_append_bot_le

/-- The key after a prefix differs from it in its last unit, and in its last scalar value. -/
structure Successor (p after : JsString) : Prop where
  units : ∃ (front : JsString) (last : Nat), p = front ++ [last] ∧ after = front ++ [last + 1]
  scalars : ∃ (front : List Nat) (last : Nat), scalars p = front ++ [last] ∧ scalars after = front ++ [last + 1]
  text : WellFormed after

theorem stripMaximal_of_last {front : JsString} {last : CodeUnit} (below : last ≠ 0xFFFF) :
    stripMaximal (front ++ [last]) = front ++ [last] := by
  simp [stripMaximal, maxCodeUnit, below]

theorem firstKeyAfterPrefix_successor (text : WellFormed p) (some_ : p ≠ [])
    (last : ∀ last : Nat, p.getLast? = some last → last ≠ 0xD7FF ∧ last ≠ 0xDFFF ∧ last ≠ 0xFFFF) :
    ∃ after, firstKeyAfterPrefix p = some after ∧ Successor p after := by
  obtain ⟨cs, valid, rfl⟩ := text
  rcases List.eq_nil_or_concat' cs with rfl | ⟨front, c, rfl⟩
  · exact absurd rfl some_
  have point : IsScalar c := valid c (by simp)
  have fronts : ∀ d ∈ front, IsScalar d := fun d member => valid d (by simp [member])
  have next : ∀ {u v : Nat} (high : JsString), unitsOf c = high ++ [u] → v = u + 1 → IsScalar (c + 1) →
      unitsOf (c + 1) = high ++ [v] → u ≠ 0xFFFF →
      ∃ after, firstKeyAfterPrefix ((front ++ [c]).flatMap unitsOf) = some after ∧
        Successor ((front ++ [c]).flatMap unitsOf) after := by
    intro u v high units step scalar units' below
    have split : (front ++ [c]).flatMap unitsOf = (front.flatMap unitsOf ++ high) ++ [u] := by
      simp [units]
    have split' : (front ++ [c + 1]).flatMap unitsOf = (front.flatMap unitsOf ++ high) ++ [u + 1] := by
      simp [units', step]
    have valid' : ∀ d ∈ front ++ [c + 1], IsScalar d := by
      intro d member
      rcases List.mem_append.1 member with old | new
      · exact fronts d old
      · rw [List.mem_singleton.1 new]
        exact scalar
    refine ⟨(front ++ [c + 1]).flatMap unitsOf, ?_, ⟨_, u, split, split'⟩, ⟨front, c, ?_, ?_⟩, _, valid', rfl⟩
    · rw [split', split, firstKeyAfterPrefix, stripMaximal_of_last below, List.getLast?_concat, List.dropLast_concat]
    · exact scalars_flatMap valid
    · exact scalars_flatMap valid'
  unfold IsScalar at point
  by_cases basic : c < 0x10000
  · have units : unitsOf c = [c] := unitsOf_scalar basic
    obtain ⟨notSurrogate, _, notMaximal⟩ := last c (by simp [units])
    exact next [] units rfl (by unfold IsScalar; omega) (unitsOf_scalar (by omega)) notMaximal
  · have units : unitsOf c = [0xD800 + (c - 0x10000) / 0x400] ++ [0xDC00 + (c - 0x10000) % 0x400] := by
      rw [unitsOf, if_neg basic]
      rfl
    obtain ⟨_, notLast, _⟩ := last (0xDC00 + (c - 0x10000) % 0x400) (by simp [units])
    have row : (c + 1 - 0x10000) / 0x400 = (c - 0x10000) / 0x400 := by omega
    have column : (c + 1 - 0x10000) % 0x400 = (c - 0x10000) % 0x400 + 1 := by omega
    have units' : unitsOf (c + 1) = [0xD800 + (c - 0x10000) / 0x400] ++ [0xDC00 + (c - 0x10000) % 0x400 + 1] := by
      rw [unitsOf, if_neg (by omega), row, column, ← Nat.add_assoc]
      rfl
    exact next _ units rfl (by unfold IsScalar; omega) units' (by omega)

end Strings

section Bounds

variable {start p after key : JsString} {end_ : Option JsString}

theorem prefix_le (text : WellFormed p) (bounded : ∀ u ∈ key, u < 0x10000) (starts : p <+: key) :
    encode p ≤ encode key := by
  rw [encode_le_iff text.bounded bounded]
  obtain ⟨rest, rfl⟩ := starts
  obtain ⟨cs, valid, rfl⟩ := text
  rw [scalars_append valid, scalars_flatMap valid]
  exact le_append (scalars rest)

/-- All the keys with a prefix are below what is above the prefix and does not begin with it. -/
theorem below_of_apart {bound : JsString} (bounded : ∀ u ∈ bound, u < 0x10000) (text : WellFormed p)
    (above : ¬ bound < p) (ordered : encode p ≤ encode bound) (apart : ¬ p <+: bound) (keyText : WellFormed key)
    (starts : p <+: key) : encode key < encode bound := by
  obtain ⟨rest, same⟩ := (prefix_iff_scalars text keyText).1 starts
  rw [encode_le_iff text.bounded bounded] at ordered
  rw [encode_lt_iff keyText.bounded bounded, ← same]
  have separate : ¬ scalars p <+: scalars bound := by
    intro same
    obtain ⟨cs, valid, rfl⟩ := text
    rw [scalars_flatMap valid] at same
    rcases prefix_or_lt_of_scalars bounded same with starts | less
    · exact apart starts
    · exact above less
  have less : scalars p < scalars bound := by
    rcases lt_or_eq_of_le ordered with less | equal
    · exact less
    · exact absurd (equal ▸ List.prefix_rfl) separate
  exact append_lt rest less separate

theorem clampStart_cases (bounded : ∀ u ∈ start, u < 0x10000) (text : WellFormed p) (alike : Alike start p)
    (keyText : WellFormed key) (starts : p <+: key) :
    (clampStart start p = none → ¬ encode start ≤ encode key) ∧
      ∀ start', clampStart start p = some start' → (encode start' ≤ encode key ↔ encode start ≤ encode key) := by
  have low := prefix_le text keyText.bounded starts
  unfold clampStart
  by_cases below : start < p
  · rw [if_pos below]
    refine ⟨fun none_ => (by cases none_), fun start' same => ?_⟩
    obtain rfl := Option.some.inj same
    exact ⟨fun _ => le_trans (le_of_lt (alike.1 below)) low, fun _ => low⟩
  · rw [if_neg below]
    by_cases within : p.isPrefixOf start = true
    · rw [if_pos within]
      refine ⟨fun none_ => (by cases none_), fun start' same => ?_⟩
      obtain rfl := Option.some.inj same
      exact Iff.rfl
    · rw [if_neg within]
      refine ⟨fun _ reached => ?_, fun start' same => (by cases same)⟩
      have ordered : encode p ≤ encode start := not_lt.1 fun less => below (alike.2 less)
      have apart : ¬ p <+: start := fun same => within (List.isPrefixOf_iff_prefix.2 same)
      exact absurd reached (not_le.2 (below_of_apart bounded text below ordered apart keyText starts))

/-- A start that is clamped begins with the prefix. -/
theorem clampStart_prefix {start' : JsString} (same : clampStart start p = some start') :
    p <+: start' ∧ (start' = p ∨ start' = start) := by
  unfold clampStart at same
  split at same
  · obtain rfl := Option.some.inj same
    exact ⟨List.prefix_rfl, .inl rfl⟩
  · split at same
    · rename_i within
      obtain rfl := Option.some.inj same
      exact ⟨List.isPrefixOf_iff_prefix.1 within, .inr rfl⟩
    · cases same

/-- Above the prefix, the key after it ends exactly the keys that have it. -/
theorem Successor.lt_iff (successor : Successor p after) (text : WellFormed p) (keyText : WellFormed key)
    (low : encode p ≤ encode key) : encode key < encode after ↔ p <+: key := by
  obtain ⟨front, last, units, units'⟩ := successor.scalars
  rw [encode_le_iff text.bounded keyText.bounded] at low
  rw [encode_lt_iff keyText.bounded successor.text.bounded, prefix_iff_scalars text keyText, units']
  rw [units] at low ⊢
  rw [prefix_iff_between (Order.covBy_add_one last)]
  exact ⟨fun high => ⟨low, high⟩, fun both => both.2⟩

theorem Successor.units_lt {start : JsString} (successor : Successor p after) (starts : p <+: start) : start < after := by
  obtain ⟨front, last, units, units'⟩ := successor.units
  rw [units] at starts
  rw [units']
  exact ((prefix_iff_between (Order.covBy_add_one last)).1 starts).2

theorem clampEnd_cases (found : firstKeyAfterPrefix p = some after) (successor : Successor p after) (text : WellFormed p)
    (bounded : ∀ e, end_ = some e → ∀ u ∈ e, u < 0x10000) (alike : ∀ e, end_ = some e → Alike p e)
    (keyText : WellFormed key) (low : encode p ≤ encode key) :
    (clampEnd end_ p = none → p <+: key → ∃ e, end_ = some e ∧ ¬ encode key < encode e) ∧
      ∀ end', clampEnd end_ p = some end' → ∃ e', end' = some e' ∧
        (encode key < encode e' ↔ (∀ e, end_ = some e → encode key < encode e) ∧ p <+: key) := by
  unfold clampEnd
  rw [found]
  cases end_ with
  | none =>
    refine ⟨fun none_ => (by cases none_), fun end' same => ?_⟩
    obtain rfl := Option.some.inj same
    refine ⟨after, rfl, ?_⟩
    rw [successor.lt_iff text keyText low]
    exact ⟨fun starts => ⟨fun e none_ => (by cases none_), starts⟩, fun both => both.2⟩
  | some e =>
    have bounded := bounded e rfl
    have alike := alike e rfl
    have only : (∀ e', some e = some e' → encode key < encode e') ↔ encode key < encode e :=
      ⟨fun all => all e rfl, fun high e' same => Option.some.inj same ▸ high⟩
    simp only [only]
    by_cases empty : e ≤ p
    · rw [if_pos empty]
      refine ⟨fun _ starts => ⟨e, rfl, fun high => ?_⟩, fun end' same => (by cases same)⟩
      exact not_lt.2 empty (alike.2 (lt_of_le_of_lt low high))
    · rw [if_neg empty]
      have above : p < e := not_le.1 empty
      by_cases within : p.isPrefixOf e = true
      · rw [if_pos within]
        refine ⟨fun none_ => (by cases none_), fun end' same => ?_⟩
        obtain rfl := Option.some.inj same
        refine ⟨e, rfl, fun high => ⟨high, ?_⟩, fun both => both.1⟩
        obtain ⟨rest, same⟩ := List.isPrefixOf_iff_prefix.1 within
        obtain ⟨cs, valid, rfl⟩ := text
        have text : WellFormed (cs.flatMap unitsOf) := ⟨cs, valid, rfl⟩
        rw [encode_le_iff text.bounded keyText.bounded, scalars_flatMap valid] at low
        rw [encode_lt_iff keyText.bounded bounded, ← same, scalars_append valid] at high
        rw [prefix_iff_scalars text keyText, scalars_flatMap valid]
        exact prefix_of_between low high
      · rw [if_neg within]
        refine ⟨fun none_ => (by cases none_), fun end' same => ?_⟩
        obtain rfl := Option.some.inj same
        refine ⟨after, rfl, ?_⟩
        rw [successor.lt_iff text keyText low]
        refine ⟨fun starts => ⟨?_, starts⟩, fun both => both.2⟩
        have apart : ¬ p <+: e := fun same => within (List.isPrefixOf_iff_prefix.2 same)
        exact below_of_apart bounded text (lt_asymm above) (le_of_lt (alike.1 above)) apart keyText starts

end Bounds

section Compile

variable {options : ListOptions} {key : JsString}

theorem ListOptions.startKey_bounded (options : ListOptions) : ∀ u ∈ options.startKey, u < 0x10000 := by
  unfold startKey
  intro u member
  split at member
  · rename_i startAfter _
    rcases List.mem_append.1 member with old | new
    · exact startAfter.bounded u old
    · rw [nullCharacter, List.mem_singleton] at new
      rw [new]
      exact Nat.zero_lt_succ _
  · cases known : options.start with
    | none =>
      rw [known] at member
      cases member
    | some start =>
      rw [known] at member
      exact start.bounded u member

theorem encode_nil_le : encode [] ≤ encode key := not_lt.1 (List.not_lt_nil _)

theorem startKey_le_iff (single : ¬ (options.start.isSome ∧ options.startAfter.isSome)) (keyText : WellFormed key) :
    encode options.startKey ≤ encode key ↔
      (∀ s, options.start = some s → encode s.units ≤ encode key) ∧
        ∀ s, options.startAfter = some s → encode s.units < encode key := by
  unfold ListOptions.startKey
  cases after : options.startAfter with
  | some startAfter =>
    have none_ : options.start = none := by
      cases start : options.start with
      | none => rfl
      | some _ => exact absurd ⟨by rw [start]; rfl, by rw [after]; rfl⟩ single
    simp only [none_, ← lt_iff_null_le startAfter.bounded keyText.bounded]
    exact ⟨fun low => ⟨fun s same => (by cases same), fun s same => Option.some.inj same ▸ low⟩,
      fun both => both.2 startAfter rfl⟩
  | none =>
    cases options.start with
    | none => exact ⟨fun _ => ⟨fun s same => (by cases same), fun s same => (by cases same)⟩, fun _ => encode_nil_le⟩
    | some start =>
      exact ⟨fun low => ⟨fun s same => Option.some.inj same ▸ low, fun s same => (by cases same)⟩,
        fun both => both.1 start rfl⟩

theorem matches_iff (single : ¬ (options.start.isSome ∧ options.startAfter.isSome)) (keyText : WellFormed key) :
    Matches options key ↔ encode options.startKey ≤ encode key ∧
      (∀ e, options.endKey = some e → encode key < encode e) ∧ options.prefixKey <+: key := by
  have ends : (∀ e, options.endKey = some e → encode key < encode e) ↔
      ∀ e, options.end_ = some e → encode key < encode e.units := by
    unfold ListOptions.endKey
    cases options.end_ with
    | none => exact ⟨fun _ e same => (by cases same), fun _ e same => (by cases same)⟩
    | some e =>
      exact ⟨fun high e' same => high e'.units (congrArg (Option.map Utf16.units) same),
        fun high e' same => Option.some.inj same ▸ high e rfl⟩
  have prefixes : options.prefixKey <+: key ↔ ∀ p, options.prefix_ = some p → p.units <+: key := by
    unfold ListOptions.prefixKey
    cases options.prefix_ with
    | none => exact ⟨fun _ p same => (by cases same), fun _ => List.nil_prefix⟩
    | some p => exact ⟨fun starts p' same => Option.some.inj same ▸ starts, fun starts => starts p rfl⟩
  rw [startKey_le_iff single keyText, ends, prefixes]
  exact ⟨fun all => ⟨⟨all.start, all.startAfter⟩, all.end_, all.prefix_⟩,
    fun all => ⟨all.1.1, all.1.2, all.2.1, all.2.2⟩⟩

theorem clampEnd_eq {p after : JsString} {end_ end' : Option JsString} (found : firstKeyAfterPrefix p = some after)
    (same : clampEnd end_ p = some end') : end' = some after ∨ ∃ e, end_ = some e ∧ end' = some e ∧ p < e := by
  unfold clampEnd at same
  rw [found] at same
  cases end_ with
  | none => exact .inl (Option.some.inj same).symm
  | some e =>
    by_cases empty : e ≤ p
    · simp only [if_pos empty] at same
      cases same
    · simp only [if_neg empty] at same
      split at same
      · exact .inr ⟨e, rfl, (Option.some.inj same).symm, not_le.1 empty⟩
      · exact .inl (Option.some.inj same).symm

theorem startEnd_lt (comparable : Comparable options) {e : JsString} (known : options.endKey = some e)
    (low : encode options.startKey ≤ encode key) (high : encode key < encode e) : options.startKey < e := by
  unfold ListOptions.endKey at known
  obtain ⟨bound, given, rfl⟩ := Option.map_eq_some_iff.1 known
  exact (comparable.startEnd bound given).2 (lt_of_le_of_lt low high)

/-- The range that is compiled holds the keys that match. -/
theorem clamp_cases (comparable : Comparable options) (keyText : WellFormed key) :
    (clamp options.startKey options.endKey options.prefixKey = none →
      options.prefixKey <+: key → encode options.startKey ≤ encode key →
        ∃ e, options.endKey = some e ∧ ¬ encode key < encode e) ∧
    ∀ start end_, clamp options.startKey options.endKey options.prefixKey = some (start, end_) →
      ((encode start ≤ encode key ∧ ∀ e, end_ = some e → encode key < encode e) ↔
        encode options.startKey ≤ encode key ∧
          (∀ e, options.endKey = some e → encode key < encode e) ∧ options.prefixKey <+: key) ∧
      ∀ e, end_ = some e → e ≤ start → encode start ≤ encode key → ¬ encode key < encode e := by
  unfold clamp
  by_cases empty : options.prefixKey.isEmpty = true
  · rw [if_pos empty]
    refine ⟨fun none_ => (by cases none_), fun start end_ same => ?_⟩
    obtain ⟨rfl, rfl⟩ := Prod.mk.inj (Option.some.inj same)
    rw [List.isEmpty_iff.1 empty]
    refine ⟨⟨fun both => ⟨both.1, both.2, List.nil_prefix⟩, fun all => ⟨all.1, all.2.1⟩⟩, fun e known before low high => ?_⟩
    exact not_lt.2 before (startEnd_lt comparable known low high)
  · rw [if_neg empty]
    obtain ⟨p, given, units⟩ : ∃ p, options.prefix_ = some p ∧ options.prefixKey = p.units := by
      unfold ListOptions.prefixKey at empty ⊢
      cases given : options.prefix_ with
      | none =>
        rw [given] at empty
        exact absurd rfl empty
      | some p => exact ⟨p, rfl, rfl⟩
    rw [units] at empty ⊢
    have text := comparable.prefixText p given
    obtain ⟨after, found, successor⟩ := firstKeyAfterPrefix_successor text (mt List.isEmpty_iff.2 empty)
      (comparable.prefixLast p · given)
    have startCases := clampStart_cases options.startKey_bounded text (comparable.startPrefix p given) keyText
    have ends : ∀ e, options.endKey = some e → ∃ bound, options.end_ = some bound ∧ bound.units = e :=
      fun e known => Option.map_eq_some_iff.1 known
    have endCases := clampEnd_cases found successor text
      (fun e known => by obtain ⟨bound, _, rfl⟩ := ends e known; exact bound.bounded)
      (fun e known => by obtain ⟨bound, bound_, rfl⟩ := ends e known; exact comparable.prefixEnd p bound given bound_) keyText
    cases clampedStart : clampStart options.startKey p.units with
    | none =>
      refine ⟨fun _ starts low => absurd low ((startCases starts).1 clampedStart), fun start end_ same => ?_⟩
      cases same
    | some start =>
      obtain ⟨within, which⟩ := clampStart_prefix clampedStart
      cases clampedEnd : clampEnd options.endKey p.units with
      | none =>
        refine ⟨fun _ starts _ => (endCases (prefix_le text keyText.bounded starts)).1 clampedEnd starts, fun start end_ same => ?_⟩
        cases same
      | some end_ =>
        refine ⟨fun none_ => (by cases none_), fun start' end' same => ?_⟩
        obtain ⟨rfl, rfl⟩ := Prod.mk.inj (Option.some.inj same)
        have bounded : ∀ u ∈ start, u < 0x10000 := by
          rcases which with rfl | rfl
          · exact text.bounded
          · exact options.startKey_bounded
        have lows : encode start ≤ encode key → encode p.units ≤ encode key :=
          fun low => le_trans (prefix_le text bounded within) low
        refine ⟨⟨fun both => ?_, fun all => ?_⟩, fun e known before low high => ?_⟩
        · obtain ⟨e, rfl, high⟩ := (endCases (lows both.1)).2 end_ clampedEnd
          obtain ⟨below, starts⟩ := high.1 (both.2 e rfl)
          exact ⟨((startCases starts).2 start clampedStart).1 both.1, below, starts⟩
        · have low := ((startCases all.2.2).2 start clampedStart).2 all.1
          obtain ⟨e, rfl, high⟩ := (endCases (lows low)).2 end_ clampedEnd
          exact ⟨low, fun e' same => Option.some.inj same ▸ high.2 all.2⟩
        · subst known
          obtain ⟨e', same, bound⟩ := (endCases (lows low)).2 _ clampedEnd
          obtain rfl := Option.some.inj same
          obtain ⟨below, starts⟩ := bound.1 high
          have low := ((startCases starts).2 start clampedStart).1 low
          refine not_lt.2 before ?_
          rcases clampEnd_eq found clampedEnd with same | ⟨bound, known, same, above⟩
          · rw [Option.some.inj same]
            exact successor.units_lt within
          · obtain rfl := Option.some.inj same
            rcases which with rfl | rfl
            · exact above
            · exact startEnd_lt comparable known low high

theorem single_of_compiled {ε : Type} {compiled : Option CompiledListOptions}
    (accepted : (compileListOptions options : Except (ListError ε) _) = .ok compiled) :
    ¬ (options.start.isSome ∧ options.startAfter.isSome) := by
  intro both
  rw [compileListOptions, if_pos both] at accepted
  cases accepted

/-- Nothing that is compiled to no range has a key, and what is compiled to a range has its keys. -/
theorem compiled_cases {ε : Type} {compiled : Option CompiledListOptions}
    (accepted : (compileListOptions options : Except (ListError ε) _) = .ok compiled) (comparable : Comparable options)
    (keyText : WellFormed key) :
    (compiled = none → ¬ Matches options key) ∧
      ∀ c, compiled = some c → ((encode c.start ≤ encode key ∧ ∀ e, c.end_ = some e → encode key < encode e) ↔
        Matches options key) ∧ c.limit = options.limit ∧ c.reverse = options.reverse.getD false := by
  rw [matches_iff (single_of_compiled accepted) keyText]
  have cases := clamp_cases comparable keyText
  unfold compileListOptions at accepted
  split at accepted
  · cases accepted
  split at accepted
  · cases accepted
  cases clamped : clamp options.startKey options.endKey options.prefixKey with
  | none =>
    rw [clamped] at accepted
    obtain rfl := Except.ok.inj accepted
    refine ⟨fun _ all => ?_, fun c same => (by cases same)⟩
    obtain ⟨e, known, above⟩ := cases.1 clamped all.2.2 all.1
    exact above (all.2.1 e known)
  | some range =>
    obtain ⟨start, end_⟩ := range
    obtain ⟨range, empty⟩ := cases.2 start end_ clamped
    rw [clamped] at accepted
    simp only at accepted
    split at accepted
    · rename_i before
      obtain rfl := Except.ok.inj accepted
      obtain ⟨e, rfl, before⟩ := (Option.any_eq_true _ _).1 before
      refine ⟨fun _ all => ?_, fun c same => (by cases same)⟩
      obtain ⟨low, high⟩ := range.2 all
      exact empty e rfl (of_decide_eq_true before) low (high e rfl)
    · obtain rfl := Except.ok.inj accepted
      refine ⟨fun none_ => (by cases none_), fun c same => ?_⟩
      obtain rfl := Option.some.inj same
      exact ⟨range, rfl, rfl⟩

end Compile

section Rows

variable {α : Type} {options : ListOptions} {table : KvTable α}

theorem encode_injective {s t : JsString} (left : WellFormed s) (right : WellFormed t) (same : encode s = encode t) :
    s = t := by
  have equal : scalars s = scalars t := by
    rcases lt_trichotomy (scalars s) (scalars t) with less | equal | more
    · rw [← encode_lt_iff left.bounded right.bounded, same] at less
      exact absurd less (lt_irrefl _)
    · exact equal
    · rw [← encode_lt_iff right.bounded left.bounded, same] at more
      exact absurd more (lt_irrefl _)
  obtain ⟨cs, valid, rfl⟩ := left
  obtain ⟨ds, other, rfl⟩ := right
  rw [scalars_flatMap valid, scalars_flatMap other] at equal
  rw [equal]

theorem sorted_strictly (reverse : Bool) {rows : List (JsString × α)} (distinct : (rows.map (·.1)).Nodup)
    (text : ∀ row ∈ rows, WellFormed row.1) : (rows.mergeSort (inOrder reverse)).Pairwise fun a b =>
      if reverse then encode b.1 < encode a.1 else encode a.1 < encode b.1 := by
  have perm := List.mergeSort_perm rows (inOrder reverse)
  have sorted := @List.pairwise_mergeSort _ (inOrder reverse) (fun a b c first second => by
    cases reverse <;> simp only [inOrder, if_true, Bool.false_eq_true, if_false, decide_eq_true_eq] at first second ⊢
    · exact le_trans first second
    · exact le_trans second first) (fun a b => by
    cases reverse <;> simp only [inOrder, if_true, Bool.false_eq_true, if_false, Bool.or_eq_true, decide_eq_true_eq]
    · exact le_total _ _
    · exact le_total _ _) rows
  have apart : (rows.mergeSort (inOrder reverse)).Pairwise fun a b => a.1 ≠ b.1 := by
    have names := (perm.map (·.1)).nodup_iff.2 distinct
    exact List.pairwise_map.1 names
  refine (sorted.and apart).imp_of_mem fun {a b} left right both => ?_
  have other : encode a.1 ≠ encode b.1 := fun same =>
    both.2 (encode_injective (text a (perm.mem_iff.1 left)) (text b (perm.mem_iff.1 right)) same)
  have ordered := both.1
  cases reverse <;> simp only [inOrder, if_true, Bool.false_eq_true, if_false, decide_eq_true_eq] at ordered ⊢
  · exact lt_of_le_of_ne ordered other
  · exact lt_of_le_of_ne ordered other.symm

theorem limitRows_exact (ε : Type) (comparable : Comparable options) (rows : List (JsString × α)) :
    ∃ cut, (limitRows options.limit rows : Except (ListError ε) _) = .ok cut ∧ ((options.limit = none ∧ cut = rows) ∨
      ∃ (limit : Float) (count : Nat), options.limit = some limit ∧ integralValue limit = some (count : Int) ∧
        cut = rows.take count) := by
  cases given : options.limit with
  | none => exact ⟨rows, rfl, .inl ⟨rfl, rfl⟩⟩
  | some limit =>
    obtain ⟨count, whole, small⟩ := comparable.limit limit given
    refine ⟨rows.take count, ?_, .inr ⟨limit, count, rfl, whole, rfl⟩⟩
    have range : (-2 ^ 63 : Int) ≤ count ∧ (count : Int) < 2 ^ 63 := by omega
    have positive : ¬ (count : Int) < 0 := by omega
    simp only [limitRows, whole, if_pos range, if_neg positive, Int.toNat_natCast]
    rfl

theorem selectList_exact (ε : Type) (comparable : Comparable options) {c : CompiledListOptions}
    (range : ∀ row ∈ table.rows, (encode c.start ≤ encode row.1 ∧ ∀ e, c.end_ = some e → encode row.1 < encode e) ↔
      Matches options row.1) (limit : c.limit = options.limit) (reverse : c.reverse = options.reverse.getD false) :
    ∃ rows, Exact options table rows ∧
      (selectList c.start c.end_ c.limit c.reverse table : Except (ListError ε) _) = .ok rows := by
  unfold selectList
  rw [limit]
  let inRange := table.rows.filter fun row =>
    decide (encode c.start ≤ encode row.1) && c.end_.all fun end_ => decide (encode row.1 < encode end_)
  have kept : inRange.Sublist table.rows := List.filter_sublist
  obtain ⟨cut, same, limited⟩ := limitRows_exact ε comparable (inRange.mergeSort (inOrder c.reverse))
  refine ⟨cut, ⟨inRange.mergeSort (inOrder c.reverse), fun row => ?_, ?_, limited⟩, same⟩
  · rw [(List.mergeSort_perm inRange (inOrder c.reverse)).mem_iff, List.mem_filter]
    refine and_congr_right fun member => ?_
    rw [← range row member, Bool.and_eq_true, decide_eq_true_eq, Option.all_eq_true]
    simp only [decide_eq_true_eq]
  · have sorted := sorted_strictly c.reverse ((kept.map (·.1)).nodup table.distinct)
      fun row member => table.text row (kept.subset member)
    rw [reverse] at sorted ⊢
    cases given : options.reverse with
    | none => simpa [given] using sorted
    | some reverse => cases reverse <;> simpa [given] using sorted

end Rows

/-- `list()` returns exactly what matches, where the order of the code units is that of the bytes, the
    prefix does not end where its successor steps over the surrogates, and the limit is a whole number. -/
theorem list_exact {ε α β : Type} (deserializeValue : JsString → α → Except ε β) (options : ListOptions)
    (table : KvTable α) (compiled : Option CompiledListOptions)
    (accepted : (compileListOptions options : Except (ListError ε) _) = .ok compiled)
    (comparable : Comparable options) :
    (∃ rows, Exact options table rows ∧ list deserializeValue options table = rows.mapM (entryOf deserializeValue)) ∧
      (compiled = none → ∀ key, WellFormed key → ¬ Matches options key) ∧
      ∀ p, options.prefix_ = some p → p.units ≠ [] → ∃ after, firstKeyAfterPrefix p.units = some after ∧
        ∀ key, WellFormed key → encode p.units ≤ encode key → (encode key < encode after ↔ p.units <+: key) := by
  refine ⟨?_, fun none_ key keyText => (compiled_cases accepted comparable keyText).1 none_, fun p given some_ => ?_⟩
  · unfold list
    rw [accepted]
    cases compiled with
    | none =>
      refine ⟨[], ⟨[], fun row => ⟨fun member => (by cases member), fun both => ?_⟩, .nil, ?_⟩, rfl⟩
      · exact absurd both.2 ((compiled_cases accepted comparable (table.text row both.1)).1 rfl)
      · cases given : options.limit with
        | none => exact .inl ⟨rfl, rfl⟩
        | some limit =>
          obtain ⟨count, whole, _⟩ := comparable.limit limit given
          exact .inr ⟨limit, count, rfl, whole, List.take_nil.symm⟩
    | some c =>
      have blank : WellFormed [] := ⟨[], fun _ member => absurd member List.not_mem_nil, rfl⟩
      obtain ⟨_, limit, reverse⟩ := (compiled_cases accepted comparable blank).2 c rfl
      obtain ⟨rows, exact_, same⟩ := selectList_exact ε comparable
        (fun row member => ((compiled_cases accepted comparable (table.text row member)).2 c rfl).1) limit reverse
      refine ⟨rows, exact_, ?_⟩
      change (selectList c.start c.end_ c.limit c.reverse table >>= fun rows => rows.mapM (entryOf deserializeValue)) = _
      rw [same]
      rfl
  · have text := comparable.prefixText p given
    obtain ⟨after, found, successor⟩ :=
      firstKeyAfterPrefix_successor text some_ (comparable.prefixLast p · given)
    exact ⟨after, found, fun key keyText low => successor.lt_iff text keyText low⟩

def threeKeys : KvTable Nat where
  rows := [(js "b", 1), (js "ab", 2), (js "ac", 3)]
  distinct := by decide
  text := fun row member => ⟨row.1, by revert row; simp [js, IsScalar], by revert row; decide⟩

def underA : ListOptions where
  start := none
  startAfter := none
  end_ := none
  prefix_ := some ⟨js "a", by decide⟩
  reverse := some true
  limit := none

theorem underA_comparable : Comparable underA where
  startPrefix := by
    intro p given
    obtain rfl := Option.some.inj given
    decide
  prefixEnd := fun _ _ _ given => by cases given
  startEnd := fun _ given => by cases given
  prefixText := by
    intro p given
    obtain rfl := Option.some.inj given
    exact ⟨js "a", by simp [js, IsScalar], rfl⟩
  prefixLast := by
    intro p last given known
    obtain rfl := Option.some.inj given
    obtain rfl : 97 = last := Option.some.inj known
    decide
  limit := fun _ given => by cases given

theorem list_exact_three :
    ∃ rows, Exact underA threeKeys rows ∧
      (list (fun _ value => .ok value) underA threeKeys : Except (ListError Unit) _) =
        rows.mapM (entryOf fun _ value => .ok value) :=
  (list_exact (fun _ value => .ok value) underA threeKeys (some ⟨js "a", some (js "b"), true, none⟩) rfl
    underA_comparable).1

def smile : JsString := [0xD83D, 0xDE00]

def smiling : KvTable Nat where
  rows := [(smile, 1)]
  distinct := by decide
  text := fun row member => ⟨[0x1F600], by simp [IsScalar], by revert row; decide⟩

def fromFullwidth : ListOptions where
  start := some ⟨[0xFF01], by decide⟩
  startAfter := none
  end_ := none
  prefix_ := some ⟨smile, by decide⟩
  reverse := none
  limit := none

/-- The prefix is above the start in bytes, and below it in code units. -/
theorem list_misses_astral_prefix :
    ¬ ∀ (options : ListOptions) (table : KvTable Nat) (compiled : Option CompiledListOptions),
      (compileListOptions options : Except (ListError Unit) _) = .ok compiled →
      ∃ rows, Exact options table rows ∧
        (list (fun _ value => .ok value) options table : Except (ListError Unit) _) =
          rows.mapM (entryOf fun _ value => .ok value) := by
  intro exact_
  obtain ⟨rows, ⟨found, all, _, limited⟩, same⟩ := exact_ fromFullwidth smiling none rfl
  have asked : Matches fromFullwidth smile := by
    refine ⟨fun s given => ?_, fun s given => (by cases given), fun e given => (by cases given), fun p given => ?_⟩
    · obtain rfl := Option.some.inj given
      decide
    · obtain rfl := Option.some.inj given
      exact List.prefix_rfl
  have kept : (smile, 1) ∈ found := (all (smile, 1)).2 ⟨List.mem_singleton.2 rfl, asked⟩
  obtain rfl : rows = found := by
    rcases limited with ⟨_, same⟩ | ⟨limit, _, given, _⟩
    · exact same
    · cases given
  cases rows with
  | nil => cases kept
  | cons row rest =>
    rw [List.mapM_cons] at same
    cases rest : rest.mapM (entryOf fun _ value => .ok value : JsString × Nat → Except (ListError Unit) _) <;>
      simp [rest, entryOf] at same <;> cases same

end DoRuntime.Api
