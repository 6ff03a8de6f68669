import DoRuntime.Facets.StableIds
import DoRuntime.Lib.Program

namespace DoRuntime.Facets

open Js Prog

inductive CopyFailure
  | host
  | index (failure : Failure)
  | fuel

/-- The tree while a subtree is copied, with the calls of `copyStorage` that were made. -/
structure Copying where
  index : TreeIndex
  copies : List (Nat × Nat)
  awaits : Nat

/-- What becomes of the calls of the host, and the ids that others ask for at each await. -/
structure World where
  fails : Nat → Nat → Bool
  others : Nat → List (Nat × Utf16)

namespace Copying

abbrev Act (α : Type) : Type := Prog CopyFailure Copying α

/-- `getId`, which leaves the index as it is where it throws. -/
def asked (index : TreeIndex) (call : Nat × Utf16) : TreeIndex :=
  match index.getId call.1 call.2.units with
  | .ok (_, index) => index
  | .error _ => index

section Operations

variable (world : World)

/-- Other events run while the copy is suspended. -/
def suspend : Act Unit := update fun c =>
  { c with index := (world.others c.awaits).foldl asked c.index, awaits := c.awaits + 1 }

def copyStorage (src dst : Nat) : Act Unit := do
  update fun c => { c with copies := c.copies ++ [(src, dst)] }
  suspend world
  if world.fails src dst then raise .host else pure ()

def getId (parent : Nat) (name : JsString) : Act Nat := do
  let c ← state
  match c.index.getId parent name with
  | .ok (id, index) => do
    update fun c => { c with index }
    pure id
  | .error failure => raise (.index failure)

/-- `#copyInto`, with fuel for the depth of the subtree. -/
def copyInto : Nat → Nat → Nat → Act Unit
  | 0, _, _ => raise .fuel
  | fuel + 1, src, dst => do
    copyStorage world src dst
    let c ← state
    forEach (c.index.children src) fun child => do
      let id ← getId dst child.2
      copyInto fuel child.1 id
      suspend world

/-- `copySubtree`, whose turn in the queue comes later. -/
def copySubtree (src dst : Nat) : Act Unit := do
  suspend world
  copyInto world (maxId + 1) src dst

end Operations

end Copying

section Names

variable {r : Registry} {index : TreeIndex}

theorem mem_children (holds : Knows r index) {parent id : Nat} {name : JsString} :
    (id, name) ∈ index.children parent ↔ ∃ i key, r[i]? = some (parent, key) ∧ id = i + 1 ∧ name = decode key := by
  unfold TreeIndex.children
  simp only [List.mem_map, List.mem_mergeSort, List.mem_filter, List.mem_zipIdx_iff_getElem?, Prod.exists, holds.entries,
    List.getElem?_map, Option.map_eq_some_iff]
  constructor
  · rintro ⟨_, _, ⟨_, i, ⟨⟨p, key, there, rfl⟩, same⟩, pair⟩, shown⟩
    cases pair
    cases shown
    have parents : p = parent := of_decide_eq_true same
    exact ⟨i, key, parents ▸ there, rfl, rfl⟩
  · rintro ⟨i, key, there, rfl, rfl⟩
    exact ⟨_, _, ⟨_, i, ⟨⟨parent, key, there, rfl⟩, decide_eq_true rfl⟩, rfl⟩, rfl⟩

/-- The names of a registry are those of strings. -/
def Minted (r : Registry) : Prop := ∀ facet ∈ r, ∃ name : Utf16, facet.2 = encode name.units

/-- No name begins with a byte order mark. -/
def Unmarked (r : Registry) : Prop := ∀ facet ∈ r, ¬ Marked facet.2

theorem encode_decode_key {key : Bytes} (minted : ∃ name : Utf16, key = encode name.units) :
    encode (decode key) = key ↔ ¬ Marked key := by
  obtain ⟨name, rfl⟩ := minted
  exact encode_decode_iff name.bounded

/-- Every child comes back under the id it has. -/
def RoundTrips (index : TreeIndex) : Prop :=
  ∀ parent id name, (id, name) ∈ index.children parent → index.getId parent name = .ok (id, index)

theorem roundTrips_iff (formed : WellFormed r) (holds : Holds r index) (minted : Minted r) :
    RoundTrips index ↔ Unmarked r := by
  constructor
  · intro trips facet member
    obtain ⟨parent, key⟩ := facet
    have there := List.getElem?_idxOf member
    have same := trips parent _ _ ((mem_children holds.toKnows).2 ⟨_, key, there, rfl, rfl⟩)
    rw [← encode_decode_key (minted _ member)]
    rcases getId_cases holds same with ⟨known, place, _⟩ | ⟨_, place, _⟩
    · have again := List.getElem?_idxOf known
      rw [← Nat.succ.inj place, there] at again
      exact (Prod.mk.inj (Option.some.inj again)).2.symm
    · have below := List.idxOf_lt_length_of_mem member
      omega
  · intro unmarked parent id name child
    obtain ⟨i, key, there, rfl, rfl⟩ := (mem_children holds.toKnows).1 child
    have member := List.mem_of_getElem? there
    have same := (encode_decode_key (minted _ member)).2 (unmarked _ member)
    have known : (parent, encode (decode key)) ∈ r := by rwa [same]
    rw [getId_known formed holds.toKnows known, same]
    have place := formed.nodup.idxOf_getElem i (List.getElem?_eq_some_iff.1 there).1
    rw [(List.getElem?_eq_some_iff.1 there).2] at place
    rw [place]

/-- The facets under one, itself among them. -/
inductive Under (r : Registry) (top : Nat) : Nat → Prop
  | self : Under r top top
  | child (i s : Nat) (key : Bytes) (above : Under r top s) (there : r[i]? = some (s, key)) : Under r top (i + 1)

/-- Two facets are reached from two others by the same names. -/
inductive Matched (r : Registry) (src dst : Nat) : Nat → Nat → Prop
  | self : Matched r src dst src dst
  | child (i j s d : Nat) (key : Bytes) (above : Matched r src dst s d) (source : r[i]? = some (s, key))
    (target : r[j]? = some (d, key)) : Matched r src dst (i + 1) (j + 1)

theorem entry_of_longer {r r' : Registry} (longer : r <+: r') {i : Nat} {facet : Nat × Bytes} (there : r[i]? = some facet) :
    r'[i]? = some facet := by
  obtain ⟨rest, rfl⟩ := longer
  rw [List.getElem?_append_left (List.getElem?_eq_some_iff.1 there).1, there]

theorem Matched.mono {r r' : Registry} (longer : r <+: r') {src dst s d : Nat} (matched : Matched r src dst s d) :
    Matched r' src dst s d := by
  induction matched with
  | self => exact .self
  | child i j s d key _ source target ih =>
    exact .child i j s d key ih (entry_of_longer longer source) (entry_of_longer longer target)

theorem Under.mono {r r' : Registry} (longer : r <+: r') {top x : Nat} (under : Under r top x) : Under r' top x := by
  induction under with
  | self => exact .self
  | child i s key _ there ih => exact .child i s key ih (entry_of_longer longer there)

theorem Under.first {top x : Nat} (under : Under r top x) :
    x = top ∨ ∃ i key, r[i]? = some (top, key) ∧ Under r (i + 1) x := by
  induction under with
  | self => exact .inl rfl
  | child i s key _ there ih =>
    rcases ih with rfl | ⟨j, key', first, rest⟩
    · exact .inr ⟨i, key, there, .self⟩
    · exact .inr ⟨j, key', first, .child i s key rest there⟩

theorem Matched.under {src dst s d : Nat} (matched : Matched r src dst s d) : Under r src s ∧ Under r dst d := by
  induction matched with
  | self => exact ⟨.self, .self⟩
  | child i j s d key _ source target ih => exact ⟨.child i s key ih.1 source, .child j d key ih.2 target⟩

theorem Matched.known {src dst x d : Nat} (matched : Matched r src dst x d) (source : src ≤ r.length)
    (target : dst ≤ r.length) : x ≤ r.length ∧ d ≤ r.length := by
  cases matched with
  | self => exact ⟨source, target⟩
  | child i j s d key _ from_ to_ =>
    exact ⟨(List.getElem?_eq_some_iff.1 from_).1, (List.getElem?_eq_some_iff.1 to_).1⟩

theorem parent_le (formed : WellFormed r) {i parent : Nat} {key : Bytes} (there : r[i]? = some (parent, key)) : parent ≤ i := by
  have under := (formed.member (List.mem_of_getElem? there)).2.2
  have place := formed.nodup.idxOf_getElem i (List.getElem?_eq_some_iff.1 there).1
  rw [(List.getElem?_eq_some_iff.1 there).2] at place
  rwa [place] at under

theorem Under.le (formed : WellFormed r) {top x : Nat} (under : Under r top x) : top ≤ x := by
  induction under with
  | self => exact Nat.le_refl top
  | child i s key _ there ih =>
    have parent := parent_le formed there
    omega

/-- Two facets above a third are one above the other. -/
theorem Under.chain {a b x : Nat} (under : Under r a x) (under' : Under r b x) : Under r a b ∨ Under r b a := by
  induction under with
  | self => exact .inr under'
  | child i s key above there ih =>
    cases under' with
    | self => exact .inl (.child i s key above there)
    | child _ s' key' above' there' =>
      have same := (Prod.mk.inj (Option.some.inj (there.symm.trans there'))).1
      subst same
      exact ih above'

theorem siblings_apart (formed : WellFormed r) {i j p x : Nat} {a b : Bytes} (first : r[i]? = some (p, a))
    (second : r[j]? = some (p, b)) (different : i ≠ j) (under : Under r (i + 1) x) : ¬ Under r (j + 1) x := by
  have apart : ∀ {i j : Nat} {a b : Bytes}, r[i]? = some (p, a) → r[j]? = some (p, b) → i ≠ j → ¬ Under r (i + 1) (j + 1) := by
    intro i j a b first second different under
    generalize target : j + 1 = y at under
    cases under with
    | self => exact different (Nat.succ.inj target).symm
    | child k s key above there =>
      cases Nat.succ.inj target
      have same := (Prod.mk.inj (Option.some.inj (there.symm.trans second))).1
      have below := above.le formed
      have parent := parent_le formed first
      omega
  intro under'
  rcases under.chain under' with one | other
  · exact apart first second different one
  · exact apart second first (Ne.symm different) other

theorem Matched.source_unique (formed : WellFormed r) {src dst s s' d : Nat} (matched : Matched r src dst s d)
    (matched' : Matched r src dst s' d) : s = s' := by
  have past : ∀ {j d : Nat} {key : Bytes}, Under r dst d → r[j]? = some (d, key) → dst ≠ j + 1 := by
    intro j d key under there
    have below := under.le formed
    have parent := parent_le formed there
    omega
  induction matched generalizing s' with
  | self =>
    cases matched' with
    | self => rfl
    | child i j s d key above source there => exact absurd rfl (past above.under.2 there)
  | child i j s d key above source there ih =>
    cases matched' with
    | self => exact absurd rfl (past above.under.2 there)
    | child i' _ t e key' above' source' there' =>
      obtain ⟨rfl, rfl⟩ := Prod.mk.inj (Option.some.inj (there.symm.trans there'))
      have parents := ih above'
      subst parents
      have place := (List.getElem?_inj (List.getElem?_eq_some_iff.1 source).1 formed.nodup).1 (source.trans source'.symm)
      rw [place]

theorem getId_error {parent : Nat} {name : JsString} {failure : Failure} (holds : Holds r index)
    (named : 0 < (encode name).length) (short : (encode name).length ≤ maxId) (under : parent ≤ r.length)
    (failed : index.getId parent name = .error failure) : failure = .tooMany := by
  unfold TreeIndex.getId at failed
  dsimp only at failed
  rw [if_neg (Nat.ne_of_gt named), if_neg (Nat.not_lt.2 short), if_neg (by rw [holds.length]; exact Nat.not_lt.2 under)] at failed
  cases found : index.byKey (entryKey parent (encode name)) with
  | some i => rw [found] at failed; cases failed
  | none =>
    rw [found] at failed
    dsimp only at failed
    split at failed
    · cases failed
      rfl
    · cases failed

end Names

namespace Copying

section Runs

variable {world : World} {src dst : Nat}

/-- The tree and what was copied, while a copy of `src` onto `dst` is under way. -/
structure Sound (src dst : Nat) (r : Registry) (c : Copying) : Prop where
  formed : WellFormed r
  holds : Holds r c.index
  minted : Minted r
  unmarked : Unmarked r
  copies : ∀ copy ∈ c.copies, Matched r src dst copy.1 copy.2

/-- The copy went on from `c` to `after`, with every copy that was made still made. -/
def Later (src dst : Nat) (r : Registry) (c after : Copying) : Prop :=
  (∃ r', r <+: r' ∧ Sound src dst r' after) ∧ ∀ copy ∈ c.copies, copy ∈ after.copies

def Expected (failure : CopyFailure) : Prop := failure = .host ∨ failure = .index .tooMany

/-- No other event asks for a name that begins with a byte order mark. -/
def PlainNames (world : World) : Prop := ∀ n, ∀ call ∈ world.others n, ¬ Marked (encode call.2.units)

theorem Sound.minting {r : Registry} {c : Copying} (sound : Sound src dst r c) {parent id : Nat} {name : JsString}
    {index : TreeIndex} (minted : ∃ text : Utf16, encode name = encode text.units) (plain : ¬ Marked (encode name))
    (done : c.index.getId parent name = .ok (id, index)) :
    ∃ r' i, r <+: r' ∧ Sound src dst r' { c with index } ∧ id = i + 1 ∧ r'[i]? = some (parent, encode name) := by
  rcases getId_cases sound.holds done with ⟨known, rfl, rfl⟩ | ⟨appendable, rfl, holds⟩
  · exact ⟨r, _, List.prefix_refl r, sound, rfl, List.getElem?_idxOf known⟩
  · have longer : r <+: r ++ [(parent, encode name)] := List.prefix_append _ _
    refine ⟨r ++ [(parent, encode name)], r.length, longer, ⟨.append _ _ sound.formed appendable, holds, ?_, ?_, ?_⟩, rfl, by simp⟩
    · intro facet member
      rcases List.mem_append.1 member with earlier | last
      · exact sound.minted facet earlier
      · rwa [List.mem_singleton.1 last]
    · intro facet member
      rcases List.mem_append.1 member with earlier | last
      · exact sound.unmarked facet earlier
      · rwa [List.mem_singleton.1 last]
    · exact fun copy member => (sound.copies copy member).mono longer

theorem Sound.asked {r : Registry} {c : Copying} (sound : Sound src dst r c) {call : Nat × Utf16}
    (plain : ¬ Marked (encode call.2.units)) : ∃ r', r <+: r' ∧ Sound src dst r' { c with index := asked c.index call } := by
  unfold Copying.asked
  split
  case h_1 id index done =>
    obtain ⟨r', _, longer, minted, _⟩ := sound.minting ⟨call.2, rfl⟩ plain done
    exact ⟨r', longer, minted⟩
  case h_2 => exact ⟨r, List.prefix_refl r, sound⟩

theorem Sound.askedAll {calls : List (Nat × Utf16)} (plain : ∀ call ∈ calls, ¬ Marked (encode call.2.units)) :
    ∀ {r : Registry} {c : Copying}, Sound src dst r c →
      ∃ r', r <+: r' ∧ Sound src dst r' { c with index := calls.foldl Copying.asked c.index } := by
  induction calls with
  | nil => exact fun {r c} sound => ⟨r, List.prefix_refl r, sound⟩
  | cons call rest ih =>
    intro r c sound
    obtain ⟨r₁, longer₁, sound₁⟩ := sound.asked (plain call List.mem_cons_self)
    obtain ⟨r₂, longer₂, sound₂⟩ := ih (fun call member => plain call (List.mem_cons_of_mem _ member)) sound₁
    exact ⟨r₂, longer₁.trans longer₂, sound₂⟩

/-- The tree after the events that run while the copy is suspended. -/
def suspended (world : World) (c : Copying) : Copying :=
  { c with index := (world.others c.awaits).foldl asked c.index, awaits := c.awaits + 1 }

theorem Sound.suspended (plain : PlainNames world) {r : Registry} {c : Copying} (sound : Sound src dst r c) :
    ∃ r', r <+: r' ∧ Sound src dst r' (suspended world c) := by
  obtain ⟨r', longer, later⟩ := sound.askedAll (plain c.awaits)
  exact ⟨r', longer, later.formed, later.holds, later.minted, later.unmarked, later.copies⟩

/-- What a part of the copy that starts from the children of `top`, or from `top`, comes to. -/
structure Result (src dst : Nat) (r : Registry) (c : Copying) (whole : Nat → Prop)
    (result : Except CopyFailure Unit × Copying) : Prop where
  later : Later src dst r c result.2
  failures : ∀ failure, result.1 = .error failure → Expected failure
  complete : result.1 = .ok () → ∀ x, whole x → ∃ target, (x, target) ∈ result.2.copies

theorem Later.refl {r : Registry} {c : Copying} (sound : Sound src dst r c) : Later src dst r c c :=
  ⟨⟨r, List.prefix_refl r, sound⟩, fun _ member => member⟩

theorem Later.after {r r' : Registry} {c c' after : Copying} (longer : r <+: r')
    (kept : ∀ copy ∈ c.copies, copy ∈ c'.copies) (later : Later src dst r' c' after) : Later src dst r c after := by
  obtain ⟨⟨r'', longer', sound⟩, kept'⟩ := later
  exact ⟨⟨r'', longer.trans longer', sound⟩, fun copy member => kept' copy (kept copy member)⟩

theorem children_result (plain : PlainNames world) {fuel : Nat} {r₀ : Registry} {x d : Nat}
    (deeper : ∀ {r : Registry} {c : Copying} {x d : Nat}, Sound src dst r c → Matched r src dst x d → src ≤ r.length →
      dst ≤ r.length → maxId < x + fuel → Result src dst r c (Under r x) (copyInto world fuel x d c))
    (formed : WellFormed r₀) (matched : Matched r₀ src dst x d) (source : src ≤ r₀.length) (target : dst ≤ r₀.length)
    (deep : maxId < x + (fuel + 1)) (cs : List (Nat × JsString)) :
    (∀ child ∈ cs, ∃ i key, r₀[i]? = some (x, key) ∧ child = (i + 1, decode key)) → ∀ {r : Registry} {c : Copying},
      r₀ <+: r → Sound src dst r c →
        Result src dst r c (fun y => ∃ child ∈ cs, Under r₀ child.1 y)
          (forEach cs (fun child => do
            let id ← getId d child.2
            copyInto world fuel child.1 id
            suspend world) c) := by
  induction cs with
  | nil => exact fun _ {r c} _ sound => ⟨Later.refl sound, nofun, fun _ y under => by obtain ⟨_, none, _⟩ := under; cases none⟩
  | cons child rest ih =>
    intro known r c longer sound
    obtain ⟨i, key, there, rfl⟩ := known child List.mem_cons_self
    have facet := List.mem_of_getElem? (entry_of_longer longer there)
    have same := (encode_decode_key (sound.minted _ facet)).2 (sound.unmarked _ facet)
    obtain ⟨named, short, _⟩ := sound.formed.member facet
    have target' := Nat.le_trans (matched.known source target).2 longer.length_le
    unfold forEach
    cases got : c.index.getId d (decode key) with
    | error failure =>
      have ran : getId d (decode key) c = (.error (.index failure), c) := by
        unfold getId
        rw [state_bind, got]
        rfl
      rw [bind_run_error (bind_run_error ran)]
      have tooMany := getId_error sound.holds (by rwa [same]) (by rwa [same]) target' got
      exact ⟨Later.refl sound, fun _ failed => Except.error.inj failed ▸ .inr (by rw [tooMany]), nofun⟩
    | ok given =>
      obtain ⟨id, index⟩ := given
      have ran : getId d (decode key) c = (.ok id, { c with index }) := by
        unfold getId
        rw [state_bind, got]
        rfl
      have minted := sound.minted _ facet
      have unmarked := sound.unmarked _ facet
      rw [← same] at minted unmarked
      obtain ⟨r', j, longer', sound', rfl, given⟩ := sound.minting minted unmarked got
      rw [same] at given
      have below : Matched r' src dst (i + 1) (j + 1) :=
        .child i j x d key (matched.mono (longer.trans longer')) (entry_of_longer (longer.trans longer') there) given
      have grown := (longer.trans longer').length_le
      have parent := parent_le formed there
      have result := deeper sound' below (source.trans grown) (target.trans grown) (by omega)
      rcases copied : copyInto world fuel (i + 1) (j + 1) { c with index } with ⟨failure | _, c₂⟩ <;> rw [copied] at result
      · rw [bind_run_error ((bind_run_ok ran).trans (bind_run_error copied))]
        exact ⟨result.later.after longer' fun _ member => member, result.failures, nofun⟩
      · obtain ⟨⟨r₂, longer₂, sound₂⟩, kept⟩ := result.later
        obtain ⟨r₃, longer₃, sound₃⟩ := sound₂.suspended plain
        have rest := ih (fun child member => known child (List.mem_cons_of_mem _ member))
          (longer.trans (longer'.trans (longer₂.trans longer₃))) sound₃
        rw [bind_run_ok ((bind_run_ok ran).trans ((bind_run_ok copied).trans (update_run _ _)))]
        refine ⟨rest.later.after (longer'.trans (longer₂.trans longer₃)) kept, rest.failures, fun done y under => ?_⟩
        obtain ⟨child, member, under⟩ := under
        rcases List.mem_cons.1 member with rfl | later
        · obtain ⟨copy, made⟩ := result.complete rfl y (under.mono (longer.trans longer'))
          exact ⟨copy, rest.later.2 _ made⟩
        · exact rest.complete done y ⟨child, later, under⟩

theorem copyInto_result (plain : PlainNames world) (fuel : Nat) : ∀ {r : Registry} {c : Copying} {x d : Nat},
    Sound src dst r c → Matched r src dst x d → src ≤ r.length → dst ≤ r.length → maxId < x + fuel →
      Result src dst r c (Under r x) (copyInto world fuel x d c) := by
  induction fuel with
  | zero =>
    intro r c x d sound matched source target deep
    have known := (matched.known source target).1
    have size := sound.formed.length
    omega
  | succ fuel ih =>
    intro r c x d sound matched source target deep
    have copied : Sound src dst r { c with copies := c.copies ++ [(x, d)] } := by
      refine ⟨sound.formed, sound.holds, sound.minted, sound.unmarked, fun copy member => ?_⟩
      rcases List.mem_append.1 member with earlier | last
      · exact sound.copies copy earlier
      · rwa [List.mem_singleton.1 last]
    obtain ⟨r', longer, sound'⟩ := copied.suspended plain
    have kept : ∀ copy ∈ c.copies, copy ∈ (suspended world { c with copies := c.copies ++ [(x, d)] }).copies :=
      fun copy member => List.mem_append_left _ member
    unfold copyInto
    by_cases fails : world.fails x d = true
    · have ran : copyStorage world x d c = (.error .host, suspended world { c with copies := c.copies ++ [(x, d)] }) := by
        change (if world.fails x d = true then raise .host else pure () : Act Unit) _ = _
        rw [if_pos fails]
        rfl
      rw [bind_run_error ran]
      exact ⟨(Later.refl sound').after longer kept, fun _ failed => Except.error.inj failed ▸ .inl rfl, nofun⟩
    · have ran : copyStorage world x d c = (.ok (), suspended world { c with copies := c.copies ++ [(x, d)] }) := by
        change (if world.fails x d = true then raise .host else pure () : Act Unit) _ = _
        rw [if_neg fails]
        rfl
      rw [bind_run_ok ran, state_bind]
      have grown := longer.length_le
      have result := children_result plain ih sound'.formed (matched.mono longer) (source.trans grown) (target.trans grown) deep
        ((suspended world { c with copies := c.copies ++ [(x, d)] }).index.children x)
        (fun child member => by
          obtain ⟨i, key, there, id, name⟩ := (mem_children sound'.holds.toKnows).1 (show (child.1, child.2) ∈ _ from member)
          exact ⟨i, key, there, Prod.ext id name⟩)
        (List.prefix_refl r') sound'
      refine ⟨result.later.after longer kept, result.failures, fun done y under => ?_⟩
      rcases (under.mono longer).first with rfl | ⟨i, key, there, below⟩
      · exact ⟨d, result.later.2 _ (by simp [suspended])⟩
      · exact result.complete done y ⟨(i + 1, decode key), (mem_children sound'.holds.toKnows).2 ⟨i, key, there, rfl, rfl⟩, below⟩

end Runs

end Copying

end DoRuntime.Facets
