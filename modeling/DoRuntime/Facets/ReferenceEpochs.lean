import DoRuntime.Facets.SubtreeCopy

namespace DoRuntime.Facets

open Js

structure FacetReferenceEpochs where
  epochs : Nat → Option Nat

namespace FacetReferenceEpochs

variable (e : FacetReferenceEpochs)

def epochOf (id : Nat) : Nat := (e.epochs id).getD 0

def set (id epoch : Nat) : FacetReferenceEpochs := { epochs := Function.update e.epochs id (some epoch) }

def capture (id : Nat) : Nat × FacetReferenceEpochs := (e.epochOf id, e.set id (e.epochOf id))

def invalidate (root : Nat) (subtree : List Nat) : FacetReferenceEpochs :=
  (root :: subtree).dedup.foldl (fun e id => e.set id (e.epochOf id + 1)) e

def isCurrent (id epoch : Nat) : Bool := e.epochOf id = epoch

end FacetReferenceEpochs

/-- `descendants`, with fuel for the depth, along which the ids grow. -/
def TreeIndex.descendants (index : TreeIndex) : Nat → Nat → List Nat
  | 0, _ => []
  | fuel + 1, id => (index.children id).flatMap fun child => index.descendants fuel child.1 ++ [child.1]

/-- What a placement remembers. `since` counts the teardowns before it. -/
structure CapturedEpoch where
  id : Nat
  epoch : Nat
  since : Nat
deriving DecidableEq

/-- The index and the epochs of the root's tree, with the epochs captured and the facets torn down. -/
structure ActorTree where
  index : TreeIndex
  epochs : FacetReferenceEpochs
  captured : List CapturedEpoch
  tornDown : List Nat

/-- The calls of the facet managers; `self` is the id of the manager's own facet. -/
inductive TreeCall
  /-- of a name that has no entry -/
  | getFacet (self : Nat) (name : JsString)
  | deleteFacet (self : Nat) (name : JsString)
  | cloneFacet (self : Nat) (src dst : JsString)
  | deleteAllDescendants (self : Nat)

namespace ActorTree

def opened (index : TreeIndex) : ActorTree :=
  { index, epochs := { epochs := fun _ => none }, captured := [], tornDown := [] }

variable (t : ActorTree)

/-- `tree.epochs.invalidate(id, tree.descendants(id))` -/
def invalidate (id : Nat) : ActorTree :=
  { t with epochs := t.epochs.invalidate id (t.index.descendants (maxId + 1) id), tornDown := t.tornDown ++ [id] }

def capture (id : Nat) : ActorTree :=
  let (epoch, epochs) := t.epochs.capture id
  { t with epochs, captured := t.captured ++ [{ id, epoch, since := t.tornDown.length }] }

def getFacet (self : Nat) (name : JsString) : ActorTree :=
  match t.index.getId self name with
  | .error _ => t
  | .ok (id, index) => { t with index }.capture id

def deleteFacet (self : Nat) (name : JsString) : ActorTree :=
  match t.index.getId self name with
  | .error _ => t
  | .ok (id, index) => { t with index }.invalidate id

def cloneFacet (self : Nat) (src dst : JsString) : ActorTree :=
  match t.index.getId self src with
  | .error _ => t
  | .ok (srcId, index) =>
    match index.getId self dst with
    | .error _ => { t with index }
    | .ok (dstId, index) => if srcId = dstId then { t with index } else { t with index }.invalidate dstId

def deleteAllDescendants (self : Nat) : ActorTree :=
  (t.index.children self).foldl (fun t child => t.invalidate child.1) t

def call : TreeCall → ActorTree
  | .getFacet self name => t.getFacet self name
  | .deleteFacet self name => t.deleteFacet self name
  | .cloneFacet self src dst => t.cloneFacet self src dst
  | .deleteAllDescendants self => t.deleteAllDescendants self

end ActorTree

section Epochs

variable {e : FacetReferenceEpochs} {id x epoch : Nat}

theorem epochOf_set : (e.set id epoch).epochOf x = if x = id then epoch else e.epochOf x := by
  change (Function.update e.epochs id (some epoch) x).getD 0 = if x = id then epoch else (e.epochs x).getD 0
  rw [Function.update_apply]
  split <;> rfl

theorem epochOf_capture : (e.capture id).2.epochOf x = e.epochOf x := by
  change (e.set id (e.epochOf id)).epochOf x = _
  rw [epochOf_set]
  split
  · rename_i same
    rw [same]
  · rfl

theorem epochOf_foldl {ids : List Nat} (distinct : ids.Nodup) :
    (ids.foldl (fun e id => e.set id (e.epochOf id + 1)) e).epochOf x = e.epochOf x + if x ∈ ids then 1 else 0 := by
  induction ids generalizing e with
  | nil => rfl
  | cons id ids ih =>
    obtain ⟨fresh, distinct⟩ := List.nodup_cons.1 distinct
    rw [List.foldl_cons, ih distinct, epochOf_set]
    by_cases same : x = id
    · subst same
      simp [fresh]
    · simp [same]

theorem epochOf_invalidate {root : Nat} {subtree : List Nat} :
    (e.invalidate root subtree).epochOf x = e.epochOf x + if x ∈ root :: subtree then 1 else 0 := by
  rw [FacetReferenceEpochs.invalidate, epochOf_foldl (List.nodup_dedup _)]
  simp only [List.mem_dedup]

end Epochs

section Subtrees

variable {r r' : Registry} {index : TreeIndex} {x y z : Nat}

theorem Under.trans (above : Under r x y) (below : Under r y z) : Under r x z := by
  induction below with
  | self => exact above
  | child i s key _ there ih => exact .child i s key ih there

/-- The facets above a facet are fixed with its entry. -/
theorem Under.of_longer (formed : WellFormed r) (longer : r <+: r') (known : x ≤ r.length) (under : Under r' y x) :
    Under r y x := by
  obtain ⟨rest, rfl⟩ := longer
  induction under with
  | self => exact .self
  | child i s key _ there ih =>
    rw [List.getElem?_append_left (by omega)] at there
    have parent := parent_le formed there
    exact .child i s key (ih (by omega)) there

theorem mem_descendants (formed : WellFormed r) (knows : Knows r index) {fuel : Nat} (enough : r.length < x + fuel) :
    y ∈ index.descendants fuel x ↔ Under r x y ∧ y ≠ x := by
  induction fuel generalizing x with
  | zero =>
    constructor
    · intro none
      cases none
    · rintro ⟨under, other⟩
      rcases under.first with same | ⟨i, key, there, _⟩
      · exact absurd same other
      · have parent := parent_le formed there
        have inside := (List.getElem?_eq_some_iff.1 there).1
        omega
  | succ fuel ih =>
    have deeper : ∀ {i : Nat} {key : Bytes}, r[i]? = some (x, key) → r.length < i + 1 + fuel := by
      intro i key there
      have parent := parent_le formed there
      omega
    rw [TreeIndex.descendants, List.mem_flatMap]
    constructor
    · rintro ⟨⟨id, name⟩, child, member⟩
      obtain ⟨i, key, there, rfl, _⟩ := (mem_children knows).1 child
      have parent := parent_le formed there
      have under : Under r (i + 1) y := by
        rcases List.mem_append.1 member with below | same
        · exact ((ih (deeper there)).1 below).1
        · rw [List.mem_singleton.1 same]
          exact .self
      have above := under.le formed
      exact ⟨Under.trans (.child i x key .self there) under, by omega⟩
    · rintro ⟨under, other⟩
      rcases under.first with same | ⟨i, key, there, below⟩
      · exact absurd same other
      · refine ⟨(i + 1, decode key), (mem_children knows).2 ⟨i, key, there, rfl, rfl⟩, List.mem_append.2 ?_⟩
        by_cases same : y = i + 1
        · exact .inr (List.mem_singleton.2 same)
        · exact .inl ((ih (deeper there)).2 ⟨below, same⟩)

end Subtrees

section Teardown

variable {r r' : Registry} {t : ActorTree} {index : TreeIndex} {p : CapturedEpoch} {id : Nat}

open Classical in
/-- The epoch of a captured facet counts the teardowns since then of what it is under. -/
structure CapturedEpoch.Tracked (r : Registry) (t : ActorTree) (p : CapturedEpoch) : Prop where
  known : p.id ≤ r.length
  since : p.since ≤ t.tornDown.length
  counted : t.epochs.epochOf p.id = p.epoch + (t.tornDown.drop p.since).countP fun y => decide (Under r y p.id)

open Classical in
theorem CapturedEpoch.Tracked.current_iff (tracked : p.Tracked r t) :
    t.epochs.isCurrent p.id p.epoch = true ↔ ∀ y ∈ t.tornDown.drop p.since, ¬ Under r y p.id := by
  have spared : ((t.tornDown.drop p.since).countP fun y => decide (Under r y p.id)) = 0 ↔
      ∀ y ∈ t.tornDown.drop p.since, ¬ Under r y p.id := by
    rw [List.countP_eq_zero]
    simp only [decide_eq_true_eq]
  rw [FacetReferenceEpochs.isCurrent, decide_eq_true_eq, tracked.counted, ← spared]
  omega

structure ActorTree.Good (r : Registry) (t : ActorTree) : Prop where
  formed : WellFormed r
  holds : Holds r t.index
  tracked : ∀ p ∈ t.captured, p.Tracked r t

open Classical in
theorem ActorTree.Good.grown (good : t.Good r) (formed : WellFormed r') (longer : r <+: r') (holds : Holds r' index) :
    { t with index }.Good r' := by
  refine ⟨formed, holds, fun p member => ?_⟩
  have tracked := good.tracked p member
  refine ⟨tracked.known.trans longer.length_le, tracked.since, ?_⟩
  have same : ∀ y, Under r' y p.id ↔ Under r y p.id := fun y =>
    ⟨fun under => under.of_longer good.formed longer tracked.known, fun under => under.mono longer⟩
  simp only [same]
  exact tracked.counted

theorem ActorTree.Good.getId {self : Nat} {name : JsString} (good : t.Good r)
    (done : t.index.getId self name = .ok (id, index)) : ∃ r', { t with index }.Good r' ∧ id ≤ r'.length := by
  rcases getId_cases good.holds done with ⟨known, rfl, rfl⟩ | ⟨appendable, rfl, holds⟩
  · exact ⟨r, good, List.idxOf_lt_length_of_mem known⟩
  · refine ⟨_, good.grown (.append r _ good.formed appendable) (List.prefix_append r _) holds, ?_⟩
    rw [List.length_append]
    exact Nat.le_refl _

theorem ActorTree.Good.capture (good : t.Good r) (known : id ≤ r.length) : (t.capture id).Good r := by
  refine ⟨good.formed, good.holds, fun p member => ?_⟩
  rcases List.mem_append.1 member with old | new
  · obtain ⟨known, since, counted⟩ := good.tracked p old
    exact ⟨known, since, epochOf_capture.trans counted⟩
  · rw [List.mem_singleton.1 new]
    refine ⟨known, Nat.le_refl _, epochOf_capture.trans ?_⟩
    change _ = t.epochs.epochOf id + List.countP _ (t.tornDown.drop t.tornDown.length)
    rw [List.drop_length, List.countP_nil]
    rfl

theorem ActorTree.Good.invalidate (good : t.Good r) (id : Nat) : (t.invalidate id).Good r := by
  refine ⟨good.formed, good.holds, fun p member => ?_⟩
  obtain ⟨known, since, counted⟩ := good.tracked p member
  have room := good.formed.length
  have covered : p.id ∈ id :: t.index.descendants (maxId + 1) id ↔ Under r id p.id := by
    rw [List.mem_cons, mem_descendants good.formed good.holds.toKnows (by omega)]
    constructor
    · rintro (same | below)
      · exact same ▸ .self
      · exact below.1
    · intro under
      by_cases same : p.id = id
      · exact .inl same
      · exact .inr ⟨under, same⟩
  refine ⟨known, ?_, ?_⟩
  · change p.since ≤ (t.tornDown ++ [id]).length
    rw [List.length_append]
    omega
  · change (t.epochs.invalidate id _).epochOf p.id = _ + List.countP _ ((t.tornDown ++ [id]).drop p.since)
    rw [epochOf_invalidate, counted, List.drop_append_of_le_length since, List.countP_append, List.countP_singleton]
    by_cases under : Under r id p.id
    · rw [if_pos (covered.2 under), if_pos (by simpa using under), Nat.add_assoc]
    · rw [if_neg fun member => under (covered.1 member), if_neg (by simpa using under)]
      omega

theorem ActorTree.Good.call (good : t.Good r) (c : TreeCall) : ∃ r', (t.call c).Good r' := by
  cases c with
  | getFacet self name =>
    change ∃ r', (t.getFacet self name).Good r'
    unfold ActorTree.getFacet
    cases done : t.index.getId self name with
    | error => exact ⟨r, good⟩
    | ok found =>
      obtain ⟨r', good', known⟩ := good.getId done
      exact ⟨r', good'.capture known⟩
  | deleteFacet self name =>
    change ∃ r', (t.deleteFacet self name).Good r'
    unfold ActorTree.deleteFacet
    cases done : t.index.getId self name with
    | error => exact ⟨r, good⟩
    | ok found =>
      obtain ⟨r', good', _⟩ := good.getId done
      exact ⟨r', good'.invalidate _⟩
  | cloneFacet self src dst =>
    change ∃ r', (t.cloneFacet self src dst).Good r'
    unfold ActorTree.cloneFacet
    cases done : t.index.getId self src with
    | error => exact ⟨r, good⟩
    | ok found =>
      obtain ⟨srcId, index⟩ := found
      obtain ⟨r', good', _⟩ := good.getId done
      dsimp only
      cases done' : index.getId self dst with
      | error => exact ⟨r', good'⟩
      | ok found' =>
        obtain ⟨dstId, index'⟩ := found'
        obtain ⟨r'', good'', _⟩ := good'.getId done'
        dsimp only
        split
        · exact ⟨r'', good''⟩
        · exact ⟨r'', good''.invalidate dstId⟩
  | deleteAllDescendants self =>
    change ∃ r', (t.deleteAllDescendants self).Good r'
    unfold ActorTree.deleteAllDescendants
    refine ⟨r, ?_⟩
    generalize t.index.children self = children
    induction children generalizing t with
    | nil => exact good
    | cons child children ih => exact ih (good.invalidate child.1)

theorem ActorTree.Good.calls (good : t.Good r) (calls : List TreeCall) :
    ∃ r', (calls.foldl ActorTree.call t).Good r' := by
  induction calls generalizing t r with
  | nil => exact ⟨r, good⟩
  | cons c calls ih =>
    obtain ⟨r', good'⟩ := good.call c
    exact ih good'

/-- A captured epoch stays current exactly until a facet that the captured one is under, or it itself, is torn down. -/
theorem epochs_current_until_teardown {torn : Bytes} (formed : WellFormed r) (cut : Torn r torn)
    (opened : TreeIndex.openFile (image r ++ torn) = .ok index) (calls : List TreeCall)
    (ran : calls.foldl ActorTree.call (.opened index) = t) : ∀ p ∈ t.captured,
      (t.epochs.isCurrent p.id p.epoch = true ↔ ∀ y ∈ t.tornDown.drop p.since, ¬ Under t.index.registry y p.id) := by
  obtain ⟨index', opened', holds⟩ := openFile_spec formed cut
  obtain rfl : index' = index := Except.ok.inj (opened'.symm.trans opened)
  have fresh : (ActorTree.opened index').Good r := ⟨formed, holds, fun _ none => by cases none⟩
  obtain ⟨r', good⟩ := fresh.calls calls
  rw [ran] at good
  intro p member
  rw [good.holds.toKnows.registry]
  exact (good.tracked p member).current_iff

/-- The child of a facet that was torn down is stale. -/
theorem epochs_current_until_teardown_nested : ∃ (index : TreeIndex) (t : ActorTree),
    TreeIndex.openFile (image [] ++ []) = .ok index ∧ t.epochs.isCurrent 2 0 = false ∧
      [.getFacet 0 (js "a"), .getFacet 1 (js "b"), .deleteFacet 0 (js "a")].foldl ActorTree.call (.opened index) = t ∧
      ∃ y ∈ t.tornDown, Under t.index.registry y 2 := by
  obtain ⟨index, opened⟩ : ∃ index, TreeIndex.openFile (image [] ++ []) = .ok index := ⟨_, rfl⟩
  generalize ran : [.getFacet 0 (js "a"), .getFacet 1 (js "b"), .deleteFacet 0 (js "a")].foldl ActorTree.call
    (.opened index) = t
  have shown : (⟨2, 0, 0⟩ : CapturedEpoch) ∈ t.captured ∧ t.epochs.isCurrent 2 0 = false := by
    cases opened
    subst ran
    decide +kernel
  refine ⟨index, t, opened, shown.2, ran, ?_⟩
  have current := epochs_current_until_teardown .nil (.inl rfl) opened _ ran ⟨2, 0, 0⟩ shown.1
  by_contra spared
  have still := current.2 fun y torn under => spared ⟨y, torn, under⟩
  rw [shown.2] at still
  cases still

end Teardown

end DoRuntime.Facets
