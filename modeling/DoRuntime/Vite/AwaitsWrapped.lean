import DoRuntime.Vite.AwaitTransform

namespace DoRuntime.Vite

open Js Weave

/-- A text with the offset it is inserted at. -/
abbrev Insertion := Nat × JsString

def textAt (insertions : List Insertion) (i : Nat) : JsString :=
  (insertions.filter (·.1 == i)).flatMap (·.2)

section Insertions

variable {a b a' b' : List Insertion} {i : Nat}

theorem textAt_append : textAt (a ++ b) i = textAt a i ++ textAt b i := by
  unfold textAt
  rw [List.filter_append, List.flatMap_append]

theorem textAt_cons (j : Nat) (s : JsString) : textAt ((j, s) :: a) i = (if j = i then s else [])
    ++ textAt a i := by
  unfold textAt
  by_cases same : j = i
  · rw [List.filter_cons_of_pos (by simpa using same), if_pos same]
    rfl
  · rw [List.filter_cons_of_neg (by simpa using same), if_neg same]
    rfl

theorem textAt_none (elsewhere : ∀ x ∈ a, x.1 ≠ i) : textAt a i = [] := by
  unfold textAt
  rw [List.filter_eq_nil_iff.2 fun x member => by simpa using elsewhere x member]
  rfl

theorem textAt_length (perm : a.Perm b) (i : Nat) : (textAt a i).length = (textAt b i).length := by
  unfold textAt
  exact ((perm.filter _).flatMap_right _).length_eq

theorem textAt_far (near : Nat → Prop) (far : ∀ x ∈ a, ¬ near x.1) (here : near i) : textAt a i = [] :=
  textAt_none fun x member same => far x member (same ▸ here)

theorem textAt_near (near : Nat → Prop) (close : ∀ x ∈ a, near x.1) (here : ¬ near i) : textAt a i = [] :=
    by
  refine textAt_none fun x member same => here ?_
  rw [← same]
  exact close x member

/-- Where two lists of insertions lie apart, each is what it is alone. -/
theorem textAt_sides (near : Nat → Prop) (left : ∀ x ∈ a, near x.1) (left' : ∀ x ∈ a', near x.1)
    (right : ∀ x ∈ b, ¬ near x.1) (right' : ∀ x ∈ b', ¬ near x.1) :
    (∀ i, textAt (a ++ b) i = textAt (a' ++ b') i) ↔
      (∀ i, textAt a i = textAt a' i) ∧ ∀ i, textAt b i = textAt b' i := by
  simp only [textAt_append]
  constructor
  · intro same
    refine ⟨fun i => ?_, fun i => ?_⟩
    · by_cases here : near i
      · have equal := same i
        rwa [textAt_far near right here, textAt_far near right' here, List.append_nil,
          List.append_nil] at equal
      · rw [textAt_near near left here, textAt_near near left' here]
    · by_cases here : near i
      · rw [textAt_far near right here, textAt_far near right' here]
      · have equal := same i
        rwa [textAt_near near left here, textAt_near near left' here, List.nil_append,
          List.nil_append] at equal
  · intro both i
    rw [both.1 i, both.2 i]

theorem textAt_comm (near : Nat → Prop) (left : ∀ x ∈ a, near x.1) (right : ∀ x ∈ b, ¬ near x.1) (i : Nat) :
    textAt (a ++ b) i = textAt (b ++ a) i := by
  rw [textAt_append, textAt_append]
  by_cases here : near i
  · rw [textAt_far near right here, List.append_nil, List.nil_append]
  · rw [textAt_near near left here, List.append_nil, List.nil_append]

end Insertions

section Places

variable (development : Bool) (id : JsString)

/-- What is inserted before a node and its children, in the order of the visits. -/
def openers (p : Nat) : Node → List Insertion
  | .text _ => []
  | .join left right => openers p left ++ openers (p + left.size) right
  | .paren before inner _ => openers (p + 1 + before.length) inner
  | .call callee gap before first rest =>
    openers (p + callee.length + gap.length + 1 + before.length) first ++
      openers (p + callee.length + gap.length + 1 + before.length + first.size) rest
  | .awaitUsing declarations => openers (p + 5) declarations
  | .await_ gap argument =>
    (p, resumeOpener) :: (p + 5 + gap.length, gateOpener) :: openers (p + 5 + gap.length) argument
  | .forAwait head gap right after body =>
    (p + 3 + head.size + 2 + gap.length, iterableOpener) :: (openers (p + 3) head ++
      (openers (p + 3 + head.size + 2 + gap.length) right ++
        openers (p + 3 + head.size + 2 + gap.length + right.size + after.length + 1) body))

/-- What is inserted after a node and its children, in the order of the visits. -/
def entering (p : Nat) : Node → List Insertion
  | .text _ => []
  | .join left right => entering p left ++ entering (p + left.size) right
  | .paren before inner _ => entering (p + 1 + before.length) inner
  | .call callee gap before first rest =>
    entering (p + callee.length + gap.length + 1 + before.length) first ++
      entering (p + callee.length + gap.length + 1 + before.length + first.size) rest
  | .awaitUsing declarations => entering (p + 5) declarations
  | .await_ gap argument =>
    (p + 5 + gap.length + argument.size, gateCloser development id ++ closer) ::
      entering (p + 5 + gap.length) argument
  | .forAwait head gap right after body =>
    (p + 3 + head.size + 2 + gap.length + right.size, closer) :: (entering (p + 3) head ++
      (entering (p + 3 + head.size + 2 + gap.length) right ++
        entering (p + 3 + head.size + 2 + gap.length + right.size + after.length + 1) body))

/-- The same, a node's own after its children's. -/
def leaving (p : Nat) : Node → List Insertion
  | .text _ => []
  | .join left right => leaving p left ++ leaving (p + left.size) right
  | .paren before inner _ => leaving (p + 1 + before.length) inner
  | .call callee gap before first rest =>
    leaving (p + callee.length + gap.length + 1 + before.length) first ++
      leaving (p + callee.length + gap.length + 1 + before.length + first.size) rest
  | .awaitUsing declarations => leaving (p + 5) declarations
  | .await_ gap argument =>
    leaving (p + 5 + gap.length) argument ++
      [(p + 5 + gap.length + argument.size, gateCloser development id ++ closer)]
  | .forAwait head gap right after body =>
    leaving (p + 3) head ++ (leaving (p + 3 + head.size + 2 + gap.length) right ++
      ((p + 3 + head.size + 2 + gap.length + right.size, closer) ::
        leaving (p + 3 + head.size + 2 + gap.length + right.size + after.length + 1) body))

end Places

section Visits

variable (development : Bool) (id : JsString)

theorem visit_original (p : Nat) (source : MagicString) (node : Node) :
    (visit development id p source node).original = source.original := by
  induction node generalizing p source with
  | text => rfl
  | join left right ihl ihr => rw [visit, ihr, ihl]
  | paren before inner after ih => rw [visit, ih]
  | call callee gap before first rest ihf ihr => rw [visit, ihr, ihf]
  | awaitUsing declarations ih => rw [visit, ih]
  | await_ gap argument ih =>
    rw [visit, ih]
    rfl
  | forAwait head gap right after body ihh ihr ihb =>
    rw [visit, ihb, ihr, ihh]
    rfl

theorem prependLeft_left (source : MagicString) (j : Nat) (s : JsString) (i : Nat) :
    (source.prependLeft j s).left i = (if j = i then s else []) ++ source.left i := by
  unfold MagicString.prependLeft
  by_cases same : j = i
  · rw [if_pos same, ← same]
    exact Function.update_self ..
  · rw [if_neg same]
    exact Function.update_of_ne (Ne.symm same) ..

theorem appendRight_right (source : MagicString) (j : Nat) (s : JsString) (i : Nat) :
    (source.appendRight j s).right i = source.right i ++ if j = i then s else [] := by
  unfold MagicString.appendRight
  by_cases same : j = i
  · rw [if_pos same, ← same]
    exact Function.update_self ..
  · rw [if_neg same, List.append_nil]
    exact Function.update_of_ne (Ne.symm same) ..

@[simp] theorem prependLeft_right (source : MagicString) (j : Nat) (s : JsString) :
    (source.prependLeft j s).right = source.right := rfl

@[simp] theorem appendRight_left (source : MagicString) (j : Nat) (s : JsString) :
    (source.appendRight j s).left = source.left := rfl

theorem textAt_reverse_cons {a : List Insertion} (j : Nat) (s : JsString) (i : Nat) :
    textAt ((j, s) :: a).reverse i = textAt a.reverse i ++ if j = i then s else [] := by
  rw [List.reverse_cons, textAt_append, textAt_cons]
  simp [textAt]

/-- What a visit leaves to the left of an offset: the last that was inserted comes first. -/
theorem visit_left (p : Nat) (source : MagicString) (node : Node) (i : Nat) :
    (visit development id p source node).left i = textAt (openers p node).reverse i ++ source.left i := by
  induction node generalizing p source with
  | text => rfl
  | join left right ihl ihr =>
    rw [visit, ihr, ihl, openers, List.reverse_append, textAt_append, List.append_assoc]
  | paren before inner after ih => rw [visit, ih, openers]
  | call callee gap before first rest ihf ihr =>
    rw [visit, ihr, ihf, openers, List.reverse_append, textAt_append, List.append_assoc]
  | awaitUsing declarations ih => rw [visit, ih, openers]
  | await_ gap argument ih =>
    rw [visit, ih, openers, textAt_reverse_cons, textAt_reverse_cons, appendRight_left, appendRight_left,
      prependLeft_left, prependLeft_left]
    simp only [List.append_assoc]
  | forAwait head gap right after body ihh ihr ihb =>
    rw [visit, ihb, ihr, ihh, openers, textAt_reverse_cons, List.reverse_append, List.reverse_append,
      textAt_append, textAt_append, appendRight_left, prependLeft_left]
    simp only [List.append_assoc]

theorem visit_right (p : Nat) (source : MagicString) (node : Node) (i : Nat) :
    (visit development id p source node).right i = source.right i ++ textAt
      (entering development id p node) i := by
  induction node generalizing p source with
  | text => exact (List.append_nil _).symm
  | join left right ihl ihr => rw [visit, ihr, ihl, entering, textAt_append, List.append_assoc]
  | paren before inner after ih => rw [visit, ih, entering]
  | call callee gap before first rest ihf ihr =>
    rw [visit, ihr, ihf, entering, textAt_append, List.append_assoc]
  | awaitUsing declarations ih => rw [visit, ih, entering]
  | await_ gap argument ih =>
    rw [visit, ih, entering, textAt_cons, appendRight_right, appendRight_right, prependLeft_right,
      prependLeft_right]
    split <;> simp only [List.append_assoc, List.nil_append]
  | forAwait head gap right after body ihh ihr ihb =>
    rw [visit, ihb, ihr, ihh, entering, textAt_cons, textAt_append, textAt_append, appendRight_right,
      prependLeft_right]
    simp only [List.append_assoc]

end Visits

section Ranges

variable {development : Bool} {id : JsString} {p : Nat} {node : Node}

theorem Node.size_join (left right : Node) : (join left right).size = left.size + right.size :=
    List.length_append

theorem Node.size_paren (before : JsString) (inner : Node) (after : JsString) :
    (paren before inner after).size = 1 + before.length + inner.size + after.length + 1 := by
  have brackets : (js "(").length = 1 ∧ (js ")").length = 1 := ⟨rfl, rfl⟩
  simp only [size, render, List.length_append, brackets]

theorem Node.size_call (callee gap before : JsString) (first rest : Node) :
    (call callee gap before first rest).size =
    callee.length + gap.length + 1 + before.length + first.size + rest.size + 1 := by
  have brackets : (js "(").length = 1 ∧ (js ")").length = 1 := ⟨rfl, rfl⟩
  simp only [size, render, List.length_append, brackets]

theorem Node.size_awaitUsing (declarations : Node) :
    (awaitUsing declarations).size = 5 + declarations.size := by
  have word : (js "await").length = 5 := rfl
  simp only [size, render, List.length_append, word]

theorem Node.size_await (gap : JsString) (argument : Node) :
    (await_ gap argument).size = 5 + gap.length + argument.size := by
  have word : (js "await").length = 5 := rfl
  simp only [size, render, List.length_append, word]

theorem Node.size_forAwait (head : Node) (gap : JsString) (right : Node) (after : JsString) (body : Node) :
    (forAwait head gap right after body).size =
      3 + head.size + 2 + gap.length + right.size + after.length + 1 + body.size := by
  have words : (js "for").length = 3 ∧ (js "of").length = 2 ∧ (js ")").length = 1 := ⟨rfl, rfl, rfl⟩
  simp only [size, render, List.length_append, words]

theorem Node.size_pos {node : Node} (some_ : node.render ≠ []) : 0 < node.size :=
    List.length_pos_iff.2 some_

theorem openers_range (valid : node.Valid) : ∀ x ∈ openers p node, p ≤ x.1 ∧ x.1 < p + node.size := by
  induction node generalizing p with
  | text => exact fun _ member => absurd member List.not_mem_nil
  | join left right ihl ihr =>
    intro x member
    rw [Node.size_join]
    rcases List.mem_append.1 member with member | member
    · have range := ihl valid.1 x member
      omega
    · have range := ihr valid.2.1 x member
      omega
  | paren before inner after ih =>
    intro x member
    have range := ih valid x member
    rw [Node.size_paren]
    omega
  | call callee gap before first rest ihf ihr =>
    intro x member
    rw [Node.size_call]
    rcases List.mem_append.1 member with member | member
    · have range := ihf valid.2.1 x member
      omega
    · have range := ihr valid.2.2.1 x member
      omega
  | awaitUsing declarations ih =>
    intro x member
    have range := ih valid.1 x member
    rw [Node.size_awaitUsing]
    omega
  | await_ gap argument ih =>
    intro x member
    have some_ := Node.size_pos valid.2
    rw [Node.size_await]
    rcases List.mem_cons.1 member with rfl | member
    · exact ⟨le_rfl, by omega⟩
    · rcases List.mem_cons.1 member with rfl | member
      · exact ⟨by omega, by omega⟩
      · have range := ih valid.1 x member
        omega
  | forAwait head gap right after body ihh ihr ihb =>
    intro x member
    rw [Node.size_forAwait]
    rcases List.mem_cons.1 member with rfl | member
    · exact ⟨by omega, by omega⟩
    · rcases List.mem_append.1 member with member | member
      · have range := ihh valid.1 x member
        omega
      · rcases List.mem_append.1 member with member | member
        · have range := ihr valid.2.1 x member
          omega
        · have range := ihb valid.2.2.2.1 x member
          omega

theorem entering_range : ∀ x ∈ entering development id p node, p < x.1 ∧ x.1 ≤ p + node.size := by
  induction node generalizing p with
  | text => exact fun _ member => absurd member List.not_mem_nil
  | join left right ihl ihr =>
    intro x member
    rw [Node.size_join]
    rcases List.mem_append.1 member with member | member
    · have range := ihl x member
      omega
    · have range := ihr x member
      omega
  | paren before inner after ih =>
    intro x member
    have range := ih x member
    rw [Node.size_paren]
    omega
  | call callee gap before first rest ihf ihr =>
    intro x member
    rw [Node.size_call]
    rcases List.mem_append.1 member with member | member
    · have range := ihf x member
      omega
    · have range := ihr x member
      omega
  | awaitUsing declarations ih =>
    intro x member
    have range := ih x member
    rw [Node.size_awaitUsing]
    omega
  | await_ gap argument ih =>
    intro x member
    rw [Node.size_await]
    rcases List.mem_cons.1 member with rfl | member
    · exact ⟨by omega, by omega⟩
    · have range := ih x member
      omega
  | forAwait head gap right after body ihh ihr ihb =>
    intro x member
    rw [Node.size_forAwait]
    rcases List.mem_cons.1 member with rfl | member
    · exact ⟨by omega, by omega⟩
    · rcases List.mem_append.1 member with member | member
      · have range := ihh x member
        omega
      · rcases List.mem_append.1 member with member | member
        · have range := ihr x member
          omega
        · have range := ihb x member
          omega

theorem entering_perm : (entering development id p node).Perm (leaving development id p node) := by
  induction node generalizing p with
  | text => exact .nil
  | join left right ihl ihr => exact ihl.append ihr
  | paren before inner after ih => exact ih
  | call callee gap before first rest ihf ihr => exact ihf.append ihr
  | awaitUsing declarations ih => exact ih
  | await_ gap argument ih => exact (ih.cons _).trans (List.perm_append_singleton _ _).symm
  | forAwait head gap right after body ihh ihr ihb =>
    refine ((ihh.append (ihr.append ihb)).cons _).trans (List.perm_middle.symm.trans ?_)
    exact (List.perm_middle.symm).append_left _

theorem leaving_range : ∀ x ∈ leaving development id p node, p < x.1 ∧ x.1 ≤ p + node.size :=
  fun x member => entering_range x (entering_perm.mem_iff.2 member)

theorem openers_nil (valid : node.Valid) (empty : node.size = 0) : openers p node = [] := by
  refine List.eq_nil_iff_forall_not_mem.2 fun x member => ?_
  have range := openers_range valid x member
  omega

end Ranges

section Edges

variable {development : Bool} {id : JsString} {p : Nat} {node : Node}

/-- Where only one text is inserted at an offset, the order does not matter. -/
theorem textAt_uniform {a : List Insertion} {i : Nat} {w : JsString} (all : ∀ x ∈ a, x.1 = i → x.2 = w) :
    textAt a i = (List.replicate (a.filter (·.1 == i)).length w).flatten := by
  have same : (a.filter (·.1 == i)).map (·.2) = List.replicate (a.filter (·.1 == i)).length w := by
    rw [List.eq_replicate_iff]
    refine ⟨List.length_map _, fun s member => ?_⟩
    obtain ⟨x, kept, rfl⟩ := List.mem_map.1 member
    obtain ⟨known, here⟩ := List.mem_filter.1 kept
    exact all x known (by simpa using here)
  rw [← same, textAt, List.flatMap_def]

theorem textAt_perm {a b : List Insertion} {i : Nat} {w : JsString} (perm : a.Perm b)
    (all : ∀ x ∈ a, x.1 = i → x.2 = w) : textAt a i = textAt b i := by
  rw [textAt_uniform all, textAt_uniform fun x member => all x (perm.mem_iff.2 member),
    (perm.filter _).length_eq]

theorem Node.isEmpty_iff_size : node.render.isEmpty = true ↔ node.size = 0 := by
  rw [List.isEmpty_iff, Node.size, List.length_eq_zero_iff]

theorem openers_later {q : Nat} (later : p < q) (valid : node.Valid) : ∀ x ∈ openers q node, x.1 ≠ p := by
  intro x member same
  have range := openers_range valid x member
  omega

theorem entering_earlier {q : Nat} (earlier : p + node.size < q) : ∀ x ∈ entering development id p node,
    x.1 ≠ q := by
  intro x member same
  have range := entering_range x member
  omega

/-- What an offset has of the insertions, and whether it has any. -/
def OnlyAt (insertions : List Insertion) (i : Nat) (w : JsString) (some_ : Bool) : Prop :=
  (∀ x ∈ insertions, x.1 = i → x.2 = w) ∧ ((∃ x ∈ insertions, x.1 = i) ↔ some_ = true)

theorem onlyAt_none {a : List Insertion} {i : Nat} {w : JsString} (elsewhere : ∀ x ∈ a, x.1 ≠ i)
    : OnlyAt a i w false := by
  refine ⟨fun x member same => absurd same (elsewhere x member), fun found => ?_, fun some_ =>
    by cases some_⟩
  obtain ⟨x, member, same⟩ := found
  exact absurd same (elsewhere x member)

theorem onlyAt_append {a b : List Insertion} {i : Nat} {w : JsString} {some_ more : Bool}
    (left : OnlyAt a i w some_)
    (right : OnlyAt b i w more) : OnlyAt (a ++ b) i w (some_ || more) := by
  constructor
  · intro x member
    exact (List.mem_append.1 member).elim (left.1 x) (right.1 x)
  · rw [Bool.or_eq_true, ← left.2, ← right.2]
    constructor
    · rintro ⟨x, member, same⟩
      exact (List.mem_append.1 member).imp (fun member => ⟨x, member, same⟩) fun member => ⟨x, member, same⟩
    · rintro (⟨x, member, same⟩ | ⟨x, member, same⟩)
      · exact ⟨x, List.mem_append_left _ member, same⟩
      · exact ⟨x, List.mem_append_right _ member, same⟩

theorem onlyAt_cons {a : List Insertion} {i : Nat} {w : JsString} {some_ : Bool}
    (later : OnlyAt a i w some_) :
    OnlyAt ((i, w) :: a) i w true := by
  refine ⟨fun x member same => ?_, fun _ => rfl, fun _ => ⟨_, List.mem_cons_self, rfl⟩⟩
  rcases List.mem_cons.1 member with rfl | member
  · rfl
  · exact later.1 x member same

theorem onlyAt_cons_of_ne {a : List Insertion} {i j : Nat} {w s : JsString} {some_ : Bool} (other : j ≠ i)
    (later : OnlyAt a i w some_) : OnlyAt ((j, s) :: a) i w some_ := by
  constructor
  · intro x member same
    rcases List.mem_cons.1 member with rfl | member
    · exact absurd same other
    · exact later.1 x member same
  · rw [← later.2]
    constructor
    · rintro ⟨x, member, same⟩
      rcases List.mem_cons.1 member with rfl | member
      · exact absurd same other
      · exact ⟨x, member, same⟩
    · rintro ⟨x, member, same⟩
      exact ⟨x, List.mem_cons_of_mem _ member, same⟩

/-- What is inserted at the start of a node opens the await that it starts with. -/
theorem openers_start (valid : node.Valid) : OnlyAt (openers p node) p resumeOpener node.startsWithAwait :=
    by
  induction node generalizing p with
  | text => exact onlyAt_none fun _ member => absurd member List.not_mem_nil
  | join left right ihl ihr =>
    have first := ihl (p := p) valid.1
    by_cases empty : left.size = 0
    · have none_ : openers p left = [] := openers_nil valid.1 empty
      have second := ihr (p := p + left.size) valid.2.1
      have plain : left.render.isEmpty = true := Node.isEmpty_iff_size.2 empty
      simp only [openers, Node.startsWithAwait, plain, Bool.true_and]
      refine onlyAt_append first ?_
      rwa [empty, Nat.add_zero] at second ⊢
    · have plain : left.render.isEmpty = false := by
        rw [← Bool.not_eq_true, Node.isEmpty_iff_size]
        exact empty
      simp only [openers, Node.startsWithAwait, plain, Bool.false_and]
      exact onlyAt_append first (onlyAt_none (openers_later (by omega) valid.2.1))
  | paren before inner after ih =>
    have valid : inner.Valid := valid
    exact onlyAt_none fun x (member : x ∈ openers (p + 1 + before.length) inner) =>
      openers_later (by omega) valid x member
  | call callee gap before first rest ihf ihr =>
    refine onlyAt_none fun x member => ?_
    rcases List.mem_append.1 member with member | member
    · exact openers_later (by omega) valid.2.1 x member
    · exact openers_later (by omega) valid.2.2.1 x member
  | awaitUsing declarations ih =>
    have valid : declarations.Valid := valid.1
    exact onlyAt_none fun x (member : x ∈ openers (p + 5) declarations) => openers_later (by omega)
      valid x member
  | await_ gap argument ih =>
    exact onlyAt_cons (onlyAt_cons_of_ne (by omega) (onlyAt_none (openers_later (by omega) valid.1)))
  | forAwait head gap right after body ihh ihr ihb =>
    refine onlyAt_cons_of_ne (by omega) (onlyAt_none fun x member => ?_)
    rcases List.mem_append.1 member with member | member
    · exact openers_later (by omega) valid.1 x member
    · rcases List.mem_append.1 member with member | member
      · exact openers_later (by omega) valid.2.1 x member
      · exact openers_later (by omega) valid.2.2.2.1 x member

/-- What is inserted at the end of a node closes the awaits that it ends with. -/
theorem entering_end : OnlyAt (entering development id p node) (p + node.size)
    (gateCloser development id ++ closer) node.endsWithAwait := by
  induction node generalizing p with
  | text => exact onlyAt_none fun _ member => absurd member List.not_mem_nil
  | join left right ihl ihr =>
    have second := ihr (p := p + left.size)
    have first := ihl (p := p)
    rw [Node.size_join, ← Nat.add_assoc, entering, Node.endsWithAwait, Bool.or_comm]
    refine onlyAt_append ?_ second
    by_cases empty : right.size = 0
    · have plain : right.render.isEmpty = true := Node.isEmpty_iff_size.2 empty
      rwa [empty, Nat.add_zero, plain, Bool.true_and]
    · have plain : right.render.isEmpty = false := by
        rw [← Bool.not_eq_true, Node.isEmpty_iff_size]
        exact empty
      rw [plain, Bool.false_and]
      exact onlyAt_none (entering_earlier (by omega))
  | paren before inner after ih =>
    rw [Node.size_paren]
    exact onlyAt_none fun x (member : x ∈ entering development id (p + 1 + before.length) inner) =>
      entering_earlier (by omega) x member
  | call callee gap before first rest ihf ihr =>
    rw [Node.size_call]
    refine onlyAt_none fun x member => ?_
    rcases List.mem_append.1 member with member | member
    · exact entering_earlier (by omega) x member
    · exact entering_earlier (by omega) x member
  | awaitUsing declarations ih =>
    rw [Node.size_awaitUsing, ← Nat.add_assoc]
    exact ih
  | await_ gap argument ih =>
    have later := ih (p := p + 5 + gap.length)
    rw [Node.size_await, ← Nat.add_assoc, ← Nat.add_assoc]
    exact onlyAt_cons later
  | forAwait head gap right after body ihh ihr ihb =>
    have last := ihb (p := p + 3 + head.size + 2 + gap.length + right.size + after.length + 1)
    have length : p + (Node.forAwait head gap right after body).size =
        p + 3 + head.size + 2 + gap.length + right.size + after.length + 1 + body.size := by
      rw [Node.size_forAwait]
      omega
    rw [length]
    refine onlyAt_cons_of_ne (by omega) ?_
    rw [Node.endsWithAwait, ← Bool.false_or body.endsWithAwait, ← Bool.false_or
      (false || body.endsWithAwait)]
    exact onlyAt_append (onlyAt_none (entering_earlier (by omega)))
      (onlyAt_append (onlyAt_none (entering_earlier (by omega))) last)

end Edges

section Orders

/-- Two lists insert the same at every offset. -/
def Agree (a b : List Insertion) : Prop := ∀ i, textAt a i = textAt b i

variable {a b a' b' : List Insertion}

theorem agree_append (near : Nat → Prop) (left : ∀ x ∈ a, near x.1) (right : ∀ x ∈ b, ¬ near x.1)
    (perm : a.Perm a')
    (perm' : b.Perm b') : Agree (a ++ b) (a' ++ b') ↔ Agree a a' ∧ Agree b b' :=
  textAt_sides near left (fun x member => left x (perm.mem_iff.2 member)) right
    fun x member => right x (perm'.mem_iff.2 member)

theorem agree_reverse_append (near : Nat → Prop) (left : ∀ x ∈ a, near x.1) (right : ∀ x ∈ b, ¬ near x.1) :
    Agree (a ++ b) (a ++ b).reverse ↔ Agree a a.reverse ∧ Agree b b.reverse := by
  have left' : ∀ x ∈ a.reverse, near x.1 := fun x member => left x (List.mem_reverse.1 member)
  have right' : ∀ x ∈ b.reverse, ¬ near x.1 := fun x member => right x (List.mem_reverse.1 member)
  unfold Agree
  rw [← textAt_sides near left left' right right', List.reverse_append]
  exact forall_congr' fun i => by rw [textAt_comm near left' right' i]

/-- One more insertion, made first in one list and in its place in the other. -/
theorem agree_placed {j : Nat} {w v : JsString} {some_ : Bool} {C : Prop} (only : OnlyAt a j v some_)
    (perm : a.Perm (a' ++ b')) (apart : ∀ x ∈ b', x.1 ≠ j)
    (commute : ∀ k, w ++ (List.replicate k v).flatten = (List.replicate k v).flatten ++ w ↔ k = 0 ∨ C) :
    Agree ((j, w) :: a) (a' ++ (j, w) :: b') ↔ (some_ = false ∨ C) ∧ Agree a (a' ++ b') := by
  have count : (a.filter (·.1 == j)).length = 0 ↔ some_ = false := by
    rw [List.length_eq_zero_iff, List.filter_eq_nil_iff, ← Bool.not_eq_true, ← only.2]
    simp only [beq_iff_eq, not_exists, not_and]
  have here : textAt ((j, w) :: a) j = textAt (a' ++ (j, w) :: b') j ↔ some_ = false ∨ C := by
    have placed : textAt a' j = textAt a j := by
      rw [textAt_perm perm only.1, textAt_append, textAt_none apart, List.append_nil]
    rw [textAt_cons, if_pos rfl, textAt_append, textAt_cons, if_pos rfl, textAt_none apart,
      List.append_nil, placed,
      textAt_uniform only.1, commute, count]
  have elsewhere : ∀ i, i ≠ j → (textAt ((j, w) :: a) i = textAt (a' ++ (j, w) :: b') i ↔
      textAt a i = textAt (a' ++ b') i) := by
    intro i other
    rw [textAt_cons, if_neg (Ne.symm other), textAt_append, textAt_cons, if_neg (Ne.symm other),
      textAt_append]
    rfl
  constructor
  · intro agree
    refine ⟨here.1 (agree j), fun i => ?_⟩
    by_cases same : i = j
    · rw [same]
      exact textAt_perm perm only.1
    · exact (elsewhere i same).1 (agree i)
  · intro both i
    by_cases same : i = j
    · rw [same]
      exact here.2 both.1
    · exact (elsewhere i same).2 (both.2 i)

theorem agree_placed_reverse {j : Nat} {w v : JsString} {some_ : Bool} {C : Prop}
    (only : OnlyAt a j v some_)
    (commute : ∀ k, w ++ (List.replicate k v).flatten = (List.replicate k v).flatten ++ w ↔ k = 0 ∨ C) :
    Agree ((j, w) :: a) ((j, w) :: a).reverse ↔ (some_ = false ∨ C) ∧ Agree a a.reverse := by
  have placed : Agree ((j, w) :: a) (a.reverse ++ (j, w) :: []) ↔ (some_ = false ∨ C) ∧ Agree a
    (a.reverse ++ []) :=
    agree_placed only (by rw [List.append_nil]; exact a.reverse_perm.symm)
      (fun _ member => absurd member List.not_mem_nil) commute
  rwa [List.append_nil, ← List.reverse_cons] at placed

theorem powers_commute (w v : JsString) (k : Nat) (one : w ++ v = v ++ w) :
    w ++ (List.replicate k v).flatten = (List.replicate k v).flatten ++ w := by
  induction k with
  | zero => simp
  | succ k ih => rw [List.replicate_succ, List.flatten_cons, List.append_assoc, ← ih, ← List.append_assoc,
    one,
      List.append_assoc]

theorem commute_of_eq {w v : JsString} (one : w ++ v = v ++ w) (k : Nat) :
    w ++ (List.replicate k v).flatten = (List.replicate k v).flatten ++ w ↔ k = 0 ∨ True :=
  ⟨fun _ => .inr trivial, fun _ => powers_commute w v k one⟩

theorem commute_apart {w v : JsString} (apart : ∀ x y, w ++ x ≠ v ++ y) (k : Nat) :
    w ++ (List.replicate k v).flatten = (List.replicate k v).flatten ++ w ↔ k = 0 ∨ False := by
  rw [or_false]
  cases k with
  | zero => simp
  | succ k =>
    rw [List.replicate_succ, List.flatten_cons, List.append_assoc]
    exact ⟨fun same => absurd same (apart _ _), fun zero => by cases zero⟩

end Orders

/-- No awaited expression begins with an await, nor does what a `for await` goes through; and where the
    module's id is passed on, that does not end with one either. -/
def Node.nests (development : Bool) : Node → Bool
  | text _ => true
  | join left right => left.nests development && right.nests development
  | paren _ inner _ => inner.nests development
  | call _ _ _ first rest => first.nests development && rest.nests development
  | awaitUsing declarations => declarations.nests development
  | await_ _ argument => !argument.startsWithAwait && argument.nests development
  | forAwait head _ right _ body =>
    !right.startsWithAwait && !(development && right.endsWithAwait) &&
      (head.nests development && (right.nests development && body.nests development))

section Nesting

variable {development : Bool} {id : JsString} {p : Nat} {node : Node}

theorem closer_commute (k : Nat) :
    closer ++ (List.replicate k (gateCloser development id ++ closer)).flatten =
      (List.replicate k (gateCloser development id ++ closer)).flatten ++ closer ↔ k = 0 ∨
        development = false := by
  cases development with
  | false =>
    have commute := commute_of_eq (List.append_assoc closer closer closer).symm k
    simpa only [gateCloser, Bool.false_eq_true, if_false] using commute
  | true =>
    have commute := commute_apart (w := closer) (v := gateCloser true id ++ closer)
      (fun x y same => by simp [closer, gateCloser, js] at same) k
    simpa only [Bool.true_eq_false] using commute

/-- Two parts of a node insert nothing at the same place in the same way. -/
theorem agree_parts (development : Bool) (id : JsString) {left right : Node} {q : Nat}
    (validl : left.Valid) (validr : right.Valid)
    (after : p + left.size ≤ q) :
    (Agree (openers p left ++ openers q right) (openers p left ++ openers q right).reverse ∧
      Agree (entering development id p left ++ entering development id q right)
        (leaving development id p left ++ leaving development id q right)) ↔
      (Agree (openers p left) (openers p left).reverse ∧
        Agree (entering development id p left) (leaving development id p left)) ∧
      Agree (openers q right) (openers q right).reverse ∧
        Agree (entering development id q right) (leaving development id q right) := by
  rw [agree_reverse_append (· < p + left.size) (fun x member => (openers_range validl x member).2)
      fun x member => by have range := openers_range validr x member; omega,
    agree_append (· ≤ p + left.size) (fun x member => (entering_range x member).2)
      (fun x member => by have range := entering_range x member; omega) entering_perm entering_perm]
  exact and_and_and_comm

/-- The texts are inserted in the order of the tree exactly where the tree nests as it should. -/
theorem agree_iff_nests (valid : node.Valid) :
    Agree (openers p node) (openers p node).reverse ∧
        Agree (entering development id p node) (leaving development id p node) ↔
      node.nests development = true := by
  induction node generalizing p with
  | text => exact ⟨fun _ => rfl, fun _ => ⟨fun _ => rfl, fun _ => rfl⟩⟩
  | join left right ihl ihr =>
    rw [Node.nests, Bool.and_eq_true, ← ihl valid.1, ← ihr valid.2.1]
    exact agree_parts _ _ valid.1 valid.2.1 le_rfl
  | paren before inner after ih => exact ih valid
  | call callee gap before first rest ihf ihr =>
    rw [Node.nests, Bool.and_eq_true, ← ihf valid.2.1, ← ihr valid.2.2.1]
    exact agree_parts _ _ valid.2.1 valid.2.2.1 le_rfl
  | awaitUsing declarations ih => exact ih valid.1
  | await_ gap argument ih =>
    have inner := ih (p := p + 5 + gap.length) valid.1
    rw [Node.nests, Bool.and_eq_true, ← inner, Bool.not_eq_true']
    have own : OnlyAt ((p + 5 + gap.length, gateOpener) :: openers (p + 5 + gap.length) argument)
      p resumeOpener false :=
      onlyAt_cons_of_ne (by omega) (onlyAt_none (openers_later (by omega) valid.1))
    have apart : ∀ x y, gateOpener ++ x ≠ resumeOpener ++ y :=
      fun x y same => by simp [gateOpener, resumeOpener, js] at same
    rw [openers, agree_placed_reverse own (commute_of_eq rfl),
      agree_placed_reverse (openers_start valid.1) (commute_apart apart)]
    have close : Agree (entering development id p (.await_ gap argument))
      (leaving development id p (.await_ gap argument)) ↔
        (argument.endsWithAwait = false ∨ True) ∧ Agree (entering development id (p + 5 + gap.length)
          argument)
          (leaving development id (p + 5 + gap.length) argument ++ []) :=
      agree_placed entering_end (by rw [List.append_nil]; exact entering_perm)
        (fun _ member => absurd member List.not_mem_nil) (commute_of_eq rfl)
    rw [close, List.append_nil]
    tauto
  | forAwait head gap right after body ihh ihr ihb =>
    obtain ⟨validh, validr, _, validb, _⟩ := valid
    obtain ⟨start, known⟩ : ∃ start, start = p + 3 + head.size + 2 + gap.length := ⟨_, rfl⟩
    obtain ⟨stop, known'⟩ : ∃ stop, stop = start + right.size + after.length + 1 := ⟨_, rfl⟩
    have parts := agree_parts development id validr validb
      (show start + right.size ≤ stop by omega)
    have opens := agree_reverse_append (a := openers (p + 3) head)
      (b := openers start right ++ openers stop body)
      (· < start) (fun x member => by have range := openers_range validh x member; omega) fun x member => by
        rcases List.mem_append.1 member with member | member
        · have range := openers_range validr x member
          omega
        · have range := openers_range validb x member
          omega
    have closes := agree_append (a := entering development id (p + 3) head)
      (b := entering development id start right ++ entering development id stop body) (· < start)
      (fun x member => by have range := entering_range x member; omega) (fun x member => by
        rcases List.mem_append.1 member with member | member
        · have range := entering_range x member
          omega
        · have range := entering_range x member
          omega) entering_perm (entering_perm.append entering_perm)
    have first : OnlyAt (openers (p + 3) head ++ (openers start right ++ openers stop body))
      start resumeOpener
        (false || (right.startsWithAwait || false)) := by
      refine onlyAt_append (onlyAt_none fun x member => ?_)
        (onlyAt_append (openers_start validr) (onlyAt_none (openers_later (by omega) validb)))
      have range := openers_range validh x member
      omega
    have last : OnlyAt (entering development id (p + 3) head ++ (entering development id start right ++
        entering development id stop body)) (start + right.size) (gateCloser development id ++ closer)
        (false || (right.endsWithAwait || false)) := by
      refine onlyAt_append (onlyAt_none (entering_earlier (by omega)))
        (onlyAt_append entering_end (onlyAt_none fun x member => ?_))
      have range := entering_range x member
      omega
    have apart : ∀ x y, iterableOpener ++ x ≠ resumeOpener ++ y :=
      fun x y same => by simp [iterableOpener, resumeOpener, js] at same
    have opened := agree_placed_reverse first (commute_apart apart)
    have order : (entering development id (p + 3) head ++ (entering development id start right ++
        entering development id stop body)).Perm ((leaving development id (p + 3) head ++
          leaving development id start right) ++ leaving development id stop body) := by
      rw [List.append_assoc]
      exact entering_perm.append (entering_perm.append entering_perm)
    have closed := agree_placed last order
      (fun x member => by have range := leaving_range x member; omega) closer_commute
    rw [List.append_assoc, List.append_assoc] at closed
    rw [openers, entering, leaving, ← known, ← known', opened, closed, opens, closes, Node.nests]
    simp only [Bool.and_eq_true, Bool.not_eq_true', Bool.and_eq_false_iff, Bool.false_or, Bool.or_false,
      or_false]
    rw [← ihh (p := p + 3) validh, ← ihr (p := start) validr, ← ihb (p := stop) validb, ← parts]
    constructor
    · rintro ⟨⟨plain, openh, openrb⟩, ends, closeh, closerb⟩
      exact ⟨⟨plain, ends.symm⟩, ⟨openh, closeh⟩, openrb, closerb⟩
    · rintro ⟨⟨plain, ends⟩, ⟨openh, closeh⟩, openrb, closerb⟩
      exact ⟨⟨plain, openh, openrb⟩, ends.symm, closeh, closerb⟩

theorem parts_ne {left right : Node} (validl : left.Valid) (validr : right.Valid)
    (apart : ¬ (left.endsWithAwait = true ∧ right.startsWithAwait = true))
    (first : ∀ x ∈ openers p left, ∀ y ∈ entering development id p left, x.1 ≠ y.1)
    (second : ∀ x ∈ openers (p + left.size) right, ∀ y ∈ entering development id (p + left.size) right,
      x.1 ≠ y.1) :
    ∀ x ∈ openers p left ++ openers (p + left.size) right,
      ∀ y ∈ entering development id p left ++ entering development id (p + left.size) right, x.1 ≠ y.1 := by
  intro x opens y closes same
  rcases List.mem_append.1 opens with opens | opens
  · rcases List.mem_append.1 closes with closes | closes
    · exact first x opens y closes same
    · have range := openers_range validl x opens
      have range' := entering_range y closes
      omega
  · rcases List.mem_append.1 closes with closes | closes
    · have range := openers_range validr x opens
      have range' := entering_range y closes
      exact apart ⟨entering_end.2.1 ⟨y, closes, by omega⟩, (openers_start validr).2.1 ⟨x, opens, by omega⟩⟩
    · exact second x opens y closes same

/-- No place is both the start of an await and the end of another. -/
theorem openers_ne_entering (valid : node.Valid) :
    ∀ x ∈ openers p node, ∀ y ∈ entering development id p node, x.1 ≠ y.1 := by
  induction node generalizing p with
  | text => exact fun _ member => absurd member List.not_mem_nil
  | join left right ihl ihr => exact parts_ne valid.1 valid.2.1 valid.2.2 (ihl valid.1) (ihr valid.2.1)
  | paren before inner after ih => exact ih valid
  | call callee gap before first rest ihf ihr =>
    exact parts_ne valid.2.1 valid.2.2.1 valid.2.2.2 (ihf valid.2.1) (ihr valid.2.2.1)
  | awaitUsing declarations ih => exact ih valid.1
  | await_ gap argument ih =>
    have some_ := Node.size_pos valid.2
    intro x first y last
    have range := entering_range y last
    rcases List.mem_cons.1 first with rfl | first
    · exact Nat.ne_of_lt range.1
    · rcases List.mem_cons.1 first with rfl | first
      · rcases List.mem_cons.1 last with rfl | last
        · simp only
          omega
        · have range := entering_range y last
          exact Nat.ne_of_lt range.1
      · have range := openers_range valid.1 x first
        rcases List.mem_cons.1 last with rfl | last
        · simp only
          omega
        · exact ih valid.1 x first y last
  | forAwait head gap right after body ihh ihr ihb =>
    obtain ⟨validh, validr, some_, validb, _⟩ := valid
    have some_ := Node.size_pos some_
    intro x first y last
    simp only [openers, entering, List.mem_cons, List.mem_append] at first last
    rcases first with rfl | first | first | first
    · rcases last with rfl | last | last | last
      · simp only
        omega
      all_goals
        have range := entering_range y last
        simp only
        omega
    · have range := openers_range validh x first
      rcases last with rfl | last | last | last
      · simp only
        omega
      · exact ihh validh x first y last
      all_goals
        have range' := entering_range y last
        omega
    · have range := openers_range validr x first
      rcases last with rfl | last | last | last
      · simp only
        omega
      · have range' := entering_range y last
        omega
      · exact ihr validr x first y last
      · have range' := entering_range y last
        omega
    · have range := openers_range validb x first
      rcases last with rfl | last | last | last
      · simp only
        omega
      · have range' := entering_range y last
        omega
      · have range' := entering_range y last
        omega
      · exact ihb validb x first y last

end Nesting

section Lowered

variable {development : Bool} {id : JsString} {p : Nat} {node : Node}

/-- What each offset has inserted in the tree in which the awaits are wrapped. -/
def nested (development : Bool) (id : JsString) (p : Nat) (node : Node) (i : Nat) : JsString :=
  textAt (leaving development id p node) i ++ textAt (openers p node) i

theorem nested_before (valid : node.Valid) {i : Nat} (before : i < p)
    : nested development id p node i = [] := by
  rw [nested, textAt_none fun x member same => by have range := leaving_range x member; omega,
    textAt_none fun x member same => by have range := openers_range valid x member; omega]
  rfl

theorem nested_after (valid : node.Valid) {i : Nat} (after : p + node.size < i)
    : nested development id p node i = [] := by
  rw [nested, textAt_none fun x member same => by have range := leaving_range x member; omega,
    textAt_none fun x member same => by have range := openers_range valid x member; omega]
  rfl

theorem nested_start (valid : node.Valid) : nested development id p node p = textAt (openers p node) p := by
  rw [nested, textAt_none fun x member same => by have range := leaving_range x member; omega]
  rfl

theorem nested_stop (valid : node.Valid) :
    nested development id p node (p + node.size) = textAt (leaving development id p node) (p + node.size) := by
  rw [nested, textAt_none (a := openers p node) fun x member same => by
    have range := openers_range valid x member
    omega,
    List.append_nil]

variable (development id) in
/-- Two parts side by side. -/
theorem weave_parts {left right : Node} (validl : left.Valid) (validr : right.Valid) {f : Nat → JsString}
    (both : ∀ i, f i = (textAt (leaving development id p left) i ++ textAt
      (leaving development id (p + left.size) right) i) ++
      (textAt (openers p left) i ++ textAt (openers (p + left.size) right) i)) :
    weave f p (left.render ++ right.render) = weave (nested development id p left) p left.render ++
      weave (nested development id (p + left.size) right) (p + left.size) right.render := by
  have after : ∀ i, i ≤ p + left.size → textAt (leaving development id (p + left.size) right) i = [] :=
    fun i before => textAt_none fun x member same => by have range := leaving_range x member; omega
  have later : ∀ i, i < p + left.size → textAt (openers (p + left.size) right) i = [] :=
    fun i before => textAt_none fun x member same => by have range := openers_range validr x member; omega
  have earlier : ∀ i, p + left.size ≤ i → textAt (openers p left) i = [] :=
    fun i after => textAt_none fun x member same => by have range := openers_range validl x member; omega
  have before : ∀ i, p + left.size < i → textAt (leaving development id p left) i = [] :=
    fun i after => textAt_none fun x member same => by have range := leaving_range x member; omega
  refine weave_append (fun i low high => ?_) (fun i low high => ?_) ?_
  · change i < p + left.size at high
    rw [both, nested, after i (Nat.le_of_lt high), later i high, List.append_nil, List.append_nil]
  · change p + left.size < i at low
    rw [both, nested, before i low, earlier i (Nat.le_of_lt low), List.nil_append, List.nil_append]
  · change f (p + left.size) = nested _ _ _ _ (p + left.size) ++ nested _ _ _ _ (p + left.size)
    rw [both, nested, nested, after _ le_rfl, earlier _ le_rfl, List.append_nil]

variable (development id) in
/-- A part between two texts. -/
theorem weave_inside {q : Nat} {a b : JsString} (valid : node.Valid) (place : p + a.length = q) :
    weave (nested development id q node) p (a ++ (node.render ++ b)) =
      a ++ (weave (nested development id q node) q node.render ++ b) := by
  subst place
  rw [weave_leading fun i _ before => nested_before valid before, weave_trailing fun i after _ =>
    nested_after valid after]

theorem render_await (gap : JsString) (argument : Node) :
    (lower development id (.await_ gap argument)).render =
    resumeOpener ++ (js "await" ++ gap ++ (gateOpener ++ ((lower development id argument).render ++
      (gateCloser development id ++ closer)))) := by
  have resume : resumeOpener = js "__resumeAwait" ++ js "(" ++ js "(" := rfl
  have gate : gateOpener = js "__gateAwait" ++ js "(" ++ js "(" := rfl
  have close : closer = js ")" ++ js ")" := rfl
  have passed : js "), " = js ")" ++ js ", " := rfl
  unfold gateCloser
  rw [resume, gate, close, passed]
  cases development <;> simp [lower, Node.render]

theorem render_forAwait (head : Node) (gap : JsString) (right : Node) (after : JsString) (body : Node) :
    (lower development id (.forAwait head gap right after body)).render =
      js "for" ++ ((lower development id head).render ++ (js "of" ++ gap ++ (iterableOpener ++
        ((lower development id right).render ++ (closer ++ (after ++ js ")" ++
          (lower development id body).render)))))) := by
  have iterable : iterableOpener = js "__gateAsyncIterable" ++ js "(" ++ js "(" := rfl
  have close : closer = js ")" ++ js ")" := rfl
  rw [iterable, close]
  simp [lower, Node.render]

theorem render_lower_await (gap : JsString) {argument : Node} (valid : (Node.await_ gap argument).Valid) :
    resumeOpener ++ (js "await" ++ gap ++ (gateOpener ++
      (weave (nested development id (p + 5 + gap.length) argument) (p + 5 + gap.length) argument.render ++
        (gateCloser development id ++ closer)))) =
      weave (nested development id p (.await_ gap argument)) p (js "await" ++ gap ++ argument.render) := by
  obtain ⟨q, start⟩ : ∃ q, q = p + 5 + gap.length := ⟨_, rfl⟩
  have size := Node.size_pos valid.2
  -- without what is inserted at the start
  let inner : Nat → JsString := fun i => if i = p then [] else nested development id p
    (.await_ gap argument) i
  have at_ : ∀ i, i ≠ p → inner i = nested development id p (.await_ gap argument) i := fun i other =>
    if_neg other
  have value : ∀ i, nested development id p (.await_ gap argument) i =
      textAt (leaving development id q argument) i ++
        (if q + argument.size = i then gateCloser development id ++ closer else []) ++
        ((if p = i then resumeOpener else []) ++ ((if q = i then gateOpener else []) ++ textAt
          (openers q argument) i)) := by
    intro i
    rw [nested, leaving, openers, textAt_append, textAt_cons, textAt_cons, textAt_cons, ← start]
    simp [textAt]
  have closed : ∀ i, i ≤ q → textAt (leaving development id q argument) i = [] :=
    fun i before => textAt_none fun x member same => by have range := leaving_range x member; omega
  have unopened : ∀ i, i < q → textAt (openers q argument) i = [] :=
    fun i before => textAt_none fun x member same => by have range := openers_range valid.1 x member; omega
  have first : nested development id p (.await_ gap argument) p = resumeOpener ++ inner p := by
    have blank : inner p = [] := if_pos rfl
    rw [value, closed p (by omega), unopened p (by omega), if_neg (by omega), if_pos rfl, if_neg
      (by omega), blank]
    rfl
  have some_ : js "await" ++ gap ++ argument.render ≠ [] := by simp [js]
  have length : p + (js "await" ++ gap ++ argument.render).length = q + argument.size := by
    have word : (js "await").length = 5 := rfl
    rw [List.length_append, List.length_append, word, start]
    exact (by rw [Node.size]; omega)
  have place : p + (js "await" ++ gap).length = q := by
    have word : (js "await").length = 5 := rfl
    rw [List.length_append, word, start, ← Nat.add_assoc]
  have outer := weave_wrap (v := []) some_ first (by rw [length, at_ _ (by omega), List.append_nil])
    fun i low _ => (at_ i (by omega)).symm
  have silent : ∀ i, p ≤ i → i < p + (js "await" ++ gap).length → inner i = [] := by
    intro i low high
    rw [place] at high
    by_cases same : i = p
    · exact if_pos same
    · rw [at_ i same, value, closed i (by omega), unopened i high, if_neg (by omega), if_neg (by omega),
        if_neg (by omega)]
      rfl
  have gated : weave inner q argument.render = gateOpener ++ (weave (nested development id q argument)
    q argument.render ++
      (gateCloser development id ++ closer)) := by
    refine weave_wrap valid.2 ?_ ?_ fun i low high => ?_
    · rw [at_ q (by omega), value, closed q le_rfl, if_neg (by omega), if_neg (by omega), if_pos rfl,
        nested_start valid.1]
      rfl
    · change inner (q + argument.size) = nested development id q argument (q + argument.size) ++ _
      rw [at_ _ (by omega), value, if_pos rfl, if_neg (by omega), if_neg (by omega), nested_stop valid.1,
        textAt_none (a := openers q argument) fun x member same => by
          have range := openers_range valid.1 x member
          omega]
      simp only [List.append_nil, List.append_assoc]
    · change i < q + argument.size at high
      rw [at_ i (by omega), value, if_neg (by omega), if_neg (by omega), if_neg (by omega), nested]
      simp only [List.append_nil, List.nil_append]
  rw [outer, weave_leading silent, place, gated, ← start, List.append_nil]

variable (development id) in
theorem render_lower_forAwait (head : Node) (gap : JsString) (right : Node) (after : JsString) (body : Node)
    (valid : (Node.forAwait head gap right after body).Valid) {q r : Nat}
      (start : q = p + 3 + head.size + 2 + gap.length)
    (stop : r = q + right.size + after.length + 1) :
    js "for" ++ (weave (nested development id (p + 3) head) (p + 3) head.render ++
      (js "of" ++ gap ++ (iterableOpener ++
      (weave (nested development id q right) q right.render ++ (closer ++ (after ++ js ")" ++
        weave (nested development id r body) r body.render)))))) =
      weave (nested development id p (.forAwait head gap right after body)) p
        (js "for" ++ (head.render ++ (js "of" ++ gap ++
          (right.render ++ (after ++ js ")" ++ body.render))))) := by
  obtain ⟨validh, validr, some_, validb, _⟩ := valid
  have size := Node.size_pos some_
  have value : ∀ i, nested development id p (.forAwait head gap right after body) i =
      (textAt (leaving development id (p + 3) head) i ++ (textAt (leaving development id q right) i ++
        ((if q + right.size = i then closer else []) ++ textAt (leaving development id r body) i))) ++
        ((if q = i then iterableOpener else []) ++ (textAt (openers (p + 3) head) i ++
          (textAt (openers q right) i ++ textAt (openers r body) i))) := by
    intro i
    rw [nested, leaving, openers, ← start, ← stop, textAt_append, textAt_append, textAt_cons, textAt_cons,
      textAt_append,
      textAt_append]
  -- away from its own part nothing is inserted
  have quiet : ∀ {part : Node} {at_ i : Nat}, part.Valid → i < at_ ∨ at_ + part.size < i →
      textAt (leaving development id at_ part) i = [] ∧ textAt (openers at_ part) i = [] := by
    intro part at_ i valid out
    refine ⟨textAt_none fun x member same => ?_, textAt_none fun x member same => ?_⟩
    · have range := leaving_range x member
      omega
    · have range := openers_range valid x member
      omega
  have before : ∀ i, p ≤ i → i < p + (js "for").length → nested development id p
    (.forAwait head gap right after body) i = [] := by
    intro i _ high
    change i < p + 3 at high
    rw [value, (quiet validh (.inl high)).1, (quiet validh (.inl high)).2,
      (quiet validr (.inl (by omega))).1,
      (quiet validr (.inl (by omega))).2, (quiet validb (.inl (by omega))).1,
        (quiet validb (.inl (by omega))).2,
      if_neg (by omega), if_neg (by omega)]
    rfl
  have gapLength : (js "of" ++ gap).length = 2 + gap.length := by
    rw [List.length_append]
    rfl
  have afterLength : (after ++ js ")").length = after.length + 1 := List.length_append
  have place : p + 3 + head.render.length + (js "of" ++ gap).length = q := by
    rw [gapLength, start, Node.size]
    omega
  have place' : q + right.render.length + (after ++ js ")").length = r := by
    rw [afterLength, stop, Node.size]
    omega
  have between : ∀ i, p + 3 + head.render.length < i → i < p + 3 + head.render.length +
    (js "of" ++ gap).length →
      nested development id p (.forAwait head gap right after body) i = [] := by
    intro i low high
    rw [place] at high
    change p + 3 + head.size < i at low
    rw [value, (quiet validh (.inr low)).1, (quiet validh (.inr low)).2, (quiet validr (.inl high)).1,
      (quiet validr (.inl high)).2, (quiet validb (.inl (by omega))).1, (quiet validb (.inl (by omega))).2,
      if_neg (by omega), if_neg (by omega)]
    rfl
  have between' : ∀ i, q + right.render.length < i → i < q + right.render.length +
    (after ++ js ")").length →
      nested development id p (.forAwait head gap right after body) i = [] := by
    intro i low high
    rw [place'] at high
    change q + right.size < i at low
    rw [value, (quiet validh (.inr (by omega))).1, (quiet validh (.inr (by omega))).2,
      (quiet validr (.inr low)).1,
      (quiet validr (.inr low)).2, (quiet validb (.inl high)).1, (quiet validb (.inl high)).2,
      if_neg (by omega), if_neg (by omega)]
    rfl
  have first : weave (nested development id p (.forAwait head gap right after body)) (p + 3) head.render =
      weave (nested development id (p + 3) head) (p + 3) head.render := by
    refine weave_congr fun i low high => ?_
    change i ≤ p + 3 + head.size at high
    rw [value, (quiet validr (.inl (by omega))).1, (quiet validr (.inl (by omega))).2,
      (quiet validb (.inl (by omega))).1,
      (quiet validb (.inl (by omega))).2, if_neg (by omega), if_neg (by omega), nested]
    simp only [List.append_nil, List.nil_append]
  have second : weave (nested development id p (.forAwait head gap right after body)) q right.render =
      iterableOpener ++ (weave (nested development id q right) q right.render ++ closer) := by
    refine weave_wrap some_ ?_ ?_ fun i low high => ?_
    · rw [value, (quiet validh (.inr (by omega))).1, (quiet validh (.inr (by omega))).2,
        (quiet validb (.inl (by omega))).1,
        (quiet validb (.inl (by omega))).2, if_neg (by omega), if_pos rfl, nested_start validr,
        textAt_none (a := leaving development id q right) fun x member same => by
          have range := leaving_range x member
          omega]
      simp only [List.append_nil, List.nil_append]
    · change nested _ _ _ _ (q + right.size) = nested development id q right (q + right.size) ++ closer
      rw [value, (quiet validh (.inr (by omega))).1, (quiet validh (.inr (by omega))).2,
        (quiet validb (.inl (by omega))).1,
        (quiet validb (.inl (by omega))).2, if_pos rfl, if_neg (by omega), nested_stop validr,
        textAt_none (a := openers q right) fun x member same => by
          have range := openers_range validr x member
          omega]
      simp only [List.append_nil, List.nil_append]
    · change i < q + right.size at high
      rw [value, (quiet validh (.inr (by omega))).1, (quiet validh (.inr (by omega))).2,
        (quiet validb (.inl (by omega))).1,
        (quiet validb (.inl (by omega))).2, if_neg (by omega), if_neg (by omega), nested]
      simp only [List.append_nil, List.nil_append]
  have third : weave (nested development id p (.forAwait head gap right after body)) r body.render =
      weave (nested development id r body) r body.render := by
    refine weave_congr fun i low high => ?_
    rw [value, (quiet validh (.inr (by omega))).1, (quiet validh (.inr (by omega))).2,
      (quiet validr (.inr (by omega))).1,
      (quiet validr (.inr (by omega))).2, if_neg (by omega), if_neg (by omega), nested]
    simp only [List.nil_append]
  have word : p + (js "for").length = p + 3 := rfl
  rw [weave_leading before, word, weave_gap (by simp [js]) between, place, weave_gap (by simp [js])
    between', place', first,
    second, third]
  simp only [List.append_assoc]

/-- The text of the lowered tree is the text of the tree with the insertions in its order. -/
theorem render_lower (valid : node.Valid) :
    (lower development id node).render = weave (nested development id p node) p node.render := by
  induction node generalizing p with
  | text source => exact (weave_of_none fun _ _ _ => rfl).symm
  | join left right ihl ihr =>
    rw [lower, Node.render, ihl (p := p) valid.1, ihr (p := p + left.size) valid.2.1, Node.render]
    exact (weave_parts development id valid.1 valid.2.1 fun i =>
      by rw [nested, leaving, openers, textAt_append, textAt_append]).symm
  | paren before inner after ih =>
    have valid : inner.Valid := valid
    have place : p + (js "(" ++ before).length = p + 1 + before.length := by
      rw [List.length_append, ← Nat.add_assoc]
      rfl
    have inside := weave_inside development id (b := after ++ js ")") valid place
    rw [lower, Node.render, ih (p := p + 1 + before.length) valid, Node.render, List.append_assoc _ after,
      List.append_assoc _ _ (after ++ js ")"), List.append_assoc _ after, List.append_assoc _ _
        (after ++ js ")")]
    exact inside.symm
  | call callee gap before first rest ihf ihr =>
    have place : p + (callee ++ gap ++ js "(" ++ before).length = p + callee.length + gap.length + 1 + before.length := by
      rw [List.length_append, List.length_append, List.length_append, ← Nat.add_assoc, ← Nat.add_assoc,
        ← Nat.add_assoc]
      rfl
    have parts := weave_parts development id
      (p := p + callee.length + gap.length + 1 + before.length)
        (f := nested development id p (.call callee gap before first rest))
      valid.2.1 valid.2.2.1 fun i => by rw [nested, leaving, openers, textAt_append, textAt_append]
    have outside : ∀ i, i < p + callee.length + gap.length + 1 + before.length ∨
        p + callee.length + gap.length + 1 + before.length + first.size + rest.size < i →
          nested development id p (.call callee gap before first rest) i = [] := by
      intro i out
      rw [nested, leaving, openers, textAt_none, textAt_none, List.append_nil]
      · intro x member same
        rcases List.mem_append.1 member with member | member
        · have range := openers_range valid.2.1 x member
          omega
        · have range := openers_range valid.2.2.1 x member
          omega
      · intro x member same
        rcases List.mem_append.1 member with member | member
        · have range := leaving_range x member
          omega
        · have range := leaving_range x member
          omega
    have text : (Node.call callee gap before first rest).render =
        (callee ++ gap ++ js "(" ++ before) ++ ((first.render ++ rest.render) ++ js ")") := by
      rw [Node.render]
      simp only [List.append_assoc]
    have length : (first.render ++ rest.render).length = first.size + rest.size := List.length_append
    rw [text, weave_leading (fun i _ high => outside i (.inl (place ▸ high))), place,
      weave_trailing (fun i low _ => outside i (.inr (by omega))), parts, ← ihf valid.2.1, ← ihr valid.2.2.1,
        lower, Node.render]
    simp only [List.append_assoc]
  | awaitUsing declarations ih =>
    have valid : declarations.Valid := valid.1
    have inside := weave_inside development id (p := p) (a := js "await") (b := []) valid rfl
    rw [List.append_nil, List.append_nil] at inside
    rw [lower, Node.render, ih (p := p + 5) valid, Node.render]
    exact inside.symm
  | await_ gap argument ih =>
    rw [render_await, ih (p := p + 5 + gap.length) valid.1, Node.render]
    exact render_lower_await gap valid
  | forAwait head gap right after body ihh ihr ihb =>
    obtain ⟨q, start⟩ : ∃ q, q = p + 3 + head.size + 2 + gap.length := ⟨_, rfl⟩
    obtain ⟨r, stop⟩ : ∃ r, r = q + right.size + after.length + 1 := ⟨_, rfl⟩
    have lowered := render_lower_forAwait development id (p := p) head gap right after body valid start stop
    rw [render_forAwait, ihh (p := p + 3) valid.1, ihr (p := q) valid.2.1, ihb (p := r) valid.2.2.2.1,
      Node.render, lowered]
    simp only [List.append_assoc]

end Lowered

end DoRuntime.Vite
