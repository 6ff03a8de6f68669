import DoRuntime.Vite.AwaitsWrapped

namespace DoRuntime.Vite

open Js Weave

section Coverage

variable (development : Bool) (id : JsString)

/-- What is lowered is never an await in parentheses. -/
theorem isGated_lower (node : Node) : isGated (lower development id node) = false := by
  unfold isGated
  induction node with
  | paren before inner after ih => exact ih
  | _ => rfl

/-- Every await and every `for await` of the lowered tree passes its gate. -/
theorem coverage_lower {node : Node} (plain : node.usesAwaitUsing = false) :
    (countAwaitCoverage (lower development id node)).total =
      (countAwaitCoverage (lower development id node)).transformed := by
  induction node with
  | text => rfl
  | join left right ihl ihr =>
    obtain ⟨first, second⟩ := Bool.or_eq_false_iff.1 plain
    simp only [lower, countAwaitCoverage, AwaitCoverage.plus, ihl first, ihr second]
  | paren before inner after ih => exact ih plain
  | call callee gap before first rest ihf ihr =>
    obtain ⟨one, two⟩ := Bool.or_eq_false_iff.1 plain
    simp only [lower, countAwaitCoverage, AwaitCoverage.plus, isGated_lower, ihf one, ihr two,
      Bool.false_eq_true,
      and_false, if_false]
  | awaitUsing => cases plain
  | await_ gap argument ih =>
    have inner := ih plain
    have other : js "__gateAwait" ≠ js "__resumeAwait" := by decide
    have gated : ∀ (a : Node) (rest : Node), isGated
      (.paren [] (.await_ gap (.call (js "__gateAwait") [] [] a rest)) []) = true :=
      fun a rest => rfl
    simp only [lower, countAwaitCoverage, AwaitCoverage.plus, gated, other, inner, and_self, if_true,
      false_and, if_false]
    omega
  | forAwait head gap right after body ihh ihr ihb =>
    obtain ⟨rest, three⟩ := Bool.or_eq_false_iff.1 plain
    obtain ⟨one, two⟩ := Bool.or_eq_false_iff.1 rest
    have other : js "__gateAsyncIterable" ≠ js "__resumeAwait" := by decide
    have named : ∀ (a rest : Node), directCallName (.call (js "__gateAsyncIterable") [] [] a rest) =
        some (js "__gateAsyncIterable") := fun a rest => rfl
    simp only [lower, countAwaitCoverage, AwaitCoverage.plus, named, other, ihh one, ihr two, ihb three,
      if_true,
      false_and, if_false]

end Coverage

section Output

variable {development : Bool} {id : JsString} {m : Module}

theorem includes_await {node : Node} (valid : node.Valid) (awaits : node.hasAwait = true)
    : js "await" <:+: node.render := by
  have left_ : ∀ {a b : JsString}, js "await" <:+: a → js "await" <:+: a ++ b :=
    fun found => found.trans (List.prefix_append _ _).isInfix
  have right_ : ∀ {a b : JsString}, js "await" <:+: b → js "await" <:+: a ++ b :=
    fun found => found.trans (List.suffix_append _ _).isInfix
  induction node with
  | text => cases awaits
  | join left right ihl ihr =>
    rcases Bool.or_eq_true_iff.1 awaits with first | second
    · exact left_ (ihl valid.1 first)
    · exact right_ (ihr valid.2.1 second)
  | paren before inner after ih => exact left_ (left_ (right_ (ih valid awaits)))
  | call callee gap before first rest ihf ihr =>
    rcases Bool.or_eq_true_iff.1 awaits with one | two
    · exact left_ (left_ (right_ (ihf valid.2.1 one)))
    · exact left_ (right_ (ihr valid.2.2.1 two))
  | awaitUsing declarations ih => exact left_ (List.infix_refl _)
  | await_ gap argument ih => exact left_ (left_ (List.infix_refl _))
  | forAwait head gap right after body =>
    exact left_ (left_ (left_ (left_ (left_ (left_ (right_ valid.2.2.2.2))))))

theorem appendLeft_left (source : MagicString) (j : Nat) (s : JsString) (i : Nat) :
    (source.appendLeft j s).left i = source.left i ++ if j = i then s else [] := by
  unfold MagicString.appendLeft
  by_cases same : j = i
  · rw [if_pos same, ← same]
    exact Function.update_self ..
  · rw [if_neg same, List.append_nil]
    exact Function.update_of_ne (Ne.symm same) ..

/-- What the transform inserts at an offset. -/
def inserted (development : Bool) (id : JsString) (m : Module) (i : Nat) : JsString :=
  (textAt (openers m.opening.length m.body).reverse i ++ if insertionPoint m.text = i then header else [])
    ++
    textAt (entering development id m.opening.length m.body) i

theorem transform_eq {filter : JsString → Bool} (valid : m.body.Valid) (included : filter id = true)
    (unmarked : includes m.text marker = false)
    (awaits : m.body.hasAwait = true) :
    transform filter development id m = some (weave (inserted development id m) 0 m.text) := by
  have await_ : includes m.text (js "await") = true := by
    refine decide_eq_true ?_
    exact (includes_await valid awaits).trans (List.suffix_append _ _).isInfix
  rw [transform, await_, unmarked, included, awaits]
  simp only [Bool.not_true, Bool.or_false, Bool.or_self, Bool.false_eq_true, if_false, MagicString.toText]
  have original := visit_original development id m.opening.length (.ofText m.text) m.body
  have left := visit_left development id m.opening.length (.ofText m.text) m.body
  have right := visit_right development id m.opening.length (.ofText m.text) m.body
  refine congrArg some ?_
  change weave _ 0 (visit development id m.opening.length (.ofText m.text) m.body).original = _
  rw [original]
  refine weave_congr fun i _ _ => ?_
  change ((visit development id m.opening.length (.ofText m.text) m.body).appendLeft _ header).left i ++
    (visit development id m.opening.length (.ofText m.text) m.body).right i = _
  rw [appendLeft_left, left, right, inserted]
  change (_ ++ [] ++ _) ++ ([] ++ _) = _
  rw [List.append_nil, List.nil_append]

/-- The line break that ends the first line is the first of the text. -/
def Module.Broken (m : Module) : Prop :=
  ∀ line terminator, m.hashbang = some (line, terminator) → terminator.getLast? = some 10

theorem insertionPoint_broken (valid : m.Valid) (broken : m.Broken)
    : insertionPoint m.text = m.opening.length := by
  unfold insertionPoint Module.text Module.opening
  cases known : m.hashbang with
  | none =>
    have plain : (js "#!").isPrefixOf m.body.render = false := by
      rw [← Bool.not_eq_true, List.isPrefixOf_iff_prefix]
      exact valid.plain known
    simp only [List.nil_append, plain, Bool.false_eq_true, if_false, List.length_nil]
  | some opening =>
    obtain ⟨line, terminator⟩ := opening
    obtain ⟨starts, within, which, _⟩ := valid.line line terminator known
    have last := broken line terminator known
    have hash : (js "#!").isPrefixOf (line ++ terminator ++ m.body.render) = true := by
      rw [List.isPrefixOf_iff_prefix, List.append_assoc]
      exact starts.trans (List.prefix_append _ _)
    have unbroken : line.findIdx? (· == 10) = none := by
      rw [List.findIdx?_eq_none_iff]
      exact fun u member => by simpa using (within u member).1
    have length : (line ++ terminator).length = line.length + terminator.length := List.length_append
    simp only
    rw [if_pos hash, length, List.append_assoc, List.findIdx?_append, List.findIdx?_append, unbroken,
      Option.none_or]
    have cases : terminator = [10] ∨ terminator = [13, 10] := by
      simp only [Module.terminators, List.mem_cons, List.not_mem_nil, or_false] at which
      rcases which with rfl | rfl | rfl | rfl | rfl
      · exact .inl rfl
      · exact absurd last (by decide)
      · exact .inr rfl
      · exact absurd last (by decide)
      · exact absurd last (by decide)
    rcases cases with rfl | rfl
    · have found : List.findIdx? (· == 10) ([10] : JsString) = some 0 := rfl
      simp [found, Nat.add_comm]
    · have found : List.findIdx? (· == 10) ([13, 10] : JsString) = some 1 := rfl
      simp [found]
      omega

/-- Where the line ends in another way, the header goes to a later line, or to the start. -/
theorem insertionPoint_other (valid : m.Valid) {line terminator : JsString}
    (known : m.hashbang = some (line, terminator))
    (other : terminator.getLast? ≠ some 10) :
    insertionPoint m.text = 0 ∨ ∃ i, insertionPoint m.text = i + 1 ∧ m.opening.length ≤ i ∧
      m.text[i]? = some 10 := by
  obtain ⟨starts, within, which, _⟩ := valid.line line terminator known
  have text : m.text = (line ++ terminator) ++ m.body.render := by
    unfold Module.text Module.opening
    rw [known]
  have opening : m.opening = line ++ terminator := by
    unfold Module.opening
    rw [known]
  have hash : (js "#!").isPrefixOf m.text = true := by
    rw [List.isPrefixOf_iff_prefix, text, List.append_assoc]
    exact starts.trans (List.prefix_append _ _)
  have ended : ∀ u ∈ terminator, u ≠ 10 := by
    simp only [Module.terminators, List.mem_cons, List.not_mem_nil, or_false] at which
    rcases which with rfl | rfl | rfl | rfl | rfl
    · exact absurd rfl other
    · decide
    · exact absurd rfl other
    · decide
    · decide
  have unbroken : (line ++ terminator).findIdx? (· == 10) = none := by
    rw [List.findIdx?_eq_none_iff]
    intro u member
    rcases List.mem_append.1 member with member | member
    · simpa using (within u member).1
    · simpa using ended u member
  unfold insertionPoint
  rw [if_pos hash]
  cases found : m.text.findIdx? (· == 10) with
  | none => exact .inl rfl
  | some i =>
    obtain ⟨inside, is_, _⟩ := List.findIdx?_eq_some_iff_getElem.1 found
    refine .inr ⟨i, rfl, ?_, ?_⟩
    · by_contra before
      rw [not_le, opening] at before
      have first : m.text[i] ∈ line ++ terminator := by
        refine List.mem_of_getElem? (i := i) ?_
        have same : ((line ++ terminator) ++ m.body.render)[i]? = (line ++ terminator)[i]? :=
          List.getElem?_append_left before
        rw [← same, ← text, List.getElem?_eq_getElem inside]
      have none_ := List.findIdx?_eq_none_iff.1 unbroken _ first
      rw [is_] at none_
      cases none_
    · rw [List.getElem?_eq_getElem inside]
      exact congrArg some (by simpa using is_)

end Output

section Exactly

variable {development : Bool} {id : JsString} {m : Module}

theorem inserted_length (i : Nat) : (inserted development id m i).length =
    ((if insertionPoint m.text = i then header else [])
      ++ nested development id m.opening.length m.body i).length := by
  have opens := textAt_length ((openers m.opening.length m.body).reverse_perm) i
  have perm : (entering development id m.opening.length m.body).Perm
    (leaving development id m.opening.length m.body) :=
    entering_perm
  have closes := textAt_length perm i
  unfold inserted nested
  simp only [List.length_append, opens, closes]
  omega

/-- At an offset the texts are those of the tree exactly where both orders agree there. -/
theorem inserted_eq_iff (valid : m.body.Valid) {i : Nat} (other : insertionPoint m.text ≠ i) :
    inserted development id m i = nested development id m.opening.length m.body i ↔
      textAt (openers m.opening.length m.body) i = textAt (openers m.opening.length m.body).reverse i ∧
        textAt (entering development id m.opening.length m.body) i =
          textAt (leaving development id m.opening.length m.body) i := by
  unfold inserted nested
  rw [if_neg other, List.append_nil]
  have lengths := textAt_length ((openers m.opening.length m.body).reverse_perm) i
  have perm : (entering development id m.opening.length m.body).Perm
    (leaving development id m.opening.length m.body) :=
    entering_perm
  have lengths' := textAt_length perm i
  by_cases opens : textAt (openers m.opening.length m.body) i = []
  · have none_ : textAt (openers m.opening.length m.body).reverse i = [] := by
      rw [opens] at lengths
      exact List.length_eq_zero_iff.1 lengths
    rw [opens, none_, List.nil_append, List.append_nil]
    exact ⟨fun same => ⟨rfl, same⟩, fun both => both.2⟩
  · have none_ : textAt (entering development id m.opening.length m.body) i = [] := by
      by_contra closes
      obtain ⟨x, first, here⟩ : ∃ x ∈ openers m.opening.length m.body, x.1 = i := by
        by_contra none_
        exact opens (textAt_none fun x member same => none_ ⟨x, member, same⟩)
      obtain ⟨y, last, there⟩ : ∃ y ∈ entering development id m.opening.length m.body, y.1 = i := by
        by_contra none_
        exact closes (textAt_none fun x member same => none_ ⟨x, member, same⟩)
      exact openers_ne_entering valid x first y last (here.trans there.symm)
    have none_' : textAt (leaving development id m.opening.length m.body) i = [] := by
      rw [none_] at lengths'
      exact List.length_eq_zero_iff.1 lengths'.symm
    rw [none_, none_', List.nil_append, List.append_nil]
    exact ⟨fun same => ⟨same.symm, rfl⟩, fun both => both.1.symm⟩

/-- Where the header goes, nothing may be opened. -/
theorem inserted_header_iff (valid : m.body.Valid) (place : insertionPoint m.text = m.opening.length) :
    inserted development id m m.opening.length =
        header ++ nested development id m.opening.length m.body m.opening.length ↔
      m.body.startsWithAwait = false := by
  have only := openers_start (p := m.opening.length) valid
  have closes : textAt (entering development id m.opening.length m.body) m.opening.length = [] :=
    textAt_none fun x member same => by have range := entering_range x member; omega
  have apart : ∀ x y, header ++ x ≠ resumeOpener ++ y :=
    fun x y same => by simp [header, marker, resumeOpener, js] at same
  unfold inserted
  rw [if_pos place, closes, List.append_nil, nested_start valid,
    ← textAt_perm (openers m.opening.length m.body).reverse_perm.symm only.1, textAt_uniform only.1]
  rw [eq_comm, commute_apart apart, or_false, List.length_eq_zero_iff, List.filter_eq_nil_iff,
    ← Bool.not_eq_true, ← only.2]
  simp only [beq_iff_eq, not_exists, not_and]

theorem wrapped_eq_weave (valid : m.body.Valid) (some_ : m.body.render ≠ []) : wrapped development id m =
    m.opening ++ weave (fun i => (if m.opening.length = i then header else []) ++
      nested development id m.opening.length m.body i) m.opening.length m.body.render := by
  have size := Node.size_pos some_
  rw [wrapped, render_lower (p := m.opening.length) valid, List.append_assoc]
  refine congrArg (m.opening ++ ·) ?_
  refine Eq.trans (congrArg (header ++ ·) (List.append_nil _).symm)
    (weave_wrap some_ ?_ ?_ fun i low _ => ?_).symm
  · rw [if_pos rfl]
  · change (if m.opening.length = m.opening.length + m.body.size then header else []) ++ _ = _
    rw [if_neg (by omega), List.append_nil]
    rfl
  · rw [if_neg (by omega)]
    rfl

theorem inserted_before (valid : m.body.Valid) {i : Nat} (other : insertionPoint m.text ≠ i)
    (before : i < m.opening.length) :
    inserted development id m i = [] := by
  rw [inserted, if_neg other, textAt_none fun x member same => by
      have range := openers_range valid x (List.mem_reverse.1 member)
      omega,
    textAt_none fun x member same => by have range := entering_range x member; omega]
  rfl

theorem render_ne_nil (valid : m.body.Valid) (awaits : m.body.hasAwait = true) : m.body.render ≠ [] := by
  intro none_
  have found := includes_await valid awaits
  rw [none_, List.infix_nil] at found
  cases found

theorem agree_start {p : Nat} {node : Node} (valid : node.Valid) :
    textAt (openers p node) p = textAt (openers p node).reverse p ∧
      textAt (entering development id p node) p = textAt (leaving development id p node) p := by
  refine ⟨textAt_perm (openers p node).reverse_perm.symm (openers_start valid).1, ?_⟩
  rw [textAt_none fun x member same => by have range := entering_range x member; omega,
    textAt_none fun x member same => by have range := leaving_range x member; omega]

theorem agree_outside {p i : Nat} {node : Node} (valid : node.Valid)
    (outside : ¬ (p ≤ i ∧ i ≤ p + node.size)) :
    textAt (openers p node) i = textAt (openers p node).reverse i ∧
      textAt (entering development id p node) i = textAt (leaving development id p node) i := by
  have opens : ∀ x ∈ openers p node, x.1 ≠ i := by
    intro x member same
    have range := openers_range valid x member
    omega
  rw [textAt_none opens, textAt_none fun x member => opens x (List.mem_reverse.1 member),
    textAt_none fun x member same => by have range := entering_range x member; omega,
    textAt_none fun x member same => by have range := leaving_range x member; omega]
  exact ⟨rfl, rfl⟩

/-- With the header in its place, the text is that of the lowered tree exactly where the tree nests. -/
theorem output_eq_iff (valid : m.Valid) (broken : m.Broken) (awaits : m.body.hasAwait = true) :
    weave (inserted development id m) 0 m.text = wrapped development id m ↔
      m.body.startsWithAwait = false ∧ m.body.nests development = true := by
  have place := insertionPoint_broken valid broken
  have lengths : ∀ i, (inserted development id m i).length =
      ((if m.opening.length = i then header else [])
        ++ nested development id m.opening.length m.body i).length := by
    intro i
    rw [inserted_length, place]
  rw [wrapped_eq_weave valid.body (render_ne_nil valid.body awaits), Module.text,
    weave_leading fun i _ high => inserted_before valid.body (by rw [place]; omega) (by omega),
      List.append_cancel_left_eq,
    Nat.zero_add, ← @agree_iff_nests development id m.opening.length m.body valid.body]
  constructor
  · intro same
    have each := weave_inj lengths same
    have first := each m.opening.length (Nat.le_refl _) (Nat.le_add_right _ _)
    rw [if_pos rfl] at first
    have start := (inserted_header_iff valid.body place).1 first
    have agree : ∀ i, textAt (openers m.opening.length m.body) i = textAt
      (openers m.opening.length m.body).reverse i ∧
        textAt (entering development id m.opening.length m.body) i =
          textAt (leaving development id m.opening.length m.body) i := by
      intro i
      by_cases here : m.opening.length = i
      · exact here ▸ agree_start valid.body
      · by_cases within : m.opening.length ≤ i ∧ i ≤ m.opening.length + m.body.size
        · have at_ := each i within.1 within.2
          rw [if_neg here] at at_
          exact (inserted_eq_iff valid.body (place ▸ here)).1 at_
        · exact agree_outside valid.body within
    exact ⟨start, fun i => (agree i).1, fun i => (agree i).2⟩
  · rintro ⟨plain, opens, closes⟩
    refine weave_congr fun i low _ => ?_
    by_cases here : m.opening.length = i
    · subst here
      rw [if_pos rfl]
      exact (inserted_header_iff valid.body place).2 plain
    · rw [if_neg here]
      exact (inserted_eq_iff valid.body (place ▸ here)).2 ⟨opens i, closes i⟩

end Exactly

section Misplaced

variable {development : Bool} {id : JsString} {m : Module}

theorem textAt_head {a : List Insertion} {c : CodeUnit} (all : ∀ x ∈ a, x.2.head? = some c) (i : Nat) :
    ∀ u ∈ (textAt a i).head?, u = c := by
  intro u first
  unfold textAt at first
  induction a with
  | nil => cases first
  | cons x a ih =>
    have later := ih fun y member => all y (List.mem_cons_of_mem _ member)
    by_cases here : x.1 = i
    · rw [List.filter_cons_of_pos (by simpa using here), List.flatMap_cons, List.head?_append,
        all x List.mem_cons_self] at first
      exact (Option.some.inj first).symm
    · rw [List.filter_cons_of_neg (by simpa using here)] at first
      exact later first

theorem openers_head (p : Nat) (node : Node) : ∀ x ∈ openers p node, x.2.head? = some 95 := by
  induction node generalizing p with
  | text => exact fun x member => by cases member
  | join left right ihl ihr => exact List.forall_mem_append.2 ⟨ihl _, ihr _⟩
  | paren before inner after ih => exact ih _
  | call callee gap before first rest ihf ihr => exact List.forall_mem_append.2 ⟨ihf _, ihr _⟩
  | awaitUsing declarations ih => exact ih _
  | await_ gap argument ih =>
    exact List.forall_mem_cons.2 ⟨rfl, List.forall_mem_cons.2 ⟨rfl, ih _⟩⟩
  | forAwait head gap right after body ihh ihr ihb =>
    exact List.forall_mem_cons.2 ⟨rfl,
      List.forall_mem_append.2 ⟨ihh _, List.forall_mem_append.2 ⟨ihr _, ihb _⟩⟩⟩

variable (development id) in
theorem entering_head (p : Nat) (node : Node) : ∀ x ∈ entering development id p node,
    x.2.head? = some 41 := by
  have gate : (gateCloser development id ++ closer).head? = some 41 := by cases development <;> rfl
  induction node generalizing p with
  | text => exact fun x member => by cases member
  | join left right ihl ihr => exact List.forall_mem_append.2 ⟨ihl _, ihr _⟩
  | paren before inner after ih => exact ih _
  | call callee gap before first rest ihf ihr => exact List.forall_mem_append.2 ⟨ihf _, ihr _⟩
  | awaitUsing declarations ih => exact ih _
  | await_ gap argument ih => exact List.forall_mem_cons.2 ⟨gate, ih _⟩
  | forAwait head gap right after body ihh ihr ihb =>
    exact List.forall_mem_cons.2 ⟨rfl,
      List.forall_mem_append.2 ⟨ihh _, List.forall_mem_append.2 ⟨ihr _, ihb _⟩⟩⟩

variable (development id) in
/-- What is inserted begins with an underscore, a bracket or, with the header, a slash. -/
theorem inserted_head (i : Nat) : ∀ u ∈ (inserted development id m i).head?, u = 95 ∨ u = 41 ∨
    insertionPoint m.text = i ∧ u = 47 := by
  intro u first
  have opens := textAt_head (fun x member => openers_head m.opening.length m.body x
    (List.mem_reverse.1 member)) i
  have closes := textAt_head (entering_head development id m.opening.length m.body) i
  unfold inserted at first
  rw [List.head?_append, List.head?_append, Option.mem_def, Option.or_eq_some_iff,
    Option.or_eq_some_iff] at first
  rcases first with (first | ⟨-, first⟩) | ⟨-, first⟩
  · exact .inl (opens u first)
  · by_cases here : insertionPoint m.text = i
    · rw [if_pos here] at first
      exact .inr (.inr ⟨here, (Option.some.inj first).symm⟩)
    · rw [if_neg here] at first
      cases first
  · exact .inr (.inl (closes u first))

/-- A header that is not where it belongs does not make up for it. -/
theorem output_ne_wrapped (valid : m.Valid) (broken : ¬ m.Broken)
    (unmarked : includes m.text marker = false) :
    weave (inserted development id m) 0 m.text ≠ wrapped development id m := by
  intro same
  obtain ⟨line, terminator, known, other⟩ : ∃ line terminator, m.hashbang = some (line, terminator) ∧
      terminator.getLast? ≠ some 10 := by
    simpa only [Module.Broken, not_forall, exists_prop] using broken
  obtain ⟨⟨rest, starts⟩, -⟩ := valid.line line terminator known
  have opening : m.opening = js "#!" ++ (rest ++ terminator) := by
    unfold Module.opening
    rw [known, ← starts]
    exact List.append_assoc ..
  have long : 0 < m.opening.length := by
    rw [opening]
    exact Nat.succ_pos _
  rcases insertionPoint_other valid known other with zero | ⟨k, place, after, feed⟩
  · have first := prefix_weave (inserted development id m) 0 m.text
    have only : inserted development id m 0 = header := by
      rw [inserted, if_pos zero, textAt_none fun x member same => by
          have range := openers_range valid.body x (List.mem_reverse.1 member)
          omega,
        textAt_none fun x member same => by have range := entering_range x member; omega]
      exact List.append_nil header
    rw [same, only, wrapped, opening] at first
    obtain ⟨more, first⟩ := first
    cases (List.cons.inj first).1
  · have silent : ∀ i, 0 ≤ i → i < 0 + m.opening.length → inserted development id m i = [] :=
      fun i _ high => inserted_before valid.body (by omega) (by omega)
    rw [Module.text, weave_leading silent, wrapped, List.append_assoc, List.append_cancel_left_eq,
      Nat.zero_add] at same
    have heads := inserted_head development id (m := m)
    let z := [10] ++ importLine ++ [10] ++ (lower development id m.body).render
    have parts : header ++ (lower development id m.body).render = js "/" ++
      (js "* @do-runtime-gated *" ++ (js "/" ++ z)) := by
      unfold header
      rw [List.append_assoc, List.append_assoc, List.append_assoc]
      rfl
    rw [parts] at same
    obtain ⟨one, first, same⟩ := prefix_of_weave (fun i low high u at_ => by
      change i < m.opening.length + 1 at high
      rcases heads i u at_ with rfl | rfl | ⟨here, rfl⟩
      · decide
      · decide
      · omega) same
    obtain ⟨two, second, same⟩ := prefix_of_weave (fun i low high u at_ => by
      rcases heads i u at_ with rfl | rfl | ⟨here, rfl⟩ <;> decide) same
    obtain ⟨three, third, same⟩ := prefix_of_weave (fun i low high u at_ => by
      change m.opening.length + 1 + 21 ≤ i at low
      change i < m.opening.length + 1 + 21 + 1 at high
      rcases heads i u at_ with rfl | rfl | ⟨here, rfl⟩
      · decide
      · decide
      · have last : k = m.opening.length + 21 := by omega
        rw [Module.text, first, second, last, List.getElem?_append_right (by omega),
          Nat.add_sub_cancel_left] at feed
        cases feed) same
    have found : includes m.text marker = true := by
      refine decide_eq_true ⟨m.opening, three, ?_⟩
      rw [Module.text, first, second, third, List.append_assoc]
      rfl
    rw [unmarked] at found
    cases found

end Misplaced

section Transform

variable {development : Bool} {id : JsString} {m : Module} {filter : JsString → Bool}

/-- Nothing is awaited, or no two openers and no header meet where their order shows. -/
def Module.Nests (development : Bool) (m : Module) : Prop :=
  m.body.hasAwait = true → m.Broken ∧ m.body.startsWithAwait = false ∧ m.body.nests development = true

theorem transform_none (none_ : m.body.hasAwait = false) : transform filter development id m = none := by
  unfold transform
  rw [none_, Bool.not_false, if_pos rfl, ite_self]

/-- `let y = await x`, below a line that begins with `#!`. -/
def awaitedModule : Module :=
  { hashbang := some (js "#!/usr/bin/env node", [10])
    body := .join (.text (js "let y = ")) (.await_ [32] (.text (js "x"))) }

theorem awaitedModule_valid : awaitedModule.Valid where
  body := ⟨trivial, ⟨trivial, by decide⟩, by decide⟩
  line := by
    intro line terminator known
    obtain ⟨rfl, rfl⟩ := Prod.mk.inj (Option.some.inj known)
    decide
  plain := fun none_ => by cases none_

/-- `let y = await await x`. -/
def awaitedTwice : Module :=
  { hashbang := none, body := .join (.text (js "let y = ")) (.await_ [32] (.await_ [32] (.text (js "x")))) }

end Transform

end DoRuntime.Vite
