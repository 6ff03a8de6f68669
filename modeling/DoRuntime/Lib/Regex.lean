import Mathlib

/-- Backtracking regular expressions over any alphabet, with matches in priority order. -/
inductive Pattern (α : Type)
  | empty
  | one (accepts : α → Bool)
  | seq (first second : Pattern α)
  | alt (first second : Pattern α)
  | star (greedy : Bool) (body : Pattern α)
  | group (index : Nat) (body : Pattern α)
  | atStart
  | atEnd
  | boundary (isWord : α → Bool)

namespace Pattern

variable {α : Type}

/-- A place in a text: what lies before it, nearest first, what lies after it, and the groups
    captured on the way there, latest first. -/
structure Cursor (α : Type) where
  before : List α
  after : List α
  groups : List (Nat × List α)

namespace Cursor

def step (c : Cursor α) (accepts : α → Bool) : List (Cursor α) :=
  match c.after with
  | [] => []
  | x :: rest => if accepts x then [{ c with before := x :: c.before, after := rest }] else []

def consumed (start finish : Cursor α) : Nat := start.after.length - finish.after.length

def capture (start finish : Cursor α) (index : Nat) : Cursor α :=
  { finish with groups := (index, start.after.take (start.consumed finish)) :: finish.groups }

def group (c : Cursor α) (index : Nat) : Option (List α) :=
  (c.groups.find? (·.1 = index)).map (·.2)

/-- Whether exactly one side of the cursor is a word character. -/
def onBoundary (c : Cursor α) (isWord : α → Bool) : Bool :=
  (c.before.head?.any isWord) != (c.after.head?.any isWord)

end Cursor

/-- Repeats a step that must make progress, longest repetition first when greedy. -/
def iterate (greedy : Bool) (step : Cursor α → List (Cursor α)) : Nat → Cursor α → List (Cursor α)
  | 0, c => [c]
  | fuel + 1, c =>
    let longer := ((step c).filter (·.after.length < c.after.length)).flatMap (iterate greedy step fuel)
    if greedy then longer ++ [c] else c :: longer

def run : Pattern α → Cursor α → List (Cursor α)
  | empty, c => [c]
  | one accepts, c => c.step accepts
  | seq first second, c => (run first c).flatMap (run second)
  | alt first second, c => run first c ++ run second c
  | star greedy body, c => iterate greedy (run body) c.after.length c
  | group index body, c => (run body c).map fun finish => c.capture finish index
  | atStart, c => if c.before.isEmpty then [c] else []
  | atEnd, c => if c.after.isEmpty then [c] else []
  | boundary isWord, c => if c.onBoundary isWord then [c] else []

def opt (body : Pattern α) : Pattern α := alt body empty
def plus (greedy : Bool) (body : Pattern α) : Pattern α := seq body (star greedy body)

def seqAll : List (Pattern α) → Pattern α
  | [] => empty
  | [last] => last
  | first :: rest => seq first (seqAll rest)

/-- The preferred match at a place. -/
def matchAt (p : Pattern α) (before after : List α) : Option (Cursor α) :=
  (run p { before, after, groups := [] }).head?

def matchLength (p : Pattern α) (before after : List α) : Option Nat :=
  (matchAt p before after).map fun finish => after.length - finish.after.length

/-- The leftmost match at or after a place. -/
def search (p : Pattern α) : List α → List α → Option (Cursor α)
  | before, [] => matchAt p before []
  | before, x :: rest =>
    match matchAt p before (x :: rest) with
    | some found => some found
    | none => search p (x :: before) rest

def exec (p : Pattern α) (text : List α) : Option (Cursor α) := search p [] text

def test (p : Pattern α) (text : List α) : Bool := (exec p text).isSome

/-- Replaces every match from a place on; `skip` units still belong to the match before it. -/
def replaceFrom (p : Pattern α) (replacement : List α) : List α → Nat → List α → List α
  | before, _, [] => if (matchAt p before []).isSome then replacement else []
  | before, skip + 1, x :: rest => replaceFrom p replacement (x :: before) skip rest
  | before, 0, x :: rest =>
    match matchLength p before (x :: rest) with
    | some (length + 1) => replacement ++ replaceFrom p replacement (x :: before) length rest
    | some 0 => replacement ++ x :: replaceFrom p replacement (x :: before) 0 rest
    | none => x :: replaceFrom p replacement (x :: before) 0 rest

def replaceAll (p : Pattern α) (replacement text : List α) : List α :=
  replaceFrom p replacement [] 0 text

/-- The texts of the non-empty matches from a place on, left to right. -/
def matchesFrom (p : Pattern α) : List α → Nat → List α → List (List α)
  | _, _, [] => []
  | before, skip + 1, x :: rest => matchesFrom p (x :: before) skip rest
  | before, 0, x :: rest =>
    match matchLength p before (x :: rest) with
    | some (length + 1) => (x :: rest.take length) :: matchesFrom p (x :: before) length rest
    | _ => matchesFrom p (x :: before) 0 rest

def matchAll (p : Pattern α) (text : List α) : List (List α) := matchesFrom p [] 0 text

/-- A pattern that never looks back. -/
def Forward : Pattern α → Prop
  | empty | one _ | atEnd => True
  | seq first second | alt first second => first.Forward ∧ second.Forward
  | star _ body | group _ body => body.Forward
  | atStart | boundary _ => False

theorem iterate_stuck (greedy : Bool) (step : Cursor α → List (Cursor α)) (fuel : Nat) {c : Cursor α}
    (done : c.after.length = 0) : iterate greedy step fuel c = [c] := by
  cases fuel with
  | zero => rfl
  | succ fuel =>
    have stuck : (step c).filter (·.after.length < c.after.length) = [] := by simp [done]
    cases greedy <;> simp [iterate, stuck]

/-- Any fuel that covers the rest of the text gives the same matches. -/
theorem iterate_fuel (greedy : Bool) (step : Cursor α → List (Cursor α)) (n m : Nat) (c : Cursor α)
    (hn : c.after.length ≤ n) (hm : c.after.length ≤ m) :
    iterate greedy step n c = iterate greedy step m c := by
  induction n generalizing m c with
  | zero =>
    have done : c.after.length = 0 := by omega
    rw [iterate_stuck greedy step 0 done, iterate_stuck greedy step m done]
  | succ n ih =>
    cases m with
    | zero =>
      have done : c.after.length = 0 := by omega
      rw [iterate_stuck greedy step (n + 1) done, iterate_stuck greedy step 0 done]
    | succ m =>
      have same : ∀ next ∈ (step c).filter (·.after.length < c.after.length),
          iterate greedy step n next = iterate greedy step m next := by
        intro next member
        have shorter := (List.mem_filter.mp member).2
        simp only [decide_eq_true_eq] at shorter
        exact ih m next (by omega) (by omega)
      simp only [iterate, List.flatMap_congr same]

/-- One turn of a repetition, then the rest of it. -/
theorem run_star (greedy : Bool) (body : Pattern α) (c : Cursor α) :
    run (star greedy body) c =
      let longer := ((run body c).filter (·.after.length < c.after.length)).flatMap
        (run (star greedy body))
      if greedy then longer ++ [c] else c :: longer := by
  have unfolded : run (star greedy body) c = iterate greedy (run body) (c.after.length + 1) c :=
    iterate_fuel greedy (run body) c.after.length (c.after.length + 1) c (by omega) (by omega)
  have same : ∀ next ∈ (run body c).filter (·.after.length < c.after.length),
      iterate greedy (run body) c.after.length next = run (star greedy body) next := by
    intro next member
    have shorter := (List.mem_filter.mp member).2
    simp only [decide_eq_true_eq] at shorter
    exact iterate_fuel greedy (run body) c.after.length next.after.length next (by omega) (by omega)
  rw [unfolded]
  simp only [iterate, List.flatMap_congr same]

theorem flatMap_after {l m : List (Cursor α)} {f g : Cursor α → List (Cursor α)}
    (same : l.map (·.after) = m.map (·.after))
    (agree : ∀ x ∈ l, ∀ y, x.after = y.after → (f x).map (·.after) = (g y).map (·.after)) :
    (l.flatMap f).map (·.after) = (m.flatMap g).map (·.after) := by
  induction l generalizing m with
  | nil =>
    cases m with
    | nil => rfl
    | cons y m => simp at same
  | cons x l ih =>
    cases m with
    | nil => simp at same
    | cons y m =>
      simp only [List.map_cons, List.cons.injEq] at same
      simp only [List.flatMap_cons, List.map_append]
      rw [agree x (by simp) y same.1, ih same.2 fun x member => agree x (by simp [member])]

theorem filter_after {l m : List (Cursor α)} (p : List α → Bool)
    (same : l.map (·.after) = m.map (·.after)) :
    (l.filter fun c => p c.after).map (·.after) = (m.filter fun c => p c.after).map (·.after) := by
  have pushed (k : List (Cursor α)) :
      (k.filter fun c => p c.after).map (·.after) = (k.map (·.after)).filter p := by
    rw [List.filter_map]
    rfl
  rw [pushed l, pushed m, same]

theorem iterate_forward (greedy : Bool) {step : Cursor α → List (Cursor α)}
    (forward : ∀ c d : Cursor α, c.after = d.after → (step c).map (·.after) = (step d).map (·.after))
    (fuel : Nat) (c d : Cursor α) (same : c.after = d.after) :
    (iterate greedy step fuel c).map (·.after) = (iterate greedy step fuel d).map (·.after) := by
  induction fuel generalizing c d with
  | zero => simp [iterate, same]
  | succ fuel ih =>
    have shorter := filter_after (fun after => decide (after.length < d.after.length))
      (forward c d same)
    have longer := flatMap_after (f := iterate greedy step fuel) (g := iterate greedy step fuel) shorter
      fun x _ y equal => ih x y equal
    cases greedy <;> simp only [iterate, same, Bool.false_eq_true, if_true, if_false, List.map_append,
      List.map_cons, List.map_nil, longer]

/-- What a pattern that never looks back leaves of a text depends on the text alone. -/
theorem run_forward {p : Pattern α} (forward : p.Forward) (c d : Cursor α) (same : c.after = d.after) :
    (run p c).map (·.after) = (run p d).map (·.after) := by
  induction p generalizing c d with
  | empty => simp [run, same]
  | one accepts =>
    simp only [run, Cursor.step, same]
    cases d.after with
    | nil => rfl
    | cons x rest => cases taken : accepts x <;> simp [taken]
  | seq first second ih_first ih_second =>
    exact flatMap_after (ih_first forward.1 c d same) fun x _ y equal => ih_second forward.2 x y equal
  | alt first second ih_first ih_second =>
    simp only [run, List.map_append, ih_first forward.1 c d same, ih_second forward.2 c d same]
  | star greedy body ih =>
    simp only [run, same]
    exact iterate_forward greedy (ih forward) d.after.length c d same
  | group index body ih =>
    simp only [run, List.map_map]
    exact ih forward c d same
  | atStart => exact forward.elim
  | atEnd => cases left : d.after <;> simp [run, same, left]
  | boundary _ => exact forward.elim

theorem matchLength_forward {p : Pattern α} (forward : p.Forward) (before before' after : List α) :
    matchLength p before after = matchLength p before' after := by
  have same := run_forward forward ⟨before, after, []⟩ ⟨before', after, []⟩ rfl
  have heads := congrArg List.head? same
  simp only [List.head?_map] at heads
  have lengths := congrArg (Option.map fun rest : List α => after.length - rest.length) heads
  simp only [Option.map_map] at lengths
  exact lengths

theorem run_seq (first second : Pattern α) (c : Cursor α) :
    run (seq first second) c = (run first c).flatMap (run second) := rfl

theorem run_one_nil (accepts : α → Bool) (before : List α) (groups : List (Nat × List α)) :
    run (one accepts) ⟨before, [], groups⟩ = [] := rfl

theorem run_one_cons (accepts : α → Bool) (before rest : List α) (x : α) (groups : List (Nat × List α)) :
    run (one accepts) ⟨before, x :: rest, groups⟩ =
      if accepts x then [⟨x :: before, rest, groups⟩] else [] := rfl

/-- The preferred match of a greedy run over a class takes every unit of the class. -/
theorem head_star_class (accepts : α → Bool) (before after : List α) (groups : List (Nat × List α)) :
    ∃ others, run (star true (one accepts)) ⟨before, after, groups⟩ =
      ⟨(after.takeWhile accepts).reverse ++ before, after.dropWhile accepts, groups⟩ :: others := by
  induction after generalizing before with
  | nil => exact ⟨[], by simp [run_star, run_one_nil]⟩
  | cons x rest ih =>
    rw [run_star, run_one_cons]
    cases taken : accepts x with
    | false => exact ⟨[], by simp [taken]⟩
    | true =>
      obtain ⟨others, same⟩ := ih (x :: before)
      exact ⟨others ++ [⟨before, x :: rest, groups⟩], by simp [taken, same]⟩

/-- A search finds something where some place of the text matches. -/
theorem search_isSome {p : Pattern α} {before u v : List α}
    (found : (matchAt p (u.reverse ++ before) v).isSome) : (search p before (u ++ v)).isSome := by
  induction u generalizing before with
  | nil =>
    cases v with
    | nil => exact found
    | cons x v =>
      obtain ⟨finish, same⟩ := Option.isSome_iff_exists.mp found
      simp only [List.reverse_nil, List.nil_append] at same
      simp [search, same]
  | cons x u ih =>
    simp only [List.cons_append, search]
    split
    · rfl
    · apply ih
      simpa using found

theorem matchAt_isSome_forward {p : Pattern α} (forward : p.Forward) (before before' after : List α) :
    (matchAt p before after).isSome = (matchAt p before' after).isSome := by
  have same := matchLength_forward forward before before' after
  have known := congrArg Option.isSome same
  simp only [matchLength, Option.isSome_map] at known
  exact known

theorem replaceFrom_forward {p : Pattern α} (forward : p.Forward) (replacement : List α)
    (before before' : List α) (skip : Nat) (s : List α) :
    replaceFrom p replacement before skip s = replaceFrom p replacement before' skip s := by
  induction s generalizing before before' skip with
  | nil => simp only [replaceFrom, matchAt_isSome_forward forward before before']
  | cons x rest ih =>
    cases skip with
    | succ skip => exact ih (x :: before) (x :: before') skip
    | zero =>
      simp only [replaceFrom, matchLength_forward forward before before']
      split
      · rw [ih (x :: before) (x :: before')]
      · rw [ih (x :: before) (x :: before')]
      · rw [ih (x :: before) (x :: before')]

theorem matchesFrom_forward {p : Pattern α} (forward : p.Forward) (before before' : List α)
    (skip : Nat) (s : List α) : matchesFrom p before skip s = matchesFrom p before' skip s := by
  induction s generalizing before before' skip with
  | nil => rfl
  | cons x rest ih =>
    cases skip with
    | succ skip => exact ih (x :: before) (x :: before') skip
    | zero =>
      simp only [matchesFrom, matchLength_forward forward before before']
      split
      · rw [ih (x :: before) (x :: before')]
      · rw [ih (x :: before) (x :: before')]

theorem matchesFrom_skip (p : Pattern α) (before taken rest : List α) :
    matchesFrom p before taken.length (taken ++ rest) =
      matchesFrom p (taken.reverse ++ before) 0 rest := by
  induction taken generalizing before with
  | nil => rfl
  | cons x taken ih => simp [matchesFrom, ih]

/-- The texts that a pattern takes, wherever it stands. -/
def language : Pattern α → Language α
  | empty | atStart | atEnd | boundary _ => 1
  | one accepts => {taken | ∃ x, accepts x = true ∧ taken = [x]}
  | seq first second => first.language * second.language
  | alt first second => first.language + second.language
  | star _ body => KStar.kstar body.language
  | group _ body => body.language

/-- From the one place to the other the text is taken. -/
def Cursor.Takes (c finish : Cursor α) (taken : List α) : Prop :=
  c.after = taken ++ finish.after ∧ finish.before = taken.reverse ++ c.before

theorem Cursor.Takes.append {c mid finish : Cursor α} {first second : List α} (one : c.Takes mid first)
    (two : mid.Takes finish second) : c.Takes finish (first ++ second) := by
  constructor
  · rw [one.1, two.1, List.append_assoc]
  · rw [two.2, one.2, List.reverse_append, List.append_assoc]

theorem iterate_language {greedy : Bool} {step : Cursor α → List (Cursor α)} {l : Language α}
    (steps : ∀ c, ∀ finish ∈ step c, ∃ taken ∈ l, c.Takes finish taken) (fuel : Nat) {c finish : Cursor α}
    (member : finish ∈ iterate greedy step fuel c) : ∃ taken ∈ KStar.kstar l, c.Takes finish taken := by
  have stays : ∀ c : Cursor α, ∃ taken ∈ KStar.kstar l, c.Takes c taken :=
    fun c => ⟨[], Language.nil_mem_kstar l, rfl, rfl⟩
  induction fuel generalizing c with
  | zero =>
    rw [iterate, List.mem_singleton] at member
    rw [member]
    exact stays c
  | succ fuel ih =>
    have cases : finish ∈ ((step c).filter (·.after.length < c.after.length)).flatMap (iterate greedy step fuel) ∨
        finish = c := by
      cases greedy
      · exact (List.mem_cons.1 member).symm
      · simpa [iterate] using member
    rcases cases with more | rfl
    · obtain ⟨mid, once, rest⟩ := List.mem_flatMap.1 more
      obtain ⟨first, fits, one⟩ := steps c mid (List.mem_filter.1 once).1
      obtain ⟨others, all, two⟩ := ih rest
      refine ⟨first ++ others, ?_, one.append two⟩
      rw [← Language.one_add_self_mul_kstar_eq_kstar]
      exact .inr (Language.append_mem_mul fits all)
    · exact stays finish

/-- A match takes a text of the pattern's language. -/
theorem run_language {p : Pattern α} {c finish : Cursor α} (member : finish ∈ run p c) :
    ∃ taken ∈ p.language, c.Takes finish taken := by
  induction p generalizing c finish with
  | empty =>
    rw [run, List.mem_singleton] at member
    exact ⟨[], rfl, by rw [member]; exact ⟨rfl, rfl⟩⟩
  | one accepts =>
    obtain ⟨before, after, groups⟩ := c
    cases after with
    | nil => cases member
    | cons x rest =>
      rw [run_one_cons] at member
      split at member
      · rename_i taken
        rw [List.mem_singleton] at member
        exact ⟨[x], ⟨x, taken, rfl⟩, by rw [member]; exact ⟨rfl, rfl⟩⟩
      · cases member
  | seq first second ih_first ih_second =>
    obtain ⟨mid, one, two⟩ := List.mem_flatMap.1 member
    obtain ⟨left, fits, one⟩ := ih_first one
    obtain ⟨right, fits', two⟩ := ih_second two
    exact ⟨left ++ right, Language.append_mem_mul fits fits', one.append two⟩
  | alt first second ih_first ih_second =>
    rcases List.mem_append.1 member with left | right
    · obtain ⟨taken, fits, takes⟩ := ih_first left
      exact ⟨taken, .inl fits, takes⟩
    · obtain ⟨taken, fits, takes⟩ := ih_second right
      exact ⟨taken, .inr fits, takes⟩
  | star greedy body ih => exact iterate_language (fun c finish => ih) c.after.length member
  | group index body ih =>
    obtain ⟨mid, inner, rfl⟩ := List.mem_map.1 member
    obtain ⟨taken, fits, takes⟩ := ih inner
    exact ⟨taken, fits, takes⟩
  | atStart =>
    rw [run] at member
    split at member
    · rw [List.mem_singleton] at member
      exact ⟨[], rfl, by rw [member]; exact ⟨rfl, rfl⟩⟩
    · cases member
  | atEnd =>
    rw [run] at member
    split at member
    · rw [List.mem_singleton] at member
      exact ⟨[], rfl, by rw [member]; exact ⟨rfl, rfl⟩⟩
    · cases member
  | boundary isWord =>
    rw [run] at member
    split at member
    · rw [List.mem_singleton] at member
      exact ⟨[], rfl, by rw [member]; exact ⟨rfl, rfl⟩⟩
    · cases member

/-- A pattern at the end of a text takes all of it. -/
theorem run_whole {p : Pattern α} {c finish : Cursor α} (member : finish ∈ run (seq p atEnd) c) :
    c.after ∈ p.language ∧ finish ∈ run p c := by
  obtain ⟨mid, one, ended⟩ := List.mem_flatMap.1 member
  obtain ⟨taken, fits, after, _⟩ := run_language one
  rw [run] at ended
  split at ended
  case isFalse => cases ended
  case isTrue done =>
    rw [List.isEmpty_iff.1 done, List.append_nil] at after
    rw [List.mem_singleton] at ended
    exact ⟨by rwa [after], by rwa [ended]⟩

/-- What a pattern captures at the end of a text. -/
theorem run_captured {p name : Pattern α} {index : Nat} {c finish : Cursor α}
    (member : finish ∈ run (seq p (seq (group index name) atEnd)) c) :
    ∃ taken ∈ p.language, ∃ last ∈ name.language, c.after = taken ++ last ∧ finish.group index = some last := by
  obtain ⟨mid, one, rest⟩ := List.mem_flatMap.1 member
  obtain ⟨taken, fits, after, _⟩ := run_language one
  obtain ⟨named, two, ended⟩ := List.mem_flatMap.1 rest
  obtain ⟨inner, inside, rfl⟩ := List.mem_map.1 two
  obtain ⟨last, fits', after', _⟩ := run_language inside
  rw [run] at ended
  split at ended
  case isFalse => cases ended
  case isTrue done =>
    rw [List.mem_singleton] at ended
    have none : inner.after = [] := List.isEmpty_iff.1 done
    rw [none, List.append_nil] at after'
    refine ⟨taken, fits, last, fits', by rw [after, after'], ?_⟩
    rw [ended]
    simp [Cursor.capture, Cursor.group, Cursor.consumed, after', none]

theorem search_anchored {p : Pattern α} {before after : List α} (inside : before ≠ []) :
    search (seq atStart p) before after = none := by
  have never : ∀ after, matchAt (seq atStart p) before after = none := by
    intro after
    cases before with
    | nil => exact absurd rfl inside
    | cons x before => rfl
  induction after generalizing before with
  | nil => exact never []
  | cons x rest ih =>
    rw [search, never]
    exact ih (List.cons_ne_nil x before) fun _ => rfl

/-- A search for an anchored pattern looks at the start alone. -/
theorem exec_anchored (p : Pattern α) (text : List α) :
    exec (seq atStart p) text = (run p { before := [], after := text, groups := [] }).head? := by
  have here : ∀ text, matchAt (seq atStart p) [] text = (run p { before := [], after := text, groups := [] }).head? := by
    intro text
    simp [matchAt, run]
  cases text with
  | nil => exact here []
  | cons x rest =>
    rw [exec, search, here]
    cases (run p { before := [], after := x :: rest, groups := [] }).head? with
    | some found => rfl
    | none => exact search_anchored (List.cons_ne_nil x [])

end Pattern
