import DoRuntime.Sql.TokenShape

namespace DoRuntime.Sql

open DoRuntime.Js DoRuntime.Js.Re Pattern

/-- How many units after `u` a literal or comment match begun by then still covers, of a text
    `u ++ v` whose first `skip` units one already covers. -/
def skipAfter : JsString → JsString → Nat → Nat
  | [], _, skip => skip
  | _ :: u, v, skip + 1 => skipAfter u v skip
  | c :: u, v, 0 => skipAfter u v (((openAt (c :: u ++ v)).getD 1) - 1)

/-- What blanking leaves of `u` there. -/
def blanked : JsString → JsString → Nat → JsString
  | [], _, _ => []
  | _ :: u, v, skip + 1 => blanked u v skip
  | c :: u, v, 0 =>
    match openAt (c :: u ++ v) with
    | some (length + 1) => js " " ++ blanked u v length
    | some 0 => js " " ++ c :: blanked u v 0
    | none => c :: blanked u v 0

/-- What blanking leaves of a text whose first `skip` units a match already covers. -/
def blankFrom (skip : Nat) (s : JsString) : JsString := replaceFrom notCode (js " ") [] skip s

/-- A token where the name check meets it. -/
structure Placed where
  token : Token
  rest : JsString
  /-- Units at its start that a literal or comment match of the name check covers. -/
  skip : Nat

def place : Nat → Nat → JsString → List Placed
  | 0, _, _ => []
  | fuel + 1, skip, s =>
    match nextToken s with
    | none => []
    | some (kind, length) =>
      { token := { kind, text := s.take length }, rest := s.drop length, skip } ::
        place fuel (skipAfter (s.take length) (s.drop length) skip) (s.drop length)

/-- The tokens of a query against the matches the name check blanks. -/
def placed (query : JsString) : List Placed := place query.length 0 query

/-- A literal or comment match begins strictly inside the token, which is no literal or comment. -/
def Placed.Misopens (p : Placed) : Prop :=
  p.token.kind ≠ .string ∧ p.token.kind ≠ .comment ∧ p.token.kind ≠ .blob ∧
    ∃ front back, p.token.text = front ++ back ∧ front ≠ [] ∧ back ≠ [] ∧
      skipAfter front (back ++ p.rest) p.skip = 0 ∧ openAt (back ++ p.rest) ≠ none

/-- An identifier whose name begins with the reserved prefix, in any case. -/
def Token.Reserved (t : Token) : Prop :=
  ∃ name, t.name = some name ∧ toLowerCase (name.take 4) = js "_cf_"

theorem place_tokens (fuel skip : Nat) (s : JsString) :
    (place fuel skip s).map (·.token) = tokenize fuel s := by
  induction fuel generalizing skip s with
  | zero => rfl
  | succ fuel ih =>
    simp only [place, tokenize]
    cases nextToken s with
    | none => rfl
    | some found =>
      obtain ⟨kind, length⟩ := found
      simp [ih]

theorem blankFrom_nil (skip : Nat) : blankFrom skip [] = [] := by
  cases skip <;> rfl

theorem blankFrom_skip (skip : Nat) (c : CodeUnit) (s : JsString) :
    blankFrom (skip + 1) (c :: s) = blankFrom skip s :=
  replaceFrom_forward notCode_forward _ [c] [] skip s

theorem blankFrom_cons (c : CodeUnit) (s : JsString) :
    blankFrom 0 (c :: s) =
      match openAt (c :: s) with
      | some (length + 1) => js " " ++ blankFrom length s
      | some 0 => js " " ++ c :: blankFrom 0 s
      | none => c :: blankFrom 0 s := by
  have forward (skip : Nat) : replaceFrom notCode (js " ") [c] skip s = blankFrom skip s :=
    replaceFrom_forward notCode_forward _ [c] [] skip s
  rw [blankFrom, replaceFrom, openAt_eq]
  cases openAt (c :: s) with
  | none => simp only [forward]
  | some length => cases length <;> simp only [forward]

theorem blankFrom_append (u v : JsString) (skip : Nat) :
    blankFrom skip (u ++ v) = blanked u v skip ++ blankFrom (skipAfter u v skip) v := by
  induction u generalizing skip with
  | nil => rfl
  | cons c u ih =>
    cases skip with
    | succ skip =>
      rw [List.cons_append, blankFrom_skip]
      exact ih skip
    | zero =>
      rw [List.cons_append, blankFrom_cons]
      simp only [blanked, skipAfter, List.cons_append]
      cases opened : openAt (c :: (u ++ v)) with
      | none => simpa using ih 0
      | some length =>
        cases length with
        | zero => simpa using ih 0
        | succ length => simpa using ih length

theorem skipAfter_append (a b v : JsString) (skip : Nat) :
    skipAfter (a ++ b) v skip = skipAfter b v (skipAfter a (b ++ v) skip) := by
  induction a generalizing skip with
  | nil => rfl
  | cons c a ih =>
    cases skip with
    | succ skip => exact ih skip
    | zero => simp only [List.cons_append, skipAfter, List.append_assoc, ih]

/-- A match that covers all of `u` leaves nothing of it. -/
theorem skipAfter_covered {u : JsString} (v : JsString) {skip : Nat} (covers : u.length ≤ skip) :
    skipAfter u v skip = skip - u.length ∧ blanked u v skip = [] := by
  induction u generalizing skip with
  | nil => exact ⟨rfl, rfl⟩
  | cons c u ih =>
    cases skip with
    | zero => simp at covers
    | succ skip =>
      obtain ⟨left, nothing⟩ := ih (by simpa using covers)
      exact ⟨by simp [skipAfter, left], by simp [blanked, nothing]⟩

theorem opened_covers {u v : JsString} {length : Nat} (present : u ≠ [])
    (opened : openAt (u ++ v) = some length) (covers : u.length ≤ length) :
    skipAfter u v 0 = length - u.length ∧ blanked u v 0 = js " " := by
  cases u with
  | nil => contradiction
  | cons c u =>
    cases length with
    | zero => simp at covers
    | succ length =>
      have tail_covers : u.length ≤ length := by simpa using covers
      obtain ⟨left, nothing⟩ := skipAfter_covered v tail_covers
      constructor
      · simp only [skipAfter, opened, Option.getD_some, Nat.add_sub_cancel, left, List.length_cons]
        omega
      · simp only [blanked, opened, nothing, List.append_nil]

/-- A token no match begins inside is left as it is. -/
theorem code_kept {a b rest : JsString}
    (start : skipAfter a (b ++ rest) 0 = 0)
    (quiet : ∀ front back, a ++ b = front ++ back → back ≠ [] → skipAfter front (back ++ rest) 0 = 0 →
      openAt (back ++ rest) = none) :
    skipAfter b rest 0 = 0 ∧ blanked b rest 0 = b := by
  induction b generalizing a with
  | nil => exact ⟨rfl, rfl⟩
  | cons c b ih =>
    have closed := quiet a (c :: b) rfl (by simp) start
    have onward : skipAfter (a ++ [c]) (b ++ rest) 0 = 0 := by
      rw [skipAfter_append]
      simp only [List.cons_append, List.nil_append] at start closed ⊢
      rw [start]
      simp [skipAfter, closed]
    obtain ⟨left, kept⟩ := ih onward (by simpa using quiet)
    constructor
    · rw [skipAfter, closed]
      exact left
    · simp only [blanked, closed, kept]

theorem js_prefix : js "_cf_" = [95, 99, 102, 95] := rfl

theorem lowerUnit_underscore {c : Nat} (lower : lowerUnit c = 95) : c = 95 := by
  unfold lowerUnit at lower
  split at lower
  · rename_i upper
    simp only [isUpper, Bool.and_eq_true, decide_eq_true_eq] at upper
    omega
  · exact lower

theorem lowerUnit_letter {c : Nat} (lower : lowerUnit c = 99 ∨ lowerUnit c = 102) :
    isLetter c = true := by
  unfold lowerUnit at lower
  split at lower
  · rename_i upper
    simp [isLetter, upper]
  · rcases lower with rfl | rfl <;> decide

/-- A reserved name starts with the prefix, unit by unit. -/
theorem reserved_units {name : JsString} (reserved : toLowerCase (name.take 4) = js "_cf_") :
    ∃ c f tail, name = 95 :: c :: f :: 95 :: tail ∧ lowerUnit c = 99 ∧ lowerUnit f = 102 := by
  match name, reserved with
  | [], reserved => contradiction
  | [_], reserved => simp [toLowerCase, js_prefix] at reserved
  | [_, _], reserved => simp [toLowerCase, js_prefix] at reserved
  | [_, _, _], reserved => simp [toLowerCase, js_prefix] at reserved
  | a :: c :: f :: b :: tail, reserved =>
    simp only [toLowerCase, js_prefix, List.take_succ_cons, List.take_zero, List.map_cons, List.map_nil,
      List.cons.injEq, and_true] at reserved
    obtain ⟨first, second, third, fourth⟩ := reserved
    refine ⟨c, f, tail, ?_, second, third⟩
    rw [lowerUnit_underscore first, lowerUnit_underscore fourth]

theorem openAt_letter {c : Nat} (letter : isLetter c = true) (s : JsString) :
    openAt (c :: s) = none := by
  simp only [isLetter, isUpper, isLower, Bool.or_eq_true, Bool.and_eq_true, decide_eq_true_eq] at letter
  apply openAt_other <;> omega

/-- The name check reads a reserved name that it has not blanked. -/
theorem reserved_visible {name : JsString} (reserved : toLowerCase (name.take 4) = js "_cf_")
    (rest : JsString) : ∃ word ∈ words (blankFrom 0 (name ++ rest)), isAllowedName word = false := by
  obtain ⟨c, f, tail, rfl, lower_c, lower_f⟩ := reserved_units reserved
  have letter_c := lowerUnit_letter (.inl lower_c)
  have letter_f := lowerUnit_letter (.inr lower_f)
  have underscore (s : JsString) : openAt (95 :: s) = none :=
    openAt_other (by decide) (by decide) (by decide) s
  have part_c : isIdentifierPart c = true := by simp [isIdentifierPart, letter_c]
  have part_f : isIdentifierPart f = true := by simp [isIdentifierPart, letter_f]
  have part_u : isIdentifierPart 95 = true := by decide
  have start : isIdentifierStart 95 = true := by decide
  have kept : blankFrom 0 (95 :: c :: f :: 95 :: tail ++ rest) =
      95 :: c :: f :: 95 :: blankFrom 0 (tail ++ rest) := by
    simp only [List.cons_append, blankFrom_cons, underscore, openAt_letter letter_c,
      openAt_letter letter_f]
  rw [kept, words_cons, start, if_pos rfl]
  refine ⟨_, List.mem_cons_self, ?_⟩
  rw [List.takeWhile_cons_of_pos part_c, List.takeWhile_cons_of_pos part_f,
    List.takeWhile_cons_of_pos part_u]
  simp only [List.take_succ_cons, List.take_zero] at reserved
  simp [isAllowedName, reserved]

theorem ends_space (left : JsString) : Ends (left ++ js " ") := by
  intro c last
  have space : js " " = [32] := rfl
  rw [space, List.getLast?_concat] at last
  cases last
  rfl

theorem apart_of_ends {left : JsString} (ends : Ends left) : Apart left :=
  ⟨left, [], by simp, ends, by simp⟩

theorem ends_append {left front : JsString} (present : front ≠ []) (ends : Ends front) :
    Ends (left ++ front) := by
  intro c last
  rw [List.getLast?_append_of_ne_nil _ present] at last
  exact ends c last

theorem dead_drop {s : JsString} {kind : TokenKind} {length : Nat} (dead : Dead s)
    (next : nextToken s = some (kind, length)) : Dead (s.drop length) := by
  intro fuel t member
  apply dead (fuel + 1) t
  simp only [tokenize, next]
  exact List.mem_cons_of_mem _ member

theorem dead_nil : Dead [] := dead_of_none rfl

/-- What the walk over the tokens keeps of the blanked text, as long as no token misopens: the two
    scans agree, or the check has read a blob and the string after it as one literal. -/
inductive InStep (left : JsString) : Nat → JsString → Prop
  | aligned {s} : (s.head?.any isIdUnit = true → Apart left) → InStep left 0 s
  | inString {skip s} : 0 < skip → nextToken s = some (.string, skip) → Apart left → InStep left skip s
  | dead {skip s} : Dead s → InStep left skip s

theorem InStep.aligned_step {left text rest : JsString} {kind : TokenKind}
    (shape : Shape kind text rest) (straight : ¬ (Placed.mk ⟨kind, text⟩ rest 0).Misopens) :
    InStep (left ++ blanked text rest 0) (skipAfter text rest 0) rest := by
  cases shape with
  | code notString notComment notBlob present closed ends _ =>
    have quiet : ∀ front back, [] ++ text = front ++ back → back ≠ [] →
        skipAfter front (back ++ rest) 0 = 0 → openAt (back ++ rest) = none := by
      intro front back split some_left start
      by_contra opened
      by_cases first : front = []
      · subst first
        rw [List.nil_append, List.nil_append] at split
        rw [← split] at opened
        exact opened closed
      · exact straight ⟨notString, notComment, notBlob, front, back, split, first, some_left, start, opened⟩
    obtain ⟨done, kept⟩ := code_kept (a := []) (b := text) rfl quiet
    rw [done, kept]
    refine .aligned fun identifier => ?_
    rcases ends with stop | ⟨front, digits, split, some_front, front_ends, all⟩
    · rw [stop] at identifier
      contradiction
    · exact ⟨left ++ front, digits, by rw [split, List.append_assoc], ends_append some_front front_ends, all⟩
  | covered _ present opened =>
    obtain ⟨done, kept⟩ := opened_covers present opened (Nat.le_refl _)
    rw [done, kept, Nat.sub_self]
    exact .aligned fun _ => apart_of_ends (ends_space left)
  | @blob c literal _ closed opened present =>
    obtain ⟨done, kept⟩ := opened_covers present opened (Nat.le_refl _)
    rw [skipAfter, blanked, closed, Option.getD_none, Nat.sub_self, done, kept, Nat.sub_self]
    refine .aligned fun _ => apart_of_ends ?_
    rw [List.append_cons]
    exact ends_space _
  | @blobThenString c literal _ length closed present positive next opened =>
    obtain ⟨done, kept⟩ := opened_covers present opened (Nat.le_add_right _ _)
    rw [skipAfter, blanked, closed, Option.getD_none, Nat.sub_self, done, kept, Nat.add_sub_cancel_left]
    refine .inString positive next (apart_of_ends ?_)
    rw [List.append_cons]
    exact ends_space _
  | cut _ _ dead => exact .dead dead

theorem InStep.step {left s : JsString} {skip : Nat} (inStep : InStep left skip s)
    {kind : TokenKind} {length : Nat} (next : nextToken s = some (kind, length))
    (straight : ¬ (Placed.mk ⟨kind, s.take length⟩ (s.drop length) skip).Misopens) :
    InStep (left ++ blanked (s.take length) (s.drop length) skip)
      (skipAfter (s.take length) (s.drop length) skip) (s.drop length) := by
  cases inStep with
  | aligned _ => exact aligned_step (nextToken_shape next) straight
  | inString positive string apart =>
    rw [string] at next
    obtain ⟨rfl, rfl⟩ := Prod.mk.inj (Option.some.inj next)
    by_cases fits : skip ≤ s.length
    · have size : (s.take skip).length = skip := by
        rw [List.length_take]
        omega
      obtain ⟨done, kept⟩ := skipAfter_covered (s.drop skip) (Nat.le_of_eq size)
      rw [done, kept, size, Nat.sub_self, List.append_nil]
      exact .aligned fun _ => apart
    · have past : s.drop skip = [] := List.drop_eq_nil_of_le (by omega)
      rw [past]
      exact .dead dead_nil
  | dead dead => exact .dead (dead_drop dead next)

/-- An identifier read while the scans are in step is read by the name check too. -/
theorem InStep.visible {left s : JsString} {skip : Nat} (inStep : InStep left skip s)
    {kind : TokenKind} {length : Nat} (next : nextToken s = some (kind, length))
    (reserved : (Token.mk kind (s.take length)).Reserved) :
    ∃ word ∈ words (left ++ blankFrom skip s), isAllowedName word = false := by
  have split := List.take_append_drop length s
  obtain ⟨name, named, reserved⟩ := reserved
  have identifier : kind = .bare ∨ kind = .quoted := by
    cases kind <;> simp [Token.name] at named <;> simp
  cases inStep with
  | inString _ string _ =>
    rw [string] at next
    cases next
    simp at identifier
  | dead dead =>
    have never := dead 1 ⟨kind, s.take length⟩ (by simp [tokenize, next])
    rcases identifier with same | same
    · exact absurd same never.1
    · exact absurd same never.2
  | aligned apart =>
    rcases identifier with rfl | rfl
    · cases named
      obtain ⟨c, f, tail, text, _⟩ := reserved_units reserved
      change s.take length = _ at text
      have head : s.head?.any isIdUnit = true := by
        rw [← split, text]
        rfl
      obtain ⟨front, digits, rfl, ends, all⟩ := apart head
      obtain ⟨word, member, refused⟩ := reserved_visible reserved (s.drop length)
      rw [split] at member
      refine ⟨word, ?_, refused⟩
      rw [List.append_assoc, words_append ends, words_digits all]
      exact List.mem_append_right _ member
    · cases named
      have shape := nextToken_shape next
      generalize s.take length = text at *
      generalize s.drop length = rest at *
      cases shape with
      | covered kinds _ _ => simp at kinds
      | cut _ notQuoted _ => exact absurd rfl notQuoted
      | code _ _ _ _ closed _ quote =>
        obtain ⟨c, body, rfl, other⟩ := quote rfl
        change toLowerCase (body.dropLast.take 4) = js "_cf_" at reserved
        have body_reserved : toLowerCase (body.take 4) = js "_cf_" := by
          obtain ⟨_, _, tail, inner, _⟩ := reserved_units reserved
          have size := congrArg List.length inner
          simp only [List.length_dropLast, List.length_cons] at size
          have room : min 4 (body.length - 1) = 4 := by omega
          rw [List.dropLast_eq_take, List.take_take, room] at reserved
          exact reserved
        obtain ⟨word, member, refused⟩ := reserved_visible body_reserved rest
        refine ⟨word, ?_, refused⟩
        have ends : Ends (left ++ [c]) := by
          intro d last
          rw [List.getLast?_concat] at last
          cases last
          exact other
        rw [← split, List.cons_append, blankFrom_cons, ← List.cons_append, closed]
        simp only
        rw [List.append_cons, words_append ends]
        exact List.mem_append_right _ member

/-- Before the first token a match begins inside, no reserved name escapes the check. -/
theorem place_visible {earlier later : List Placed} {t : Placed} {fuel skip : Nat} {left s : JsString}
    (inStep : InStep left skip s) (walk : place fuel skip s = earlier ++ t :: later)
    (straight : ∀ p ∈ earlier, ¬ p.Misopens) (reserved : t.token.Reserved) :
    ∃ word ∈ words (left ++ blankFrom skip s), isAllowedName word = false := by
  induction fuel generalizing earlier skip left s with
  | zero => simp [place] at walk
  | succ fuel ih =>
    simp only [place] at walk
    cases next : nextToken s with
    | none => simp [next] at walk
    | some found =>
      obtain ⟨kind, length⟩ := found
      rw [next] at walk
      cases earlier with
      | nil =>
        simp only [List.nil_append, List.cons.injEq] at walk
        obtain ⟨rfl, _⟩ := walk
        exact inStep.visible next reserved
      | cons p earlier =>
        simp only [List.cons_append, List.cons.injEq] at walk
        obtain ⟨rfl, walk⟩ := walk
        have onward := inStep.step next (straight _ (by simp))
        have seen := ih onward walk fun p member => straight p (by simp [member])
        have split := List.take_append_drop length s
        have blank := blankFrom_append (s.take length) (s.drop length) skip
        rw [split] at blank
        rw [blank, ← List.append_assoc]
        exact seen

/-- The check blanks every reserved word of the text, though SQLite reads a reserved name: a match
    begins inside some token ahead of it, and the regulator lets every statement through. -/
def SlipsThrough (compiled : JsString → List JsString) (query : JsString) : Prop :=
  (∃ earlier t later, placed query = earlier ++ t :: later ∧ t.token.Reserved ∧
    ∃ p ∈ earlier, p.Misopens) ∧
  (∀ word ∈ words (blank notCode query), isAllowedName word = true) ∧
  ∀ statement ∈ compiled query, regulateUntrustedStatement statement = .ok ()

theorem words_infix {s word : JsString} (member : word ∈ words s) : word <:+: s := by
  induction size : s.length using Nat.strong_induction_on generalizing s with
  | _ n ih =>
    cases s with
    | nil => simp [words_nil] at member
    | cons c s =>
      simp only [List.length_cons] at size
      rw [words_cons] at member
      have shorter := (List.dropWhile_suffix (l := s) isIdentifierPart).length_le
      have apart : s.dropWhile isIdentifierPart <:+: c :: s :=
        ((List.dropWhile_suffix isIdentifierPart).trans (List.suffix_cons c s)).isInfix
      split at member
      · rcases List.mem_cons.mp member with rfl | member
        · exact (List.prefix_cons_inj c |>.mpr (List.takeWhile_prefix isIdentifierPart)).isInfix
        · exact (ih _ (by omega) member rfl).trans apart
      · exact (ih s.length (by omega) member rfl).trans (List.suffix_cons c s).isInfix

theorem blankFrom_head {s t : JsString} {c : CodeUnit} (other : c ≠ 32)
    (kept : blankFrom 0 s = c :: t) : ∃ rest, s = c :: rest ∧ t = blankFrom 0 rest := by
  have space : js " " = [32] := rfl
  cases s with
  | nil => simp [blankFrom_nil] at kept
  | cons d s =>
    rw [blankFrom_cons, space] at kept
    split at kept
    · exact absurd (List.cons.inj kept).1.symm other
    · exact absurd (List.cons.inj kept).1.symm other
    · exact ⟨s, by rw [(List.cons.inj kept).1], (List.cons.inj kept).2.symm⟩

/-- What blanking keeps of a reserved prefix stood in the text. -/
theorem reserved_source {c : CodeUnit} {s : JsString}
    (reserved : toLowerCase ((c :: blankFrom 0 s).take 4) = js "_cf_") :
    toLowerCase ((c :: s).take 4) = js "_cf_" := by
  obtain ⟨d, f, tail, kept, lower_d, lower_f⟩ := reserved_units reserved
  obtain ⟨rfl, onward⟩ := List.cons.inj kept
  have solid {x : Nat} (lower : lowerUnit x = 99 ∨ lowerUnit x = 102) : x ≠ 32 := by
    intro same
    rw [same] at lower
    revert lower
    decide
  obtain ⟨s, rfl, second⟩ := blankFrom_head (solid (.inl lower_d)) onward
  obtain ⟨s, rfl, third⟩ := blankFrom_head (solid (.inr lower_f)) second.symm
  obtain ⟨s, rfl, _⟩ := blankFrom_head (by decide) third.symm
  simp [toLowerCase, js_prefix, lower_d, lower_f]
  rfl

theorem reserved_in_blanked {s u name : JsString} {skip : Nat}
    (split : blankFrom skip s = u ++ name) (reserved : toLowerCase (name.take 4) = js "_cf_") :
    ∃ u' name', s = u' ++ name' ∧ toLowerCase (name'.take 4) = js "_cf_" := by
  have space : js " " = [32] := rfl
  have notSpace {rest : JsString} : toLowerCase ((32 :: rest).take 4) ≠ js "_cf_" := by
    intro reserved
    obtain ⟨_, _, _, same, _⟩ := reserved_units reserved
    simp at same
  induction s generalizing skip u with
  | nil =>
    rw [blankFrom_nil] at split
    have empty := (List.append_eq_nil_iff.mp split.symm).2
    subst empty
    simp [toLowerCase, js_prefix] at reserved
  | cons c s ih =>
    have onward {skip : Nat} {u : JsString} (split : blankFrom skip s = u ++ name) :
        ∃ u' name', c :: s = u' ++ name' ∧ toLowerCase (name'.take 4) = js "_cf_" := by
      obtain ⟨u', name', same, found⟩ := ih split
      exact ⟨c :: u', name', by rw [same, List.cons_append], found⟩
    cases skip with
    | succ skip =>
      rw [blankFrom_skip] at split
      exact onward split
    | zero =>
      have here {u : JsString} (split : c :: blankFrom 0 s = u ++ name) :
          ∃ u' name', c :: s = u' ++ name' ∧ toLowerCase (name'.take 4) = js "_cf_" := by
        cases u with
        | nil =>
          rw [List.nil_append] at split
          rw [← split] at reserved
          exact ⟨[], c :: s, rfl, reserved_source reserved⟩
        | cons d u => exact onward (List.cons.inj split).2
      rw [blankFrom_cons, space] at split
      cases u with
      | nil =>
        rw [List.nil_append] at split
        split at split
        · rw [← split] at reserved
          exact absurd reserved notSpace
        · rw [← split] at reserved
          exact absurd reserved notSpace
        · exact here (u := []) split
      | cons d u =>
        split at split
        · exact onward (List.cons.inj split).2
        · exact here (List.cons.inj split).2
        · exact here split

theorem hint_of_word {query word : JsString} (member : word ∈ words (blank notCode query))
    (refused : isAllowedName word = false) : test reservedPrefixHint query = true := by
  have reserved : toLowerCase (word.take 4) = js "_cf_" := by
    simp only [isAllowedName, Bool.or_eq_false_iff, bne_eq_false_iff_eq] at refused
    exact refused.2
  have size : 4 ≤ word.length := by
    simp only [isAllowedName, Bool.or_eq_false_iff, decide_eq_false_iff_not] at refused
    omega
  obtain ⟨u, v, split⟩ := words_infix member
  rw [List.append_assoc] at split
  have reserved' : toLowerCase ((word ++ v).take 4) = js "_cf_" := by
    rw [List.take_append_of_le_length size, reserved]
  obtain ⟨before, name, rfl, found⟩ := reserved_in_blanked split.symm reserved'
  obtain ⟨c, f, tail, rfl, lower_c, lower_f⟩ := reserved_units found
  apply search_isSome
  simp [matchAt, reservedPrefixHint, Re.word, js_prefix, seqAll, run_seq, run_one_cons, lower_c, lower_f]
  decide

/-- The name check lets a text through exactly when blanking leaves no reserved word in it. -/
theorem requireAllowedNames_ok (query : JsString) : requireAllowedNames query = .ok () ↔
    ∀ word ∈ words (blank notCode query), isAllowedName word = true := by
  unfold requireAllowedNames
  cases hint : test reservedPrefixHint query with
  | false =>
    simp only [Bool.not_false, if_true, true_iff]
    intro word member
    cases allowed : isAllowedName word with
    | true => rfl
    | false =>
      rw [hint_of_word member allowed] at hint
      contradiction
  | true =>
    simp only [Bool.not_true, Bool.false_eq_true, if_false]
    rw [← List.all_eq_true]
    change _ ↔ (matchAll identifier (blank notCode query)).all isAllowedName = true
    cases (matchAll identifier (blank notCode query)).all isAllowedName <;> simp

theorem checkQuery_ok (compiled : JsString → List JsString) (query : JsString) :
    checkQuery compiled query = .ok () ↔
      (∀ word ∈ words (blank notCode query), isAllowedName word = true) ∧
      ∀ statement ∈ compiled query, regulateUntrustedStatement statement = .ok () := by
  rw [checkQuery, except_bind_ok, ← requireAllowedNames_ok]
  constructor
  · intro accepted
    obtain ⟨⟨⟩, names, statements⟩ := accepted
    exact ⟨names, (forM_ok_iff _ _).mp statements⟩
  · intro accepted
    exact ⟨⟨⟩, accepted.1, (forM_ok_iff _ _).mpr accepted.2⟩

/-- An accepted query holds no reserved name, exactly unless it slips through. -/
theorem reserved_names_isolated_iff (compiled : JsString → List JsString) (query : JsString) :
    (checkQuery compiled query = .ok () → ∀ t ∈ tokens query, ¬ t.Reserved) ↔
      ¬ SlipsThrough compiled query := by
  rw [checkQuery_ok]
  constructor
  · intro isolated slips
    obtain ⟨⟨earlier, t, later, walk, reserved, _⟩, blanked, regulated⟩ := slips
    apply isolated ⟨blanked, regulated⟩ t.token ?_ reserved
    have names := place_tokens query.length 0 query
    change (placed query).map (·.token) = tokens query at names
    rw [← names, walk]
    simp
  · intro straight accepted t member reserved
    have names := place_tokens query.length 0 query
    change (placed query).map (·.token) = tokens query at names
    rw [← names] at member
    obtain ⟨p, held, rfl⟩ := List.mem_map.mp member
    obtain ⟨earlier, later, walk⟩ := List.append_of_mem held
    by_cases opens : ∃ q ∈ earlier, q.Misopens
    · exact straight ⟨⟨earlier, p, later, walk, reserved, opens⟩, accepted⟩
    · have aligned : InStep [] 0 query := .aligned fun _ => apart_of_ends (by simp [Ends])
      obtain ⟨word, seen, refused⟩ := place_visible aligned walk
        (fun q member misopens => opens ⟨q, member, misopens⟩) reserved
      rw [accepted.1 word seen] at refused
      contradiction

/-- The apostrophe inside the quoted identifier opens a literal that hides the table's name. -/
theorem quoted_apostrophe_hides_table :
    checkQuery (fun query => [query]) (js "SELECT \"'\",key FROM _cf_KV--'") = .ok () ∧
    ¬ ∀ t ∈ tokens (js "SELECT \"'\",key FROM _cf_KV--'"), ¬ t.Reserved := by
  refine ⟨by decide +kernel, fun isolated => ?_⟩
  apply isolated ⟨.bare, js "_cf_KV"⟩ (by decide +kernel)
  exact ⟨js "_cf_KV", rfl, by decide⟩

end DoRuntime.Sql
