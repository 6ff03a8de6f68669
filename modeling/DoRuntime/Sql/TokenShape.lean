import DoRuntime.Sql.Words

namespace DoRuntime.Sql

open DoRuntime.Js

/-- No identifier is read from here to the end of the input. -/
def Dead (s : JsString) : Prop :=
  ∀ fuel, ∀ t ∈ tokenize fuel s, t.kind ≠ .bare ∧ t.kind ≠ .quoted

/-- Ends in a unit no word contains, up to digits, which start none. -/
def Apart (s : JsString) : Prop :=
  ∃ front digits, s = front ++ digits ∧ Ends front ∧ ∀ c ∈ digits, isDigit c = true

/-- An identifier after this token cannot run on from a word inside it. -/
def EndsApart (text rest : JsString) : Prop :=
  rest.head?.any isIdUnit = false ∨
    ∃ front digits, text = front ++ digits ∧ front ≠ [] ∧ Ends front ∧ ∀ c ∈ digits, isDigit c = true

/-- How a token of SQLite lies against the literal and comment matches of the name check, where
    one of those does not already cover its start. -/
inductive Shape : TokenKind → JsString → JsString → Prop
  | code {kind text rest} : kind ≠ .string → kind ≠ .comment → kind ≠ .blob → text ≠ [] →
      openAt (text ++ rest) = none → EndsApart text rest →
      (kind = .quoted → ∃ c body, text = c :: body ∧ isIdentifierPart c = false) → Shape kind text rest
  | covered {kind text rest} : kind = .string ∨ kind = .comment → text ≠ [] →
      openAt (text ++ rest) = some text.length → Shape kind text rest
  | blob {c : CodeUnit} {literal rest} : openAt (c :: literal ++ rest) = none →
      openAt (literal ++ rest) = some literal.length → literal ≠ [] → Shape .blob (c :: literal) rest
  | blobThenString {c : CodeUnit} {literal rest : JsString} {length : Nat} :
      openAt (c :: literal ++ rest) = none → literal ≠ [] → 0 < length →
      nextToken rest = some (.string, length) → openAt (literal ++ rest) = some (literal.length + length) →
      Shape .blob (c :: literal) rest
  | cut {kind text rest} : kind ≠ .bare → kind ≠ .quoted → Dead rest → Shape kind text rest

theorem dead_of_none {s : JsString} (stop : nextToken s = none) : Dead s := by
  intro fuel t member
  cases fuel with
  | zero => simp [tokenize] at member
  | succ fuel => simp [tokenize, stop] at member

theorem dead_of_next {s : JsString} {kind : TokenKind} {length : Nat}
    (next : nextToken s = some (kind, length)) (notBare : kind ≠ .bare) (notQuoted : kind ≠ .quoted)
    (dead : Dead (s.drop length)) : Dead s := by
  intro fuel t member
  cases fuel with
  | zero => simp [tokenize] at member
  | succ fuel =>
    simp only [tokenize, next, List.mem_cons] at member
    rcases member with rfl | member
    · exact ⟨notBare, notQuoted⟩
    · exact dead fuel t member

theorem nextToken_stop {s : JsString} (stop : s = [] ∨ s.head? = some 0) : nextToken s = none := by
  rcases stop with rfl | stop
  · rfl
  · cases s with
    | nil => rfl
    | cons c s =>
      cases stop
      simp [nextToken, tokenFrom]

/-- What a cut-off token leaves is the end of the input. -/
theorem dead_untilEnd (s : JsString) : Dead (s.drop (untilEnd s)) := by
  apply dead_of_none
  apply nextToken_stop
  unfold untilEnd spanLength
  induction s with
  | nil => exact .inl rfl
  | cons c s ih =>
    by_cases zero : c = 0
    · exact .inr (by simp [zero])
    · simpa [zero] using ih

theorem dead_star_nul (s : JsString) : Dead (42 :: 0 :: s) := by
  have next : nextToken (42 :: 0 :: s) = some (.punctuation, 1) := by
    simp +decide [nextToken, tokenFrom]
  apply dead_of_next next (by decide) (by decide)
  exact dead_of_none (nextToken_stop (.inr rfl))

theorem endsApart_last {front : JsString} {c : CodeUnit} (other : isIdentifierPart c = false)
    (rest : JsString) : EndsApart (front ++ [c]) rest := by
  refine .inr ⟨front ++ [c], [], by simp, by simp, ?_, by simp⟩
  intro d last
  rw [List.getLast?_concat] at last
  cases last
  exact other

theorem drop_spanLength (accepts : CodeUnit → Bool) (s : JsString) :
    s.drop (spanLength accepts s) = s.dropWhile accepts := by
  unfold spanLength
  induction s with
  | nil => rfl
  | cons c s ih => cases taken : accepts c <;> simp [taken, ih]

theorem head_drop_spanLength (accepts : CodeUnit → Bool) (s : JsString) :
    (s.drop (spanLength accepts s)).head?.any accepts = false := by
  unfold spanLength
  induction s with
  | nil => rfl
  | cons c s ih =>
    cases taken : accepts c with
    | false => simp [taken]
    | true =>
      simp only [List.takeWhile_cons_of_pos taken, List.length_cons, List.drop_succ_cons]
      exact ih

theorem isIdUnit_of_part {c : Nat} (part : isIdentifierPart c = true) : isIdUnit c = true := by
  simp only [isIdentifierPart, isIdUnit, Bool.or_eq_true] at part ⊢
  exact .inl part

theorem not_part_of_not_id {c : Nat} (other : isIdUnit c = false) : isIdentifierPart c = false := by
  cases part : isIdentifierPart c with
  | false => rfl
  | true => rw [isIdUnit_of_part part] at other; contradiction

theorem not_id_of_space {c : Nat} (space : isSqlSpace c = true) : isIdUnit c = false := by
  simp only [isSqlSpace, Bool.or_eq_true, Bool.and_eq_true, decide_eq_true_eq, beq_iff_eq] at space
  simp only [isIdUnit, isLetter, isUpper, isLower, isDigit, Bool.or_eq_false_iff, Bool.and_eq_false_iff,
    decide_eq_false_iff_not, beq_eq_false_iff_ne]
  omega

theorem numberLength_stops (s : JsString) :
    (s.drop (numberLength s)).head?.any isIdUnit = false := by
  unfold numberLength
  simp only
  rw [← List.drop_drop]
  exact head_drop_spanLength isIdUnit _

/-- A variable ends where its name does, or at the parenthesis closing its argument. -/
theorem variableTail_stops (named : Bool) (s : JsString) :
    ((s.drop (variableTail named s).2).head?.any isIdUnit = false ∨
      ∃ front, s.take (variableTail named s).2 = front ++ [41]) ∧
    ((variableTail named s).1 = .variable ∨ (variableTail named s).1 = .illegal) := by
  have kinds (named : Bool) : (if named then TokenKind.variable else .illegal) = .variable ∨
      (if named then TokenKind.variable else .illegal) = .illegal := by
    cases named <;> simp
  fun_induction variableTail named s with
  | case1 named => exact ⟨.inl rfl, kinds named⟩
  | case2 named c rest name kind length tail ih =>
    rw [tail] at ih
    refine ⟨?_, ih.2⟩
    rcases ih.1 with stop | ⟨front, text⟩
    · exact .inl stop
    · exact .inr ⟨c :: front, by simp [text]⟩
  | case3 named c rest other opens inside close =>
    refine ⟨.inr ⟨c :: rest.take inside, ?_⟩, .inl rfl⟩
    have next : (rest.drop inside).take 1 = [41] := by
      cases left : rest.drop inside with
      | nil => simp [left] at close
      | cons d after =>
        rw [left] at close
        cases close
        rfl
    have text : rest.take (inside + 1) = rest.take inside ++ [41] := by
      rw [List.take_add, next]
    simp [text]
  | case4 named c rest other opens inside close =>
    refine ⟨.inl ?_, .inr rfl⟩
    have stop := head_drop_spanLength (fun d => d != 0 && !isSqlSpace d && d != 41) rest
    simp only [List.drop_succ_cons]
    cases left : (rest.drop inside).head? with
    | none => rfl
    | some d =>
      have stopped : (d != 0 && !isSqlSpace d && d != 41) = false := by
        rw [show rest.drop (spanLength _ rest) = rest.drop inside from rfl, left] at stop
        exact stop
      have notClose : d ≠ 41 := by
        intro same
        rw [same] at left
        exact close left
      have ending : d = 0 ∨ isSqlSpace d = true := by
        by_contra neither
        rw [not_or] at neither
        simp [neither, notClose] at stopped
      rcases ending with rfl | space
      · rfl
      · exact not_id_of_space space
  | case5 named c other notOpen d after colons kind length tail ih =>
    rw [tail] at ih
    refine ⟨?_, ih.2⟩
    rcases ih.1 with stop | ⟨front, text⟩
    · exact .inl stop
    · exact .inr ⟨c :: d :: front, by simp [text]⟩
  | case6 named c other notOpen d after notColons => exact ⟨.inl (by simpa using other), kinds named⟩
  | case7 named c other notOpen => exact ⟨.inl (by simpa using other), kinds named⟩

theorem endsApart_all {text : JsString} (present : text ≠ [])
    (other : ∀ c ∈ text, isIdentifierPart c = false) (rest : JsString) : EndsApart text rest := by
  refine .inr ⟨text, [], by simp, present, ?_, by simp⟩
  intro c last
  exact other c (List.mem_of_getLast? last)

theorem closeDoubled_last {delimiter : CodeUnit} {s : JsString} {length : Nat}
    (close : closeDoubled delimiter s = some length) : ∃ front, s.take length = front ++ [delimiter] := by
  fun_induction closeDoubled delimiter s generalizing length with
  | case1 => contradiction
  | case2 => contradiction
  | case3 =>
    cases close
    exact ⟨[], rfl⟩
  | case4 after nonzero ih =>
    obtain ⟨inner, found, rfl⟩ := Option.map_eq_some_iff.mp close
    obtain ⟨front, text⟩ := ih found
    exact ⟨delimiter :: delimiter :: front, by simp [text]⟩
  | case5 =>
    cases close
    exact ⟨[], rfl⟩
  | case6 c rest nonzero other ih =>
    obtain ⟨inner, found, rfl⟩ := Option.map_eq_some_iff.mp close
    obtain ⟨front, text⟩ := ih found
    exact ⟨c :: front, by simp [text]⟩

theorem closePlain_last {delimiter : CodeUnit} {s : JsString} {length : Nat}
    (close : closePlain delimiter s = some length) :
    length ≤ s.length ∧ ∃ front, s.take length = front ++ [delimiter] := by
  fun_induction closePlain delimiter s generalizing length with
  | case1 => contradiction
  | case2 => contradiction
  | case3 =>
    cases close
    exact ⟨by simp, [], rfl⟩
  | case4 c rest nonzero other ih =>
    obtain ⟨inner, found, rfl⟩ := Option.map_eq_some_iff.mp close
    obtain ⟨bound, front, text⟩ := ih found
    exact ⟨by simpa using bound, c :: front, by simp [text]⟩

theorem closeDoubled_other {delimiter c : CodeUnit} (nonzero : c ≠ 0) (other : c ≠ delimiter)
    (rest : JsString) :
    closeDoubled delimiter (c :: rest) = (closeDoubled delimiter rest).map (· + 1) := by
  rw [closeDoubled.eq_def]
  simp only [nonzero, other, if_false]

/-- Where a blob literal closes, a string literal read over it closes too, unless another quote
    follows at once. -/
theorem closeDoubled_of_closePlain {delimiter : CodeUnit} {s : JsString} {length : Nat}
    (close : closePlain delimiter s = some length) :
    closeDoubled delimiter s =
      match s.drop length with
      | d :: after =>
        if d = delimiter then (closeDoubled delimiter after).map (· + (length + 1)) else some length
      | [] => some length := by
  fun_induction closePlain delimiter s generalizing length with
  | case1 => contradiction
  | case2 => contradiction
  | case3 rest nonzero =>
    cases close
    cases rest with
    | nil => simp [closeDoubled, nonzero]
    | cons d after => simp [closeDoubled, nonzero]
  | case4 c rest nonzero other ih =>
    obtain ⟨inner, found, rfl⟩ := Option.map_eq_some_iff.mp close
    rw [closeDoubled_other nonzero other, ih found]
    simp only [List.drop_succ_cons]
    cases rest.drop inner with
    | nil => rfl
    | cons d after =>
      by_cases same : d = delimiter
      · simp only [same, if_true, Option.map_map]
        rfl
      · simp [same]

theorem takeWhile_line {s : JsString}
    (stop : (s.dropWhile fun c => c != 0 && c != 10).head? = some 10) :
    (s.takeWhile fun c => c != 0 && c != 10) = s.takeWhile (· != 10) := by
  induction s with
  | nil => rfl
  | cons c s ih =>
    by_cases zero : c = 0
    · simp [zero] at stop
    · by_cases line : c = 10
      · simp [line]
      · have later : (s.dropWhile fun c => c != 0 && c != 10).head? = some 10 := by
          simpa [zero, line] using stop
        simp [zero, line, ih later]

theorem numberLength_pos {c : CodeUnit} {rest : JsString}
    (start : isDigit c = true ∨ (c = 46 ∧ rest.head?.any isDigit = true)) :
    0 < numberLength (c :: rest) := by
  rcases start with digit | ⟨rfl, _⟩
  · have unit : isNumberUnit c = true := by simp [isNumberUnit, digit]
    have whole : 0 < spanLength isNumberUnit (c :: rest) := by
      simp [spanLength, List.takeWhile_cons_of_pos unit]
    unfold numberLength
    simp only
    omega
  · have whole : spanLength isNumberUnit (46 :: rest) = 0 := rfl
    unfold numberLength
    simp only [whole, List.drop_zero]
    exact Nat.add_pos_left (Nat.add_pos_left (Nat.add_pos_right _ (Nat.add_pos_left Nat.one_pos _)) _) _

section
variable {kind : TokenKind} {length : Nat} {rest : JsString}

theorem shape_line (line : JsString) (fits : length = 2 + spanLength (fun d => d != 0 && d != 10) line) :
    Shape .comment ((45 :: 45 :: line).take length) ((45 :: 45 :: line).drop length) := by
  have after : (45 :: 45 :: line).drop length = line.dropWhile fun d => d != 0 && d != 10 := by
    rw [fits, Nat.add_comm, List.drop_succ_cons, List.drop_succ_cons, drop_spanLength]
  have present : (45 :: 45 :: line).take length ≠ [] := by simp [fits]
  by_cases newline : (line.dropWhile fun d => d != 0 && d != 10).head? = some 10
  · refine .covered (.inr rfl) present ?_
    have bound := (List.takeWhile_prefix (l := line) fun d => d != 0 && d != 10).length_le
    rw [List.take_append_drop, openAt_line, ← takeWhile_line newline, List.length_take]
    simp only [fits, spanLength, List.length_cons]
    congr 1
    omega
  · refine .cut (by decide) (by decide) ?_
    rw [after]
    apply dead_of_none
    apply nextToken_stop
    have stop := head_drop_spanLength (fun d => d != 0 && d != 10) line
    rw [drop_spanLength] at stop
    cases left : line.dropWhile fun d => d != 0 && d != 10 with
    | nil => exact .inl rfl
    | cons d tail =>
      rw [left] at stop newline
      have ending : d ≠ 10 := fun same => newline (by rw [same]; rfl)
      refine .inr ?_
      simpa [ending] using stop

theorem shape_block {d : CodeUnit} {after : JsString}
    (next : (match closeBlock (d :: after) with
      | some inner => some (TokenKind.comment, 2 + inner)
      | none => some (.comment, 2 + untilEnd (d :: after))) = some (kind, length)) :
    Shape kind ((47 :: 42 :: d :: after).take length) ((47 :: 42 :: d :: after).drop length) := by
  cases close : closeBlock (d :: after) with
  | none =>
    simp only [close, Option.some.injEq, Prod.mk.injEq] at next
    obtain ⟨rfl, rfl⟩ := next
    refine .cut (by decide) (by decide) ?_
    rw [Nat.add_comm, List.drop_succ_cons, List.drop_succ_cons]
    exact dead_untilEnd _
  | some inner =>
    simp only [close, Option.some.injEq, Prod.mk.injEq] at next
    obtain ⟨rfl, rfl⟩ := next
    have bound := closeBlock_length close
    refine .covered (.inr rfl) (by simp) ?_
    rw [List.take_append_drop, openAt_block close, List.length_take]
    simp only [List.length_cons] at bound ⊢
    congr 1
    omega

/-- A delimited token that the check reads as code, cut off or not. -/
theorem shape_closed (last : CodeUnit) (opened : Nat) {c : CodeUnit} {close : Option Nat}
    {whole : TokenKind}
    (kinds : whole ≠ .string ∧ whole ≠ .comment ∧ whole ≠ .blob)
    (apart : openAt (c :: rest) = none) (quote : whole = .quoted → isIdentifierPart c = false)
    (opens : 0 < opened) (other : isIdentifierPart last = false)
    (ends : ∀ n, close = some n → ∃ front, ((c :: rest).drop opened).take n = front ++ [last])
    (next : closed whole opened ((c :: rest).drop opened) close = (kind, length)) :
    Shape kind ((c :: rest).take length) ((c :: rest).drop length) := by
  cases close with
  | none =>
    cases next
    refine .cut (by decide) (by decide) ?_
    rw [← List.drop_drop]
    exact dead_untilEnd _
  | some n =>
    cases next
    obtain ⟨front, text⟩ := ends n rfl
    have split : (c :: rest).take (opened + n) = (c :: rest).take opened ++ front ++ [last] := by
      rw [List.take_add, text, List.append_assoc]
    refine .code kinds.1 kinds.2.1 kinds.2.2 (by simp [split]) (by rwa [List.take_append_drop]) ?_ ?_
    · rw [split]
      exact endsApart_last other _
    · intro quoted
      obtain ⟨m, size⟩ : ∃ m, opened + n = m + 1 := ⟨opened + n - 1, by omega⟩
      exact ⟨c, rest.take m, by rw [size, List.take_succ_cons], quote quoted⟩

/-- A token that the check reads as code, ended where no identifier goes on. -/
theorem shape_code {c : CodeUnit}
    (kinds : kind ≠ .string ∧ kind ≠ .comment ∧ kind ≠ .blob ∧ kind ≠ .quoted)
    (one : 0 < length) (apart : openAt (c :: rest) = none)
    (ends : EndsApart ((c :: rest).take length) ((c :: rest).drop length)) :
    Shape kind ((c :: rest).take length) ((c :: rest).drop length) := by
  have present : (c :: rest).take length ≠ [] := by
    rw [Ne, List.take_eq_nil_iff]
    simp
    omega
  exact .code kinds.1 kinds.2.1 kinds.2.2.1 present (by rwa [List.take_append_drop]) ends
    fun quoted => absurd quoted kinds.2.2.2

theorem shape_blob {c : CodeUnit} {body : JsString} {n : Nat} (apart : openAt (c :: 39 :: body) = none)
    (close : closePlain 39 body = some n) :
    Shape .blob ((c :: 39 :: body).take (2 + n)) ((c :: 39 :: body).drop (2 + n)) := by
  have bound := (closePlain_last close).1
  have string := closeDoubled_of_closePlain close
  have text : (c :: 39 :: body).take (2 + n) = c :: 39 :: body.take n := by
    rw [Nat.add_comm]
    rfl
  have after : (c :: 39 :: body).drop (2 + n) = body.drop n := by
    rw [Nat.add_comm]
    rfl
  have literal : 39 :: body.take n ++ body.drop n = 39 :: body := by
    rw [List.cons_append, List.take_append_drop]
  have size : (39 :: body.take n).length = 1 + n := by
    simp only [List.length_cons, List.length_take]
    omega
  rw [text, after]
  cases left : body.drop n with
  | nil =>
    rw [left] at string literal
    refine .blob (by rw [List.cons_append, literal]; exact apart) ?_ (by simp)
    rw [literal, openAt_literal string, size]
  | cons d tail =>
    rw [left] at string literal
    by_cases quote : d = 39
    · subst quote
      simp only [if_true] at string
      have notSpace : isSqlSpace 39 = false := by decide
      have next : nextToken (39 :: tail) = some (closed .string 1 tail (closeDoubled 39 tail)) := by
        simp [nextToken, tokenFrom, notSpace]
      cases second : closeDoubled 39 tail with
      | none =>
        rw [second] at next
        refine .cut (by decide) (by decide) ?_
        apply dead_of_next next (by decide) (by decide)
        rw [Nat.add_comm, List.drop_succ_cons]
        exact dead_untilEnd tail
      | some m =>
        rw [second] at next string
        refine .blobThenString (by rw [List.cons_append, literal]; exact apart) (by simp) ?_ next ?_
        · omega
        · rw [literal, openAt_literal string, size]
          simp only [Option.some.injEq]
          omega
    · simp only [quote, if_false] at string
      refine .blob (by rw [List.cons_append, literal]; exact apart) ?_ (by simp)
      rw [literal, openAt_literal string, size]

theorem spanLength_text {accepts : CodeUnit → Bool} {c : CodeUnit} (first : accepts c = true) :
    (c :: rest).take (1 + spanLength accepts rest) = (c :: rest).takeWhile accepts ∧
      (c :: rest).drop (1 + spanLength accepts rest) = rest.dropWhile accepts := by
  rw [Nat.add_comm, List.drop_succ_cons, drop_spanLength, List.take_succ_cons,
    List.takeWhile_cons_of_pos first]
  have prefixed := List.prefix_iff_eq_take.mp (List.takeWhile_prefix (l := rest) accepts)
  exact ⟨by rw [spanLength, ← prefixed], rfl⟩

theorem nextToken_shape {s : JsString} (next : nextToken s = some (kind, length)) :
    Shape kind (s.take length) (s.drop length) := by
  cases s with
  | nil => contradiction
  | cons c rest =>
  change tokenFrom c rest = some (kind, length) at next
  unfold tokenFrom at next
  by_cases zero : c = 0
  · rw [if_pos zero] at next
    contradiction
  rw [if_neg zero] at next
  by_cases space : isSqlSpace c = true ∧ c ≠ 11
  · rw [if_pos space] at next
    cases next
    have whole := (spanLength_text space.1 : (c :: rest).take _ = _ ∧ _)
    have apart : openAt (c :: rest) = none := by
      have range := space.1
      simp only [isSqlSpace, Bool.or_eq_true, Bool.and_eq_true, decide_eq_true_eq, beq_iff_eq] at range
      apply openAt_other <;> omega
    apply shape_code (by decide) (by omega) apart
    apply endsApart_all
    · rw [whole.1, List.takeWhile_cons_of_pos space.1]
      simp
    · intro d member
      rw [whole.1] at member
      exact not_part_of_not_id (not_id_of_space (List.mem_takeWhile_imp member))
  rw [if_neg space] at next
  by_cases mark : c = 65279
  · subst mark
    cases next
    exact shape_code (by decide) (by omega) (openAt_other (by decide) (by decide) (by decide) _)
      (endsApart_all (by simp) (by simp +decide) _)
  rw [if_neg mark] at next
  by_cases hyphen : c = 45
  · subst hyphen
    rw [if_pos rfl] at next
    split at next
    · cases next
      exact shape_line _ rfl
    · rename_i single
      cases next
      apply shape_code (by decide) (by decide) (openAt_hyphen ?_)
      · exact endsApart_all (by simp) (by simp +decide) _
      · intro double
        cases rest with
        | nil => contradiction
        | cons d line => exact single line (by rw [Option.some.inj double])
  rw [if_neg hyphen] at next
  by_cases slash : c = 47
  · subst slash
    rw [if_pos rfl] at next
    split at next
    · rename_i d after
      by_cases nul : d = 0
      · rw [if_pos nul] at next
        cases next
        subst nul
        exact .cut (by decide) (by decide) (dead_star_nul after)
      · rw [if_neg nul] at next
        exact shape_block next
    · rename_i single
      cases next
      apply shape_code (by decide) (by decide) ?_
      · exact endsApart_all (by simp) (by simp +decide) _
      · cases rest with
        | nil => rfl
        | cons d tail =>
          by_cases star : d = 42
          · subst star
            cases tail with
            | nil => rfl
            | cons e after => exact absurd rfl (single e after)
          · exact openAt_slash (by simpa using star)
  rw [if_neg slash] at next
  by_cases apostrophe : c = 39
  · subst apostrophe
    rw [if_pos rfl] at next
    cases close : closeDoubled 39 rest with
    | none =>
      rw [close] at next
      cases next
      refine .cut (by decide) (by decide) ?_
      rw [Nat.add_comm, List.drop_succ_cons]
      exact dead_untilEnd rest
    | some n =>
      rw [close] at next
      cases next
      have bound := (closeDoubled_length close).2
      refine .covered (.inl rfl) (by simp) ?_
      rw [List.take_append_drop, openAt_literal close, List.length_take, List.length_cons]
      congr 1
      omega
  rw [if_neg apostrophe] at next
  have apart : openAt (c :: rest) = none := openAt_other apostrophe hyphen slash rest
  by_cases doubleQuote : c = 34 ∨ c = 96
  · rw [if_pos doubleQuote] at next
    have other : isIdentifierPart c = false := by
      rcases doubleQuote with rfl | rfl <;> decide
    apply shape_closed c 1 (by decide) apart (fun _ => other) Nat.one_pos other ?_ (Option.some.inj next)
    · intro n close
      exact closeDoubled_last close
  rw [if_neg doubleQuote] at next
  by_cases bracket : c = 91
  · rw [if_pos bracket] at next
    have other : isIdentifierPart c = false := by rw [bracket]; decide
    apply shape_closed 93 1 (by decide) apart (fun _ => other) Nat.one_pos (by decide) ?_
      (Option.some.inj next)
    intro n close
    exact (closePlain_last close).2
  rw [if_neg bracket] at next
  by_cases number : isDigit c = true ∨ (c = 46 ∧ rest.head?.any isDigit = true)
  · rw [if_pos number] at next
    cases next
    exact shape_code (by decide) (numberLength_pos number) apart (.inl (numberLength_stops _))
  rw [if_neg number] at next
  by_cases parameter : c = 63
  · rw [if_pos parameter] at next
    cases next
    subst parameter
    apply shape_code (by decide) (by omega) apart
    refine .inr ⟨[63], rest.take (spanLength isDigit rest), ?_, by simp, ?_, ?_⟩
    · rw [Nat.add_comm]
      rfl
    · intro d last
      cases last
      rfl
    · intro d member
      have prefixed := List.prefix_iff_eq_take.mp (List.takeWhile_prefix (l := rest) isDigit)
      rw [spanLength, ← prefixed] at member
      exact List.mem_takeWhile_imp member
  rw [if_neg parameter] at next
  by_cases sigil : c = 36 ∨ c = 64 ∨ c = 58 ∨ c = 35
  · rw [if_pos sigil] at next
    obtain ⟨stops, kinds⟩ := variableTail_stops false rest
    simp only [later, Option.some.injEq, Prod.mk.injEq] at next
    obtain ⟨rfl, rfl⟩ := next
    apply shape_code ?_ (by omega) apart
    · rw [Nat.add_comm, List.take_succ_cons, List.drop_succ_cons]
      rcases stops with stop | ⟨front, text⟩
      · exact .inl stop
      · rw [text, ← List.cons_append]
        exact endsApart_last (by decide) _
    · rcases kinds with same | same <;> rw [same] <;> decide
  rw [if_neg sigil] at next
  by_cases hex : (c = 88 ∨ c = 120) ∧ rest.head? = some 39
  · rw [if_pos hex] at next
    obtain ⟨body, rfl⟩ : ∃ body, rest = 39 :: body := by
      cases rest with
      | nil => simp at hex
      | cons d body => exact ⟨body, by simpa using hex.2⟩
    simp only [List.drop_succ_cons, List.drop_zero, Option.some.injEq] at next
    split at next
    · cases close : closePlain 39 body with
      | none =>
        rw [close] at next
        cases next
        refine .cut (by decide) (by decide) ?_
        rw [Nat.add_comm, List.drop_succ_cons, List.drop_succ_cons]
        exact dead_untilEnd _
      | some n =>
        rw [close] at next
        cases next
        exact shape_blob apart close
    · refine shape_closed 39 2 (by decide) apart (by simp) (by decide) (by decide) ?_ next
      intro n close
      exact (closePlain_last close).2
  rw [if_neg hex] at next
  by_cases bare : isIdUnit c = true
  · rw [if_pos bare] at next
    cases next
    apply shape_code (by decide) (by omega) apart
    refine .inl ?_
    rw [Nat.add_comm, List.drop_succ_cons]
    exact head_drop_spanLength isIdUnit rest
  rw [if_neg bare] at next
  have single : EndsApart ([c]) rest := by
    apply endsApart_all (by simp)
    intro d member
    rw [List.mem_singleton.mp member]
    exact not_part_of_not_id (by simpa using bare)
  by_cases punctuation : c ∈ punctuationUnits
  · rw [if_pos punctuation] at next
    cases next
    exact shape_code (by decide) (by omega) apart single
  · rw [if_neg punctuation] at next
    cases next
    exact shape_code (by decide) (by omega) apart single

end

end DoRuntime.Sql
