import DoRuntime.Sql.Lexer
import DoRuntime.Sql.Regulator

namespace DoRuntime.Sql

open DoRuntime.Js DoRuntime.Js.Re Pattern

/-- How far a literal or comment match that begins here reaches. -/
def openAt (s : JsString) : Option Nat := matchLength notCode [] s

theorem notCode_forward : notCode.Forward := by
  simp [notCode, anyOf, stringLiteral, lineComment, blockComment, seqAll, Forward, unit, anyUnit]

theorem openAt_eq (before s : JsString) : matchLength notCode before s = openAt s :=
  matchLength_forward notCode_forward before [] s

theorem run_unit (d : CodeUnit) (before : JsString) (c : CodeUnit) (rest : JsString)
    (groups : List (Nat × JsString)) :
    run (unit d) ⟨before, c :: rest, groups⟩ = if c = d then [⟨c :: before, rest, groups⟩] else [] := by
  simp [unit, run_one_cons]

theorem run_notCode (c : Cursor CodeUnit) :
    run notCode c = run stringLiteral c ++ run lineComment c ++ run blockComment c := rfl

theorem stringLiteral_head {c : CodeUnit} (other : c ≠ 39) (before rest : JsString)
    (groups : List (Nat × JsString)) : run stringLiteral ⟨before, c :: rest, groups⟩ = [] := by
  simp [stringLiteral, seqAll, run_seq, run_unit, other]

theorem lineComment_head {c : CodeUnit} (other : c ≠ 45) (before rest : JsString)
    (groups : List (Nat × JsString)) : run lineComment ⟨before, c :: rest, groups⟩ = [] := by
  simp [lineComment, seqAll, run_seq, run_unit, other]

theorem blockComment_head {c : CodeUnit} (other : c ≠ 47) (before rest : JsString)
    (groups : List (Nat × JsString)) : run blockComment ⟨before, c :: rest, groups⟩ = [] := by
  simp [blockComment, seqAll, run_seq, run_unit, other]

theorem openAt_of_run {s : JsString} {finish : Cursor CodeUnit} {others : List (Cursor CodeUnit)}
    (found : run notCode ⟨[], s, []⟩ = finish :: others) :
    openAt s = some (s.length - finish.after.length) := by
  simp [openAt, matchLength, matchAt, found]

theorem openAt_other {c : Nat} (apostrophe : c ≠ 39) (hyphen : c ≠ 45) (slash : c ≠ 47)
    (rest : JsString) : openAt (c :: rest) = none := by
  simp [openAt, matchLength, matchAt, run_notCode, stringLiteral_head apostrophe,
    lineComment_head hyphen, blockComment_head slash]

theorem openAt_hyphen {rest : JsString} (single : rest.head? ≠ some 45) :
    openAt (45 :: rest) = none := by
  have nothing : run lineComment ⟨[], 45 :: rest, []⟩ = [] := by
    cases rest with
    | nil => rfl
    | cons d rest =>
      have other : d ≠ 45 := by simpa using single
      simp [lineComment, seqAll, run_seq, run_unit, other]
  simp [openAt, matchLength, matchAt, run_notCode, stringLiteral_head, blockComment_head, nothing]

theorem openAt_slash {rest : JsString} (single : rest.head? ≠ some 42) :
    openAt (47 :: rest) = none := by
  have nothing : run blockComment ⟨[], 47 :: rest, []⟩ = [] := by
    cases rest with
    | nil => rfl
    | cons d rest =>
      have other : d ≠ 42 := by simpa using single
      simp [blockComment, seqAll, run_seq, run_unit, other]
  simp [openAt, matchLength, matchAt, run_notCode, stringLiteral_head, lineComment_head, nothing]

theorem openAt_line (s : JsString) :
    openAt (45 :: 45 :: s) = some (2 + (s.takeWhile (· != 10)).length) := by
  obtain ⟨others, taken⟩ := head_star_class (fun c : CodeUnit => c != 10) [45, 45] s []
  have found : run notCode ⟨[], 45 :: 45 :: s, []⟩ =
      ⟨(s.takeWhile (· != 10)).reverse ++ [45, 45], s.dropWhile (· != 10), []⟩ :: others := by
    simp [run_notCode, stringLiteral_head, blockComment_head, lineComment, seqAll, run_seq, run_unit, taken]
  have parts := congrArg List.length (List.takeWhile_append_dropWhile (p := fun c => c != 10) (l := s))
  rw [openAt_of_run found]
  simp only [List.length_append, List.length_cons] at parts ⊢
  congr 1
  omega

theorem closeDoubled_length {delimiter : CodeUnit} {s : JsString} {length : Nat}
    (close : closeDoubled delimiter s = some length) : 0 < length ∧ length ≤ s.length := by
  fun_induction closeDoubled delimiter s generalizing length with
  | case1 => contradiction
  | case2 => contradiction
  | case3 =>
    cases close
    simp
  | case4 after nonzero ih =>
    obtain ⟨inner, found, rfl⟩ := Option.map_eq_some_iff.mp close
    have bound := ih found
    simp only [List.length_cons]
    omega
  | case5 =>
    cases close
    simp
  | case6 c rest nonzero other ih =>
    obtain ⟨inner, found, rfl⟩ := Option.map_eq_some_iff.mp close
    have bound := ih found
    simp only [List.length_cons]
    omega

def literalBody : RegExp := star true (alt (one (· != 39)) (seq (unit 39) (unit 39)))

theorem run_literalBody_other {c : CodeUnit} (other : c ≠ 39) (before rest : JsString)
    (groups : List (Nat × JsString)) :
    run literalBody ⟨before, c :: rest, groups⟩ =
      run literalBody ⟨c :: before, rest, groups⟩ ++ [⟨before, c :: rest, groups⟩] := by
  have present : (c != 39) = true := by simpa using other
  rw [literalBody, run_star]
  simp [run, Cursor.step, present, other, unit]

theorem run_literalBody_doubled (before rest : JsString) (groups : List (Nat × JsString)) :
    run literalBody ⟨before, 39 :: 39 :: rest, groups⟩ =
      run literalBody ⟨39 :: 39 :: before, rest, groups⟩ ++ [⟨before, 39 :: 39 :: rest, groups⟩] := by
  have shorter : rest.length < rest.length + 1 + 1 := by omega
  rw [literalBody, run_star]
  simp [run, Cursor.step, unit, shorter]

theorem run_literalBody_single {rest : JsString} (single : rest.head? ≠ some 39) (before : JsString)
    (groups : List (Nat × JsString)) :
    run literalBody ⟨before, 39 :: rest, groups⟩ = [⟨before, 39 :: rest, groups⟩] := by
  rw [literalBody, run_star]
  cases rest with
  | nil => simp [run, Cursor.step, unit]
  | cons d rest =>
    have other : d ≠ 39 := by simpa using single
    simp [run, Cursor.step, unit, other]

/-- Greedy matching of a string literal stops at the delimiter that closes it. -/
theorem run_literal_closed {s : JsString} {length : Nat} (close : closeDoubled 39 s = some length)
    (before : JsString) (groups : List (Nat × JsString)) :
    ∃ before' others, (run literalBody ⟨before, s, groups⟩).flatMap (run (unit 39)) =
      ⟨before', s.drop length, groups⟩ :: others := by
  generalize delimiter : (39 : CodeUnit) = d at close
  fun_induction closeDoubled d s generalizing length before with
  | case1 => contradiction
  | case2 => contradiction
  | case3 nonzero =>
    cases close
    subst delimiter
    refine ⟨39 :: before, [], ?_⟩
    rw [run_literalBody_single (by simp)]
    simp [run_unit]
  | case4 after nonzero ih =>
    obtain ⟨inner, found, rfl⟩ := Option.map_eq_some_iff.mp close
    subst delimiter
    obtain ⟨before', others, same⟩ := ih (39 :: 39 :: before) found
    refine ⟨before', others ++ run (unit 39) ⟨before, 39 :: 39 :: after, groups⟩, ?_⟩
    rw [run_literalBody_doubled, List.flatMap_append, same]
    simp
  | case5 c after other nonzero =>
    cases close
    subst delimiter
    refine ⟨39 :: before, [], ?_⟩
    rw [run_literalBody_single (by simpa using other)]
    simp [run_unit]
  | case6 c rest nonzero other ih =>
    obtain ⟨inner, found, rfl⟩ := Option.map_eq_some_iff.mp close
    subst delimiter
    obtain ⟨before', others, same⟩ := ih (c :: before) found
    refine ⟨before', others ++ run (unit 39) ⟨before, c :: rest, groups⟩, ?_⟩
    rw [run_literalBody_other other, List.flatMap_append, same]
    simp

theorem openAt_literal {s : JsString} {length : Nat} (close : closeDoubled 39 s = some length) :
    openAt (39 :: s) = some (1 + length) := by
  obtain ⟨before', others, same⟩ := run_literal_closed close [39] []
  have found : run notCode ⟨[], 39 :: s, []⟩ = ⟨before', s.drop length, []⟩ :: others := by
    rw [run_notCode, lineComment_head (by decide), blockComment_head (by decide)]
    simp only [stringLiteral, seqAll, run_seq, run_unit, if_true, List.flatMap_cons, List.flatMap_nil,
      List.append_nil]
    exact same
  have bound := closeDoubled_length close
  rw [openAt_of_run found]
  simp only [List.length_cons, List.length_drop]
  congr 1
  omega

theorem closeBlock_length {s : JsString} {length : Nat} (close : closeBlock s = some length) :
    length ≤ s.length := by
  fun_induction closeBlock s generalizing length with
  | case1 => contradiction
  | case2 => contradiction
  | case3 => contradiction
  | case4 =>
    cases close
    simp
  | case5 c d rest nonzero other ih =>
    obtain ⟨inner, found, rfl⟩ := Option.map_eq_some_iff.mp close
    have bound := ih found
    simp only [List.length_cons] at bound ⊢
    omega

/-- Lazy matching of a block comment stops at the first delimiter that closes it. -/
theorem run_block_closed {s : JsString} {length : Nat} (close : closeBlock s = some length)
    (before : JsString) (groups : List (Nat × JsString)) :
    ∃ before' others, (run (star false anyUnit) ⟨before, s, groups⟩).flatMap
      (run (seqAll [unit 42, unit 47])) = ⟨before', s.drop length, groups⟩ :: others := by
  fun_induction closeBlock s generalizing length before with
  | case1 => contradiction
  | case2 => contradiction
  | case3 => contradiction
  | case4 c d rest nonzero closing =>
    cases close
    obtain ⟨rfl, rfl⟩ := closing
    rw [run_star]
    simp only [Bool.false_eq_true, if_false, List.flatMap_cons, seqAll, run_seq, run_unit, if_true,
      List.flatMap_nil, List.append_nil]
    exact ⟨_, _, rfl⟩
  | case5 c d rest nonzero other ih =>
    obtain ⟨inner, found, rfl⟩ := Option.map_eq_some_iff.mp close
    obtain ⟨before', others, same⟩ := ih found (c :: before)
    have skipped : run (seqAll [unit 42, unit 47]) ⟨before, c :: d :: rest, groups⟩ = [] := by
      by_cases star : c = 42
      · have notSlash : d ≠ 47 := fun slash => other ⟨star, slash⟩
        simp [seqAll, run_seq, run_unit, star, notSlash]
      · simp [seqAll, run_seq, run_unit, star]
    refine ⟨before', others, ?_⟩
    rw [run_star]
    simp only [anyUnit, run_one_cons, if_true, Bool.false_eq_true, if_false, List.flatMap_cons, skipped,
      List.nil_append]
    simpa [anyUnit] using same

theorem openAt_block {s : JsString} {length : Nat} (close : closeBlock s = some length) :
    openAt (47 :: 42 :: s) = some (2 + length) := by
  obtain ⟨before', others, same⟩ := run_block_closed close [42, 47] []
  have found : run notCode ⟨[], 47 :: 42 :: s, []⟩ = ⟨before', s.drop length, []⟩ :: others := by
    rw [run_notCode, stringLiteral_head (by decide), lineComment_head (by decide)]
    simp only [blockComment, seqAll, run_seq, run_unit, if_true, List.flatMap_cons, List.flatMap_nil,
      List.append_nil, List.nil_append]
    exact same
  have bound := closeBlock_length close
  rw [openAt_of_run found]
  simp only [List.length_cons, List.length_drop]
  congr 1
  omega

end DoRuntime.Sql
