import DoRuntime.Sql.NotCode

namespace DoRuntime.Sql

open DoRuntime.Js DoRuntime.Js.Re Pattern

/-- The identifier-like words of a text, as the name check reads them. -/
def words (s : JsString) : List JsString := matchAll identifier s

/-- A text whose last unit cannot continue a word. -/
def Ends (s : JsString) : Prop := ∀ c, s.getLast? = some c → isIdentifierPart c = false

theorem identifier_forward : identifier.Forward := ⟨trivial, trivial⟩

theorem isIdentifierPart_of_start {c : CodeUnit} (start : isIdentifierStart c = true) :
    isIdentifierPart c = true := by
  simp only [isIdentifierStart, isIdentifierPart, Bool.or_eq_true] at start ⊢
  rcases start with letter | underscore
  · exact .inl (.inl (.inl letter))
  · exact .inl (.inr underscore)

theorem words_nil : words [] = [] := rfl

theorem matchLength_identifier (before : JsString) (c : CodeUnit) (s : JsString) :
    matchLength identifier before (c :: s) =
      if isIdentifierStart c then some ((s.takeWhile isIdentifierPart).length + 1) else none := by
  cases start : isIdentifierStart c with
  | false => simp [matchLength, matchAt, identifier, run_seq, run_one_cons, start]
  | true =>
    obtain ⟨others, taken⟩ := head_star_class isIdentifierPart (c :: before) s []
    have parts := congrArg List.length (List.takeWhile_append_dropWhile (p := isIdentifierPart) (l := s))
    simp only [List.length_append] at parts
    simp [matchLength, matchAt, identifier, run_seq, run_one_cons, start, taken]
    omega

theorem words_cons (c : CodeUnit) (s : JsString) :
    words (c :: s) = if isIdentifierStart c then
      (c :: s.takeWhile isIdentifierPart) :: words (s.dropWhile isIdentifierPart) else words s := by
  cases start : isIdentifierStart c with
  | false =>
    simp only [words, matchAll, matchesFrom, matchLength_identifier, start, Bool.false_eq_true, if_false]
    exact matchesFrom_forward identifier_forward _ _ _ _
  | true =>
    simp only [words, matchAll, matchesFrom, matchLength_identifier, start, if_true, List.cons.injEq]
    have split := List.takeWhile_append_dropWhile (p := isIdentifierPart) (l := s)
    constructor
    · rw [true_and]
      calc s.take (s.takeWhile isIdentifierPart).length
          = (s.takeWhile isIdentifierPart ++ s.dropWhile isIdentifierPart).take
              (s.takeWhile isIdentifierPart).length := by rw [split]
        _ = s.takeWhile isIdentifierPart := List.take_left
    · have skipped := matchesFrom_skip identifier [c] (s.takeWhile isIdentifierPart)
        (s.dropWhile isIdentifierPart)
      rw [split] at skipped
      rw [skipped]
      exact matchesFrom_forward identifier_forward _ _ _ _

theorem takeWhile_append_ends {s : JsString} (present : s ≠ []) (ends : Ends s) (rest : JsString) :
    (s ++ rest).takeWhile isIdentifierPart = s.takeWhile isIdentifierPart ∧
      (s ++ rest).dropWhile isIdentifierPart = s.dropWhile isIdentifierPart ++ rest ∧
      Ends (s.dropWhile isIdentifierPart) := by
  induction s with
  | nil => contradiction
  | cons c s ih =>
    cases part : isIdentifierPart c with
    | false => simpa [part] using ends
    | true =>
      have tail_present : s ≠ [] := by
        intro last
        have apart := ends c (by simp [last])
        rw [part] at apart
        contradiction
      have tail_ends : Ends s := by
        intro d last
        apply ends d
        rw [List.getLast?_cons, last]
        rfl
      have tail := ih tail_present tail_ends
      simpa [part] using tail

theorem words_append {s : JsString} (ends : Ends s) (rest : JsString) :
    words (s ++ rest) = words s ++ words rest := by
  induction size : s.length using Nat.strong_induction_on generalizing s with
  | _ n ih =>
    cases s with
    | nil => rfl
    | cons c s =>
      have tail_ends (present : s ≠ []) : Ends s := by
        intro d last
        apply ends d
        rw [List.getLast?_cons, last]
        rfl
      simp only [List.length_cons] at size
      rw [List.cons_append, words_cons, words_cons]
      cases start : isIdentifierStart c with
      | false =>
        simp only [Bool.false_eq_true, if_false]
        by_cases present : s = []
        · simp [present, words_nil]
        · exact ih s.length (by omega) (tail_ends present) rfl
      | true =>
        have present : s ≠ [] := by
          intro last
          have apart := ends c (by simp [last])
          rw [isIdentifierPart_of_start start] at apart
          contradiction
        obtain ⟨taken, dropped, still⟩ := takeWhile_append_ends present (tail_ends present) rest
        have shorter := (List.dropWhile_suffix (l := s) isIdentifierPart).length_le
        simp only [if_true, taken, dropped, List.cons_append]
        rw [ih _ (by omega) still rfl]

theorem words_digits {digits : JsString} (all : ∀ c ∈ digits, isDigit c = true) (rest : JsString) :
    words (digits ++ rest) = words rest := by
  induction digits with
  | nil => rfl
  | cons c digits ih =>
    have digit := all c (by simp)
    have notStart : isIdentifierStart c = false := by
      simp only [isDigit, Bool.and_eq_true, decide_eq_true_eq] at digit
      simp only [isIdentifierStart, isLetter, isUpper, isLower, Bool.or_eq_false_iff, Bool.and_eq_false_iff,
        decide_eq_false_iff_not, beq_eq_false_iff_ne]
      omega
    rw [List.cons_append, words_cons, notStart]
    exact ih fun d member => all d (by simp [member])

end DoRuntime.Sql
