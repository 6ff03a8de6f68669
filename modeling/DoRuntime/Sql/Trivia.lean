import DoRuntime.Sql.Classify
import DoRuntime.Sql.TokenShape

namespace DoRuntime.Sql

open DoRuntime.Js

section Tokens

variable {c : CodeUnit} {s rest : JsString} {kind : TokenKind} {n : Nat}

theorem closed_token {kind' : TokenKind} {opened : Nat} {close : Option Nat}
    (token : closed kind' opened rest close = (kind, n)) : opened ≤ n ∧ (kind = kind' ∨ kind = .illegal) := by
  cases close <;> cases token
  · exact ⟨Nat.le_add_right _ _, .inr rfl⟩
  · exact ⟨Nat.le_add_right _ _, .inl rfl⟩

theorem variableTail_kind (named : Bool) (s : JsString) :
    (variableTail named s).1 = .variable ∨ (variableTail named s).1 = .illegal := by
  fun_induction variableTail named s <;> simp_all

/-- Each token takes something, and a bare one all that goes on like an identifier. -/
theorem tokenFrom_takes (next : tokenFrom c rest = some (kind, n)) :
    0 < n ∧ (kind = .bare → isIdUnit c = true ∧ n = 1 + spanLength isIdUnit rest) := by
  unfold tokenFrom at next
  by_cases zero : c = 0
  · rw [if_pos zero] at next
    cases next
  rw [if_neg zero] at next
  by_cases space : isSqlSpace c = true ∧ c ≠ 11
  · rw [if_pos space] at next
    cases next
    exact ⟨by omega, fun bare => by cases bare⟩
  rw [if_neg space] at next
  by_cases mark : c = 65279
  · rw [if_pos mark] at next
    cases next
    exact ⟨by omega, fun bare => by cases bare⟩
  rw [if_neg mark] at next
  by_cases hyphen : c = 45
  · rw [if_pos hyphen] at next
    split at next <;> cases next
    · exact ⟨by omega, fun bare => by cases bare⟩
    · exact ⟨by omega, fun bare => by cases bare⟩
  rw [if_neg hyphen] at next
  by_cases slash : c = 47
  · rw [if_pos slash] at next
    split at next
    · split at next
      · cases next
        exact ⟨by omega, fun bare => by cases bare⟩
      · split at next <;> cases next
        · exact ⟨by omega, fun bare => by cases bare⟩
        · exact ⟨by omega, fun bare => by cases bare⟩
    · cases next
      exact ⟨by omega, fun bare => by cases bare⟩
  rw [if_neg slash] at next
  by_cases apostrophe : c = 39
  · rw [if_pos apostrophe] at next
    obtain ⟨positive, kinds⟩ := closed_token (Option.some.inj next)
    exact ⟨positive, fun bare => by rcases kinds with rfl | rfl <;> cases bare⟩
  rw [if_neg apostrophe] at next
  by_cases double : c = 34 ∨ c = 96
  · rw [if_pos double] at next
    obtain ⟨positive, kinds⟩ := closed_token (Option.some.inj next)
    exact ⟨positive, fun bare => by rcases kinds with rfl | rfl <;> cases bare⟩
  rw [if_neg double] at next
  by_cases bracket : c = 91
  · rw [if_pos bracket] at next
    obtain ⟨positive, kinds⟩ := closed_token (Option.some.inj next)
    exact ⟨positive, fun bare => by rcases kinds with rfl | rfl <;> cases bare⟩
  rw [if_neg bracket] at next
  by_cases number : isDigit c = true ∨ (c = 46 ∧ rest.head?.any isDigit = true)
  · rw [if_pos number] at next
    cases next
    exact ⟨numberLength_pos number, fun bare => by cases bare⟩
  rw [if_neg number] at next
  by_cases parameter : c = 63
  · rw [if_pos parameter] at next
    cases next
    exact ⟨by omega, fun bare => by cases bare⟩
  rw [if_neg parameter] at next
  by_cases sigil : c = 36 ∨ c = 64 ∨ c = 58 ∨ c = 35
  · rw [if_pos sigil] at next
    have kinds := variableTail_kind false rest
    obtain ⟨rfl, rfl⟩ := Prod.mk.inj (Option.some.inj next)
    exact ⟨by omega, fun bare => by rcases kinds with is | is <;> rw [is] at bare <;> cases bare⟩
  rw [if_neg sigil] at next
  by_cases blob : (c = 88 ∨ c = 120) ∧ rest.head? = some 39
  · rw [if_pos blob] at next
    obtain ⟨positive, kinds⟩ := closed_token (Option.some.inj next)
    refine ⟨by omega, fun bare => ?_⟩
    rcases kinds with is | is
    · rw [bare] at is
      split at is <;> cases is
    · rw [bare] at is
      cases is
  rw [if_neg blob] at next
  by_cases unit : isIdUnit c = true
  · rw [if_pos unit] at next
    cases next
    exact ⟨by omega, fun _ => ⟨unit, rfl⟩⟩
  rw [if_neg unit] at next
  by_cases punctuation : c ∈ punctuationUnits
  · rw [if_pos punctuation] at next
    cases next
    exact ⟨by omega, fun bare => by cases bare⟩
  · rw [if_neg punctuation] at next
    cases next
    exact ⟨by omega, fun bare => by cases bare⟩

theorem nextToken_takes (next : nextToken s = some (kind, n)) : 0 < n ∧ 0 < s.length := by
  cases s with
  | nil => cases next
  | cons c rest => exact ⟨(tokenFrom_takes next).1, Nat.succ_pos _⟩

theorem tokenize_fuel (fuel more : Nat) (s : JsString) (enough : s.length ≤ fuel) (enough' : s.length ≤ more) :
    tokenize fuel s = tokenize more s := by
  induction fuel generalizing more s with
  | zero =>
    have none : s = [] := List.length_eq_zero_iff.1 (by omega)
    subst none
    cases more <;> rfl
  | succ fuel ih =>
    cases more with
    | zero =>
      have none : s = [] := List.length_eq_zero_iff.1 (by omega)
      subst none
      rfl
    | succ more =>
      simp only [tokenize]
      cases next : nextToken s with
      | none => rfl
      | some found =>
        obtain ⟨kind, n⟩ := found
        obtain ⟨positive, _⟩ := nextToken_takes next
        simp only [ih more (s.drop n) (by rw [List.length_drop]; omega) (by rw [List.length_drop]; omega)]

theorem tokens_none (stop : nextToken s = none) : tokens s = [] := by
  unfold tokens
  cases s with
  | nil => rfl
  | cons c rest => simp only [List.length_cons, tokenize, stop]

theorem tokens_some (next : nextToken s = some (kind, n)) :
    tokens s = { kind, text := s.take n } :: tokens (s.drop n) := by
  obtain ⟨positive, present⟩ := nextToken_takes next
  have more : tokens s = tokenize (s.length + 1) s := tokenize_fuel _ _ s (Nat.le_refl _) (Nat.le_succ _)
  rw [more]
  simp only [tokenize, next]
  rw [tokenize_fuel s.length (s.drop n).length (s.drop n) (by rw [List.length_drop]; omega) (Nat.le_refl _)]
  rfl

theorem tokenize_present (fuel : Nat) (s : JsString) : ∀ t ∈ tokenize fuel s, t.text ≠ [] := by
  induction fuel generalizing s with
  | zero => exact fun t none => (List.not_mem_nil none).elim
  | succ fuel ih =>
    intro t member
    rw [tokenize] at member
    cases next : nextToken s with
    | none =>
      rw [next] at member
      cases member
    | some found =>
      obtain ⟨kind, n⟩ := found
      rw [next] at member
      obtain ⟨positive, present⟩ := nextToken_takes next
      rcases List.mem_cons.1 member with rfl | later
      · intro none
        have length := congrArg List.length none
        rw [List.length_take, List.length_nil] at length
        omega
      · exact ih _ t later

theorem significant_none (stop : nextToken s = none) : significant s = [] := by
  unfold significant
  rw [tokens_none stop]
  rfl

theorem significant_trivia (next : nextToken s = some (kind, n)) (trivia : kind = .space ∨ kind = .comment) :
    significant s = significant (s.drop n) := by
  unfold significant
  rw [tokens_some next, List.filter_cons_of_neg]
  rcases trivia with rfl | rfl <;> simp [Token.isTrivia]

theorem significant_token (next : nextToken s = some (kind, n)) (code : kind ≠ .space ∧ kind ≠ .comment) :
    significant s = { kind, text := s.take n } :: significant (s.drop n) := by
  unfold significant
  rw [tokens_some next, List.filter_cons_of_pos]
  simp [Token.isTrivia, code]

end Tokens

section Trivia

variable {s rest : JsString}

theorem afterBlock_length (s : JsString) : (afterBlock s).length ≤ s.length := by
  fun_induction afterBlock s
  case case1 => simp only [List.length_cons]; omega
  case case2 ih => simp only [List.length_cons]; omega
  case case3 => exact Nat.le_refl _

theorem afterBlock_eq {n : Nat} (close : closeBlock s = some n) : afterBlock s = s.drop n := by
  fun_induction closeBlock s generalizing n with
  | case1 => cases close
  | case2 => cases close
  | case3 => cases close
  | case4 c d rest _ closes =>
    cases close
    obtain ⟨rfl, rfl⟩ := closes
    rfl
  | case5 c d rest nonzero other ih =>
    obtain ⟨inner, found, rfl⟩ := Option.map_eq_some_iff.1 close
    rw [afterBlock]
    · exact ih found
    · intro more same ends
      exact other ⟨same, (List.cons.inj ends).1⟩

theorem stripFrom_fuel (fuel more : Nat) (s : JsString) (enough : s.length < fuel) (enough' : s.length < more) :
    stripFrom fuel s = stripFrom more s := by
  induction fuel generalizing more s with
  | zero => omega
  | succ fuel ih =>
    cases more with
    | zero => omega
    | succ more =>
      have shorter := (List.dropWhile_suffix isJsSpace (l := s)).length_le
      simp only [stripFrom]
      split
      · rename_i line is
        rw [is] at shorter
        have less := (List.dropWhile_suffix (fun c : Nat => c != 10) (l := line)).length_le
        simp only [List.length_cons] at shorter
        apply ih <;> rw [List.length_drop] <;> omega
      · rename_i body is
        rw [is] at shorter
        have less := afterBlock_length body
        simp only [List.length_cons] at shorter
        apply ih <;> omega
      · rfl

theorem strip_fuel {fuel : Nat} (enough : s.length < fuel) : stripLeadingTrivia s = stripFrom fuel s :=
  stripFrom_fuel _ _ s (Nat.lt_succ_self _) enough

theorem strip_congr {t : JsString} (same : s.dropWhile isJsSpace = t.dropWhile isJsSpace) :
    stripLeadingTrivia s = stripLeadingTrivia t := by
  rw [strip_fuel (show s.length < s.length + t.length + 1 by omega),
    strip_fuel (show t.length < s.length + t.length + 1 by omega)]
  simp only [stripFrom, same]

theorem strip_line (line : JsString) :
    stripLeadingTrivia (45 :: 45 :: line) = stripLeadingTrivia ((line.dropWhile (· != 10)).drop 1) := by
  have less : (line.dropWhile (· != 10)).length ≤ line.length := (List.dropWhile_suffix _).length_le
  rw [strip_fuel (show ((line.dropWhile (· != 10)).drop 1).length < line.length + 2 by rw [List.length_drop]; omega)]
  rfl

theorem strip_block (body : JsString) :
    stripLeadingTrivia (47 :: 42 :: body) = stripLeadingTrivia (afterBlock body) := by
  have less := afterBlock_length body
  rw [strip_fuel (show (afterBlock body).length < body.length + 2 by omega)]
  rfl

theorem strip_code {c : Nat} (code : isJsSpace c = false) (line : c ≠ 45) (block : c ≠ 47) :
    stripLeadingTrivia (c :: rest) = c :: rest := by
  rw [stripLeadingTrivia, stripFrom, List.dropWhile_cons_of_neg (by simp [code])]
  split
  · rename_i same
    exact absurd (List.cons.inj same).1 line
  · rename_i same
    exact absurd (List.cons.inj same).1 block
  · rfl

theorem jsSpace_of_sqlSpace {c : Nat} (space : isSqlSpace c = true) : isJsSpace c = true := by
  simp only [isSqlSpace, isJsSpace, Bool.or_eq_true, Bool.and_eq_true, decide_eq_true_eq, beq_iff_eq] at space ⊢
  omega

theorem not_trivia {c : CodeUnit} {kind : TokenKind} {n : Nat} (next : tokenFrom c rest = some (kind, n))
    (trivia : kind = .space ∨ kind = .comment) :
    (isSqlSpace c = true ∧ c ≠ 11) ∨ c = 65279 ∨ c = 45 ∨ c = 47 := by
  by_contra other
  obtain ⟨space, mark, hyphen, slash⟩ : ¬ (isSqlSpace c = true ∧ c ≠ 11) ∧ c ≠ 65279 ∧ c ≠ 45 ∧ c ≠ 47 := by
    refine ⟨fun is => other (.inl is), fun is => other (.inr (.inl is)), fun is => other (.inr (.inr (.inl is))),
      fun is => other (.inr (.inr (.inr is)))⟩
  have apart : ∀ {kind' : TokenKind} {opened : Nat} {close : Option Nat}, kind' ≠ .space → kind' ≠ .comment →
      closed kind' opened rest close ≠ (kind, n) := by
    intro kind' opened close space comment token
    obtain ⟨_, kinds⟩ := closed_token token
    rcases trivia with rfl | rfl <;> rcases kinds with is | is
    · exact space is.symm
    · cases is
    · exact comment is.symm
    · cases is
  unfold tokenFrom at next
  by_cases zero : c = 0
  · rw [if_pos zero] at next
    cases next
  rw [if_neg zero, if_neg space, if_neg mark, if_neg hyphen, if_neg slash] at next
  by_cases apostrophe : c = 39
  · rw [if_pos apostrophe] at next
    exact apart (by decide) (by decide) (Option.some.inj next)
  rw [if_neg apostrophe] at next
  by_cases double : c = 34 ∨ c = 96
  · rw [if_pos double] at next
    exact apart (by decide) (by decide) (Option.some.inj next)
  rw [if_neg double] at next
  by_cases bracket : c = 91
  · rw [if_pos bracket] at next
    exact apart (by decide) (by decide) (Option.some.inj next)
  rw [if_neg bracket] at next
  by_cases number : isDigit c = true ∨ (c = 46 ∧ rest.head?.any isDigit = true)
  · rw [if_pos number] at next
    cases next
    simp at trivia
  rw [if_neg number] at next
  by_cases parameter : c = 63
  · rw [if_pos parameter] at next
    cases next
    simp at trivia
  rw [if_neg parameter] at next
  by_cases sigil : c = 36 ∨ c = 64 ∨ c = 58 ∨ c = 35
  · rw [if_pos sigil] at next
    obtain ⟨rfl, _⟩ := Prod.mk.inj (Option.some.inj next)
    rcases variableTail_kind false rest with is | is <;> rw [is] at trivia <;> simp at trivia
  rw [if_neg sigil] at next
  by_cases blob : (c = 88 ∨ c = 120) ∧ rest.head? = some 39
  · rw [if_pos blob] at next
    obtain ⟨_, kinds⟩ := closed_token (Option.some.inj next)
    rcases kinds with rfl | rfl
    · split at trivia <;> simp at trivia
    · simp at trivia
  rw [if_neg blob] at next
  by_cases unit : isIdUnit c = true
  · rw [if_pos unit] at next
    cases next
    simp at trivia
  rw [if_neg unit] at next
  by_cases punctuation : c ∈ punctuationUnits
  · rw [if_pos punctuation] at next
    cases next
    simp at trivia
  · rw [if_neg punctuation] at next
    cases next
    simp at trivia

/-- Trivia that SQLite skips before another token is stripped. -/
theorem strip_trivia {kind : TokenKind} {n : Nat} (next : nextToken s = some (kind, n))
    (trivia : kind = .space ∨ kind = .comment) (more : nextToken (s.drop n) ≠ none) :
    stripLeadingTrivia s = stripLeadingTrivia (s.drop n) := by
  cases s with
  | nil => cases next
  | cons c rest =>
  change tokenFrom c rest = some (kind, n) at next
  rcases not_trivia next trivia with space | rfl | rfl | rfl
  · unfold tokenFrom at next
    by_cases zero : c = 0
    · rw [if_pos zero] at next
      cases next
    rw [if_neg zero, if_pos space] at next
    cases next
    have whole := (spanLength_text space.1 : (c :: rest).take _ = _ ∧ _)
    rw [whole.2]
    exact strip_congr (by
      rw [List.dropWhile_cons_of_pos (jsSpace_of_sqlSpace space.1)]
      conv_lhs => rw [← List.takeWhile_append_dropWhile (p := isSqlSpace) (l := rest)]
      exact List.dropWhile_append_of_pos fun d member => jsSpace_of_sqlSpace (List.mem_takeWhile_imp member))
  · have is : some (TokenKind.space, 1) = some (kind, n) := next
    cases is
    exact strip_congr (List.dropWhile_cons_of_pos (by decide))
  · cases rest with
    | nil =>
      have is : some (TokenKind.punctuation, 1) = some (kind, n) := next
      cases is
      simp at trivia
    | cons d line =>
      by_cases double : d = 45
      · subst double
        have is : some (TokenKind.comment, 2 + spanLength (fun d => d != 0 && d != 10) line) = some (kind, n) := next
        cases is
        have dropped : (45 :: 45 :: line).drop (2 + spanLength (fun d => d != 0 && d != 10) line) =
            line.dropWhile fun d => d != 0 && d != 10 := by
          rw [Nat.add_comm, List.drop_succ_cons, List.drop_succ_cons, drop_spanLength]
        rw [dropped] at more ⊢
        rw [strip_line]
        cases left : line.dropWhile fun d => d != 0 && d != 10 with
        | nil =>
          rw [left] at more
          exact absurd rfl more
        | cons e after =>
          rw [left] at more
          have stop : (line.dropWhile fun d => d != 0 && d != 10).head? = some e := by rw [left]; rfl
          have ends : e = 10 := by
            by_contra other
            have stuck := List.head?_dropWhile_not (fun d : Nat => d != 0 && d != 10) line
            rw [left] at stuck
            have zero : e = 0 := by simpa [other] using stuck
            exact more (nextToken_stop (.inr (by rw [zero]; rfl)))
          subst ends
          have taken := takeWhile_line stop
          have one := List.takeWhile_append_dropWhile (p := fun d : Nat => d != 0 && d != 10) (l := line)
          have two := List.takeWhile_append_dropWhile (p := fun d : Nat => d != 10) (l := line)
          have same : line.dropWhile (· != 10) = 10 :: after := by
            rw [left, taken] at one
            exact (List.append_cancel_left (one.trans two.symm)).symm
          rw [same]
          exact strip_congr (List.dropWhile_cons_of_pos (by decide)).symm
      · have is : some (TokenKind.punctuation, 1) = some (kind, n) := by
          rw [← next]
          simp [tokenFrom, isSqlSpace, double]
        cases is
        simp at trivia
  · cases rest with
    | nil =>
      have is : some (TokenKind.punctuation, 1) = some (kind, n) := next
      cases is
      simp at trivia
    | cons d body =>
      by_cases star : d = 42
      · subst star
        cases body with
        | nil =>
          have is : some (TokenKind.punctuation, 1) = some (kind, n) := next
          cases is
          simp at trivia
        | cons e after =>
          by_cases nul : e = 0
          · have is : some (TokenKind.punctuation, 1) = some (kind, n) := by
              rw [← next]
              simp [tokenFrom, isSqlSpace, nul]
            cases is
            simp at trivia
          rw [strip_block]
          cases close : closeBlock (e :: after) with
          | some length =>
            have is : some (TokenKind.comment, 2 + length) = some (kind, n) := by
              rw [← next]
              simp [tokenFrom, isSqlSpace, nul, close]
            cases is
            rw [afterBlock_eq close, Nat.add_comm]
            rfl
          | none =>
            have is : some (TokenKind.comment, 2 + untilEnd (e :: after)) = some (kind, n) := by
              rw [← next]
              simp [tokenFrom, isSqlSpace, nul, close]
            cases is
            rw [Nat.add_comm] at more
            refine absurd (nextToken_stop ?_) more
            change (e :: after).drop (untilEnd (e :: after)) = [] ∨ ((e :: after).drop (untilEnd (e :: after))).head? = some 0
            rw [untilEnd, drop_spanLength]
            cases left : (e :: after).dropWhile (· != 0) with
            | nil => exact .inl rfl
            | cons f others =>
              have stuck := List.head?_dropWhile_not (fun d : Nat => d != 0) (e :: after)
              rw [left] at stuck
              exact .inr (by simpa using stuck)
      · have is : some (TokenKind.punctuation, 1) = some (kind, n) := by
          rw [← next]
          simp [tokenFrom, isSqlSpace, star]
        cases is
        simp at trivia

/-- The first token that is no trivia, where it is a word, is where the stripped text begins. -/
theorem strip_token (s : JsString) {t : Token} {ts : List Token} (first : significant s = t :: ts)
    (bare : t.kind = .bare) (letter : t.text.head?.any isLetter = true) :
    ∃ rest, stripLeadingTrivia s = t.text ++ rest ∧ significant rest = ts ∧ (∀ c ∈ t.text, isIdUnit c = true) ∧
      rest.head?.any isIdUnit = false := by
  obtain ⟨size, is⟩ : ∃ size, s.length = size := ⟨_, rfl⟩
  induction size using Nat.strong_induction_on generalizing s with
  | _ size ih =>
    cases next : nextToken s with
    | none =>
      rw [significant_none next] at first
      cases first
    | some found =>
      obtain ⟨kind, n⟩ := found
      obtain ⟨positive, present⟩ := nextToken_takes next
      have shorter : (s.drop n).length < size := by
        rw [List.length_drop]
        omega
      by_cases trivia : kind = .space ∨ kind = .comment
      · rw [significant_trivia next trivia] at first
        obtain ⟨rest, stripped, others⟩ := ih _ shorter (s.drop n) first rfl
        refine ⟨rest, ?_, others⟩
        rw [← stripped]
        apply strip_trivia next trivia
        intro stop
        rw [significant_none stop] at first
        cases first
      · rw [significant_token next (by simpa using trivia)] at first
        obtain ⟨rfl, rfl⟩ := List.cons.inj first
        cases s with
        | nil => cases next
        | cons c rest =>
          obtain ⟨_, takes⟩ := tokenFrom_takes next
          obtain ⟨unit, rfl⟩ := takes bare
          have whole := (spanLength_text unit : (c :: rest).take _ = _ ∧ _)
          dsimp only at letter ⊢
          rw [whole.1, List.takeWhile_cons_of_pos unit] at letter ⊢
          rw [whole.2]
          have first : isLetter c = true := by simpa using letter
          refine ⟨rest.dropWhile isIdUnit, ?_, rfl, ?_, ?_⟩
          · rw [List.cons_append, List.takeWhile_append_dropWhile]
            simp only [isLetter, isUpper, isLower, Bool.or_eq_true, Bool.and_eq_true, decide_eq_true_eq] at first
            apply strip_code
            · simp only [isJsSpace, Bool.or_eq_false_iff, Bool.and_eq_false_iff, decide_eq_false_iff_not,
                beq_eq_false_iff_ne]
              omega
            · omega
            · omega
          · intro d member
            rcases List.mem_cons.1 member with rfl | later
            · exact unit
            · exact List.mem_takeWhile_imp later
          · cases left : rest.dropWhile isIdUnit with
            | nil => rfl
            | cons d others =>
              have stuck := List.head?_dropWhile_not isIdUnit rest
              rw [left] at stuck
              simpa using stuck

end Trivia

end DoRuntime.Sql
