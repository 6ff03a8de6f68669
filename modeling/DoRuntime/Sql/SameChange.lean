import DoRuntime.Sql.Classified

namespace DoRuntime.Sql

open DoRuntime.Js DoRuntime.Js.Re Pattern
open DoRuntime.Storage.CachedSqlite

/-- A text without NUL whose white space is SQLite's too. -/
def Plain (s : JsString) : Prop := ∀ c ∈ s, c ≠ 0 ∧ (isJsSpace c = true → isSqlSpace c = true ∧ c ≠ 11)

/-- Where a word or a name ends. -/
def Stops (r : JsString) : Prop := ∀ c, r.head? = some c → isJsSpace c = true ∨ c = 59

section Tokens

variable {c opening closing : Nat} {s w r run content name : JsString}

theorem Plain.left (plain : Plain (w ++ r)) : Plain w := fun c member => plain c (List.mem_append_left r member)

theorem Plain.right (plain : Plain (w ++ r)) : Plain r := fun c member => plain c (List.mem_append_right w member)

theorem Plain.nonzero (plain : Plain s) : 0 ∉ s := fun member => (plain 0 member).1 rfl

theorem IsRun.stops (isRun : IsRun run) : Stops (run ++ r) := fun c first => .inl (isRun.spaced c first)

theorem Stops.not_id (stops : Stops r) (plain : Plain r) : r.head?.any isIdUnit = false := by
  cases first : r.head? with
  | none => rfl
  | some c =>
    rcases stops c first with space | rfl
    · exact not_id_of_space ((plain c (List.mem_of_head? first)).2 space).1
    · rfl

theorem Stops.head_ne (stops : Stops r) (code : isJsSpace c = false) (other : c ≠ 59) : r.head? ≠ some c := by
  intro first
  rcases stops c first with space | semicolon
  · rw [space] at code
    cases code
  · exact other semicolon

theorem significant_spaces (plain : Plain s) : significant s = significant (s.dropWhile isSqlSpace) := by
  cases s with
  | nil => rfl
  | cons c s =>
    cases space : isSqlSpace c
    · rw [List.dropWhile_cons_of_neg (by simp [space])]
    · have unit := plain c List.mem_cons_self
      have next : nextToken (c :: s) = some (.space, 1 + spanLength isSqlSpace s) := by
        change tokenFrom c s = _
        unfold tokenFrom
        rw [if_neg unit.1, if_pos ⟨space, (unit.2 (jsSpace_of_sqlSpace space)).2⟩]
      rw [significant_trivia next (.inl rfl), (spanLength_text space).2, List.dropWhile_cons_of_pos space]

theorem significant_run (plain : Plain (run ++ r)) (spaces : ∀ c ∈ run, isJsSpace c = true) :
    significant (run ++ r) = significant r := by
  have skipped : (run ++ r).dropWhile isSqlSpace = r.dropWhile isSqlSpace :=
    List.dropWhile_append_of_pos fun c member => ((plain.left c member).2 (spaces c member)).1
  rw [significant_spaces plain, skipped, ← significant_spaces plain.right]

theorem significant_word (starts : isLetter c = true ∨ c = 95) (units : ∀ d ∈ w, isIdUnit d = true)
    (ends : r.head?.any isIdUnit = false) (quote : r.head? ≠ some 39) :
    significant (c :: (w ++ r)) = ⟨.bare, c :: w⟩ :: significant r := by
  have range : (65 ≤ c ∧ c ≤ 90) ∨ (97 ≤ c ∧ c ≤ 122) ∨ c = 95 := by
    simp only [isLetter, isUpper, isLower, Bool.or_eq_true, Bool.and_eq_true, decide_eq_true_eq] at starts
    omega
  have unit : isIdUnit c = true := by
    rcases starts with letter | rfl
    · exact isIdUnit_of_letter letter
    · rfl
  have space : isSqlSpace c = false := by
    simp only [isSqlSpace, Bool.or_eq_false_iff, Bool.and_eq_false_iff, decide_eq_false_iff_not, beq_eq_false_iff_ne]
    omega
  have digit : isDigit c = false := by
    simp only [isDigit, Bool.and_eq_false_iff, decide_eq_false_iff_not]
    omega
  have blob : (w ++ r).head? ≠ some 39 := by
    cases w with
    | nil => exact quote
    | cons d w =>
      intro first
      have apostrophe := units d List.mem_cons_self
      rw [show d = 39 from Option.some.inj first] at apostrophe
      cases apostrophe
  have next : nextToken (c :: (w ++ r)) = some (.bare, 1 + spanLength isIdUnit (w ++ r)) := by
    change tokenFrom c (w ++ r) = _
    unfold tokenFrom
    have apart : ∀ d : Nat, d < 65 ∨ d = 91 ∨ d = 96 ∨ d = 65279 → c ≠ d := by
      intro d other same
      omega
    rw [if_neg (apart 0 (by decide)), if_neg (by simp [space]), if_neg (apart 65279 (by decide)),
      if_neg (apart 45 (by decide)), if_neg (apart 47 (by decide)), if_neg (apart 39 (by decide)),
      if_neg (not_or.2 ⟨apart 34 (by decide), apart 96 (by decide)⟩), if_neg (apart 91 (by decide)),
      if_neg (by simp [digit, apart 46 (by decide)]), if_neg (apart 63 (by decide)),
      if_neg (by simp [apart 36 (by decide), apart 64 (by decide), apart 58 (by decide), apart 35 (by decide)]),
      if_neg (fun is => blob is.2), if_pos unit]
  have taken : (w ++ r).takeWhile isIdUnit = w ∧ (w ++ r).dropWhile isIdUnit = r := by
    rw [List.takeWhile_append_of_pos units, List.dropWhile_append_of_pos units]
    cases r with
    | nil => simp
    | cons d r =>
      have stop : ¬ isIdUnit d = true := by simpa using ends
      rw [List.takeWhile_cons_of_neg stop, List.dropWhile_cons_of_neg stop, List.append_nil]
      exact ⟨rfl, rfl⟩
  have text : (c :: (w ++ r)).take _ = _ ∧ _ := spanLength_text unit
  rw [significant_token next (by simp), text.1, text.2, List.takeWhile_cons_of_pos unit, taken.1, taken.2]

theorem closeDoubled_content (nonzero : 0 ∉ content) (absent : closing ∉ content) (delimiter : closing ≠ 0)
    (single : r.head? ≠ some closing) : closeDoubled closing (content ++ closing :: r) = some (content.length + 1) := by
  induction content with
  | nil =>
    rw [List.nil_append, closeDoubled.eq_def]
    simp only [delimiter, if_false, if_true]
    cases r with
    | nil => rfl
    | cons d r =>
      have other : d ≠ closing := fun same => single (congrArg some same)
      simp [other]
  | cons c content ih =>
    obtain ⟨positive, rest⟩ := not_or.1 fun is => nonzero (List.mem_cons.2 is)
    obtain ⟨other, rest'⟩ := not_or.1 fun is => absent (List.mem_cons.2 is)
    rw [List.cons_append, closeDoubled_other (Ne.symm positive) (Ne.symm other), ih rest rest']
    rfl

theorem closePlain_content (nonzero : 0 ∉ content) (absent : closing ∉ content) (delimiter : closing ≠ 0) :
    closePlain closing (content ++ closing :: r) = some (content.length + 1) := by
  induction content with
  | nil => simp [closePlain, delimiter]
  | cons c content ih =>
    obtain ⟨positive, rest⟩ := not_or.1 fun is => nonzero (List.mem_cons.2 is)
    obtain ⟨other, rest'⟩ := not_or.1 fun is => absent (List.mem_cons.2 is)
    rw [List.cons_append, closePlain, if_neg (Ne.symm positive), if_neg (Ne.symm other), ih rest rest']
    rfl

theorem nextToken_quoted (closes : closingQuote opening = some closing) (nonzero : 0 ∉ content)
    (absent : closing ∉ content) (stops : Stops r) : ∃ kind, (kind = .quoted ∨ kind = .string) ∧
      nextToken (opening :: (content ++ closing :: r)) = some (kind, content.length + 2) := by
  have size : 1 + (content.length + 1) = content.length + 2 := by omega
  have doubled : ∀ kind, closing ≠ 0 → isJsSpace closing = false → closing ≠ 59 →
      closed kind 1 (content ++ closing :: r) (closeDoubled closing (content ++ closing :: r)) =
        (kind, content.length + 2) := by
    intro kind delimiter code other
    rw [closeDoubled_content nonzero absent delimiter (stops.head_ne code other), closed, size]
  rcases closingQuote_cases closes with ⟨rfl, rfl | rfl | rfl⟩ | ⟨rfl, rfl⟩
  · exact ⟨.quoted, .inl rfl, congrArg some (doubled .quoted (by decide) (by decide) (by decide))⟩
  · exact ⟨.string, .inr rfl, congrArg some (doubled .string (by decide) (by decide) (by decide))⟩
  · exact ⟨.quoted, .inl rfl, congrArg some (doubled .quoted (by decide) (by decide) (by decide))⟩
  · refine ⟨.quoted, .inl rfl, ?_⟩
    change some (closed .quoted 1 _ (closePlain 93 _)) = _
    rw [closePlain_content nonzero absent (by decide), closed, size]

/-- The code's pattern of a name and SQLite's tokenizer end a name at the same place. -/
theorem significant_name (isName : IsName name) (plain : Plain (name ++ r)) (stops : Stops r) :
    ∃ n, n.text = name ∧ n.savepoint = some (savepointName name) ∧ significant (name ++ r) = n :: significant r := by
  have folded : savepointName name = toLowerCase (dequote name) := savepointName_dequote ⟨name, isName⟩
  rw [folded]
  rcases isName with ⟨opening, closing, content, closes, absent, rfl⟩ | ⟨first, rest, rfl, starts, units⟩
  · have nonzero : 0 ∉ content := fun member => plain.left.nonzero (by simp [member])
    obtain ⟨kind, kinds, next⟩ := nextToken_quoted closes nonzero absent stops
    refine ⟨⟨kind, opening :: (content ++ [closing])⟩, rfl, ?_, ?_⟩
    · rcases kinds with rfl | rfl <;> rfl
    · have whole : opening :: (content ++ [closing]) ++ r = opening :: (content ++ closing :: r) := by simp
      have code : kind ≠ .space ∧ kind ≠ .comment := by rcases kinds with rfl | rfl <;> decide
      have size : (opening :: (content ++ [closing])).length = content.length + 2 := by simp
      rw [whole, significant_token next code, ← whole, ← size, List.take_left, List.drop_left]
  · refine ⟨⟨.bare, first :: rest⟩, rfl, rfl, ?_⟩
    apply significant_word starts
    · intro d member
      rcases units d member with word | rfl
      · simp only [isWordUnit, isIdUnit, Bool.or_eq_true] at word ⊢
        tauto
      · rfl
    · exact stops.not_id plain.right
    · exact stops.head_ne (by decide) (by decide)

end Tokens

section Reads

variable {s w r run post name : JsString} {n t : Token} {ts : List Token}

/-- The tokens before the first semicolon. -/
def Reads (r : JsString) (ts : List Token) : Prop := (significant r).takeWhile (fun t => t.text != [59]) = ts

theorem Reads.token (reads : Reads r ts) (other : n.text ≠ [59]) (token : significant s = n :: significant r) :
    Reads s (n :: ts) := by
  unfold Reads at reads ⊢
  rw [token, List.takeWhile_cons_of_pos (by simpa using other), reads]

theorem Reads.after (reads : Reads r ts) (plain : Plain (run ++ r)) (isRun : IsRun run) : Reads (run ++ r) ts := by
  unfold Reads at reads ⊢
  rw [significant_run plain isRun.2, reads]

theorem letters_stop (letters : ∀ c ∈ w, isLetter c = true) : w ≠ [59] := by
  rintro rfl
  have letter := letters 59 List.mem_cons_self
  cases letter

theorem Reads.word {keyword : String} (reads : Reads r ts) (plain : Plain r) (stops : Stops r)
    (listed : keyword ∈ ["TRANSACTION", "TO", "SAVEPOINT"]) (same : toLowerCase w = toLowerCase (js keyword)) :
    ∃ n : Token, n.isWord keyword = true ∧ Reads (w ++ r) (n :: ts) := by
  have lower : ∀ keyword ∈ ["TRANSACTION", "TO", "SAVEPOINT"], (∀ c ∈ toLowerCase (js keyword), isLower c = true) ∧
      js keyword ≠ [] := by decide
  have letters := letters_of_keyword (lower keyword listed).1 same
  refine ⟨⟨.bare, w⟩, by simp [Token.isWord, same], reads.token (letters_stop letters) ?_⟩
  cases w with
  | nil => exact absurd (List.map_eq_nil_iff.1 same.symm) (lower keyword listed).2
  | cons c w =>
    apply significant_word (.inl (letters c List.mem_cons_self))
    · exact fun d member => isIdUnit_of_letter (letters d (List.mem_cons_of_mem c member))
    · exact stops.not_id plain
    · exact stops.head_ne (by decide) (by decide)

theorem Reads.named (reads : Reads r ts) (plain : Plain (name ++ r)) (stops : Stops r) (isName : IsName name) :
    ∃ n : Token, n.savepoint = some (savepointName name) ∧ Reads (name ++ r) (n :: ts) := by
  obtain ⟨n, text, named, token⟩ := significant_name isName plain stops
  refine ⟨n, named, reads.token (fun semicolon => ?_) token⟩
  rw [text] at semicolon
  rcases isName with ⟨opening, closing, content, _, _, rfl⟩ | ⟨first, rest, rfl, starts, _⟩
  · simp at semicolon
  · obtain ⟨rfl, _⟩ := List.cons.inj semicolon
    rcases starts with letter | same
    · cases letter
    · cases same

/-- An optional keyword is one token or none. -/
def Optional (keyword : String) (os : List Token) : Prop := os = [] ∨ ∃ o : Token, os = [o] ∧ o.isWord keyword = true

theorem Reads.optional {index : Nat} {keyword : String} (reads : Reads r ts) (plain : Plain (w ++ r)) (stops : Stops r)
    (listed : keyword ∈ ["TRANSACTION", "TO", "SAVEPOINT"]) (fits : w ∈ (optionally index (Re.word keyword)).language) :
    ∃ os, Optional keyword os ∧ Reads (w ++ r) (os ++ ts) := by
  rcases language_optionally fits with rfl | ⟨run, spaces, kw, named, rfl⟩
  · exact ⟨[], .inl rfl, reads⟩
  · rw [List.append_assoc] at plain ⊢
    obtain ⟨o, is, here⟩ := reads.word plain.right.right stops listed (language_word keyword named)
    exact ⟨[o], .inr ⟨o, rfl, is⟩, here.after plain (language_spaces1 spaces)⟩

theorem stops_optionally {index : Nat} {keyword : RegExp} (fits : w ∈ (optionally index keyword).language)
    (stops : Stops r) : Stops (w ++ r) := by
  rcases language_optionally fits with rfl | ⟨run, spaces, kw, _, rfl⟩
  · exact stops
  · rw [List.append_assoc]
    exact (language_spaces1 spaces).stops

theorem reads_tail (plain : Plain post) (tail : IsTail post) : Reads post [] ∧ Stops post := by
  obtain ⟨a, semi, b, rfl, spaces, semicolon, spaces'⟩ := tail
  have blank : significant b = [] := by
    have ended := significant_run (show Plain (b ++ []) by simpa using plain.right.right) spaces'
    rw [List.append_nil] at ended
    rw [ended]
    rfl
  have stops : Stops (semi ++ b) := by
    rcases semicolon with rfl | rfl
    · exact fun c first => .inl (spaces' c (List.mem_of_head? first))
    · exact fun c first => .inr (Option.some.inj first).symm
  constructor
  · unfold Reads
    rw [significant_run plain spaces]
    rcases semicolon with rfl | rfl
    · rw [List.nil_append, blank, List.takeWhile_nil]
    · have next : nextToken ([59] ++ b) = some (.punctuation, 1) := rfl
      rw [significant_token next (by decide)]
      rfl
  · cases a with
    | nil => exact stops
    | cons c a => exact fun d first => .inl (Option.some.inj first ▸ spaces c List.mem_cons_self)

end Reads

section Grammar

variable {t o n : Token} {os ps : List Token} {name : JsString} {change : StateChange} {keyword other : String}

theorem isWord_apart (is : t.isWord keyword = true) (apart : toLowerCase (js keyword) ≠ toLowerCase (js other)) :
    t.isWord other = false := by
  simp only [Token.isWord, Bool.and_eq_true, decide_eq_true_eq, Bool.and_eq_false_iff, decide_eq_false_iff_not] at is ⊢
  exact .inr fun same => apart (is.2.symm.trans same)

theorem nameAlone_skip {make : Option JsString → StateChange} (named : n.savepoint = some name)
    (optional : Optional "SAVEPOINT" os) (reads : nameAlone make (skipWord "SAVEPOINT" (os ++ [n])) = some change) :
    change = make (some name) := by
  rcases optional with rfl | ⟨o, rfl, is⟩
  · rw [List.nil_append, skipWord] at reads
    split at reads
    · cases reads
    · rw [nameAlone, named] at reads
      exact (Option.some.inj reads).symm
  · rw [List.singleton_append, skipWord, if_pos is, nameAlone, named] at reads
    exact (Option.some.inj reads).symm

theorem sqliteChange_begin (is : t.isWord "BEGIN" = true) (reads : sqliteChange (t :: os) = some change) :
    change = .begin none := by
  rw [sqliteChange, if_pos is] at reads
  split at reads <;> cases reads
  rfl

theorem sqliteChange_commit (is : t.isWord keyword = true) (listed : keyword ∈ ["COMMIT", "END"])
    (reads : sqliteChange (t :: os) = some change) : change = .commit none := by
  have apart : ∀ keyword ∈ ["COMMIT", "END"], toLowerCase (js keyword) ≠ toLowerCase (js "BEGIN") := by decide
  have ends : (t.isWord "COMMIT" || t.isWord "END") = true := by
    simp only [List.mem_cons, List.not_mem_nil, or_false] at listed
    rcases listed with rfl | rfl
    · rw [is, Bool.true_or]
    · rw [is, Bool.or_true]
  rw [sqliteChange, if_neg (by simp [isWord_apart is (apart keyword listed)]), if_pos ends] at reads
  split at reads <;> cases reads
  rfl

theorem sqliteChange_other (is : t.isWord keyword = true) (listed : keyword ∈ ["ROLLBACK", "SAVEPOINT", "RELEASE"]) :
    t.isWord "BEGIN" = false ∧ (t.isWord "COMMIT" || t.isWord "END") = false := by
  have apart : ∀ keyword ∈ ["ROLLBACK", "SAVEPOINT", "RELEASE"], ∀ other ∈ ["BEGIN", "COMMIT", "END"],
      toLowerCase (js keyword) ≠ toLowerCase (js other) := by decide
  have not : ∀ other ∈ ["BEGIN", "COMMIT", "END"], t.isWord other = false := fun other listed' =>
    isWord_apart is (apart keyword listed other listed')
  simp [not]

theorem skipTransaction_optional (optional : Optional "TRANSACTION" os) : skipTransaction os = [] := by
  rcases optional with rfl | ⟨o, rfl, is⟩
  · rfl
  · rw [skipTransaction, if_pos is]

theorem sqliteChange_rollback (is : t.isWord "ROLLBACK" = true) (optional : Optional "TRANSACTION" os)
    (reads : sqliteChange (t :: os) = some change) : change = .rollback none := by
  obtain ⟨begins, ends⟩ := sqliteChange_other is (by decide)
  rw [sqliteChange, if_neg (by simp [begins]), if_neg (by simp [ends]), if_pos is,
    skipTransaction_optional optional] at reads
  exact (Option.some.inj reads).symm

/-- The name of `trans_opt` is never the word that comes before a savepoint. -/
theorem skipTransaction_to {rest : List Token} (into : o.isWord "TO" = true) (optional : Optional "TRANSACTION" os)
    (present : rest ≠ []) : skipTransaction (os ++ o :: rest) = o :: rest := by
  rcases optional with rfl | ⟨x, rfl, is⟩
  · cases rest with
    | nil => exact absurd rfl present
    | cons y rest =>
      have other : o.isWord "TRANSACTION" = false := isWord_apart into (by decide)
      rw [List.nil_append, skipTransaction, if_neg (by simp [other])]
  · rw [List.singleton_append, skipTransaction, if_pos is, if_neg (by simp [into])]

theorem sqliteChange_rollbackTo (is : t.isWord "ROLLBACK" = true) (optional : Optional "TRANSACTION" os)
    (into : o.isWord "TO" = true) (optional' : Optional "SAVEPOINT" ps) (named : n.savepoint = some name)
    (reads : sqliteChange (t :: (os ++ o :: (ps ++ [n]))) = some change) : change = .rollback (some name) := by
  obtain ⟨begins, ends⟩ := sqliteChange_other is (by decide)
  rw [sqliteChange, if_neg (by simp [begins]), if_neg (by simp [ends]), if_pos is,
    skipTransaction_to into optional (by simp)] at reads
  dsimp only at reads
  rw [if_pos into] at reads
  exact nameAlone_skip named optional' reads

theorem sqliteChange_savepoint (is : t.isWord "SAVEPOINT" = true) (named : n.savepoint = some name)
    (reads : sqliteChange [t, n] = some change) : change = .begin (some name) := by
  obtain ⟨begins, ends⟩ := sqliteChange_other is (by decide)
  have rolls : t.isWord "ROLLBACK" = false := isWord_apart is (by decide)
  rw [sqliteChange, if_neg (by simp [begins]), if_neg (by simp [ends]), if_neg (by simp [rolls]), if_pos is, nameAlone,
    named] at reads
  exact (Option.some.inj reads).symm

theorem sqliteChange_release (is : t.isWord "RELEASE" = true) (optional : Optional "SAVEPOINT" os)
    (named : n.savepoint = some name) (reads : sqliteChange (t :: (os ++ [n])) = some change) :
    change = .commit (some name) := by
  obtain ⟨begins, ends⟩ := sqliteChange_other is (by decide)
  have rolls : t.isWord "ROLLBACK" = false := isWord_apart is (by decide)
  have saves : t.isWord "SAVEPOINT" = false := isWord_apart is (by decide)
  rw [sqliteChange, if_neg (by simp [begins]), if_neg (by simp [ends]), if_neg (by simp [rolls]),
    if_neg (by simp [saves]), if_pos is] at reads
  exact nameAlone_skip named optional reads

theorem sqliteChange_keyword (reads : sqliteChange (t :: os) = some change) :
    ∃ keyword ∈ transactionKeywords, t.isWord keyword = true := by
  by_contra none
  have other : ∀ keyword ∈ transactionKeywords, t.isWord keyword = false := fun keyword listed =>
    Bool.eq_false_iff.2 fun is => none ⟨keyword, listed, is⟩
  have unread : sqliteChange (t :: os) = Option.none := by
    rw [sqliteChange, if_neg (by simp [other "BEGIN" (by decide)]),
      if_neg (by simp [other "COMMIT" (by decide), other "END" (by decide)]),
      if_neg (by simp [other "ROLLBACK" (by decide)]), if_neg (by simp [other "SAVEPOINT" (by decide)]),
      if_neg (by simp [other "RELEASE" (by decide)])]
  rw [unread] at reads
  cases reads

end Grammar

section Agreement

variable {sql body post kw q : JsString} {t : Token} {ts : List Token} {change change' : StateChange}

theorem Reads.unique {r : JsString} {ts' : List Token} (one : Reads r ts) (two : Reads r ts') : ts = ts' :=
  Eq.trans (Eq.symm one) two

theorem afterBlock_suffix (s : JsString) : afterBlock s <:+ s := by
  fun_induction afterBlock s
  case case1 rest => exact ⟨[42, 47], rfl⟩
  case case2 ih => exact ih.trans (List.suffix_cons _ _)
  case case3 => exact List.suffix_rfl

theorem stripFrom_suffix (fuel : Nat) (s : JsString) : stripFrom fuel s <:+ s := by
  induction fuel generalizing s with
  | zero => exact List.suffix_rfl
  | succ fuel ih =>
    have spaces := List.dropWhile_suffix isJsSpace (l := s)
    rw [stripFrom]
    split
    · rename_i line is
      rw [is] at spaces
      have line' : line <:+ 45 :: 45 :: line := ⟨[45, 45], rfl⟩
      exact (ih _).trans ((List.drop_suffix _ _).trans ((List.dropWhile_suffix _).trans (line'.trans spaces)))
    · rename_i inside is
      rw [is] at spaces
      have inside' : inside <:+ 47 :: 42 :: inside := ⟨[47, 42], rfl⟩
      exact (ih _).trans ((afterBlock_suffix _).trans (inside'.trans spaces))
    · exact spaces

theorem first_word {keyword : String} (bare : t.kind = .bare) (letters : ∀ c ∈ t.text, isLetter c = true)
    (ends : body.head?.any isLetter = false) (listed : keyword ∈ transactionKeywords)
    (whole : t.text ++ body = kw ++ q) (same : toLowerCase kw = toLowerCase (js keyword)) (spaced : Spaced q) :
    t.isWord keyword = true ∧ body = q := by
  have lower : ∀ keyword ∈ transactionKeywords, ∀ c ∈ toLowerCase (js keyword), isLower c = true := by decide
  have letters' := letters_of_keyword (lower keyword listed) same
  obtain ⟨first, rest⟩ := letters_unique whole letters letters' ends spaced.not_letter
  rw [← first] at same
  exact ⟨(Token.isWord_iff bare).2 same, rest⟩

/-- What a pattern accepts behind the first word, SQLite reads as the same change or not at all. -/
theorem accepted_change (bare : t.kind = .bare) (letters : ∀ c ∈ t.text, isLetter c = true)
    (ends : body.head?.any isLetter = false) (plain : Plain (body ++ post)) (tail : IsTail post)
    (accepted : classifyStatement (t.text ++ body) = .ok change') (changes : change' ≠ .none)
    (read : Reads (body ++ post) ts) (reads : sqliteChange (t :: ts) = some change) : change = change' := by
  obtain ⟨ended, stops⟩ := reads_tail plain.right tail
  unfold classifyStatement at accepted
  split at accepted
  · rename_i found matched
    obtain ⟨kw, trans, run, o, sp, run', name, whole, same, trans', spaces, same', sp', spaces', named, group⟩ :=
      rollbackTo_spec matched
    obtain ⟨is, rfl⟩ := first_word bare letters ends (by decide) whole same (spaced_optionally trans' spaces.spaced)
    rw [groupOf, group] at accepted
    cases accepted
    simp only [List.append_assoc] at plain read
    have behind := plain.right.right.right.right
    obtain ⟨n, savepoint, here⟩ := ended.named behind.right stops (language_name named)
    have here := here.after behind spaces'
    obtain ⟨ps, optional', here⟩ := here.optional plain.right.right.right spaces'.stops (by decide) sp'
    have stop := stops_optionally sp' (spaces'.stops (r := name ++ post))
    obtain ⟨u, into, here⟩ := here.word plain.right.right.right stop (by decide) same'
    have here := here.after plain.right spaces
    obtain ⟨os, optional, here⟩ := here.optional plain spaces.stops (by decide) trans'
    rw [read.unique here] at reads
    exact sqliteChange_rollbackTo is optional into optional' savepoint reads
  split at accepted
  · rename_i matched
    obtain ⟨kw, trans, whole, same, trans'⟩ := rollback_spec matched
    obtain ⟨is, rfl⟩ := first_word bare letters ends (by decide) whole same (optionally_spaced trans')
    cases accepted
    obtain ⟨os, optional, here⟩ := ended.optional plain stops (by decide) trans'
    rw [List.append_nil] at here
    rw [read.unique here] at reads
    exact sqliteChange_rollback is optional reads
  split at accepted
  · rename_i found matched
    obtain ⟨kw, run, name, whole, same, spaces, named, group⟩ := savepoint_spec matched
    obtain ⟨is, rfl⟩ := first_word bare letters ends (by decide) whole same spaces.spaced
    rw [groupOf, group] at accepted
    cases accepted
    rw [List.append_assoc] at plain read
    obtain ⟨n, savepoint, here⟩ := ended.named plain.right stops (language_name named)
    rw [read.unique (here.after plain spaces)] at reads
    exact sqliteChange_savepoint is savepoint reads
  split at accepted
  · rename_i matched
    obtain ⟨kw, kind, trans, whole, same, kinds, trans'⟩ := begin_spec matched
    have spaced : Spaced (kind ++ trans) := by
      rcases kinds with rfl | ⟨run, word, spaces, rfl, _⟩
      · exact optionally_spaced trans'
      · rw [List.append_assoc]
        exact spaces.spaced
    obtain ⟨is, _⟩ := first_word bare letters ends (by decide) whole same spaced
    cases accepted
    exact sqliteChange_begin is reads
  split at accepted
  · rename_i found matched
    obtain ⟨kw, sp, run, name, whole, same, sp', spaces, named, group⟩ := release_spec matched
    obtain ⟨is, rfl⟩ := first_word bare letters ends (by decide) whole same (spaced_optionally sp' spaces.spaced)
    rw [groupOf, group] at accepted
    cases accepted
    simp only [List.append_assoc] at plain read
    obtain ⟨n, savepoint, here⟩ := ended.named plain.right.right stops (language_name named)
    have here := here.after plain.right spaces
    obtain ⟨os, optional, here⟩ := here.optional plain spaces.stops (by decide) sp'
    rw [read.unique here] at reads
    exact sqliteChange_release is optional savepoint reads
  split at accepted
  · rename_i matched
    obtain ⟨kw, trans, whole, ⟨keyword, listed, same⟩, trans'⟩ := commit_spec matched
    have among : ∀ keyword ∈ ["COMMIT", "END"], keyword ∈ transactionKeywords := by decide
    obtain ⟨is, _⟩ := first_word bare letters ends (among keyword listed) whole same (optionally_spaced trans')
    cases accepted
    exact sqliteChange_commit is listed reads
  split at accepted
  · cases accepted
  · cases accepted
    exact absurd rfl changes

/-- A transaction statement that is neither refused by the code nor by SQLite is the same change, with the same
    savepoint, to both. -/
theorem classification_agrees (plain : Plain sql) (reads : sqliteChange (statementTokens sql) = some change)
    (classified : classifyText sql = .ok change') : change' = change := by
  unfold statementTokens at reads
  cases first : significant sql with
  | nil =>
    rw [first] at reads
    cases reads
  | cons t ts =>
    rw [first] at reads
    by_cases semicolon : t.text = [59]
    · rw [List.takeWhile_cons_of_neg (by simp [semicolon])] at reads
      cases reads
    rw [List.takeWhile_cons_of_pos (by simp [semicolon])] at reads
    obtain ⟨keyword, listed, is⟩ := sqliteChange_keyword reads
    have lower : ∀ keyword ∈ transactionKeywords, (∀ c ∈ toLowerCase (js keyword), isLower c = true) := by decide
    obtain ⟨bare, same⟩ : t.kind = .bare ∧ toLowerCase t.text = toLowerCase (js keyword) := by
      simpa [Token.isWord] using is
    have letters := letters_of_keyword (lower keyword listed) same
    have member : t ∈ significant sql := first ▸ List.mem_cons_self
    have present : t.text ≠ [] := tokenize_present _ sql t (List.mem_filter.1 member).1
    have head : t.text.head?.any isLetter = true := by
      cases text : t.text with
      | nil => exact absurd text present
      | cons c rest => exact letters c (text ▸ List.mem_cons_self)
    obtain ⟨rest, stripped, rfl, _, ends⟩ := strip_token sql first bare head
    obtain ⟨body, post, statement, rfl, tail⟩ := statementOf_begins stripped letters present
    have ends' := head_ends rfl ends
    have behind : body ++ post <:+ sql := by
      have kept := stripFrom_suffix (sql.length + 1) sql
      rw [show stripFrom (sql.length + 1) sql = stripLeadingTrivia sql from rfl, stripped] at kept
      exact (List.suffix_append _ _).trans kept
    have plain' : Plain (body ++ post) := fun c among => plain c (behind.subset among)
    rw [classifyText, statement] at classified
    have changes : change' ≠ .none := by
      rintro rfl
      exact classifyStatement_closed (transactionKeyword_test listed same ends') classified
    exact (accepted_change bare letters (not_letter_of_ends ends') plain' tail classified changes rfl reads).symm

deriving instance DecidableEq for StateChange

theorem classification_agrees_quoted :
    classifyText (js "savepoint \"A b\" ;") = .ok (.begin (some (js "a b"))) := by
  have plain : Plain (js "savepoint \"A b\" ;") := by
    unfold Plain
    decide
  have reads : sqliteChange (statementTokens (js "savepoint \"A b\" ;")) = some (.begin (some (js "a b"))) := by
    decide +kernel
  have accepted : (classifyText (js "savepoint \"A b\" ;")).isOk = true := by decide +kernel
  cases classified : classifyText (js "savepoint \"A b\" ;") with
  | error refused =>
    rw [classified] at accepted
    cases accepted
  | ok change => rw [classification_agrees plain reads classified]

/-- A no-break space is white space to the pattern and part of a name to SQLite. -/
example : (classifyText (js "SAVEPOINT " ++ [160, 120])).toOption = some (.begin (some (js "x"))) ∧
    sqliteChange (statementTokens (js "SAVEPOINT " ++ [160, 120])) = some (.begin (some [160, 120])) := by
  decide +kernel

end Agreement

end DoRuntime.Sql
