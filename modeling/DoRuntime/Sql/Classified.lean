import DoRuntime.Sql.Trivia
import DoRuntime.Storage.CachesAgree

namespace DoRuntime.Sql

open DoRuntime.Js DoRuntime.Js.Re Pattern
open DoRuntime.Storage.CachedSqlite (StateChange savepointName dequote)

section Languages

variable {t : JsString}

theorem language_units (units : List Nat) {t : JsString}
    (fits : t ∈ (seqAll (units.map fun c => one (lowerUnit · == lowerUnit c)) : RegExp).language) :
    t.map lowerUnit = units.map lowerUnit := by
  induction units generalizing t with
  | nil => rw [show t = [] from fits]
  | cons c units ih =>
    cases units with
    | nil =>
      obtain ⟨x, same, rfl⟩ := fits
      simpa using same
    | cons d units =>
      obtain ⟨first, ⟨x, same, rfl⟩, others, later, rfl⟩ := Language.mem_mul.1 fits
      have rest := ih later
      simpa [rest] using same

theorem language_word (keyword : String) (fits : t ∈ (word keyword).language) :
    toLowerCase t = toLowerCase (js keyword) := language_units (js keyword) fits

theorem language_anyOf {options : List RegExp} (fits : t ∈ (anyOf options).language) : ∃ p ∈ options, t ∈ p.language := by
  have folded : ∀ (rest : List RegExp) (first : RegExp), t ∈ (rest.foldl alt first).language →
      t ∈ first.language ∨ ∃ p ∈ rest, t ∈ p.language := by
    intro rest
    induction rest with
    | nil => exact fun first fits => .inl fits
    | cons p rest ih =>
      intro first fits
      rcases ih (alt first p) fits with (one | two) | ⟨q, member, three⟩
      · exact .inl one
      · exact .inr ⟨p, List.mem_cons_self, two⟩
      · exact .inr ⟨q, List.mem_cons_of_mem _ member, three⟩
  cases options with
  | nil =>
    obtain ⟨x, never, _⟩ := fits
    cases never
  | cons first rest =>
    rcases folded rest first fits with one | ⟨p, member, two⟩
    · exact ⟨first, List.mem_cons_self, one⟩
    · exact ⟨p, List.mem_cons_of_mem _ member, two⟩

theorem language_words {options : List String} (fits : t ∈ (Re.words options).language) :
    ∃ keyword ∈ options, toLowerCase t = toLowerCase (js keyword) := by
  obtain ⟨p, member, inside⟩ := language_anyOf fits
  obtain ⟨keyword, listed, rfl⟩ := List.mem_map.1 member
  exact ⟨keyword, listed, language_word keyword inside⟩

theorem language_class {accepts : CodeUnit → Bool} (fits : t ∈ (star true (one accepts) : RegExp).language) :
    ∀ c ∈ t, accepts c = true := by
  obtain ⟨pieces, rfl, each⟩ := Language.mem_kstar.1 fits
  intro c member
  obtain ⟨piece, listed, inside⟩ := List.mem_flatten.1 member
  obtain ⟨x, accepted, rfl⟩ := each piece listed
  rw [List.mem_singleton.1 inside]
  exact accepted

/-- A text of white space, as a run between two words is. -/
def IsRun (t : JsString) : Prop := t ≠ [] ∧ ∀ c ∈ t, isJsSpace c = true

theorem language_spaces1 (fits : t ∈ spaces1.language) : IsRun t := by
  obtain ⟨first, ⟨x, space, rfl⟩, others, later, rfl⟩ := Language.mem_mul.1 fits
  refine ⟨by simp, fun c member => ?_⟩
  rcases List.mem_cons.1 member with rfl | rest
  · exact space
  · exact language_class later c rest

theorem language_optionally {index : Nat} {keyword : RegExp} (fits : t ∈ (optionally index keyword).language) :
    t = [] ∨ ∃ run ∈ spaces1.language, ∃ kw ∈ keyword.language, t = run ++ kw := by
  rcases fits with inside | none
  · obtain ⟨run, spaces, kw, named, rfl⟩ := Language.mem_mul.1 inside
    exact .inr ⟨run, spaces, kw, named, rfl⟩
  · exact .inl none

theorem language_quoted {opening closing : CodeUnit} {body : RegExp}
    (fits : t ∈ (seqAll [unit opening, body, unit closing]).language) :
    ∃ content ∈ body.language, t = opening :: (content ++ [closing]) := by
  obtain ⟨first, ⟨x, is, rfl⟩, others, later, rfl⟩ := Language.mem_mul.1 fits
  obtain ⟨content, inside, last, ⟨y, ends, rfl⟩, rfl⟩ := Language.mem_mul.1 later
  have opens : x = opening := by simpa using is
  have closes : y = closing := by simpa using ends
  exact ⟨content, inside, by rw [opens, closes]; rfl⟩

open DoRuntime.Storage.CachedSqlite in
theorem language_name (fits : t ∈ namePattern.language) : IsName t := by
  have quoted : ∀ {opening closing : CodeUnit}, closingQuote opening = some closing →
      t ∈ (seqAll [unit opening, star true (one (· != closing)), unit closing] : RegExp).language → IsName t := by
    intro opening closing closes fits
    obtain ⟨content, inside, rfl⟩ := language_quoted fits
    refine .inl ⟨opening, closing, content, closes, fun member => ?_, rfl⟩
    simpa using language_class inside closing member
  obtain ⟨p, member, inside⟩ := language_anyOf fits
  simp only [List.mem_cons, List.not_mem_nil, or_false] at member
  rcases member with rfl | rfl | rfl | rfl | rfl
  · exact quoted rfl inside
  · exact quoted rfl inside
  · exact quoted rfl inside
  · exact quoted rfl inside
  · obtain ⟨first, ⟨x, starts, rfl⟩, rest, later, rfl⟩ := Language.mem_mul.1 inside
    refine .inr ⟨x, rest, rfl, by simpa using starts, fun c among => ?_⟩
    have accepted := language_class later c among
    simp only [isWordUnit, Bool.or_eq_true, beq_iff_eq] at accepted ⊢
    tauto

end Languages

section Words

variable {w kw r q : JsString}

theorem letter_of_lower {c : Nat} (lower : isLower (lowerUnit c) = true) : isLetter c = true := by
  unfold lowerUnit at lower
  split at lower
  · rename_i upper
    simp [isLetter, upper]
  · simp [isLetter, lower]

/-- A keyword, in any case, is letters. -/
theorem letters_of_keyword {units : JsString} (lower : ∀ c ∈ units, isLower c = true) (same : toLowerCase kw = units) :
    ∀ c ∈ kw, isLetter c = true := by
  intro c member
  apply letter_of_lower
  apply lower
  rw [← same]
  exact List.mem_map.2 ⟨c, member, rfl⟩

/-- Two texts that begin with letters and go on otherwise begin with the same letters. -/
theorem letters_unique (whole : w ++ r = kw ++ q) (letters : ∀ c ∈ w, isLetter c = true)
    (letters' : ∀ c ∈ kw, isLetter c = true) (ends : r.head?.any isLetter = false)
    (ends' : q.head?.any isLetter = false) : w = kw ∧ r = q := by
  have taken : ∀ {u v : JsString}, (∀ c ∈ u, isLetter c = true) → v.head?.any isLetter = false →
      (u ++ v).takeWhile isLetter = u := by
    intro u v all stop
    rw [List.takeWhile_append_of_pos all]
    cases v with
    | nil => simp
    | cons c v => rw [List.takeWhile_cons_of_neg (by simpa using stop), List.append_nil]
  have same : w = kw := by
    rw [← taken letters ends, ← taken letters' ends', whole]
  subst same
  exact ⟨rfl, List.append_cancel_left whole⟩

theorem not_letter_of_space {c : Nat} (space : isJsSpace c = true) : isLetter c = false := by
  cases letter : isLetter c
  · rfl
  · simp only [isLetter, isUpper, isLower, isJsSpace, Bool.or_eq_true, Bool.and_eq_true, decide_eq_true_eq,
      beq_iff_eq] at letter space
    omega

/-- What may follow a keyword in the patterns: nothing, or white space first. -/
def Spaced (q : JsString) : Prop := ∀ c, q.head? = some c → isJsSpace c = true

theorem Spaced.not_letter (spaced : Spaced q) : q.head?.any isLetter = false := by
  cases first : q.head? with
  | none => rfl
  | some c => exact not_letter_of_space (spaced c first)

theorem IsRun.spaced (run : IsRun w) : Spaced (w ++ q) := by
  obtain ⟨present, spaces⟩ := run
  intro c first
  cases w with
  | nil => exact absurd rfl present
  | cons d w =>
    rw [List.cons_append, List.head?_cons] at first
    exact spaces c (Option.some.inj first ▸ List.mem_cons_self)

theorem spaced_nil : Spaced [] := fun _ none => by cases none

theorem spaced_optionally {index : Nat} {keyword : RegExp} (fits : w ∈ (optionally index keyword).language)
    (spaced : Spaced q) : Spaced (w ++ q) := by
  rcases language_optionally fits with rfl | ⟨run, spaces, kw, _, rfl⟩
  · exact spaced
  · rw [List.append_assoc]
    exact (language_spaces1 spaces).spaced

/-- The text begins with the keyword, which ends there. -/
def Begins (keyword : String) (s : JsString) : Prop :=
  ∃ kw q, s = kw ++ q ∧ toLowerCase kw = toLowerCase (js keyword) ∧ q.head?.any isLetter = false

theorem begins_of_spaced {keyword : String} (same : toLowerCase kw = toLowerCase (js keyword)) (spaced : Spaced q) :
    Begins keyword (kw ++ q) := ⟨kw, q, rfl, same, spaced.not_letter⟩

theorem Begins.word {keyword : String} (begins : Begins keyword (w ++ r)) (letters : ∀ c ∈ w, isLetter c = true)
    (ends : r.head?.any isLetter = false) (lower : ∀ c ∈ toLowerCase (js keyword), isLower c = true) :
    toLowerCase w = toLowerCase (js keyword) := by
  obtain ⟨kw, q, whole, same, stop⟩ := begins
  rw [(letters_unique whole letters (letters_of_keyword lower same) ends stop).1, same]

end Words

section Matches

variable {s : JsString} {found : Cursor CodeUnit}

theorem mem_of_exec {p : RegExp} {c : Cursor CodeUnit} (found : exec (seq atStart p) s = some c) :
    c ∈ run p { before := [], after := s, groups := [] } := by
  rw [exec_anchored] at found
  exact List.mem_of_head? found

theorem rollbackTo_spec (matched : exec rollbackToPattern s = some found) :
    ∃ kw trans run o sp run' name, s = kw ++ (trans ++ (run ++ (o ++ (sp ++ (run' ++ name))))) ∧
      toLowerCase kw = toLowerCase (js "ROLLBACK") ∧ trans ∈ (optionally 1 (word "TRANSACTION")).language ∧ IsRun run ∧
      toLowerCase o = toLowerCase (js "TO") ∧ sp ∈ (optionally 2 (word "SAVEPOINT")).language ∧ IsRun run' ∧
      name ∈ namePattern.language ∧ found.group 3 = some name := by
  obtain ⟨taken, fits, name, named, whole, group⟩ := run_captured (mem_of_exec matched)
  obtain ⟨kw, keyword, one, fits₁, rfl⟩ := Language.mem_mul.1 fits
  obtain ⟨trans, trans', two, fits₂, rfl⟩ := Language.mem_mul.1 fits₁
  obtain ⟨run, space, three, fits₃, rfl⟩ := Language.mem_mul.1 fits₂
  obtain ⟨o, o', four, fits₄, rfl⟩ := Language.mem_mul.1 fits₃
  obtain ⟨sp, sp', run', space', rfl⟩ := Language.mem_mul.1 fits₄
  refine ⟨kw, trans, run, o, sp, run', name, ?_, language_word _ keyword, trans', language_spaces1 space,
    language_word _ o', sp', language_spaces1 space', named, group⟩
  simpa [List.append_assoc] using whole

theorem rollback_spec (matched : test rollbackPattern s = true) :
    ∃ kw trans, s = kw ++ trans ∧ toLowerCase kw = toLowerCase (js "ROLLBACK") ∧
      trans ∈ (optionally 1 (word "TRANSACTION")).language := by
  obtain ⟨found, matched⟩ := Option.isSome_iff_exists.1 matched
  obtain ⟨kw, keyword, trans, fits, whole⟩ := Language.mem_mul.1 (run_whole (mem_of_exec matched)).1
  exact ⟨kw, trans, whole.symm, language_word _ keyword, fits⟩

theorem savepoint_spec (matched : exec savepointPattern s = some found) :
    ∃ kw run name, s = kw ++ (run ++ name) ∧ toLowerCase kw = toLowerCase (js "SAVEPOINT") ∧ IsRun run ∧
      name ∈ namePattern.language ∧ found.group 1 = some name := by
  obtain ⟨taken, fits, name, named, whole, group⟩ := run_captured (mem_of_exec matched)
  obtain ⟨kw, keyword, run, space, rfl⟩ := Language.mem_mul.1 fits
  exact ⟨kw, run, name, by simpa using whole, language_word _ keyword, language_spaces1 space, named, group⟩

theorem begin_spec (matched : test beginPattern s = true) :
    ∃ kw kind trans, s = kw ++ (kind ++ trans) ∧ toLowerCase kw = toLowerCase (js "BEGIN") ∧
      (kind = [] ∨ ∃ run word, IsRun run ∧ kind = run ++ word ∧
        ∃ keyword ∈ ["DEFERRED", "IMMEDIATE", "EXCLUSIVE"], toLowerCase word = toLowerCase (js keyword)) ∧
      trans ∈ (optionally 3 (word "TRANSACTION")).language := by
  obtain ⟨found, matched⟩ := Option.isSome_iff_exists.1 matched
  obtain ⟨kw, keyword, _, fits, whole⟩ := Language.mem_mul.1 (run_whole (mem_of_exec matched)).1
  obtain ⟨kind, fits', trans, trans', rfl⟩ := Language.mem_mul.1 fits
  refine ⟨kw, kind, trans, whole.symm, language_word _ keyword, ?_, trans'⟩
  rcases fits' with inside | none
  · obtain ⟨run, space, word, named, rfl⟩ := Language.mem_mul.1 inside
    exact .inr ⟨run, word, language_spaces1 space, rfl, language_words named⟩
  · exact .inl none

theorem release_spec (matched : exec releasePattern s = some found) :
    ∃ kw sp run name, s = kw ++ (sp ++ (run ++ name)) ∧ toLowerCase kw = toLowerCase (js "RELEASE") ∧
      sp ∈ (optionally 1 (word "SAVEPOINT")).language ∧ IsRun run ∧ name ∈ namePattern.language ∧
      found.group 2 = some name := by
  obtain ⟨taken, fits, name, named, whole, group⟩ := run_captured (mem_of_exec matched)
  obtain ⟨kw, keyword, one, fits₁, rfl⟩ := Language.mem_mul.1 fits
  obtain ⟨sp, sp', run, space, rfl⟩ := Language.mem_mul.1 fits₁
  exact ⟨kw, sp, run, name, by simpa using whole, language_word _ keyword, sp', language_spaces1 space, named, group⟩

theorem commit_spec (matched : test commitPattern s = true) :
    ∃ kw trans, s = kw ++ trans ∧ (∃ keyword ∈ ["COMMIT", "END"], toLowerCase kw = toLowerCase (js keyword)) ∧
      trans ∈ (optionally 2 (word "TRANSACTION")).language := by
  obtain ⟨found, matched⟩ := Option.isSome_iff_exists.1 matched
  obtain ⟨kw, keyword, trans, fits, whole⟩ := Language.mem_mul.1 (run_whole (mem_of_exec matched)).1
  exact ⟨kw, trans, whole.symm, language_words keyword, fits⟩

theorem optionally_spaced {index : Nat} {keyword : RegExp} {t : JsString}
    (fits : t ∈ (optionally index keyword).language) : Spaced t := by
  have spaced := spaced_optionally fits spaced_nil
  rwa [List.append_nil] at spaced

/-- Each pattern begins with one of the keywords. -/
theorem transactionKeyword_begins (matched : test transactionKeyword s = true) :
    ∃ keyword ∈ transactionKeywords, Begins keyword s := by
  obtain ⟨found, matched⟩ := Option.isSome_iff_exists.1 matched
  obtain ⟨mid, one, rest⟩ := List.mem_flatMap.1 (mem_of_exec matched)
  obtain ⟨kw, fits, after, before⟩ := run_language one
  obtain ⟨keyword, listed, same⟩ := language_words fits
  refine ⟨keyword, listed, kw, mid.after, after, same, ?_⟩
  rw [wordBoundary, Pattern.run] at rest
  split at rest
  case isFalse => cases rest
  case isTrue edge =>
    have lower : ∀ keyword ∈ transactionKeywords, (∀ c ∈ toLowerCase (js keyword), isLower c = true) ∧
        js keyword ≠ [] := by decide
    have letters := letters_of_keyword (lower keyword listed).1 same
    have last : mid.before.head?.any isWordUnit = true := by
      rw [before]
      cases back : kw.reverse with
      | nil =>
        rw [List.reverse_eq_nil_iff.1 back] at same
        exact absurd (List.map_eq_nil_iff.1 same.symm) (lower keyword listed).2
      | cons c others =>
        have letter := letters c (List.mem_reverse.1 (back ▸ List.mem_cons_self))
        simp [isWordUnit, letter]
    rw [Cursor.onBoundary, last] at edge
    cases next : mid.after.head? with
    | none => rfl
    | some c =>
      rw [next] at edge
      have word : isWordUnit c = false := by simpa using edge
      simp only [isWordUnit, Bool.or_eq_false_iff] at word
      simpa using word.1.1

end Matches

section Dispatch

variable {w r : JsString}

theorem run_units (units : List Nat) {t rest before : JsString} {groups : List (Nat × JsString)}
    (same : t.map lowerUnit = units.map lowerUnit) : ⟨t.reverse ++ before, rest, groups⟩ ∈
      run (seqAll (units.map fun c => one (lowerUnit · == lowerUnit c)) : RegExp) ⟨before, t ++ rest, groups⟩ := by
  induction units generalizing t before with
  | nil =>
    rw [List.map_eq_nil_iff.1 same]
    exact List.mem_singleton_self _
  | cons c units ih =>
    cases t with
    | nil => cases same
    | cons d t =>
      obtain ⟨first, others⟩ := List.cons.inj same
      have stepped : run (one (lowerUnit · == lowerUnit c) : RegExp) ⟨before, d :: (t ++ rest), groups⟩ =
          [⟨d :: before, t ++ rest, groups⟩] := by
        rw [run_one_cons, if_pos (by simpa using first)]
      have later := @ih t (d :: before) others
      rw [List.reverse_cons, List.append_assoc]
      cases units with
      | nil =>
        rw [List.map_nil, List.map_eq_nil_iff] at others
        subst others
        exact stepped ▸ List.mem_singleton_self _
      | cons e units =>
        apply List.mem_flatMap.2
        exact ⟨_, stepped ▸ List.mem_singleton_self _, later⟩

theorem run_anyOf {options : List RegExp} {p : RegExp} {c finish : Cursor CodeUnit} (listed : p ∈ options)
    (member : finish ∈ run p c) : finish ∈ run (anyOf options) c := by
  have folded : ∀ (rest : List RegExp) (first : RegExp), finish ∈ run first c ∨ p ∈ rest →
      finish ∈ run (rest.foldl alt first) c := by
    intro rest
    induction rest with
    | nil =>
      rintro first (here | none)
      · exact here
      · cases none
    | cons q rest ih =>
      rintro first (here | among)
      · exact ih _ (.inl (List.mem_append_left _ here))
      · rcases List.mem_cons.1 among with rfl | later
        · exact ih _ (.inl (List.mem_append_right _ member))
        · exact ih _ (.inr later)
  cases options with
  | nil => cases listed
  | cons first rest =>
    rcases List.mem_cons.1 listed with rfl | later
    · exact folded rest p (.inl member)
    · exact folded rest first (.inr later)

theorem isIdUnit_of_letter {c : Nat} (letter : isLetter c = true) : isIdUnit c = true := by simp [isIdUnit, letter]

theorem not_letter_of_ends (ends : r.head?.any isIdUnit = false) : r.head?.any isLetter = false := by
  cases first : r.head? with
  | none => rfl
  | some c =>
    rw [first] at ends
    cases letter : isLetter c
    · exact letter
    · rw [Option.any_some, isIdUnit_of_letter letter] at ends
      cases ends

theorem transactionKeyword_test {keyword : String} (listed : keyword ∈ transactionKeywords)
    (same : toLowerCase w = toLowerCase (js keyword)) (ends : r.head?.any isIdUnit = false) :
    test transactionKeyword (w ++ r) = true := by
  have lower : ∀ keyword ∈ transactionKeywords, (∀ c ∈ toLowerCase (js keyword), isLower c = true) ∧
      js keyword ≠ [] := by decide
  have letters := letters_of_keyword (lower keyword listed).1 same
  have taken : ⟨w.reverse ++ [], r, []⟩ ∈ run (Re.words transactionKeywords) ⟨[], w ++ r, []⟩ :=
    run_anyOf (List.mem_map.2 ⟨keyword, listed, rfl⟩) (run_units (js keyword) same)
  have edge : (⟨w.reverse ++ [], r, []⟩ : Cursor CodeUnit).onBoundary isWordUnit = true := by
    have last : (w.reverse ++ []).head?.any isWordUnit = true := by
      rw [List.append_nil]
      cases back : w.reverse with
      | nil =>
        rw [List.reverse_eq_nil_iff.1 back] at same
        exact absurd (List.map_eq_nil_iff.1 same.symm) (lower keyword listed).2
      | cons c others =>
        have letter := letters c (List.mem_reverse.1 (back ▸ List.mem_cons_self))
        simp [isWordUnit, letter]
    have next : r.head?.any isWordUnit = false := by
      cases first : r.head? with
      | none => rfl
      | some c =>
        rw [first] at ends
        simp only [isIdUnit, Option.any_some, Bool.or_eq_false_iff] at ends
        simp [isWordUnit, ends]
    rw [Cursor.onBoundary, last, next]
    rfl
  have matched : ⟨w.reverse ++ [], r, []⟩ ∈ run (seq (Re.words transactionKeywords) wordBoundary) ⟨[], w ++ r, []⟩ := by
    apply List.mem_flatMap.2
    refine ⟨_, taken, ?_⟩
    rw [wordBoundary, Pattern.run, if_pos edge]
    exact List.mem_singleton_self _
  rw [test, transactionKeyword, exec_anchored]
  cases whole : run (seq (Re.words transactionKeywords) wordBoundary) ⟨[], w ++ r, []⟩ with
  | nil =>
    rw [whole] at matched
    cases matched
  | cons _ _ => rfl

theorem groupOf_map {found : Cursor CodeUnit} {index : Nat} {f : JsString → StateChange}
    (other : ∀ name, f name ≠ .none) : (groupOf found index).map f ≠ .ok .none := by
  unfold groupOf
  split
  · exact fun same => other _ (Except.ok.inj same)
  · exact fun same => by cases same

theorem classifyStatement_closed {s : JsString} (opens : test transactionKeyword s = true) :
    classifyStatement s ≠ .ok .none := by
  unfold classifyStatement
  split
  · exact groupOf_map fun _ same => by cases same
  split
  · exact fun same => by cases same
  split
  · exact groupOf_map fun _ same => by cases same
  split
  · exact fun same => by cases same
  split
  · exact groupOf_map fun _ same => by cases same
  split
  · exact fun same => by cases same
  exact fun same => by cases same

theorem classifyStatement_other {s : JsString} (other : ∀ keyword ∈ transactionKeywords, ¬ Begins keyword s) :
    classifyStatement s = .ok .none := by
  have never : ∀ {kw q : JsString} {keyword : String}, keyword ∈ transactionKeywords → s = kw ++ q →
      toLowerCase kw = toLowerCase (js keyword) → Spaced q → False := by
    intro kw q keyword listed whole same spaced
    exact other keyword listed (whole ▸ begins_of_spaced same spaced)
  unfold classifyStatement
  split
  · rename_i found matched
    obtain ⟨kw, trans, run, o, sp, run', name, whole, same, trans', spaces, _⟩ := rollbackTo_spec matched
    exact (never (by decide) whole same (spaced_optionally trans' spaces.spaced)).elim
  split
  · rename_i matched
    obtain ⟨kw, trans, whole, same, trans'⟩ := rollback_spec matched
    exact (never (by decide) whole same (optionally_spaced trans')).elim
  split
  · rename_i found matched
    obtain ⟨kw, run, name, whole, same, spaces, _⟩ := savepoint_spec matched
    exact (never (by decide) whole same spaces.spaced).elim
  split
  · rename_i matched
    obtain ⟨kw, kind, trans, whole, same, kinds, trans'⟩ := begin_spec matched
    refine (never (by decide) whole same ?_).elim
    rcases kinds with rfl | ⟨run, word, spaces, rfl, _⟩
    · exact optionally_spaced trans'
    · rw [List.append_assoc]
      exact spaces.spaced
  split
  · rename_i found matched
    obtain ⟨kw, sp, run, name, whole, same, sp', spaces, _⟩ := release_spec matched
    exact (never (by decide) whole same (spaced_optionally sp' spaces.spaced)).elim
  split
  · rename_i matched
    obtain ⟨kw, trans, whole, ⟨keyword, listed, same⟩, trans'⟩ := commit_spec matched
    refine (never ?_ whole same (optionally_spaced trans')).elim
    simp only [List.mem_cons, List.not_mem_nil, or_false] at listed
    rcases listed with rfl | rfl <;> decide
  split
  · rename_i matched
    obtain ⟨keyword, listed, begins⟩ := transactionKeyword_begins matched
    exact (other keyword listed begins).elim
  · rfl

end Dispatch

section Statement

variable {w r sql : JsString} {t : Token} {ts : List Token}

theorem trimEnd_split (s : JsString) : ∃ run, s = trimEnd s ++ run ∧ ∀ c ∈ run, isJsSpace c = true := by
  refine ⟨(s.reverse.takeWhile isJsSpace).reverse, ?_, fun c member => ?_⟩
  · rw [trimEnd, ← List.reverse_append, List.takeWhile_append_dropWhile, List.reverse_reverse]
  · exact List.mem_takeWhile_imp (List.mem_reverse.1 member)

theorem dropSemicolon_split (s : JsString) : ∃ semi, s = dropSemicolon s ++ semi ∧ (semi = [] ∨ semi = [59]) := by
  unfold dropSemicolon
  split
  · rename_i last
    obtain ⟨front, rfl⟩ := List.getLast?_eq_some_iff.1 last
    exact ⟨[59], by rw [List.dropLast_concat], .inr rfl⟩
  · exact ⟨[], (List.append_nil s).symm, .inl rfl⟩

theorem trimEnd_append (letters : ∀ c ∈ w, isLetter c = true) (present : w ≠ []) : trimEnd (w ++ r) = w ++ trimEnd r := by
  have kept : w.reverse.dropWhile isJsSpace = w.reverse := by
    cases back : w.reverse with
    | nil => rfl
    | cons c others =>
      have letter := letters c (List.mem_reverse.1 (back ▸ List.mem_cons_self))
      apply List.dropWhile_cons_of_neg
      intro space
      rw [not_letter_of_space space] at letter
      cases letter
  unfold trimEnd
  rw [List.reverse_append, List.dropWhile_append]
  split
  · rename_i none
    rw [kept, List.isEmpty_iff.1 none, List.reverse_nil, List.append_nil, List.reverse_reverse]
  · rw [List.reverse_append, List.reverse_reverse]

theorem dropSemicolon_append (letters : ∀ c ∈ w, isLetter c = true) (present : w ≠ []) :
    dropSemicolon (w ++ r) = w ++ dropSemicolon r := by
  have other : w.getLast? ≠ some 59 := by
    intro last
    have letter := letters 59 (List.mem_of_getLast? last)
    cases letter
  unfold dropSemicolon
  cases r with
  | nil => simp [other]
  | cons c r =>
    have last : (w ++ c :: r).getLast? = (c :: r).getLast? := by
      rw [List.getLast?_append, List.getLast?_cons]
      rfl
    have front : (w ++ c :: r).dropLast = w ++ (c :: r).dropLast := List.dropLast_append_of_ne_nil (List.cons_ne_nil c r)
    rw [last]
    split
    · exact front
    · rfl

/-- What `classify` cuts off behind a statement. -/
def IsTail (post : JsString) : Prop :=
  ∃ a semi b, post = a ++ (semi ++ b) ∧ (∀ c ∈ a, isJsSpace c = true) ∧ (semi = [] ∨ semi = [59]) ∧
    ∀ c ∈ b, isJsSpace c = true

theorem statementOf_begins (stripped : stripLeadingTrivia sql = w ++ r) (letters : ∀ c ∈ w, isLetter c = true)
    (present : w ≠ []) : ∃ body post, statementOf sql = w ++ body ∧ r = body ++ post ∧ IsTail post := by
  obtain ⟨b, one, spaces⟩ := trimEnd_split r
  obtain ⟨semi, two, semicolon⟩ := dropSemicolon_split (trimEnd r)
  obtain ⟨a, three, spaces'⟩ := trimEnd_split (dropSemicolon (trimEnd r))
  refine ⟨trimEnd (dropSemicolon (trimEnd r)), a ++ (semi ++ b), ?_, ?_, a, semi, b, rfl, spaces', semicolon, spaces⟩
  · have trimmed : trim (w ++ r) = w ++ trimEnd r := by
      cases w with
      | nil => exact absurd rfl present
      | cons c w =>
        have code : isJsSpace c ≠ true := by
          intro space
          have letter := letters c List.mem_cons_self
          rw [not_letter_of_space space] at letter
          cases letter
        rw [← trimEnd_append letters present, trim, List.cons_append, List.dropWhile_cons_of_neg code]
        rfl
    rw [statementOf, stripped, trimmed, dropSemicolon_append letters present, trimEnd_append letters present]
  · rw [← List.append_assoc, ← three, ← List.append_assoc, ← two, ← one]

theorem head_ends {body post : JsString} (whole : r = body ++ post) (ends : r.head?.any isIdUnit = false) :
    body.head?.any isIdUnit = false := by
  cases body with
  | nil => rfl
  | cons c body =>
    rw [whole] at ends
    exact ends

theorem Token.isWord_iff {keyword : String} (bare : t.kind = .bare) :
    t.isWord keyword = true ↔ toLowerCase t.text = toLowerCase (js keyword) := by
  simp [Token.isWord, bare]

theorem upperUnit_iff {c u : Nat} (letter : isLetter c = true) (upper : isUpper u = true) :
    upperUnit c = u ↔ lowerUnit c = lowerUnit u := by
  simp only [isLetter, isUpper, isLower, Bool.or_eq_true, Bool.and_eq_true, decide_eq_true_eq] at letter upper
  simp only [upperUnit, lowerUnit, isLower, isUpper, Bool.and_eq_true, decide_eq_true_eq]
  rw [if_pos upper]
  split <;> split <;> omega

theorem upper_iff {units : JsString} (upper : ∀ u ∈ units, isUpper u = true) (letters : ∀ c ∈ w, isLetter c = true) :
    w.map upperUnit = units ↔ toLowerCase w = toLowerCase units := by
  unfold toLowerCase
  induction w generalizing units with
  | nil => cases units <;> simp
  | cons c w ih =>
    cases units with
    | nil => simp
    | cons u units =>
      have rest := ih (fun v member => upper v (List.mem_cons_of_mem _ member))
        fun d member => letters d (List.mem_cons_of_mem _ member)
      simp only [List.map_cons, List.cons.injEq, rest,
        upperUnit_iff (letters c List.mem_cons_self) (upper u List.mem_cons_self)]

/-- Where a statement begins with a word of letters, the two tests of its text follow the word that SQLite reads there:
    only the eight reading and control words are no writes, and only a control word is classified as a change or
    refused. -/
theorem classification_fails_closed (first : significant sql = t :: ts) (bare : t.kind = .bare)
    (letters : ∀ c ∈ t.text, isLetter c = true) :
    (isWrite sql = false ↔ ∃ keyword ∈ ["SELECT", "EXPLAIN", "BEGIN", "COMMIT", "END", "ROLLBACK", "SAVEPOINT",
      "RELEASE"], t.isWord keyword = true) ∧
      (classifyText sql = .ok .none ↔ ∀ keyword ∈ transactionKeywords, t.isWord keyword = false) := by
  have present : t.text ≠ [] := by
    have member : t ∈ significant sql := first ▸ List.mem_cons_self
    exact tokenize_present _ sql t (List.mem_filter.1 member).1
  have head : t.text.head?.any isLetter = true := by
    cases text : t.text with
    | nil => exact absurd text present
    | cons c rest => exact letters c (text ▸ List.mem_cons_self)
  obtain ⟨rest, stripped, _, _, ends⟩ := strip_token sql first bare head
  have stop := not_letter_of_ends ends
  constructor
  · have word : leadingWord sql = t.text.map upperUnit := by
      rw [leadingWord, stripped, List.takeWhile_append_of_pos letters]
      cases rest with
      | nil => simp
      | cons c rest => rw [List.takeWhile_cons_of_neg (by simpa using stop), List.append_nil]
    have upper : ∀ keyword ∈ ["SELECT", "EXPLAIN", "BEGIN", "COMMIT", "END", "ROLLBACK", "SAVEPOINT", "RELEASE"],
        ∀ u ∈ js keyword, isUpper u = true := by decide
    rw [isWrite, word, nonWriteKeywords, decide_eq_false_iff_not, not_not, List.mem_map]
    constructor
    · rintro ⟨keyword, listed, same⟩
      exact ⟨keyword, listed, (Token.isWord_iff bare).2 ((upper_iff (upper keyword listed) letters).1 same.symm)⟩
    · rintro ⟨keyword, listed, is⟩
      exact ⟨keyword, listed, ((upper_iff (upper keyword listed) letters).2 ((Token.isWord_iff bare).1 is)).symm⟩
  · obtain ⟨body, post, statement, whole, _⟩ := statementOf_begins stripped letters present
    have ends' := head_ends whole ends
    rw [classifyText, statement]
    constructor
    · intro none keyword listed
      cases is : t.isWord keyword
      · rfl
      · exact absurd none (classifyStatement_closed
          (transactionKeyword_test listed ((Token.isWord_iff bare).1 is) ends'))
    · intro other
      apply classifyStatement_other
      intro keyword listed begins
      have lower : ∀ keyword ∈ transactionKeywords, ∀ c ∈ toLowerCase (js keyword), isLower c = true := by decide
      have same := begins.word letters (not_letter_of_ends ends') (lower keyword listed)
      have is := other keyword listed
      rw [(Token.isWord_iff bare).2 same] at is
      cases is

end Statement

theorem classification_fails_closed_savepoint : isWrite (js "/* c */ savepoint x;") = false ∧
    classifyText (js "/* c */ savepoint x;") ≠ .ok .none := by
  have first : significant (js "/* c */ savepoint x;") =
      ⟨.bare, js "savepoint"⟩ :: (significant (js "/* c */ savepoint x;")).tail := by
    decide +kernel
  have read := classification_fails_closed first rfl (by decide)
  constructor
  · exact read.1.2 ⟨"SAVEPOINT", by decide, by decide⟩
  · intro none
    exact absurd (read.2.1 none "SAVEPOINT" (by decide)) (by decide)

end DoRuntime.Sql
