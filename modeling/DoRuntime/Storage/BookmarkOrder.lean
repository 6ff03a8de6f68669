import DoRuntime.Lib.Transition
import DoRuntime.Storage.Bookmark

namespace DoRuntime.Storage

open DoRuntime.Js DoRuntime.Sql Transition

section Text

/-- The text of a bookmark, by its number. -/
def numberText (n : Nat) : JsString :=
  lastDigits 8 (n / uint32Max) ++ (js "-" ++ (lastDigits 8 (n % uint32Max) ++
    (js "-" ++ (lastDigits 8 0 ++ (js "-" ++ List.replicate 32 48)))))

theorem paddedHex_eq {n : Nat} (fits : n < 16 ^ 8) : paddedHex (n : Int) = lastDigits 8 n := padded_digits fits

theorem bookmarkText_eq {bookmark : Float} {n : Nat} (value : integralValue bookmark = some (n : Int))
    (small : n ≤ maxSafeInteger) : bookmarkText bookmark = numberText n := by
  have safe : maxSafeInteger = 9007199254740991 := rfl
  have unit : uint32Max = 4294967295 := rfl
  have divisor : integralValue (Float.ofNat uint32Max) = some (uint32Max : Int) := integralValue_ofNat (by decide)
  have floor := floor_div value (by omega) divisor (by decide) (by decide)
  have high : n / uint32Max < 16 ^ 8 := by
    rw [unit]
    omega
  have low : n % uint32Max < 16 ^ 8 := by
    rw [unit]
    omega
  have remainder : ((n : Int) % uint32Max) = ((n % uint32Max : Nat) : Int) := (Int.natCast_mod n uint32Max).symm
  unfold bookmarkText
  rw [floor, value, Option.getD_some, Option.getD_some, remainder, paddedHex_eq high, paddedHex_eq low,
    show paddedHex 0 = lastDigits 8 0 from paddedHex_eq (n := 0) (by decide)]
  unfold numberText
  simp only [List.append_assoc]

/-- Bookmarks sort as their numbers. -/
theorem numberText_lt {m n : Nat} (below : m < n) (small : n ≤ maxSafeInteger) : numberText m < numberText n := by
  have safe : maxSafeInteger = 9007199254740991 := rfl
  have unit : uint32Max = 4294967295 := rfl
  unfold numberText
  rcases Nat.lt_or_ge (m / uint32Max) (n / uint32Max) with less | reached
  · have fits : n / uint32Max < 16 ^ 8 := by
      rw [unit]
      omega
    exact append_lt_of_length (by rw [lastDigits_length, lastDigits_length]) (lastDigits_lt less fits) _ _
  · have same : m / uint32Max = n / uint32Max := by
      rw [unit] at reached ⊢
      omega
    have less : m % uint32Max < n % uint32Max := by
      rw [unit] at same ⊢
      omega
    have fits : n % uint32Max < 16 ^ 8 := by
      rw [unit]
      omega
    rw [same]
    refine List.append_left_lt (List.append_left_lt ?_)
    exact append_lt_of_length (by rw [lastDigits_length, lastDigits_length]) (lastDigits_lt less fits) _ _

end Text

section Row

variable {table : MetadataTable} {x : Float}

/-- The row of the bookmark. -/
def bookmarkRow (table : MetadataTable) : Option Cell := lookupKey (table.getD []) bookmarkKey

theorem getLocalDevelopmentBookmark_row {other : MetadataTable} (same : bookmarkRow other = bookmarkRow table) :
    getLocalDevelopmentBookmark other = getLocalDevelopmentBookmark table := by
  unfold bookmarkRow at same
  unfold getLocalDevelopmentBookmark
  rw [same]

theorem lookupKey_other (rows : List (Int × Cell)) {key other : Int} (apart : other ≠ key) (value : Cell) :
    lookupKey (upsertKey rows other value) key = lookupKey rows key := by
  unfold lookupKey upsertKey
  rw [List.find?_cons_of_neg (by simp only [decide_eq_true_eq, apart, not_false_eq_true]), List.find?_filter]
  congr 2
  funext row
  by_cases here : row.1 = key
  · rw [decide_eq_true here, decide_eq_true_eq]
    exact ⟨decide_eq_true (by omega), rfl⟩
  · rw [decide_eq_false here, decide_eq_false_iff_not]
    exact fun both => Bool.noConfusion both.2

/-- A stored bookmark is a whole number that is not negative. -/
theorem getLocalDevelopmentBookmark_some (stored : getLocalDevelopmentBookmark table = .ok (some x)) :
    ∃ n : Nat, integralValue x = some (n : Int) ∧ n ≤ maxSafeInteger := by
  unfold getLocalDevelopmentBookmark at stored
  cases found : lookupKey (table.getD []) bookmarkKey with
  | none => rw [found] at stored; cases stored
  | some cell =>
    rw [found] at stored
    dsimp only at stored
    split at stored
    · cases stored
    · cases read : getInt64 0 cell.read with
      | error _ => rw [read] at stored; cases stored
      | ok bookmark =>
        rw [read] at stored
        dsimp only at stored
        split at stored
        · cases stored
        · rename_i sign
          cases stored
          obtain ⟨m, value, small⟩ := (isSafeInteger_iff _).1 (getInt64_ok_safe read)
          have zero : integralValue (0 : Float) = some (0 : Int) := by decide +kernel
          rw [lt_integers value zero] at sign
          refine ⟨m.toNat, ?_, ?_⟩
          · rw [value, Int.toNat_of_nonneg (Int.not_lt.1 sign)]
          · omega

theorem setLocalDevelopmentBookmark_ok {after : MetadataTable} (stores : setLocalDevelopmentBookmark x table = .ok after) :
    (∃ n : Nat, integralValue x = some (n : Int) ∧ n ≤ maxSafeInteger) ∧
      getLocalDevelopmentBookmark after = .ok (some x) := by
  unfold setLocalDevelopmentBookmark at stores
  split at stores
  · cases stores
  · rename_i accepted
    have safe : isSafeInteger x = true := by
      cases known : isSafeInteger x with
      | true => rfl
      | false => exact absurd (Or.inl known) accepted
    have sign : ¬ x < 0 := fun negative => accepted (Or.inr negative)
    have number : isNaN x = false := not_nan_of_safe safe
    have back : getLocalDevelopmentBookmark after = .ok (some x) := by
      cases stores
      unfold getLocalDevelopmentBookmark
      rw [Option.getD_some, lookupKey_upsertKey]
      dsimp only
      rw [bindNumber_not_null .blob number, (getInt64_bound .blob 0 number).1 safe]
      dsimp only
      rw [if_neg sign]
      rfl
    exact ⟨getLocalDevelopmentBookmark_some back, back⟩

theorem bookmarkRow_alarm (value : Cell) :
    bookmarkRow (some (upsertKey (table.getD []) alarmKey value)) = bookmarkRow table := by
  unfold bookmarkRow
  rw [Option.getD_some, lookupKey_other _ (by decide)]

end Row

section Handed

variable {table : MetadataTable} {returned : List JsString}

/-- The bookmarks handed out are those of increasing numbers, none of them above the one stored. -/
def Handed (table : MetadataTable) (returned : List JsString) : Prop :=
  ∃ numbers : List Nat, returned = numbers.map numberText ∧ numbers.Pairwise (· < ·) ∧
    ∀ n ∈ numbers, ∃ (x : Float) (m : Nat), getLocalDevelopmentBookmark table = .ok (some x) ∧
      integralValue x = some (m : Int) ∧ n ≤ m ∧ m ≤ maxSafeInteger

theorem Handed.nothing (table : MetadataTable) : Handed table [] := by
  refine ⟨[], rfl, List.Pairwise.nil, ?_⟩
  intro n none
  cases none

theorem Handed.of_row (handed : Handed table returned) {other : MetadataTable}
    (same : bookmarkRow other = bookmarkRow table) : Handed other returned := by
  unfold Handed at *
  rw [getLocalDevelopmentBookmark_row same]
  exact handed

theorem Handed.sorted (handed : Handed table returned) : returned.Pairwise (· < ·) := by
  obtain ⟨numbers, rfl, increasing, bounded⟩ := handed
  rw [List.pairwise_map]
  apply increasing.imp_of_mem
  intro m n _ last below
  obtain ⟨x, top, _, _, under, small⟩ := bounded n last
  exact numberText_lt below (Nat.le_trans under small)

theorem nextBookmark_value {x : Float} {m : Nat} (value : integralValue x = some (m : Int)) (small : m ≤ maxSafeInteger) :
    integralValue (nextBookmark (some x)) = some ((m + 1 : Nat) : Int) := by
  have safe : maxSafeInteger = 9007199254740991 := rfl
  have one : integralValue (Float.ofNat 1) = some ((1 : Nat) : Int) := integralValue_ofNat (by decide)
  exact integralValue_add value one (by omega)

theorem Handed.next (handed : Handed table returned) {stored : Option Float} {after : MetadataTable}
    (read : getLocalDevelopmentBookmark table = .ok stored)
    (stores : setLocalDevelopmentBookmark (nextBookmark stored) table = .ok after) :
    Handed after (returned ++ [bookmarkText (nextBookmark stored)]) := by
  obtain ⟨numbers, rfl, increasing, bounded⟩ := handed
  obtain ⟨⟨n, value, small⟩, back⟩ := setLocalDevelopmentBookmark_ok stores
  have above : ∀ m ∈ numbers, m < n := by
    intro m member
    obtain ⟨x, top, held, number, under, fits⟩ := bounded m member
    rw [read] at held
    cases held
    rw [nextBookmark_value number fits] at value
    cases value
    omega
  refine ⟨numbers ++ [n], ?_, ?_, ?_⟩
  · rw [List.map_append, List.map_singleton, bookmarkText_eq value small]
  · rw [List.pairwise_append]
    refine ⟨increasing, List.pairwise_singleton .., ?_⟩
    intro m member last final
    rw [List.mem_singleton.1 final]
    exact above m member
  · intro m member
    refine ⟨_, n, back, value, ?_, small⟩
    rcases List.mem_append.1 member with earlier | final
    · exact Nat.le_of_lt (above m earlier)
    · rw [List.mem_singleton.1 final]

end Handed

namespace ActorSqlite

variable {C : Type} (a : ActorSqlite C) (id : Nat)

/-- What rolling back to the savepoint of a transaction restores. -/
def restored : Option C := (rollbackTo (a.txns id).depth a.savepoints).map (·.1)

theorem restored_dropped : (a.updateTxn id fun t => { t with dropped := true }).restored id = a.restored id := by
  unfold restored updateTxn
  dsimp only
  rw [if_pos rfl]

theorem onWrite_contents : a.onWrite.contents = a.contents := by
  unfold onWrite
  split <;> rfl

theorem checkpoint_contents : a.checkpoint.contents = a.contents := by
  unfold checkpoint
  split <;> rfl

theorem startTransaction_contents {started : Nat × ActorSqlite C} (starts : a.startTransaction = some started) :
    started.2.contents = a.contents := by
  unfold startTransaction at starts
  split at starts
  · cases starts
  · split at starts
    · cases starts
      rfl
    · cases starts
      rfl
    · split at starts
      · cases starts
      · cases starts
        rfl

theorem commit_contents (outcome : CommitOutcome) : (a.commit id outcome).2.contents = a.contents := by
  unfold commit
  dsimp only
  split
  · rfl
  · split
    · rfl
    · split
      · rfl
      · split <;> rfl

theorem unlink_contents : (a.unlink id).2.contents = a.contents := by
  unfold unlink
  split
  · rfl
  · split
    · rfl
    · split <;> rfl

theorem rollbackImpl_contents : (a.rollbackImpl id).2.contents = (a.restored id).getD a.contents := by
  unfold rollbackImpl restored
  split
  · rename_i missing
    rw [missing]
    rfl
  · rename_i found
    rw [found]
    split <;> rfl

theorem rollback_contents :
    (a.rollback id).2.contents =
      if a.broken ∨ (a.txns id).hasChild ∨ (a.txns id).committed then a.contents
      else (a.restored id).getD a.contents := by
  unfold rollback
  by_cases refused : a.broken ∨ (a.txns id).hasChild
  · rw [if_pos refused, if_pos (by tauto)]
  · rw [if_neg refused]
    by_cases committed : (a.txns id).committed
    · rw [if_pos committed, if_pos (by tauto)]
    · rw [if_neg committed, if_neg (by tauto), ← rollbackImpl_contents]
      split
      · rename_i after same
        rw [same]
      · rename_i after same
        rw [same]
        rfl

theorem drop_contents :
    (a.drop id).2.contents =
      if (a.txns id).dropped ∨ (a.txns id).committed ∨ a.broken then a.contents
      else (a.restored id).getD a.contents := by
  unfold drop
  by_cases dropped : (a.txns id).dropped
  · rw [if_pos dropped, if_pos (Or.inl dropped)]
  · rw [if_neg dropped]
    by_cases ended : (a.txns id).committed ∨ a.broken
    · rw [if_pos (Or.inr ended)]
      dsimp only
      rw [if_pos ended, unlink_contents]
      rfl
    · rw [if_neg (not_or.2 ⟨dropped, ended⟩)]
      dsimp only
      rw [if_neg ended, unlink_contents, rollbackImpl_contents, restored_dropped]
      rfl

end ActorSqlite

namespace Session

variable {R : Type} (s : Session R)

theorem onWrite_contents : s.onWrite.actor.contents = s.actor.contents := s.actor.onWrite_contents

theorem ensureInitialized_row :
    bookmarkRow s.ensureInitialized.actor.contents.metadata = bookmarkRow s.actor.contents.metadata := by
  unfold ensureInitialized
  cases created : s.actor.contents.metadata with
  | some rows =>
    rw [Option.isSome_some, if_pos rfl, created]
  | none =>
    rw [Option.isSome_none, if_neg Bool.false_ne_true]
    rfl

theorem ensureInitialized_returned : s.ensureInitialized.returned = s.returned := by
  unfold ensureInitialized
  split <;> rfl

theorem setAlarm_row (currentTime : Option Float) :
    bookmarkRow (s.setAlarm currentTime).actor.contents.metadata = bookmarkRow s.actor.contents.metadata := by
  unfold setAlarm
  split
  · rfl
  · exact (bookmarkRow_alarm _).trans s.ensureInitialized_row

theorem setAlarm_returned (currentTime : Option Float) : (s.setAlarm currentTime).returned = s.returned := by
  unfold setAlarm
  split
  · rfl
  · exact s.ensureInitialized_returned

theorem write_metadata (effect : R → Option R) :
    (s.write effect).actor.contents.metadata = s.actor.contents.metadata ∧ (s.write effect).returned = s.returned := by
  unfold write
  split
  · exact ⟨rfl, rfl⟩
  · split
    · exact ⟨by rw [onWrite_contents], rfl⟩
    · exact ⟨rfl, rfl⟩

/-- What a step takes the database back to. -/
def goesBackTo : Event R → Option (StoredData R)
  | .rollback id =>
    if s.actor.broken ∨ (s.actor.txns id).hasChild ∨ (s.actor.txns id).committed then none else s.actor.restored id
  | .drop id =>
    if (s.actor.txns id).dropped ∨ (s.actor.txns id).committed ∨ s.actor.broken then none else s.actor.restored id
  | .deleteAll _ empty =>
    if s.actor.broken then none
    else match s.savedAlarm, s.actor.currentTxn with
    | .ok _, .none => some { metadata := none, rest := empty }
    | .ok _, .implicit => some { metadata := none, rest := empty }
    | _, _ => none
  | .checkpoint false => if s.actor.broken = false ∧ s.actor.currentTxn = .implicit then some s.begun else none
  | .restart => some s.durable
  | _ => none

/-- No bookmark was handed out yet, or the step leaves its row as it is. -/
def KeepsRow (s : Session R) (e : Event R) : Prop :=
  s.returned = [] ∨ ∀ data, s.goesBackTo e = some data →
    bookmarkRow data.metadata = bookmarkRow s.actor.contents.metadata

variable {s} {t : Session R}

theorem getCurrentBookmark_cases {stores : Bool} {result : Except BookmarkError JsString}
    (called : s.getCurrentBookmark stores = (result, t)) :
    t.returned = s.returned ∧
      ((∃ error, result = .error error) ∧
        bookmarkRow t.actor.contents.metadata = bookmarkRow s.actor.contents.metadata ∨
      ∃ stored, result = .ok (bookmarkText (nextBookmark stored)) ∧
        getLocalDevelopmentBookmark s.ensureInitialized.actor.contents.metadata = .ok stored ∧
        setLocalDevelopmentBookmark (nextBookmark stored) s.ensureInitialized.actor.contents.metadata =
          .ok t.actor.contents.metadata) := by
  unfold getCurrentBookmark at called
  split at called
  · cases called
    exact ⟨rfl, Or.inl ⟨⟨_, rfl⟩, rfl⟩⟩
  · dsimp only at called
    cases read : getLocalDevelopmentBookmark s.ensureInitialized.actor.contents.metadata with
    | error _ =>
      rw [read] at called
      cases called
      exact ⟨s.ensureInitialized_returned, Or.inl ⟨⟨_, rfl⟩, s.ensureInitialized_row⟩⟩
    | ok stored =>
      rw [read] at called
      dsimp only at called
      cases set : setLocalDevelopmentBookmark (nextBookmark stored) s.ensureInitialized.actor.contents.metadata with
      | error _ =>
        rw [set] at called
        cases called
        exact ⟨s.ensureInitialized_returned, Or.inl ⟨⟨_, rfl⟩, s.ensureInitialized_row⟩⟩
      | ok after =>
        rw [set] at called
        dsimp only at called
        split at called
        · cases called
          exact ⟨s.ensureInitialized_returned, Or.inr ⟨stored, rfl, rfl, set⟩⟩
        · cases called
          refine ⟨s.ensureInitialized_returned, Or.inl ⟨⟨_, rfl⟩, ?_⟩⟩
          rw [onWrite_contents, ensureInitialized_row]

theorem deleteAll_cases (deleteAlarm : Bool) (empty : R) :
    (s.deleteAll deleteAlarm empty).returned = s.returned ∧
      ((s.deleteAll deleteAlarm empty).actor.contents = s.actor.contents ∨
      s.goesBackTo (.deleteAll deleteAlarm empty) = some { metadata := none, rest := empty } ∧
        bookmarkRow (s.deleteAll deleteAlarm empty).actor.contents.metadata = bookmarkRow none) := by
  unfold deleteAll
  dsimp only [goesBackTo]
  by_cases broken : s.actor.broken
  · rw [if_pos broken]
    exact ⟨rfl, Or.inl rfl⟩
  · rw [if_neg broken, if_neg broken]
    cases saved : s.savedAlarm with
    | error _ => exact ⟨rfl, Or.inl rfl⟩
    | ok localAlarmState =>
      cases s.actor.currentTxn with
      | explicit id => exact ⟨rfl, Or.inl rfl⟩
      | _ =>
        dsimp only
        split
        · exact ⟨setAlarm_returned _ _, Or.inr ⟨rfl, setAlarm_row _ _⟩⟩
        · exact ⟨rfl, Or.inr ⟨rfl, rfl⟩⟩

theorem rollback_goes (id : Nat) :
    (s.actor.rollback id).2.contents = (s.goesBackTo (.rollback id)).getD s.actor.contents := by
  rw [ActorSqlite.rollback_contents]
  dsimp only [goesBackTo]
  split <;> rfl

theorem drop_goes (id : Nat) :
    (s.actor.drop id).2.contents = (s.goesBackTo (.drop id)).getD s.actor.contents := by
  rw [ActorSqlite.drop_contents]
  dsimp only [goesBackTo]
  split <;> rfl

theorem checkpoint_goes (commits : Bool) :
    (s.checkpoint commits).returned = s.returned ∧
      (s.checkpoint commits).actor.contents = (s.goesBackTo (.checkpoint commits)).getD s.actor.contents := by
  unfold checkpoint
  cases commits with
  | true =>
    split
    · exact ⟨rfl, ActorSqlite.checkpoint_contents _⟩
    · exact ⟨rfl, rfl⟩
  | false =>
    dsimp only [goesBackTo]
    split
    · exact ⟨rfl, rfl⟩
    · exact ⟨rfl, rfl⟩

section Step

variable {e : Event R} (handed : Handed s.actor.contents.metadata s.returned) (keeps : KeepsRow s e)
include handed

theorem handed_still (returned : t.returned = s.returned)
    (row : bookmarkRow t.actor.contents.metadata = bookmarkRow s.actor.contents.metadata) :
    Handed t.actor.contents.metadata t.returned := by
  rw [returned]
  exact handed.of_row row

include keeps

theorem handed_back {data : StoredData R} (goes : s.goesBackTo e = some data) (returned : t.returned = s.returned)
    (row : bookmarkRow t.actor.contents.metadata = bookmarkRow data.metadata) :
    Handed t.actor.contents.metadata t.returned := by
  rcases keeps with fresh | same
  · rw [returned, fresh]
    exact Handed.nothing _
  · exact handed_still handed returned (row.trans (same data goes))

theorem handed_moved (returned : t.returned = s.returned)
    (contents : t.actor.contents = (s.goesBackTo e).getD s.actor.contents) :
    Handed t.actor.contents.metadata t.returned := by
  cases goes : s.goesBackTo e with
  | none =>
    rw [goes, Option.getD_none] at contents
    exact handed_still handed returned (congrArg (bookmarkRow ·.metadata) contents)
  | some data =>
    rw [goes, Option.getD_some] at contents
    exact handed_back handed keeps goes returned (congrArg (bookmarkRow ·.metadata) contents)

/-- No step that keeps the row takes the number stored below one handed out. -/
theorem step_handed (stepped : s.step e = some t) : Handed t.actor.contents.metadata t.returned := by
  cases e with
  | getCurrentBookmark stores =>
    dsimp only [step] at stepped
    cases called : s.getCurrentBookmark stores with
    | mk result next =>
      rw [called] at stepped
      obtain ⟨returned, failed | given⟩ := getCurrentBookmark_cases called
      · obtain ⟨⟨error, rfl⟩, row⟩ := failed
        cases stepped
        exact handed_still handed returned row
      · obtain ⟨stored, rfl, read, set⟩ := given
        cases stepped
        dsimp only
        rw [returned]
        exact (handed.of_row s.ensureInitialized_row).next read set
  | write effect =>
    cases stepped
    exact handed_still handed (s.write_metadata effect).2 (congrArg bookmarkRow (s.write_metadata effect).1)
  | setAlarm currentTime =>
    cases stepped
    exact handed_still handed (s.setAlarm_returned currentTime) (s.setAlarm_row currentTime)
  | checkpoint commits =>
    cases stepped
    exact handed_moved handed keeps (checkpoint_goes commits).1 (checkpoint_goes commits).2
  | startTransaction =>
    obtain ⟨started, starts, rfl⟩ := Option.map_eq_some_iff.1 stepped
    exact handed_still handed rfl (congrArg (bookmarkRow ·.metadata) (s.actor.startTransaction_contents starts))
  | commit id outcome =>
    dsimp only [step] at stepped
    split at stepped
    · cases stepped
      exact handed_still handed rfl (congrArg (bookmarkRow ·.metadata) (s.actor.commit_contents id outcome))
    · cases stepped
  | rollback id =>
    dsimp only [step] at stepped
    split at stepped
    · cases stepped
      exact handed_moved handed keeps rfl (rollback_goes id)
    · cases stepped
  | drop id =>
    dsimp only [step] at stepped
    split at stepped
    · cases stepped
      exact handed_moved handed keeps rfl (drop_goes id)
    · cases stepped
  | deleteAll deleteAlarm empty =>
    cases stepped
    obtain ⟨returned, kept | goes⟩ := s.deleteAll_cases deleteAlarm empty
    · exact handed_still handed returned (congrArg (bookmarkRow ·.metadata) kept)
    · exact handed_back handed keeps goes.1 returned goes.2
  | breaks =>
    cases stepped
    exact handed_still handed rfl rfl
  | restart =>
    cases stepped
    exact handed_moved handed keeps rfl rfl

end Step

theorem run_handed {events : List (Event R)} (handed : Handed s.actor.contents.metadata s.returned)
    (admitted : Admitted step KeepsRow s events) (ran : run step s events = some t) :
    Handed t.actor.contents.metadata t.returned := by
  induction events generalizing s with
  | nil =>
    cases ran
    exact handed
  | cons e rest ih =>
    obtain ⟨next, stepped, ran⟩ := Option.bind_eq_some_iff.1 ran
    exact ih (step_handed handed admitted.1 stepped) (admitted.2 next stepped) ran

/-- Where no step takes back the row of a bookmark that was handed out, bookmarks increase. -/
theorem bookmarks_increase (contents : StoredData R) (events : List (Event R)) {s : Session R}
    (admitted : Admitted step KeepsRow (opened contents) events)
    (ran : run step (opened contents) events = some s) : s.returned.Pairwise (· < ·) :=
  (run_handed (Handed.nothing _) admitted ran).sorted

theorem bookmarks_increase_after_deleteAll :
    ∃ s : Session Unit,
      run step (opened { metadata := none, rest := () }) [.startTransaction, .rollback 0, .drop 0, .deleteAll true (),
        .getCurrentBookmark true, .checkpoint true, .getCurrentBookmark true] = some s ∧
      s.returned.length = 2 ∧ s.returned.Pairwise (· < ·) := by
  cases ran : run step (opened { metadata := none, rest := () }) [.startTransaction, .rollback 0, .drop 0,
      .deleteAll true (), .getCurrentBookmark true, .checkpoint true, .getCurrentBookmark true] with
  | none =>
    have some : (run step (opened { metadata := none, rest := () }) [.startTransaction, .rollback 0, .drop 0,
        .deleteAll true (), .getCurrentBookmark true, .checkpoint true, .getCurrentBookmark true]).isSome := by
      decide +kernel
    rw [ran] at some
    cases some
  | some s =>
    have two : ((run step (opened { metadata := none, rest := () }) [.startTransaction, .rollback 0, .drop 0,
        .deleteAll true (), .getCurrentBookmark true, .checkpoint true, .getCurrentBookmark true]).map
          (·.returned.length)) = some 2 := by
      decide +kernel
    rw [ran] at two
    refine ⟨s, rfl, Option.some.inj two, bookmarks_increase _ _ ?_ ran⟩
    refine ⟨Or.inl rfl, fun _ started => ?_⟩
    cases started
    refine ⟨Or.inl rfl, fun _ back => ?_⟩
    cases back
    refine ⟨Or.inl rfl, fun _ dropped => ?_⟩
    cases dropped
    refine ⟨Or.inl rfl, fun _ deleted => ?_⟩
    cases deleted
    refine ⟨Or.inl rfl, fun _ _ => ⟨Or.inr ?_, fun _ _ => ⟨Or.inr ?_, fun _ _ => trivial⟩⟩⟩
    · intro data goes
      cases goes
    · intro data goes
      cases goes

/-- A bookmark handed out in a transaction that rolls back is handed out once more. -/
theorem bookmark_handed_out_twice :
    ¬ ∀ (contents : StoredData Unit) (events : List (Event Unit)) (s : Session Unit),
      run step (opened contents) events = some s → s.returned.Pairwise (· < ·) := by
  intro increase
  have twice : (run step (opened { metadata := none, rest := () })
      [.startTransaction, .getCurrentBookmark true, .rollback 0, .getCurrentBookmark true]).map (·.returned) =
        some [numberText 0, numberText 0] := by
    decide +kernel
  obtain ⟨s, ran, returned⟩ := Option.map_eq_some_iff.1 twice
  have sorted := increase _ _ s ran
  rw [returned, List.pairwise_cons] at sorted
  exact lt_irrefl _ (sorted.1 _ (List.mem_singleton_self _))

end Session

end DoRuntime.Storage
