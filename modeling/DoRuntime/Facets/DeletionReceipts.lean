import DoRuntime.Facets.FacetDeletion
import DoRuntime.Lib.Transition

namespace DoRuntime.Facets

namespace ReceiptTable

theorem lookup_clear (table : ReceiptTable) (receipt : FacetDeletionReceipt) (id : FacetId) :
    (table.clear receipt).lookup id = table.lookup id ∨
      id = receipt.id ∧ table.lookup id = some receipt.generation ∧ (table.clear receipt).lookup id = none := by
  unfold clear
  by_cases current : table.lookup receipt.id = some receipt.generation
  · rw [if_pos current]
    by_cases same : id = receipt.id
    · subst same
      exact .inr ⟨rfl, current, AList.lookup_erase _ _⟩
    · exact .inl (AList.lookup_erase_ne same)
  · rw [if_neg current]
    exact .inl rfl

theorem lookup_record (table : ReceiptTable) (id other : FacetId) :
    (table.record id).2.lookup other = if other = id then some (table.record id).1.generation else table.lookup other := by
  by_cases same : other = id
  · rw [if_pos same, same]
    exact AList.lookup_insert _
  · rw [if_neg same]
    exact AList.lookup_insert_ne same

theorem record_generation {table : ReceiptTable} {id : FacetId} {generation : Nat}
    (present : table.lookup id = some generation) : (table.record id).1.generation = generation + 1 := by
  simp only [record, present]

end ReceiptTable

namespace FacetDeletionController

variable {s t : FacetDeletionController} {a b c : Nat} {id : FacetId}

def facet (s : FacetDeletionController) (a : Nat) : FacetId := (s.attempts a).receipt.id

def generation (s : FacetDeletionController) (a : Nat) : Nat := (s.attempts a).receipt.generation

def Unended (s : FacetDeletionController) (a : Nat) : Prop :=
  (s.attempts a).phase = .waiting ∨ ∃ since, (s.attempts a).phase = .deleting since

def Deleting (s : FacetDeletionController) (a : Nat) : Prop := ∃ since, (s.attempts a).phase = .deleting since

/-- The attempts for a facet queue behind one another. -/
structure Chained (s : FacetDeletionController) : Prop where
  bound : ∀ id a, s.active id = some a → a < s.nextAttempt ∧ s.facet a = id
  idle : ∀ id, s.active id = none → ∀ b < s.nextAttempt, s.facet b = id → s.isSettled b = true
  latest : ∀ id a, s.active id = some a → ∀ b < s.nextAttempt, s.facet b = id → b ≤ a
  behind : ∀ c < s.nextAttempt, ∀ b < c, s.facet b = s.facet c →
    s.isSettled b = true ∨ ∃ p, (s.attempts c).previous = some p ∧ b ≤ p ∧ p < c ∧ s.facet p = s.facet c
  begun : ∀ c < s.nextAttempt, (s.attempts c).phase ≠ .waiting → ∀ b < c, s.facet b = s.facet c → s.isSettled b = true
  rising : ∀ c < s.nextAttempt, ∀ b < c, s.facet b = s.facet c → s.Unended b → s.generation b < s.generation c

/-- The receipts of these facets stand for what their attempts have not carried out. -/
structure Recorded (among : FacetId → Prop) (s : FacetDeletionController) : Prop where
  row : ∀ id a, among id → s.active id = some a → s.Unended a → s.receipts.lookup id = some (s.generation a)
  current : ∀ id a, among id → s.active id = some a → ∀ since, (s.attempts a).phase = .deleting since →
    since = s.requests id
  since : ∀ a < s.nextAttempt, ∀ since, (s.attempts a).phase = .deleting since → since ≤ s.requests (s.facet a)
  carried : ∀ id, s.carriedOut id ≤ s.requests id
  kept : ∀ id, s.receipts.lookup id = none → s.carriedOut id = s.requests id

theorem unended_not_settled (unended : s.Unended a) : s.isSettled a = false := by
  unfold isSettled
  obtain waiting | ⟨since, deleting⟩ := unended
  · rw [waiting]
  · rw [deleting]

theorem settled_not_waiting (settled : s.isSettled a = true) : (s.attempts a).phase ≠ .waiting := by
  intro waiting
  rw [unended_not_settled (.inl waiting)] at settled
  cases settled

/-- A deletion that is in progress belongs to the active attempt, or to one that the active attempt waits for. -/
theorem Chained.active_of_deleting (chained : s.Chained) (within : a < s.nextAttempt) (deleting : s.Deleting a) :
    ∃ c, s.active (s.facet a) = some c ∧ (c = a ∨ a < c ∧ (s.attempts c).phase = .waiting) := by
  have open' := unended_not_settled (.inr deleting)
  cases active : s.active (s.facet a) with
  | none =>
    rw [chained.idle _ active a within rfl] at open'
    cases open'
  | some c =>
    refine ⟨c, rfl, ?_⟩
    obtain ⟨bound, same⟩ := chained.bound _ _ active
    rcases Nat.lt_or_eq_of_le (chained.latest _ _ active a within rfl) with before | equal
    · right
      refine ⟨before, ?_⟩
      by_contra started
      rw [chained.begun c bound started a before same.symm] at open'
      cases open'
    · exact .inl equal.symm

section Frames

/-- A step that leaves what an attempt is, and takes no promise back. -/
structure Later (s t : FacetDeletionController) : Prop where
  next : t.nextAttempt = s.nextAttempt
  receipt : ∀ a, (t.attempts a).receipt = (s.attempts a).receipt
  previous : ∀ a, (t.attempts a).previous = (s.attempts a).previous
  settled : ∀ a, s.isSettled a = true → t.isSettled a = true
  unended : ∀ a, t.Unended a → s.Unended a

theorem Later.chained (later : Later s t) (active : t.active = s.active) (chained : s.Chained)
    (begun : ∀ c < t.nextAttempt, (t.attempts c).phase ≠ .waiting → ∀ b < c, t.facet b = t.facet c → t.isSettled b = true) :
    t.Chained := by
  have facets (a : Nat) : t.facet a = s.facet a := congrArg FacetDeletionReceipt.id (later.receipt a)
  have generations (a : Nat) : t.generation a = s.generation a :=
    congrArg FacetDeletionReceipt.generation (later.receipt a)
  refine ⟨?_, ?_, ?_, ?_, begun, ?_⟩
  · intro id a held
    rw [later.next, facets]
    exact chained.bound id a (active ▸ held)
  · intro id none_active b within same
    rw [later.next] at within
    rw [facets] at same
    exact later.settled b (chained.idle id (active ▸ none_active) b within same)
  · intro id a held b within same
    rw [later.next] at within
    rw [facets] at same
    exact chained.latest id a (active ▸ held) b within same
  · intro c within b before same
    rw [later.next] at within
    simp only [facets] at same ⊢
    rw [later.previous]
    exact (chained.behind c within b before same).imp (later.settled b) id
  · intro c within b before same unended
    rw [later.next] at within
    rw [facets, facets] at same
    rw [generations, generations]
    exact chained.rising c within b before same (later.unended b unended)

theorem setPhase_phase (s : FacetDeletionController) (a : Nat) (phase : AttemptPhase) (b : Nat) :
    ((s.setPhase a phase).attempts b).phase = if b = a then phase else (s.attempts b).phase := by
  by_cases same : b = a
  · subst same
    simp [setPhase]
  · simp [setPhase, same]

theorem setPhase_receipt (s : FacetDeletionController) (a : Nat) (phase : AttemptPhase) (b : Nat) :
    ((s.setPhase a phase).attempts b).receipt = (s.attempts b).receipt ∧
      ((s.setPhase a phase).attempts b).previous = (s.attempts b).previous := by
  by_cases same : b = a
  · subst same
    simp [setPhase]
  · simp [setPhase, same]

theorem setPhase_facet (s : FacetDeletionController) (a : Nat) (phase : AttemptPhase) (b : Nat) :
    (s.setPhase a phase).facet b = s.facet b := congrArg FacetDeletionReceipt.id (setPhase_receipt s a phase b).1

theorem setPhase_generation (s : FacetDeletionController) (a : Nat) (phase : AttemptPhase) (b : Nat) :
    (s.setPhase a phase).generation b = s.generation b :=
  congrArg FacetDeletionReceipt.generation (setPhase_receipt s a phase b).1

theorem setPhase_settled_of_ne (s : FacetDeletionController) {a b : Nat} (phase : AttemptPhase) (apart : b ≠ a) :
    (s.setPhase a phase).isSettled b = s.isSettled b := by
  simp only [isSettled, setPhase_phase, if_neg apart]

theorem Chained.setPhase (chained : s.Chained) (phase : AttemptPhase) (open' : s.isSettled a = false)
    (unended : (s.setPhase a phase).Unended a → s.Unended a)
    (first : ∀ b < a, s.facet b = s.facet a → s.isSettled b = true) : (s.setPhase a phase).Chained := by
  have settled (b : Nat) (done : s.isSettled b = true) : (s.setPhase a phase).isSettled b = true := by
    rw [setPhase_settled_of_ne s phase]
    · exact done
    · intro same
      rw [same, open'] at done
      cases done
  have later : Later s (s.setPhase a phase) := by
    refine ⟨rfl, fun b => (setPhase_receipt s a phase b).1, fun b => (setPhase_receipt s a phase b).2, settled, ?_⟩
    intro b held
    by_cases same : b = a
    · subst same
      exact unended held
    · simpa only [Unended, setPhase_phase, if_neg same] using held
  refine later.chained rfl chained ?_
  intro c within started b before same
  rw [setPhase_facet, setPhase_facet] at same
  apply settled
  by_cases own : c = a
  · subst own
    exact first b before same
  · rw [setPhase_phase, if_neg own] at started
    exact chained.begun c within started b before same

end Frames

section Run

/-- The attempt that `#run` adds where it does not merge. -/
def enqueue (s : FacetDeletionController) (receipt : FacetDeletionReceipt) (barrierSettled : Bool) :
    FacetDeletionController :=
  { s with
    attempts := Function.update s.attempts s.nextAttempt
      { receipt, previous := s.active receipt.id, barrierSettled, phase := .waiting }
    nextAttempt := s.nextAttempt + 1
    active := Function.update s.active receipt.id (some s.nextAttempt) }

theorem run_cases (s : FacetDeletionController) (receipt : FacetDeletionReceipt) (barrierSettled : Bool) :
    (∃ a, s.active receipt.id = some a ∧ receipt.generation ≤ s.generation a ∧ s.run receipt barrierSettled = (a, s)) ∨
    ((∀ a, s.active receipt.id = some a → s.generation a < receipt.generation) ∧
      s.run receipt barrierSettled = (s.nextAttempt, s.enqueue receipt barrierSettled)) := by
  unfold run enqueue
  cases active : s.active receipt.id with
  | none => exact .inr ⟨fun _ impossible => (by cases impossible), rfl⟩
  | some a =>
    by_cases merged : receipt.generation ≤ (s.attempts a).receipt.generation
    · exact .inl ⟨a, rfl, merged, by simp only [if_pos merged]⟩
    · right
      refine ⟨?_, by simp only [if_neg merged]⟩
      intro b same
      cases same
      exact Nat.lt_of_not_le merged

variable {receipt : FacetDeletionReceipt} {barrierSettled : Bool}

theorem enqueue_attempt (s : FacetDeletionController) (receipt : FacetDeletionReceipt) (barrierSettled : Bool) :
    (s.enqueue receipt barrierSettled).attempts s.nextAttempt =
        { receipt, previous := s.active receipt.id, barrierSettled, phase := .waiting } ∧
      ∀ b < s.nextAttempt, (s.enqueue receipt barrierSettled).attempts b = s.attempts b := by
  refine ⟨Function.update_self .., ?_⟩
  intro b before
  exact Function.update_of_ne (Nat.ne_of_lt before) ..

theorem enqueue_active (s : FacetDeletionController) (receipt : FacetDeletionReceipt) (barrierSettled : Bool)
    (id : FacetId) : (s.enqueue receipt barrierSettled).active id =
      if id = receipt.id then some s.nextAttempt else s.active id := by
  simp only [enqueue, Function.update_apply]

theorem Chained.enqueue (chained : s.Chained)
    (fresh : ∀ a, s.active receipt.id = some a → s.generation a < receipt.generation) :
    (s.enqueue receipt barrierSettled).Chained := by
  obtain ⟨new, old⟩ := enqueue_attempt s receipt barrierSettled
  have settled (b : Nat) (before : b < s.nextAttempt) :
      (s.enqueue receipt barrierSettled).isSettled b = s.isSettled b := by
    simp only [isSettled, old b before]
  have facets (b : Nat) (before : b < s.nextAttempt) : (s.enqueue receipt barrierSettled).facet b = s.facet b := by
    simp only [facet, old b before]
  have facet_new : (s.enqueue receipt barrierSettled).facet s.nextAttempt = receipt.id := by
    simp only [facet, new]
  have generations (b : Nat) (before : b < s.nextAttempt) :
      (s.enqueue receipt barrierSettled).generation b = s.generation b := by
    simp only [generation, old b before]
  have generation_new : (s.enqueue receipt barrierSettled).generation s.nextAttempt = receipt.generation := by
    simp only [generation, new]
  have last (c : Nat) (within : c < s.nextAttempt + 1) : c < s.nextAttempt ∨ c = s.nextAttempt := by omega
  refine ⟨?_, ?_, ?_, ?_, ?_, ?_⟩
  · intro id a held
    rw [enqueue_active] at held
    split_ifs at held with same
    · cases held
      exact ⟨Nat.lt_succ_self _, facet_new.trans same.symm⟩
    · obtain ⟨bound, own⟩ := chained.bound id a held
      exact ⟨Nat.lt_succ_of_lt bound, (facets a bound).trans own⟩
  · intro id none_active b within same
    rw [enqueue_active] at none_active
    split_ifs at none_active with own
    rcases last b within with before | rfl
    · rw [facets b before] at same
      rw [settled b before]
      exact chained.idle id none_active b before same
    · exact absurd (same.symm.trans facet_new) own
  · intro id a held b within same
    rw [enqueue_active] at held
    split_ifs at held with own
    · cases held
      exact Nat.le_of_lt_succ within
    · rcases last b within with before | rfl
      · rw [facets b before] at same
        exact chained.latest id a held b before same
      · exact absurd (same.symm.trans facet_new) own
  · intro c within b before same
    rcases last c within with earlier | rfl
    · have before' : b < s.nextAttempt := by omega
      rw [facets b before', facets c earlier] at same
      rw [settled b before', old c earlier]
      refine (chained.behind c earlier b before same).imp id ?_
      rintro ⟨p, previous, above, below, own⟩
      refine ⟨p, previous, above, below, ?_⟩
      rwa [facets p (by omega), facets c earlier]
    · rw [facets b before, facet_new] at same
      rw [settled b before, new]
      cases active : s.active receipt.id with
      | none => exact .inl (chained.idle _ active b before same)
      | some a =>
        obtain ⟨bound, own⟩ := chained.bound _ a active
        refine .inr ⟨a, rfl, chained.latest _ a active b before same, bound, ?_⟩
        rw [facets a bound, facet_new, own]
  · intro c within started b before same
    rcases last c within with earlier | rfl
    · have before' : b < s.nextAttempt := by omega
      rw [facets b before', facets c earlier] at same
      rw [old c earlier] at started
      rw [settled b before']
      exact chained.begun c earlier started b before same
    · rw [new] at started
      exact absurd rfl started
  · intro c within b before same unended
    rcases last c within with earlier | rfl
    · have before' : b < s.nextAttempt := by omega
      rw [facets b before', facets c earlier] at same
      simp only [Unended, old b before'] at unended
      rw [generations b before', generations c earlier]
      exact chained.rising c earlier b before same unended
    · rw [facets b before, facet_new] at same
      simp only [Unended, old b before] at unended
      rw [generations b before, generation_new]
      cases active : s.active receipt.id with
      | none =>
        have done := chained.idle _ active b before same
        rw [unended_not_settled unended] at done
        cases done
      | some a =>
        obtain ⟨bound, own⟩ := chained.bound _ a active
        have newer := fresh a active
        rcases Nat.lt_or_eq_of_le (chained.latest _ a active b before same) with below | rfl
        · exact (chained.rising a bound b below (same.trans own.symm) unended).trans newer
        · exact newer

theorem Chained.run (chained : s.Chained) (receipt : FacetDeletionReceipt) (barrierSettled : Bool) :
    (s.run receipt barrierSettled).2.Chained := by
  obtain ⟨a, _, _, merged⟩ | ⟨fresh, added⟩ := run_cases s receipt barrierSettled
  · rw [merged]
    exact chained
  · rw [added]
    exact chained.enqueue fresh

/-- The active attempt of a facet is replaced by a new one whose generation is on record. -/
theorem Recorded.enqueue (recorded : Recorded (· ≠ receipt.id) s) (bound : ∀ id a, s.active id = some a → a < s.nextAttempt)
    (row : s.receipts.lookup receipt.id = some receipt.generation) :
    Recorded (fun _ => True) (s.enqueue receipt barrierSettled) := by
  obtain ⟨new, old⟩ := enqueue_attempt s receipt barrierSettled
  refine ⟨?_, ?_, ?_, recorded.carried, recorded.kept⟩
  · intro id a _ held unended
    rw [enqueue_active] at held
    split_ifs at held with own
    · cases held
      rw [own, generation, new]
      exact row
    · simp only [Unended, old a (bound id a held)] at unended
      rw [generation, old a (bound id a held)]
      exact recorded.row id a own held unended
  · intro id a _ held since deleting
    rw [enqueue_active] at held
    split_ifs at held with own
    · cases held
      rw [new] at deleting
      cases deleting
    · rw [old a (bound id a held)] at deleting
      exact recorded.current id a own held since deleting
  · intro a within since deleting
    have cases : a < s.nextAttempt ∨ a = s.nextAttempt := Nat.lt_succ_iff_lt_or_eq.1 within
    rcases cases with before | rfl
    · rw [old a before] at deleting
      rw [facet, old a before]
      exact recorded.since a before since deleting
    · rw [new] at deleting
      cases deleting

theorem Recorded.weaken {among : FacetId → Prop} (recorded : Recorded (fun _ => True) s) : Recorded among s :=
  ⟨fun id a _ => recorded.row id a trivial, fun id a _ => recorded.current id a trivial, recorded.since,
    recorded.carried, recorded.kept⟩

/-- A facet whose active attempt has ended asks nothing of its receipt. -/
theorem Recorded.join (recorded : Recorded (· ≠ id) s) (ended : ∀ a, s.active id = some a → ¬ s.Unended a) :
    Recorded (fun _ => True) s := by
  refine ⟨?_, ?_, recorded.since, recorded.carried, recorded.kept⟩
  · intro other a _ held unended
    by_cases same : other = id
    · subst same
      exact absurd unended (ended a held)
    · exact recorded.row other a same held unended
  · intro other a _ held since deleting
    by_cases same : other = id
    · subst same
      exact absurd (.inr ⟨since, deleting⟩) (ended a held)
    · exact recorded.current other a same held since deleting

/-- The state in which `delete` calls `#run`. -/
def requested (s : FacetDeletionController) (id : FacetId) : FacetDeletionController :=
  { s with
    receipts := (s.receipts.record id).2
    requests := Function.update s.requests id (s.requests id + 1) }

theorem requested_lookup (s : FacetDeletionController) (id : FacetId) :
    (s.requested id).receipts.lookup id = some (s.receipts.record id).1.generation := by
  have found := s.receipts.lookup_record id id
  rwa [if_pos rfl] at found

theorem requests_le (s : FacetDeletionController) (id other : FacetId) : s.requests other ≤ (s.requested id).requests other := by
  simp only [requested, Function.update_apply]
  split_ifs with same
  · rw [same]
    exact Nat.le_succ _
  · exact le_rfl

theorem Recorded.requested (recorded : Recorded (fun _ => True) s) (id : FacetId) :
    Recorded (· ≠ id) (s.requested id) := by
  refine ⟨?_, ?_, ?_, ?_, ?_⟩
  · intro other a apart held unended
    have found := s.receipts.lookup_record id other
    rw [if_neg apart] at found
    exact found.trans (recorded.row other a trivial held unended)
  · intro other a apart held since deleting
    have same := recorded.current other a trivial held since deleting
    simp only [FacetDeletionController.requested, Function.update_of_ne apart]
    exact same
  · intro a within since deleting
    exact (recorded.since a within since deleting).trans (requests_le s id _)
  · intro other
    exact (recorded.carried other).trans (requests_le s id other)
  · intro other absent
    have found := s.receipts.lookup_record id other
    by_cases same : other = id
    · rw [if_pos same] at found
      exact absurd (absent.symm.trans found) (by simp)
    · rw [if_neg same] at found
      simp only [FacetDeletionController.requested, Function.update_of_ne same]
      exact recorded.kept other (found.symm.trans absent)

theorem Chained.requested (chained : s.Chained) (id : FacetId) : (s.requested id).Chained :=
  ⟨chained.bound, chained.idle, chained.latest, chained.behind, chained.begun, chained.rising⟩

/-- A call that `#run` merges with an attempt finds one that is over. -/
theorem not_unended_of_merged (recorded : Recorded (fun _ => True) s) {a : Nat} (active : s.active id = some a)
    (merged : (s.receipts.record id).1.generation ≤ s.generation a) : ¬ s.Unended a := by
  intro unended
  rw [ReceiptTable.record_generation (recorded.row id a trivial active unended)] at merged
  exact absurd merged (Nat.not_succ_le_self _)

theorem delete_sound (chained : s.Chained) (recorded : Recorded (fun _ => True) s) (id : FacetId) (barrierSettled : Bool) :
    (s.delete id barrierSettled).Chained ∧ Recorded (fun _ => True) (s.delete id barrierSettled) := by
  have shape : s.delete id barrierSettled =
      { ((s.requested id).run (s.receipts.record id).1 barrierSettled).2 with
        calls := { id, number := s.requests id + 1
                   attempt := ((s.requested id).run (s.receipts.record id).1 barrierSettled).1 } ::
          ((s.requested id).run (s.receipts.record id).1 barrierSettled).2.calls } := rfl
  have ran := (chained.requested id).run (s.receipts.record id).1 barrierSettled
  have rows : Recorded (fun _ => True) ((s.requested id).run (s.receipts.record id).1 barrierSettled).2 := by
    obtain ⟨a, active, merged, same⟩ | ⟨fresh, added⟩ :=
      run_cases (s.requested id) (s.receipts.record id).1 barrierSettled
    · rw [same]
      apply (recorded.requested id).join
      intro b held
      cases held.symm.trans active
      exact not_unended_of_merged recorded active merged
    · rw [added]
      exact (recorded.requested id).enqueue (fun other a held => (chained.bound other a held).1) (requested_lookup s id)
  rw [shape]
  exact ⟨⟨ran.bound, ran.idle, ran.latest, ran.behind, ran.begun, ran.rising⟩,
    ⟨rows.row, rows.current, rows.since, rows.carried, rows.kept⟩⟩

theorem flush_sound (chained : s.Chained) (recorded : Recorded (fun _ => True) s) (id : FacetId) :
    (s.flush id).Chained ∧ Recorded (fun _ => True) (s.flush id) := by
  unfold flush ReceiptTable.read
  cases found : s.receipts.lookup id with
  | none => exact ⟨chained, recorded⟩
  | some generation =>
    have ran := chained.run { id, generation } true
    have rows : Recorded (fun _ => True) (s.run { id, generation } true).2 := by
      obtain ⟨a, active, merged, same⟩ | ⟨fresh, added⟩ := run_cases s { id, generation } true
      · rw [same]
        exact recorded
      · rw [added]
        exact recorded.weaken.enqueue (fun other a held => (chained.bound other a held).1) found
    exact ⟨⟨ran.bound, ran.idle, ran.latest, ran.behind, ran.begun, ran.rising⟩,
      ⟨rows.row, rows.current, rows.since, rows.carried, rows.kept⟩⟩

end Run

section Phases

theorem start_chained (chained : s.Chained) (within : a < s.nextAttempt) (waiting : (s.attempts a).phase = .waiting)
    (ready : (s.attempts a).previous.all s.isSettled = true) (since : Nat) : (s.setPhase a (.deleting since)).Chained := by
  apply chained.setPhase
  · exact unended_not_settled (.inl waiting)
  · exact fun _ => .inl waiting
  · intro b before same
    obtain done | ⟨p, previous, above, below, own⟩ := chained.behind a within b before same
    · exact done
    · rw [previous] at ready
      have settled : s.isSettled p = true := ready
      rcases Nat.lt_or_eq_of_le above with earlier | rfl
      · exact chained.begun p (by omega) (settled_not_waiting settled) b earlier (same.trans own.symm)
      · exact settled

theorem start_recorded (recorded : Recorded (fun _ => True) s) (chained : s.Chained)
    (waiting : (s.attempts a).phase = .waiting) :
    Recorded (fun _ => True) (s.setPhase a (.deleting (s.requests (s.facet a)))) := by
  refine ⟨?_, ?_, ?_, recorded.carried, recorded.kept⟩
  · intro id c _ held unended
    rw [setPhase_generation]
    apply recorded.row id c trivial held
    by_cases own : c = a
    · exact .inl (own ▸ waiting)
    · simpa only [Unended, setPhase_phase, if_neg own] using unended
  · intro id c _ held since deleting
    rw [setPhase_phase] at deleting
    split_ifs at deleting with own
    · cases deleting
      rw [own] at held
      rw [← (chained.bound id a held).2]
      rfl
    · exact recorded.current id c trivial held since deleting
  · intro c within since deleting
    rw [setPhase_phase] at deleting
    rw [setPhase_facet]
    split_ifs at deleting with own
    · cases deleting
      rw [own]
      exact le_rfl
    · exact recorded.since c within since deleting

/-- The promise of an attempt that is deleting settles in two steps that change no other attempt. -/
theorem over_chained (chained : s.Chained) (within : a < s.nextAttempt) (started : (s.attempts a).phase ≠ .waiting)
    (open' : s.isSettled a = false) (since : Nat) (ok : Bool) :
    (s.setPhase a (.ended since ok)).Chained ∧ (s.setPhase a (.settled since ok)).Chained := by
  constructor
  · apply chained.setPhase _ open'
    · simp [Unended, setPhase_phase]
    · exact chained.begun a within started
  · apply chained.setPhase _ open'
    · simp [Unended, setPhase_phase]
    · exact chained.begun a within started

theorem over_recorded (recorded : Recorded (fun _ => True) s) (phase : AttemptPhase)
    (closed : phase ≠ .waiting ∧ ∀ since, phase ≠ .deleting since) : Recorded (fun _ => True) (s.setPhase a phase) := by
  have apart {c since : Nat} (deleting : ((s.setPhase a phase).attempts c).phase = .deleting since) :
      (s.attempts c).phase = .deleting since := by
    rw [setPhase_phase] at deleting
    split_ifs at deleting with own
    · exact absurd deleting (closed.2 since)
    · exact deleting
  refine ⟨?_, ?_, ?_, recorded.carried, recorded.kept⟩
  · intro id c _ held unended
    rw [setPhase_generation]
    apply recorded.row id c trivial held
    obtain waiting | ⟨since, deleting⟩ := unended
    · rw [setPhase_phase] at waiting
      split_ifs at waiting with own
      · exact absurd waiting closed.1
      · exact .inl waiting
    · exact .inr ⟨since, apart deleting⟩
  · intro id c _ held since deleting
    exact recorded.current id c trivial held since (apart deleting)
  · intro c within since deleting
    rw [setPhase_facet]
    exact recorded.since c within since (apart deleting)

/-- The receipt of an attempt that is deleting is still its own just when no later delete was made. -/
theorem row_of_deleting (chained : s.Chained) (recorded : Recorded (fun _ => True) s) (within : a < s.nextAttempt)
    {since : Nat} (deleting : (s.attempts a).phase = .deleting since) :
    ∃ c, s.active (s.facet a) = some c ∧ s.receipts.lookup (s.facet a) = some (s.generation c) ∧
      ((c = a ∧ since = s.requests (s.facet a)) ∨
        (c ≠ a ∧ s.generation a < s.generation c ∧ (s.attempts c).phase = .waiting)) := by
  obtain ⟨c, active, rfl | ⟨before, waiting⟩⟩ := chained.active_of_deleting within ⟨since, deleting⟩
  · exact ⟨c, active, recorded.row _ c trivial active (.inr ⟨since, deleting⟩),
      .inl ⟨rfl, recorded.current _ c trivial active since deleting⟩⟩
  · obtain ⟨bound, same⟩ := chained.bound _ _ active
    exact ⟨c, active, recorded.row _ c trivial active (.inl waiting),
      .inr ⟨Nat.ne_of_gt before, chained.rising c bound a before same.symm (.inr ⟨since, deleting⟩), waiting⟩⟩

/-- What a deletion that has completed clears. -/
theorem clear_cases (chained : s.Chained) (recorded : Recorded (fun _ => True) s) (within : a < s.nextAttempt)
    {since : Nat} (deleting : (s.attempts a).phase = .deleting since) (id : FacetId) :
    (s.receipts.clear (s.attempts a).receipt).lookup id = s.receipts.lookup id ∨
      id = s.facet a ∧ s.active id = some a ∧ since = s.requests id ∧ s.receipts.lookup id = some (s.generation a) ∧
        (s.receipts.clear (s.attempts a).receipt).lookup id = none := by
  obtain same | ⟨rfl, current, cleared⟩ := s.receipts.lookup_clear (s.attempts a).receipt id
  · exact .inl same
  · obtain ⟨c, active, row, ⟨rfl, last⟩ | ⟨_, newer, _⟩⟩ := row_of_deleting chained recorded within deleting
    · exact .inr ⟨rfl, active, last, current, cleared⟩
    · have equal : s.generation c = s.generation a := Option.some.inj (row.symm.trans current)
      exact absurd newer (by omega)

theorem end_recorded (chained : s.Chained) (recorded : Recorded (fun _ => True) s) (within : a < s.nextAttempt)
    {since : Nat} (deleting : (s.attempts a).phase = .deleting since) (ok : Bool) :
    Recorded (fun _ => True) (s.endDeletion a since ok) := by
  have ended := over_recorded (a := a) recorded (.ended since ok) ⟨by simp, by simp⟩
  unfold endDeletion
  cases ok with
  | false => exact ended
  | true =>
    have counted := recorded.since a within since deleting
    refine ⟨?_, ended.current, ended.since, ?_, ?_⟩
    · intro id c _ held unended
      have row := ended.row id c trivial held unended
      obtain same | ⟨_, active, _⟩ := clear_cases chained recorded within deleting id
      · exact same.trans row
      · cases active.symm.trans held
        simp [Unended, setPhase_phase] at unended
    · intro id
      show Function.update s.carriedOut (s.facet a) (max (s.carriedOut (s.facet a)) since) id ≤ s.requests id
      by_cases own : id = s.facet a
      · subst own
        rw [Function.update_self]
        exact max_le (recorded.carried _) counted
      · rw [Function.update_of_ne own]
        exact recorded.carried id
    · intro id absent
      show Function.update s.carriedOut (s.facet a) (max (s.carriedOut (s.facet a)) since) id = s.requests id
      by_cases own : id = s.facet a
      · subst own
        rw [Function.update_self]
        obtain same | ⟨_, _, last, _⟩ := clear_cases chained recorded within deleting (s.facet a)
        · rw [recorded.kept _ (same.symm.trans absent)]
          exact max_eq_left counted
        · rw [last]
          exact max_eq_right (recorded.carried _)
      · rw [Function.update_of_ne own]
        obtain same | ⟨impossible, _⟩ := clear_cases chained recorded within deleting id
        · exact recorded.kept id (same.symm.trans absent)
        · exact absurd impossible own

theorem clearActive_chained (chained : s.Chained) (done : s.isSettled a = true) (active : s.active (s.facet a) = some a) :
    Chained { s with active := Function.update s.active (s.facet a) none } := by
  have held {id : FacetId} {c : Nat} (active : Function.update s.active (s.facet a) none id = some c) :
      s.active id = some c := by
    rw [Function.update_apply] at active
    split_ifs at active
    exact active
  refine ⟨fun id c active => chained.bound id c (held active), ?_, fun id c active => chained.latest id c (held active),
    chained.behind, chained.begun, chained.rising⟩
  intro id none_active b within same
  by_cases own : id = s.facet a
  · subst own
    obtain ⟨bound, _⟩ := chained.bound _ a active
    rcases Nat.lt_or_eq_of_le (chained.latest _ a active b within same) with before | rfl
    · exact chained.begun a bound (settled_not_waiting done) b before same
    · exact done
  · have kept : s.active id = none := by
      have none_active : Function.update s.active (s.facet a) none id = none := none_active
      rwa [Function.update_of_ne own] at none_active
    exact chained.idle id kept b within same

end Phases

section Runs

structure Sound (s : FacetDeletionController) : Prop where
  chained : s.Chained
  recorded : Recorded (fun _ => True) s

theorem Sound.flush (sound : s.Sound) (id : FacetId) : (s.flush id).Sound := by
  obtain ⟨chained, recorded⟩ := flush_sound sound.chained sound.recorded id
  exact ⟨chained, recorded⟩

theorem Sound.flushes (sound : s.Sound) (ids : List FacetId) : (ids.foldl FacetDeletionController.flush s).Sound := by
  induction ids generalizing s with
  | nil => exact sound
  | cons id ids ih => exact ih (sound.flush id)

/-- The parts of a controller that no flush call is in. -/
theorem Sound.forget (sound : s.Sound) (flushes : List FlushCall) : Sound { s with flushes } :=
  ⟨⟨sound.chained.bound, sound.chained.idle, sound.chained.latest, sound.chained.behind, sound.chained.begun,
    sound.chained.rising⟩,
    ⟨sound.recorded.row, sound.recorded.current, sound.recorded.since, sound.recorded.carried, sound.recorded.kept⟩⟩

theorem Sound.barrier (sound : s.Sound) (a : Nat) :
    Sound { s with attempts := Function.update s.attempts a { s.attempts a with barrierSettled := true } } := by
  have same (b : Nat) : (Function.update s.attempts a { s.attempts a with barrierSettled := true } b).phase =
        (s.attempts b).phase ∧
      (Function.update s.attempts a { s.attempts a with barrierSettled := true } b).receipt = (s.attempts b).receipt ∧
      (Function.update s.attempts a { s.attempts a with barrierSettled := true } b).previous = (s.attempts b).previous := by
    by_cases own : b = a
    · subst own
      rw [Function.update_self]
      exact ⟨rfl, rfl, rfl⟩
    · rw [Function.update_of_ne own]
      exact ⟨rfl, rfl, rfl⟩
  have later : Later s { s with attempts := Function.update s.attempts a { s.attempts a with barrierSettled := true } } := by
    refine ⟨rfl, fun b => (same b).2.1, fun b => (same b).2.2, ?_, ?_⟩
    · intro b settled
      simpa only [isSettled, (same b).1] using settled
    · intro b unended
      simpa only [Unended, (same b).1] using unended
  constructor
  · refine later.chained rfl sound.chained ?_
    intro c within started b before facets
    simp only [(same c).1] at started
    simp only [facet, (same b).2.1, (same c).2.1] at facets
    exact later.settled b (sound.chained.begun c within started b before facets)
  · refine ⟨?_, ?_, ?_, sound.recorded.carried, sound.recorded.kept⟩
    · intro id c _ held unended
      simp only [generation, (same c).2.1]
      exact sound.recorded.row id c trivial held (later.unended c unended)
    · intro id c _ held since deleting
      simp only [(same c).1] at deleting
      exact sound.recorded.current id c trivial held since deleting
    · intro c within since deleting
      simp only [(same c).1] at deleting
      simp only [facet, (same c).2.1]
      exact sound.recorded.since c within since deleting

theorem Sound.step {e : DeletionEvent} (sound : s.Sound) (stepped : step s e = some t) : t.Sound := by
  cases e with
  | delete id barrierSettled =>
    simp only [FacetDeletionController.step, Option.ite_none_left_eq_some, Option.some.injEq] at stepped
    obtain ⟨_, rfl⟩ := stepped
    obtain ⟨chained, recorded⟩ := delete_sound sound.chained sound.recorded id barrierSettled
    exact ⟨chained, recorded⟩
  | flush id =>
    simp only [FacetDeletionController.step, Option.ite_none_left_eq_some, Option.some.injEq] at stepped
    obtain ⟨_, rfl⟩ := stepped
    exact sound.flush id
  | recoverAll =>
    obtain rfl := Option.some.inj stepped
    exact sound.flushes _
  | barrier a =>
    simp only [FacetDeletionController.step, Option.ite_none_right_eq_some, Option.some.injEq] at stepped
    obtain ⟨_, rfl⟩ := stepped
    exact sound.barrier a
  | start a =>
    simp only [FacetDeletionController.step, Option.ite_none_right_eq_some, Option.some.injEq] at stepped
    obtain ⟨⟨within, waiting, _, ready⟩, rfl⟩ := stepped
    exact ⟨start_chained sound.chained within waiting ready _, start_recorded sound.recorded sound.chained waiting⟩
  | deletionEnds a ok =>
    simp only [FacetDeletionController.step] at stepped
    split at stepped
    next since deleting =>
      simp only [Option.ite_none_right_eq_some, Option.some.injEq] at stepped
      obtain ⟨within, rfl⟩ := stepped
      have chained := (over_chained sound.chained within (by simp [deleting])
        (unended_not_settled (.inr ⟨since, deleting⟩)) since ok).1
      refine ⟨?_, end_recorded sound.chained sound.recorded within deleting ok⟩
      unfold endDeletion
      split_ifs
      · exact ⟨chained.bound, chained.idle, chained.latest, chained.behind, chained.begun, chained.rising⟩
      · exact chained
    all_goals cases stepped
  | settle a =>
    simp only [FacetDeletionController.step] at stepped
    split at stepped
    next since ok ended =>
      simp only [Option.ite_none_right_eq_some, Option.some.injEq] at stepped
      obtain ⟨within, rfl⟩ := stepped
      exact ⟨(over_chained sound.chained within (by simp [ended]) (by simp [isSettled, ended]) since ok).2,
        over_recorded sound.recorded _ ⟨by simp, by simp⟩⟩
    all_goals cases stepped
  | clearActive a =>
    simp only [FacetDeletionController.step, Option.ite_none_right_eq_some, Option.some.injEq] at stepped
    obtain ⟨⟨_, settled⟩, rfl⟩ := stepped
    split_ifs with active
    · refine ⟨clearActive_chained sound.chained settled active, ?_, ?_, sound.recorded.since, sound.recorded.carried,
        sound.recorded.kept⟩
      all_goals
        intro id c _ held
        simp only [Function.update_apply] at held
        split_ifs at held
      · exact sound.recorded.row id c trivial held
      · exact sound.recorded.current id c trivial held
    · exact sound
  | resume call =>
    simp only [FacetDeletionController.step, Option.ite_none_right_eq_some] at stepped
    obtain ⟨_, stepped⟩ := stepped
    split at stepped
    · obtain rfl := Option.some.inj stepped
      exact (sound.forget _).flush _
    · obtain rfl := Option.some.inj stepped
      exact sound.forget _
    all_goals cases stepped
  | crash =>
    obtain rfl := Option.some.inj stepped
    refine ⟨⟨?_, ?_, ?_, ?_, ?_, ?_⟩, ⟨?_, ?_, ?_, sound.recorded.carried, sound.recorded.kept⟩⟩
    · intro id a impossible
      cases impossible
    · intro id _ b impossible
      cases impossible
    · intro id a impossible
      cases impossible
    · intro c impossible
      cases impossible
    · intro c impossible
      cases impossible
    · intro c impossible
      cases impossible
    · intro id a _ impossible
      cases impossible
    · intro id a _ impossible
      cases impossible
    · intro a impossible
      cases impossible

theorem opened_sound (receipts : ReceiptTable) : (opened receipts).Sound := by
  refine ⟨⟨?_, ?_, ?_, ?_, ?_, ?_⟩, ⟨?_, ?_, ?_, fun _ => le_rfl, fun _ _ => rfl⟩⟩
  · intro id a impossible
    cases impossible
  · intro id _ b impossible
    cases impossible
  · intro id a impossible
    cases impossible
  · intro c impossible
    cases impossible
  · intro c impossible
    cases impossible
  · intro c impossible
    cases impossible
  · intro id a _ impossible
    cases impossible
  · intro id a _ impossible
    cases impossible
  · intro a impossible
    cases impossible

theorem sound_of_reached {receipts : ReceiptTable}
    (reached : Transition.Reaches FacetDeletionController.step (fun _ _ => True) (opened receipts) s) : s.Sound :=
  reached.invariant (opened_sound receipts) fun _ _ _ sound _ stepped => sound.step stepped

theorem not_deleting_twice (sound : s.Sound) (within : a < s.nextAttempt) (other : b < s.nextAttempt)
    (first : s.Deleting a) (second : s.Deleting b) (same : s.facet a = s.facet b) : a = b := by
  rcases Nat.lt_trichotomy a b with before | equal | after
  · obtain ⟨since, deleting⟩ := second
    have done := sound.chained.begun b other (by simp [deleting]) a before same
    rw [unended_not_settled (.inr first)] at done
    cases done
  · exact equal
  · obtain ⟨since, deleting⟩ := first
    have done := sound.chained.begun a within (by simp [deleting]) b after same.symm
    rw [unended_not_settled (.inr second)] at done
    cases done

theorem run_receipts (s : FacetDeletionController) (receipt : FacetDeletionReceipt) (barrierSettled : Bool) :
    (s.run receipt barrierSettled).2.receipts = s.receipts := by
  obtain ⟨_, _, _, merged⟩ | ⟨_, added⟩ := run_cases s receipt barrierSettled
  · rw [merged]
  · rw [added]
    rfl

theorem flush_receipts (s : FacetDeletionController) (id : FacetId) : (s.flush id).receipts = s.receipts := by
  unfold flush
  cases s.receipts.read id with
  | none => rfl
  | some receipt => exact run_receipts s receipt true

theorem flushes_receipts (ids : List FacetId) (s : FacetDeletionController) :
    (ids.foldl flush s).receipts = s.receipts := by
  induction ids generalizing s with
  | nil => rfl
  | cons id ids ih => exact (ih (s.flush id)).trans (flush_receipts s id)

/-- A receipt goes away only with a deletion that began after the last delete call. -/
theorem removed_by_deletion {e : DeletionEvent} (sound : s.Sound) (stepped : step s e = some t)
    (present : s.receipts.lookup id ≠ none) (gone : t.receipts.lookup id = none) :
    ∃ a, e = .deletionEnds a true ∧ s.facet a = id ∧ (s.attempts a).phase = .deleting (s.requests id) := by
  have unchanged (same : t.receipts = s.receipts) : False := present (same ▸ gone)
  cases e with
  | delete other barrierSettled =>
    simp only [step, Option.ite_none_left_eq_some, Option.some.injEq] at stepped
    obtain ⟨_, rfl⟩ := stepped
    have same : (s.delete other barrierSettled).receipts = (s.requested other).receipts :=
      run_receipts (s.requested other) _ barrierSettled
    have found := s.receipts.lookup_record other id
    rw [same] at gone
    have gone : (s.receipts.record other).2.lookup id = none := gone
    rw [found] at gone
    split_ifs at gone
    exact absurd gone present
  | flush other =>
    simp only [step, Option.ite_none_left_eq_some, Option.some.injEq] at stepped
    obtain ⟨_, rfl⟩ := stepped
    exact (unchanged (flush_receipts s other)).elim
  | recoverAll =>
    obtain rfl := Option.some.inj stepped
    exact (unchanged (flushes_receipts _ s)).elim
  | barrier a =>
    simp only [step, Option.ite_none_right_eq_some, Option.some.injEq] at stepped
    obtain ⟨_, rfl⟩ := stepped
    exact (unchanged rfl).elim
  | start a =>
    simp only [step, Option.ite_none_right_eq_some, Option.some.injEq] at stepped
    obtain ⟨_, rfl⟩ := stepped
    exact (unchanged rfl).elim
  | deletionEnds a ok =>
    simp only [step] at stepped
    split at stepped
    next since deleting =>
      simp only [Option.ite_none_right_eq_some, Option.some.injEq] at stepped
      obtain ⟨within, rfl⟩ := stepped
      cases ok with
      | false => exact (unchanged rfl).elim
      | true =>
        obtain same | ⟨rfl, _, last, _⟩ := clear_cases sound.chained sound.recorded within deleting id
        · exact absurd (same.symm.trans gone) present
        · exact ⟨a, rfl, rfl, by rw [deleting, last]⟩
    all_goals cases stepped
  | settle a =>
    simp only [step] at stepped
    split at stepped
    next since ok ended =>
      simp only [Option.ite_none_right_eq_some, Option.some.injEq] at stepped
      obtain ⟨_, rfl⟩ := stepped
      exact (unchanged rfl).elim
    all_goals cases stepped
  | clearActive a =>
    simp only [step, Option.ite_none_right_eq_some, Option.some.injEq] at stepped
    obtain ⟨_, rfl⟩ := stepped
    apply (unchanged ?_).elim
    split_ifs <;> rfl
  | resume call =>
    simp only [step, Option.ite_none_right_eq_some] at stepped
    obtain ⟨_, stepped⟩ := stepped
    split at stepped
    · obtain rfl := Option.some.inj stepped
      exact (unchanged (flush_receipts _ _)).elim
    · obtain rfl := Option.some.inj stepped
      exact (unchanged rfl).elim
    all_goals cases stepped
  | crash =>
    obtain rfl := Option.some.inj stepped
    exact (unchanged rfl).elim

end Runs

section Promises

def AttemptPhase.since? : AttemptPhase → Option Nat
  | .waiting => none
  | .deleting since | .ended since _ | .settled since _ => some since

/-- No deletion of the attempt that a call waits for began before the call. -/
structure Promised (s : FacetDeletionController) (call : DeleteCall) : Prop where
  bound : call.attempt < s.nextAttempt
  facet : s.facet call.attempt = call.id
  number : call.number ≤ s.requests call.id
  after : ∀ since, AttemptPhase.since? (s.attempts call.attempt).phase = some since → call.number ≤ since

/-- The generation on record is that of the active attempt. -/
structure Unmerged (s : FacetDeletionController) : Prop where
  row : ∀ id a, s.active id = some a → s.receipts.lookup id = none ∨ s.receipts.lookup id = some (s.generation a)
  promised : ∀ call ∈ s.calls, s.Promised call

/-- No delete of a facet whose receipt was cleared by an attempt that is still the active one. -/
def Apart (s : FacetDeletionController) (e : DeletionEvent) : Prop :=
  ∀ id barrierSettled, e = .delete id barrierSettled → ¬ (s.receipts.lookup id = none ∧ s.active id ≠ none)

theorem Promised.enqueue {call : DeleteCall} (promised : s.Promised call) (receipt : FacetDeletionReceipt)
    (barrierSettled : Bool) : (s.enqueue receipt barrierSettled).Promised call := by
  obtain ⟨_, old⟩ := enqueue_attempt s receipt barrierSettled
  have same := old call.attempt promised.bound
  refine ⟨Nat.lt_succ_of_lt promised.bound, ?_, promised.number, ?_⟩
  · rw [FacetDeletionController.facet, same]
    exact promised.facet
  · rw [same]
    exact promised.after

theorem row_enqueue (bound : ∀ id a, s.active id = some a → a < s.nextAttempt) {receipt : FacetDeletionReceipt}
    (rows : ∀ id a, id ≠ receipt.id → s.active id = some a →
      s.receipts.lookup id = none ∨ s.receipts.lookup id = some (s.generation a))
    (row : s.receipts.lookup receipt.id = some receipt.generation) (barrierSettled : Bool) (id : FacetId) (a : Nat)
    (held : (s.enqueue receipt barrierSettled).active id = some a) :
    s.receipts.lookup id = none ∨
      s.receipts.lookup id = some ((s.enqueue receipt barrierSettled).generation a) := by
  obtain ⟨new, old⟩ := enqueue_attempt s receipt barrierSettled
  rw [enqueue_active] at held
  split_ifs at held with own
  · cases held
    rw [own, generation, new]
    exact .inr row
  · rw [generation, old a (bound id a held)]
    exact rows id a own held

theorem Unmerged.delete (unmerged : s.Unmerged) (sound : s.Sound) (id : FacetId) (barrierSettled : Bool)
    (apart : ¬ (s.receipts.lookup id = none ∧ s.active id ≠ none)) : (s.delete id barrierSettled).Unmerged := by
  obtain ⟨a, active, merged, _⟩ | ⟨_, added⟩ := run_cases (s.requested id) (s.receipts.record id).1 barrierSettled
  · have active : s.active id = some a := active
    obtain absent | present := unmerged.row id a active
    · exact absurd ⟨absent, by rw [active]; simp⟩ apart
    · have merged : (s.receipts.record id).1.generation ≤ s.generation a := merged
      rw [ReceiptTable.record_generation present] at merged
      exact absurd merged (Nat.not_succ_le_self _)
  · have shape : s.delete id barrierSettled =
        { (s.requested id).enqueue (s.receipts.record id).1 barrierSettled with
          calls := { id, number := s.requests id + 1, attempt := s.nextAttempt } :: s.calls } := by
      have same : s.delete id barrierSettled =
        { ((s.requested id).run (s.receipts.record id).1 barrierSettled).2 with
          calls := { id, number := s.requests id + 1
                     attempt := ((s.requested id).run (s.receipts.record id).1 barrierSettled).1 } ::
            ((s.requested id).run (s.receipts.record id).1 barrierSettled).2.calls } := rfl
      rw [same, added]
      rfl
    obtain ⟨new, _⟩ := enqueue_attempt (s.requested id) (s.receipts.record id).1 barrierSettled
    rw [shape]
    refine ⟨?_, ?_⟩
    · intro other a held
      refine @row_enqueue (s.requested id) (fun other a held => (sound.chained.bound other a held).1) _ ?_
        (requested_lookup s id) barrierSettled other a held
      intro other a different held
      have different : other ≠ id := different
      have found := s.receipts.lookup_record id other
      rw [if_neg different] at found
      exact (unmerged.row other a held).imp found.trans found.trans
    · intro call member
      rcases List.mem_cons.1 member with rfl | earlier
      · refine ⟨Nat.lt_succ_self _, congrArg (fun x => x.receipt.id) new, ?_, ?_⟩
        · exact (Function.update_self id (s.requests id + 1) s.requests).ge
        · intro since started
          rw [show (s.requested id).nextAttempt = s.nextAttempt from rfl] at new
          simp only [new, AttemptPhase.since?] at started
          cases started
      · have kept := unmerged.promised call earlier
        have promised : (s.requested id).Promised call :=
          ⟨kept.bound, kept.facet, kept.number.trans (requests_le s id _), kept.after⟩
        have later := promised.enqueue (s.receipts.record id).1 barrierSettled
        exact ⟨later.bound, later.facet, later.number, later.after⟩

theorem Unmerged.flush (unmerged : s.Unmerged) (sound : s.Sound) (id : FacetId) : (s.flush id).Unmerged := by
  unfold FacetDeletionController.flush ReceiptTable.read
  cases found : s.receipts.lookup id with
  | none => exact unmerged
  | some generation =>
    have rows : (s.run { id, generation } true).2.Unmerged := by
      obtain ⟨a, _, _, merged⟩ | ⟨_, added⟩ := run_cases s { id, generation } true
      · rw [merged]
        exact unmerged
      · rw [added]
        refine ⟨?_, fun call member => (unmerged.promised call member).enqueue _ _⟩
        intro other a held
        exact row_enqueue (fun other a held => (sound.chained.bound other a held).1)
          (fun other a _ held => unmerged.row other a held) found true other a held
    exact ⟨rows.row, fun call member => ⟨(rows.promised call member).bound, (rows.promised call member).facet,
      (rows.promised call member).number, (rows.promised call member).after⟩⟩

theorem Unmerged.flushes (unmerged : s.Unmerged) (sound : s.Sound) (ids : List FacetId) :
    (ids.foldl FacetDeletionController.flush s).Unmerged := by
  induction ids generalizing s with
  | nil => exact unmerged
  | cons id ids ih => exact ih (unmerged.flush sound id) (sound.flush id)

/-- A phase that keeps what a call was promised. -/
theorem Unmerged.setPhase (unmerged : s.Unmerged) (a : Nat) (phase : AttemptPhase)
    (since : ∀ n, AttemptPhase.since? phase = some n →
      n = s.requests (s.facet a) ∨ AttemptPhase.since? (s.attempts a).phase = some n) :
    (s.setPhase a phase).Unmerged := by
  refine ⟨?_, ?_⟩
  · intro id c held
    rw [setPhase_generation]
    exact unmerged.row id c held
  · intro call member
    have promised := unmerged.promised call member
    refine ⟨promised.bound, (setPhase_facet s a phase _).trans promised.facet, promised.number, ?_⟩
    intro n started
    rw [setPhase_phase] at started
    split_ifs at started with own
    · rw [← own] at since
      obtain rfl | before := since n started
      · rw [promised.facet]
        exact promised.number
      · exact promised.after n before
    · exact promised.after n started

theorem Unmerged.step {e : DeletionEvent} (unmerged : s.Unmerged) (sound : s.Sound) (apart : s.Apart e)
    (stepped : step s e = some t) : t.Unmerged := by
  cases e with
  | delete id barrierSettled =>
    simp only [FacetDeletionController.step, Option.ite_none_left_eq_some, Option.some.injEq] at stepped
    obtain ⟨_, rfl⟩ := stepped
    exact unmerged.delete sound id barrierSettled (apart id barrierSettled rfl)
  | flush id =>
    simp only [FacetDeletionController.step, Option.ite_none_left_eq_some, Option.some.injEq] at stepped
    obtain ⟨_, rfl⟩ := stepped
    exact unmerged.flush sound id
  | recoverAll =>
    obtain rfl := Option.some.inj stepped
    exact unmerged.flushes sound _
  | barrier a =>
    simp only [FacetDeletionController.step, Option.ite_none_right_eq_some, Option.some.injEq] at stepped
    obtain ⟨_, rfl⟩ := stepped
    have same (b : Nat) : (Function.update s.attempts a { s.attempts a with barrierSettled := true } b).phase =
          (s.attempts b).phase ∧
        (Function.update s.attempts a { s.attempts a with barrierSettled := true } b).receipt = (s.attempts b).receipt := by
      by_cases own : b = a
      · subst own
        rw [Function.update_self]
        exact ⟨rfl, rfl⟩
      · rw [Function.update_of_ne own]
        exact ⟨rfl, rfl⟩
    refine ⟨?_, ?_⟩
    · intro id c held
      simp only [generation, (same c).2]
      exact unmerged.row id c held
    · intro call member
      have promised := unmerged.promised call member
      refine ⟨promised.bound, ?_, promised.number, ?_⟩
      · simp only [facet, (same call.attempt).2]
        exact promised.facet
      · simp only [(same call.attempt).1]
        exact promised.after
  | start a =>
    simp only [FacetDeletionController.step, Option.ite_none_right_eq_some, Option.some.injEq] at stepped
    obtain ⟨_, rfl⟩ := stepped
    apply unmerged.setPhase
    intro n same
    exact .inl (Option.some.inj same).symm
  | deletionEnds a ok =>
    simp only [FacetDeletionController.step] at stepped
    split at stepped
    next since deleting =>
      simp only [Option.ite_none_right_eq_some, Option.some.injEq] at stepped
      obtain ⟨within, rfl⟩ := stepped
      have ended : (s.setPhase a (.ended since ok)).Unmerged := by
        apply unmerged.setPhase
        intro n same
        right
        rw [deleting]
        exact same
      unfold endDeletion
      split_ifs
      · refine ⟨?_, fun call member => ⟨(ended.promised call member).bound, (ended.promised call member).facet,
          (ended.promised call member).number, (ended.promised call member).after⟩⟩
        intro id c held
        obtain same | ⟨_, _, _, _, cleared⟩ := clear_cases sound.chained sound.recorded within deleting id
        · exact (ended.row id c held).imp same.trans same.trans
        · exact .inl cleared
      · exact ended
    all_goals cases stepped
  | settle a =>
    simp only [FacetDeletionController.step] at stepped
    split at stepped
    next since ok ended =>
      simp only [Option.ite_none_right_eq_some, Option.some.injEq] at stepped
      obtain ⟨within, rfl⟩ := stepped
      apply unmerged.setPhase
      intro n same
      right
      rw [ended]
      exact same
    all_goals cases stepped
  | clearActive a =>
    simp only [FacetDeletionController.step, Option.ite_none_right_eq_some, Option.some.injEq] at stepped
    obtain ⟨_, rfl⟩ := stepped
    split_ifs with active
    · refine ⟨?_, fun call member => ⟨(unmerged.promised call member).bound, (unmerged.promised call member).facet,
        (unmerged.promised call member).number, (unmerged.promised call member).after⟩⟩
      intro id c held
      simp only [Function.update_apply] at held
      split_ifs at held
      exact unmerged.row id c held
    · exact unmerged
  | resume call =>
    simp only [FacetDeletionController.step, Option.ite_none_right_eq_some] at stepped
    obtain ⟨_, stepped⟩ := stepped
    have rest : Unmerged { s with flushes := s.flushes.erase call } :=
      ⟨unmerged.row, fun call member => ⟨(unmerged.promised call member).bound, (unmerged.promised call member).facet,
        (unmerged.promised call member).number, (unmerged.promised call member).after⟩⟩
    split at stepped
    · obtain rfl := Option.some.inj stepped
      exact rest.flush (sound.forget _) _
    · obtain rfl := Option.some.inj stepped
      exact rest
    all_goals cases stepped
  | crash =>
    obtain rfl := Option.some.inj stepped
    refine ⟨?_, ?_⟩
    · intro id a impossible
      cases impossible
    · intro call impossible
      cases impossible

/-- A delete call whose promise resolves waited for a deletion that began after the call and completed. -/
def CarriedOut (s : FacetDeletionController) (call : DeleteCall) : Prop :=
  ∀ since, (s.attempts call.attempt).phase = .settled since true →
    s.facet call.attempt = call.id ∧ call.number ≤ since

theorem deletions_are_receipted (receipts : ReceiptTable) :
    (∀ s, Transition.Reaches step (fun _ _ => True) (opened receipts) s →
      (∀ a < s.nextAttempt, ∀ b < s.nextAttempt, s.Deleting a → s.Deleting b → s.facet a = s.facet b → a = b) ∧
      (∀ e t id, step s e = some t → s.receipts.lookup id ≠ none → t.receipts.lookup id = none →
        ∃ a, e = .deletionEnds a true ∧ s.facet a = id ∧ (s.attempts a).phase = .deleting (s.requests id)) ∧
      ∀ id, s.carriedOut id < s.requests id → s.receipts.lookup id ≠ none) ∧
    ∀ s, Transition.Reaches step Apart (opened receipts) s → ∀ call ∈ s.calls, s.CarriedOut call := by
  constructor
  · intro s reached
    have sound := sound_of_reached reached
    refine ⟨?_, ?_, ?_⟩
    · intro a within b other first second same
      exact not_deleting_twice sound within other first second same
    · intro e t id stepped present gone
      exact removed_by_deletion sound stepped present gone
    · intro id outstanding absent
      exact absurd (sound.recorded.kept id absent) (Nat.ne_of_lt outstanding)
  · intro s reached call member since settled
    have start : (opened receipts).Sound ∧ (opened receipts).Unmerged := by
      refine ⟨opened_sound receipts, ?_, ?_⟩
      · intro id a impossible
        cases impossible
      · intro call impossible
        cases impossible
    have both : s.Sound ∧ s.Unmerged := reached.invariant (P := fun u => u.Sound ∧ u.Unmerged) start
      fun _ _ _ kept apart stepped => ⟨kept.1.step stepped, kept.2.step kept.1 apart stepped⟩
    have promised := both.2.promised call member
    exact ⟨promised.facet, promised.after since (by rw [settled]; rfl)⟩

theorem delete_carried_out :
    ∃ s, Transition.run step (opened ∅) [.delete 1 true, .start 0, .deletionEnds 0 true, .settle 0] = some s ∧
      s.calls.length = 1 ∧ ∀ call ∈ s.calls, s.CarriedOut call := by
  refine ⟨_, rfl, rfl, (deletions_are_receipted ∅).2 _ ?_⟩
  have apart : Apart (opened ∅) (.delete 1 true) := by
    intro id barrierSettled _ window
    exact window.2 rfl
  refine Transition.Reaches.head (.delete 1 true) apart rfl
    (Transition.run_reaches_admitted [.start 0, .deletionEnds 0 true, .settle 0] ?_ rfl)
  intro u e member id barrierSettled same
  simp only [List.mem_cons, List.not_mem_nil, or_false] at member
  obtain rfl | rfl | rfl := member <;> cases same

/-- A second delete of a facet, made after its receipt was cleared and before the attempt left `#active`. -/
theorem delete_not_carried_out :
    ∃ s, Transition.run step (opened ∅) [.delete 1 true, .start 0, .deletionEnds 0 true, .delete 1 true, .settle 0] =
        some s ∧
      ∃ call ∈ s.calls, call.number = 2 ∧ (s.attempts call.attempt).phase = .settled 1 true ∧ ¬ s.CarriedOut call := by
  refine ⟨_, rfl, _, List.mem_cons_self .., rfl, rfl, ?_⟩
  intro carried
  exact absurd (carried 1 rfl).2 (by decide)

end Promises

end FacetDeletionController

end DoRuntime.Facets
