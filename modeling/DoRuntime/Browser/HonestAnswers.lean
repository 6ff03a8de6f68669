import DoRuntime.Browser.AlarmProjector

namespace DoRuntime.Browser.AlarmProjector

open Transition

section Steps

variable {Time Reason : Type} [LinearOrder Time] {s t : AlarmProjector Time Reason}

/-- What a step may make of the projection of one call. -/
inductive Advances (s : AlarmProjector Time Reason) (i : Nat) (sent : Sent Time Reason) :
    Sending Time Reason → AlarmProjector Time Reason → Prop
  | begin_ (queued : sent.sending = .queued) (released : s.released i = true) :
      Advances s i sent .numbering (s.setSending i sent .numbering)
  | numbered (generation : Nat) (numbering : sent.sending = .numbering)
      (increasing : ∀ last, s.generation = some last → last < generation) :
      Advances s i sent (.projecting { generation, wakeAt := sent.wakeAt })
        { s.setSending i sent (.projecting { generation, wakeAt := sent.wakeAt }) with
          generation := some generation
          projected := s.projected ++ [(i, { generation, wakeAt := sent.wakeAt })] }
  | accepted (projection : AlarmProjection Time) (projecting : sent.sending = .projecting projection) :
      Advances s i sent (.settled (.ok projection)) (s.setSending i sent (.settled (.ok projection)))
  | failed (reason : Reason) (started : sent.sending = .numbering ∨ ∃ projection, sent.sending = .projecting projection) :
      Advances s i sent (.settled (.error reason)) (s.setSending i sent (.settled (.error reason)))

/-- A step sends, asks, moves one projection on, or records one that has settled. -/
theorem step_cases {e : ProjectorEvent Time Reason} (admitted : Increasing s e) (stepped : step s e = some t) :
    (∃ wakeAt activeDeliveries, t = s.projectWake wakeAt activeDeliveries) ∨
      (∃ scheduledTime, t = s.acknowledge scheduledTime) ∨
      (∃ i sent sending, s.sent[i]? = some sent ∧ Advances s i sent sending t) ∨
      ∃ i sent result, s.sent[i]? = some sent ∧ sent.sending = .settled result ∧
        t = settle { s with sent := s.sent.set i { sent with result := some result } } := by
  cases e with
  | projectWake wakeAt activeDeliveries => exact .inl ⟨wakeAt, activeDeliveries, (Option.some.inj stepped).symm⟩
  | acknowledge scheduledTime => exact .inr (.inl ⟨scheduledTime, (Option.some.inj stepped).symm⟩)
  | begin_ i =>
    simp only [step] at stepped
    cases known : s.sent[i]? with
    | none => simp only [known, reduceCtorEq] at stepped
    | some sent =>
      simp only [known] at stepped
      cases stage : sent.sending with
      | queued =>
        simp only [stage] at stepped
        split at stepped
        · rename_i released
          obtain rfl := Option.some.inj stepped
          exact .inr (.inr (.inl ⟨i, sent, _, known, .begin_ stage released⟩))
        · cases stepped
      | _ => simp only [stage, reduceCtorEq] at stepped
  | numbered i generation =>
    simp only [step] at stepped
    cases known : s.sent[i]? with
    | none => simp only [known, reduceCtorEq] at stepped
    | some sent =>
      simp only [known] at stepped
      cases stage : sent.sending with
      | numbering =>
        simp only [stage] at stepped
        obtain rfl := Option.some.inj stepped
        exact .inr (.inr (.inl ⟨i, sent, _, known, .numbered generation stage admitted⟩))
      | _ => simp only [stage, reduceCtorEq] at stepped
  | unnumbered i reason =>
    simp only [step] at stepped
    cases known : s.sent[i]? with
    | none => simp only [known, reduceCtorEq] at stepped
    | some sent =>
      simp only [known] at stepped
      cases stage : sent.sending with
      | numbering =>
        simp only [stage] at stepped
        obtain rfl := Option.some.inj stepped
        exact .inr (.inr (.inl ⟨i, sent, _, known, .failed reason (.inl stage)⟩))
      | _ => simp only [stage, reduceCtorEq] at stepped
  | accepted i =>
    simp only [step] at stepped
    cases known : s.sent[i]? with
    | none => simp only [known, reduceCtorEq] at stepped
    | some sent =>
      simp only [known] at stepped
      cases stage : sent.sending with
      | projecting projection =>
        simp only [stage] at stepped
        obtain rfl := Option.some.inj stepped
        exact .inr (.inr (.inl ⟨i, sent, _, known, .accepted projection stage⟩))
      | _ => simp only [stage, reduceCtorEq] at stepped
  | refused i reason =>
    simp only [step] at stepped
    cases known : s.sent[i]? with
    | none => simp only [known, reduceCtorEq] at stepped
    | some sent =>
      simp only [known] at stepped
      cases stage : sent.sending with
      | projecting projection =>
        simp only [stage] at stepped
        obtain rfl := Option.some.inj stepped
        exact .inr (.inr (.inl ⟨i, sent, _, known, .failed reason (.inr ⟨projection, stage⟩)⟩))
      | _ => simp only [stage, reduceCtorEq] at stepped
  | record i =>
    simp only [step] at stepped
    cases known : s.sent[i]? with
    | none => simp only [known, reduceCtorEq] at stepped
    | some sent =>
      simp only [known] at stepped
      split at stepped
      · rename_i result stage _
        obtain rfl := Option.some.inj stepped
        exact .inr (.inr (.inr ⟨i, sent, result, known, stage, rfl⟩))
      · cases stepped

end Steps

section Chain

variable {Time Reason : Type} [LinearOrder Time] {s t : AlarmProjector Time Reason} {i : Nat} {sent : Sent Time Reason}
  {sending : Sending Time Reason}

/-- Projections go through one after the other, each with a number of its own. -/
structure Chained (s : AlarmProjector Time Reason) : Prop where
  order : ∀ (i : Nat) (x : Sent Time Reason), s.sent[i]? = some x → x.sending ≠ .queued →
    ∀ j < i, ∃ (y : Sent Time Reason) (result : _), s.sent[j]? = some y ∧ y.sending = .settled result
  recorded : ∀ (i : Nat) (x : Sent Time Reason) result, s.sent[i]? = some x → x.result = some result → x.sending = .settled result
  own : ∀ (i : Nat) (x : Sent Time Reason) p, s.sent[i]? = some x → x.sending = .projecting p ∨ x.sending = .settled (.ok p) → (i, p) ∈ s.projected
  calls : ∀ c ∈ s.projected, ∃ x : Sent Time Reason, s.sent[c.1]? = some x ∧ c.2.wakeAt = x.wakeAt ∧
    x.sending ≠ .queued ∧ x.sending ≠ .numbering
  numbered : ∀ c ∈ s.projected, ∃ last, s.generation = some last ∧ c.2.generation ≤ last
  rising : s.projected.Pairwise fun a b => a.1 < b.1 ∧ a.2.generation < b.2.generation

theorem set_get (known : s.sent[i]? = some sent) (next : Sent Time Reason) (j : Nat) :
    (s.sent.set i next)[j]? = if i = j then some next else s.sent[j]? := by
  have inside : i < s.sent.length := (List.getElem?_eq_some_iff.1 known).1
  rw [List.getElem?_set]
  simp only [inside, if_true]

theorem setSending_get (known : s.sent[i]? = some sent) (j : Nat) :
    (s.setSending i sent sending).sent[j]? = if i = j then some { sent with sending } else s.sent[j]? :=
  set_get known _ j

theorem Advances.get (advances : Advances s i sent sending t) (known : s.sent[i]? = some sent) (j : Nat) :
    t.sent[j]? = if i = j then some { sent with sending } else s.sent[j]? := by
  cases advances <;> exact setSending_get known j

theorem Advances.unsettled (advances : Advances s i sent sending t) (result : Except Reason (AlarmProjection Time)) :
    sent.sending ≠ .settled result := by
  intro settled
  cases advances with
  | begin_ stage => rw [stage] at settled; cases settled
  | numbered _ stage => rw [stage] at settled; cases settled
  | accepted _ stage => rw [stage] at settled; cases settled
  | failed _ stage =>
    rcases stage with stage | ⟨_, stage⟩
    · rw [stage] at settled; cases settled
    · rw [stage] at settled; cases settled

theorem Advances.released (advances : Advances s i sent sending t) (queued : sent.sending = .queued) :
    s.released i = true := by
  cases advances with
  | begin_ _ released => exact released
  | numbered _ stage => rw [stage] at queued; cases queued
  | accepted _ stage => rw [stage] at queued; cases queued
  | failed _ stage =>
    rcases stage with stage | ⟨_, stage⟩
    · rw [stage] at queued; cases queued
    · rw [stage] at queued; cases queued

/-- Only a number that has come makes a call of `project`. -/
theorem Advances.calls (advances : Advances s i sent sending t) :
    (t.projected = s.projected ∧ t.generation = s.generation) ∨
      ∃ generation, sent.sending = .numbering ∧ sending = .projecting { generation, wakeAt := sent.wakeAt } ∧
        (∀ last, s.generation = some last → last < generation) ∧ t.generation = some generation ∧
        t.projected = s.projected ++ [(i, { generation, wakeAt := sent.wakeAt })] := by
  cases advances with
  | numbered generation stage increasing => exact .inr ⟨generation, stage, rfl, increasing, rfl, rfl⟩
  | _ => exact .inl ⟨rfl, rfl⟩

theorem Advances.asked (advances : Advances s i sent sending t) {p : AlarmProjection Time}
    (asked : sending = .projecting p ∨ sending = .settled (.ok p)) :
    sent.sending = .projecting p ∨ (i, p) ∈ t.projected := by
  cases advances with
  | numbered generation =>
    rcases asked with same | same
    · obtain rfl := Sending.projecting.inj same
      exact .inr (List.mem_append_right _ (List.mem_singleton.2 rfl))
    · cases same
  | accepted p' stage =>
    rcases asked with same | same
    · cases same
    · obtain rfl := Except.ok.inj (Sending.settled.inj same)
      exact .inl stage
  | begin_ => rcases asked with same | same <;> cases same
  | failed => rcases asked with same | same <;> cases same

theorem Advances.called (advances : Advances s i sent sending t) (queued : sent.sending ≠ .queued) :
    sending ≠ .queued ∧ sending ≠ .numbering := by
  cases advances with
  | begin_ stage => exact absurd stage queued
  | _ =>
    constructor
    · exact fun same => by cases same
    · exact fun same => by cases same

theorem Chained.settled_before (chained : Chained s) (advances : Advances s i sent sending t)
    (known : s.sent[i]? = some sent) :
    ∀ j < i, ∃ (y : Sent Time Reason) (result : _), s.sent[j]? = some y ∧ y.sending = .settled result := by
  by_cases queued : sent.sending = .queued
  · have released := advances.released queued
    unfold AlarmProjector.released at released
    intro j before
    rw [Bool.or_eq_true, beq_iff_eq] at released
    have last := released.resolve_left (by omega)
    obtain ⟨y, there, done⟩ := (Option.any_eq_true _ _).1 last
    obtain ⟨result, settled⟩ : ∃ result, y.sending = .settled result := by
      cases stage : y.sending with
      | settled result => exact ⟨result, rfl⟩
      | _ => rw [stage] at done; cases done
    by_cases same : j = i - 1
    · exact ⟨y, result, same ▸ there, settled⟩
    · have queued : y.sending ≠ .queued := by
        rw [settled]
        exact fun same => by cases same
      exact chained.order (i - 1) y there queued j (by omega)
  · exact chained.order i sent known queued

theorem Chained.advances (chained : Chained s) (known : s.sent[i]? = some sent) (advances : Advances s i sent sending t) :
    Chained t := by
  have get := advances.get known
  have earlier := chained.settled_before advances known
  have apart : ∀ (j : Nat) (y : Sent Time Reason) result, s.sent[j]? = some y → y.sending = .settled result → i ≠ j := by
    rintro j y result there settled rfl
    obtain rfl := Option.some.inj (known.symm.trans there)
    exact advances.unsettled result settled
  have settled : ∀ (j : Nat) (y : Sent Time Reason) result, s.sent[j]? = some y → y.sending = .settled result →
      t.sent[j]? = some y := by
    intro j y result there done
    rw [get j, if_neg (apart j y result there done), there]
  refine ⟨fun j x there moved k before => ?_, fun j x result there known' => ?_, fun j x p there asked => ?_,
    fun c called => ?_, fun c called => ?_, ?_⟩
  · rw [get j] at there
    have below : ∃ (y : Sent Time Reason) (result : _), s.sent[k]? = some y ∧ y.sending = .settled result := by
      split at there
      · rename_i same
        exact earlier k (same ▸ before)
      · exact chained.order j x there moved k before
    obtain ⟨y, result, there, done⟩ := below
    exact ⟨y, result, settled k y result there done, done⟩
  · rw [get j] at there
    split at there
    · obtain rfl := Option.some.inj there
      exact absurd (chained.recorded i sent result known known') (advances.unsettled result)
    · exact chained.recorded j x result there known'
  · have kept : ∀ c ∈ s.projected, c ∈ t.projected := by
      intro c called
      rcases advances.calls with ⟨same, _⟩ | ⟨_, _, _, _, _, same⟩
      · rw [same]
        exact called
      · rw [same]
        exact List.mem_append_left _ called
    rw [get j] at there
    split at there
    · rename_i same
      obtain rfl := Option.some.inj there
      rcases advances.asked asked with stage | called
      · exact same ▸ kept _ (chained.own i sent p known (.inl stage))
      · exact same ▸ called
    · exact kept _ (chained.own j x p there asked)
  · have old : c ∈ s.projected → ∃ x : Sent Time Reason, t.sent[c.1]? = some x ∧ c.2.wakeAt = x.wakeAt ∧
        x.sending ≠ .queued ∧ x.sending ≠ .numbering := by
      intro called
      obtain ⟨x, there, wake, queued, numbering⟩ := chained.calls c called
      rw [get c.1]
      by_cases same : i = c.1
      · rw [if_pos same]
        obtain rfl := Option.some.inj (known.symm.trans (same ▸ there))
        exact ⟨_, rfl, wake, advances.called queued⟩
      · rw [if_neg same]
        exact ⟨x, there, wake, queued, numbering⟩
    rcases advances.calls with ⟨same, _⟩ | ⟨generation, stage, next, _, _, same⟩
    · exact old (same ▸ called)
    · rw [same] at called
      rcases List.mem_append.1 called with earlier | now
      · exact old earlier
      · obtain rfl := List.mem_singleton.1 now
        refine ⟨{ sent with sending }, ?_, rfl, advances.called (fun queued => ?_)⟩
        · rw [get, if_pos rfl]
        · rw [stage] at queued
          cases queued
  · rcases advances.calls with ⟨same, number⟩ | ⟨generation, _, _, increasing, number, same⟩
    · rw [number]
      exact chained.numbered c (same ▸ called)
    · rw [same] at called
      refine ⟨generation, number, ?_⟩
      rcases List.mem_append.1 called with earlier | now
      · obtain ⟨last, known, below⟩ := chained.numbered c earlier
        exact le_trans below (le_of_lt (increasing last known))
      · obtain rfl := List.mem_singleton.1 now
        exact le_rfl
  · rcases advances.calls with ⟨same, _⟩ | ⟨generation, stage, _, increasing, _, same⟩
    · rw [same]
      exact chained.rising
    · rw [same, List.pairwise_append]
      refine ⟨chained.rising, List.pairwise_singleton _ _, fun c earlier d now => ?_⟩
      obtain rfl := List.mem_singleton.1 now
      obtain ⟨x, there, _, queued, numbering⟩ := chained.calls c earlier
      obtain ⟨last, known', below⟩ := chained.numbered c earlier
      refine ⟨?_, lt_of_le_of_lt below (increasing last known')⟩
      rcases lt_trichotomy c.1 i with before | same | after
      · exact before
      · obtain rfl := Option.some.inj (known.symm.trans (same ▸ there))
        exact absurd stage numbering
      · obtain ⟨y, result, there, done⟩ := chained.order c.1 x there queued i after
        exact absurd rfl (apart i y result there done)

end Chain

section Answers

variable {Time Reason : Type} [LinearOrder Time] {s t : AlarmProjector Time Reason}

@[simp] theorem settle_sent : s.settle.sent = s.sent := by
  unfold settle
  repeat' split
  all_goals rfl

@[simp] theorem settle_projected : s.settle.projected = s.projected := by
  unfold settle
  repeat' split
  all_goals rfl

@[simp] theorem settle_generation : s.settle.generation = s.generation := by
  unfold settle
  repeat' split
  all_goals rfl

/-- A waiter is answered with the latest projection alone. -/
structure Honest (s : AlarmProjector Time Reason) (answer : Answer Time Reason) (latest : Sent Time Reason) : Prop where
  settled : latest.sending = .settled answer.result
  clear : ∀ p, answer.result = .ok p → latest.activeDeliveries = 0 ∧ p.wakeAt = latest.wakeAt ∧
    (s.sent.length - 1, p) ∈ s.projected ∧ ∀ wakeAt, p.wakeAt = some wakeAt → answer.waiter.after < wakeAt

/-- Those left behind by the latest projection wait for a delivery or for a wake that is due. -/
def Waiting (s : AlarmProjector Time Reason) : Prop :=
  ∀ latest result, s.latest = some latest → latest.result = some result → ∀ waiter ∈ s.waiters,
    latest.activeDeliveries ≠ 0 ∨ ∃ wakeAt, latest.wakeAt = some wakeAt ∧ wakeAt ≤ waiter.after

theorem Chained.of_same (chained : Chained s) (sent : t.sent = s.sent) (projected : t.projected = s.projected)
    (generation : t.generation = s.generation) : Chained t := by
  obtain ⟨order, recorded, own, calls, numbered, rising⟩ := chained
  exact ⟨by rw [sent]; exact order, by rw [sent]; exact recorded, by rw [sent, projected]; exact own,
    by rw [sent, projected]; exact calls, by rw [projected, generation]; exact numbered,
    by rw [projected]; exact rising⟩

/-- All are told of a failure, those whose wake is gone of a success; or none is told. -/
theorem settle_cases (s : AlarmProjector Time Reason) :
    (∃ latest reason, s.latest = some latest ∧ latest.result = some (.error reason) ∧
      s.settle.waiters = [] ∧ s.settle.answers = s.answers ++ s.waiters.map fun waiter => ⟨waiter, .error reason⟩) ∨
    (∃ latest p, s.latest = some latest ∧ latest.result = some (.ok p) ∧ latest.activeDeliveries = 0 ∧
      s.settle.waiters = s.waiters.filter (Waiter.waits · p.wakeAt) ∧
      s.settle.answers = s.answers ++
        (s.waiters.filter fun waiter => !Waiter.waits waiter p.wakeAt).map fun waiter => ⟨waiter, .ok p⟩) ∨
    (s.settle.waiters = s.waiters ∧ s.settle.answers = s.answers ∧
      ∀ latest result, s.latest = some latest → latest.result = some result → latest.activeDeliveries ≠ 0) := by
  cases last : s.latest with
  | none =>
    have same : s.settle = s := by simp only [settle, last]
    rw [same]
    exact .inr (.inr ⟨rfl, rfl, fun _ _ none_ => by cases none_⟩)
  | some latest =>
    cases known : latest.result with
    | none =>
      have same : s.settle = s := by simp only [settle, last, known]
      rw [same]
      refine .inr (.inr ⟨rfl, rfl, fun other result same recorded => ?_⟩)
      obtain rfl := Option.some.inj same
      rw [known] at recorded
      cases recorded
    | some result =>
      cases result with
      | error reason =>
        refine .inl ⟨latest, reason, rfl, known, ?_⟩
        simp only [settle, last, known, and_self]
      | ok p =>
        by_cases busy : latest.activeDeliveries = 0
        · refine .inr (.inl ⟨latest, p, rfl, known, busy, ?_⟩)
          simp only [settle, last, known, busy, ne_eq, not_true, if_false, and_self]
        · have same : s.settle = s := by simp only [settle, last, known, ne_eq, busy, not_false_eq_true, if_true]
          rw [same]
          refine .inr (.inr ⟨rfl, rfl, fun other _ same _ => ?_⟩)
          obtain rfl := Option.some.inj same
          exact busy

theorem latest_get {latest : Sent Time Reason} (last : s.latest = some latest) :
    s.sent[s.sent.length - 1]? = some latest := by
  rw [← List.getLast?_eq_getElem?]
  exact last

theorem latest_settle : s.settle.latest = s.latest := by
  unfold latest
  rw [settle_sent]

theorem Chained.settle_honest (chained : Chained s) : ∃ answered, s.settle.answers = s.answers ++ answered ∧
    ∀ answer ∈ answered, ∃ latest, s.latest = some latest ∧ Honest s answer latest := by
  rcases settle_cases s with ⟨latest, reason, last, known, _, told⟩ | ⟨latest, p, last, known, idle, _, told⟩ |
    ⟨_, told, _⟩
  · refine ⟨_, told, fun answer member => ⟨latest, last, ?_, fun p same => ?_⟩⟩
    · obtain ⟨waiter, _, rfl⟩ := List.mem_map.1 member
      exact chained.recorded _ latest _ (latest_get last) known
    · obtain ⟨waiter, _, rfl⟩ := List.mem_map.1 member
      cases same
  · have settled := chained.recorded _ latest _ (latest_get last) known
    have called := chained.own _ latest p (latest_get last) (.inr settled)
    refine ⟨_, told, fun answer member => ?_⟩
    obtain ⟨waiter, ready, rfl⟩ := List.mem_map.1 member
    refine ⟨latest, last, settled, fun p' same => ?_⟩
    obtain rfl := Except.ok.inj same
    obtain ⟨x, there, wake, _⟩ := chained.calls _ called
    obtain rfl := Option.some.inj ((latest_get last).symm.trans there)
    refine ⟨idle, wake, called, fun wakeAt given => ?_⟩
    have gone := (List.mem_filter.1 ready).2
    rw [given] at gone
    simpa [Waiter.waits] using gone
  · exact ⟨[], by rw [told, List.append_nil], fun answer member => by cases member⟩

theorem Chained.settle_waiting (chained : Chained s) : Waiting s.settle := by
  intro latest result last known waiter member
  rw [latest_settle] at last
  rcases settle_cases s with ⟨_, reason, _, _, none_, _⟩ | ⟨other, p, last', known', _, left, _⟩ | ⟨_, _, busy⟩
  · rw [none_] at member
    cases member
  · obtain rfl := Option.some.inj (last.symm.trans last')
    have settled := chained.recorded _ latest _ (latest_get last) known'
    obtain ⟨x, there, wake, _⟩ := chained.calls _ (chained.own _ latest p (latest_get last) (.inr settled))
    obtain rfl := Option.some.inj ((latest_get last).symm.trans there)
    rw [left] at member
    obtain ⟨wakeAt, given, due⟩ := (Option.any_eq_true _ _).1 (List.mem_filter.1 member).2
    exact .inr ⟨wakeAt, wake.symm.trans given, of_decide_eq_true due⟩
  · exact .inl (busy latest result last known)

/-- What a step may tell the waiters, and what it leaves them waiting for. -/
structure Answered (s t : AlarmProjector Time Reason) : Prop where
  chained : Chained t
  waiting : Waiting t
  honest : ∃ answered, t.answers = s.answers ++ answered ∧
    ∀ answer ∈ answered, ∃ latest, t.latest = some latest ∧ Honest t answer latest

theorem Chained.answered_settle (chained : Chained t) (answers : t.answers = s.answers) : Answered s t.settle := by
  refine ⟨chained.of_same settle_sent settle_projected settle_generation, chained.settle_waiting, ?_⟩
  obtain ⟨answered, told, honest⟩ := chained.settle_honest
  refine ⟨answered, by rw [told, answers], fun answer member => ?_⟩
  obtain ⟨latest, last, settled, clear⟩ := honest answer member
  refine ⟨latest, latest_settle.trans last, settled, ?_⟩
  rw [settle_sent, settle_projected]
  exact clear

theorem Chained.projectWake (chained : Chained s) (wakeAt : Option Time) (activeDeliveries : Nat) :
    Chained (s.projectWake wakeAt activeDeliveries) := by
  have old : ∀ (i : Nat) (x : Sent Time Reason), s.sent[i]? = some x →
      (s.projectWake wakeAt activeDeliveries).sent[i]? = some x := by
    intro i x there
    exact (List.getElem?_append_left (List.getElem?_eq_some_iff.1 there).1).trans there
  have either : ∀ (i : Nat) (x : Sent Time Reason), (s.projectWake wakeAt activeDeliveries).sent[i]? = some x →
      s.sent[i]? = some x ∨ (x.sending = .queued ∧ x.result = none) := by
    intro i x there
    by_cases inside : i < s.sent.length
    · exact .inl ((List.getElem?_append_left inside).symm.trans there)
    · have there := (List.getElem?_append_right (not_lt.1 inside)).symm.trans there
      rw [List.getElem?_singleton] at there
      split at there
      · obtain rfl := Option.some.inj there
        exact .inr ⟨rfl, rfl⟩
      · cases there
  refine ⟨fun i x there moved j before => ?_, fun i x result there known => ?_, fun i x p there asked => ?_,
    fun c called => ?_, chained.numbered, chained.rising⟩
  · have there := (either i x there).resolve_right fun new => moved new.1
    obtain ⟨y, result, there, done⟩ := chained.order i x there moved j before
    exact ⟨y, result, old j y there, done⟩
  · have there := (either i x there).resolve_right fun new => by rw [new.2] at known; cases known
    exact chained.recorded i x result there known
  · have there := (either i x there).resolve_right fun new => by
      rw [new.1] at asked
      rcases asked with same | same <;> cases same
    exact chained.own i x p there asked
  · obtain ⟨x, there, rest⟩ := chained.calls c called
    exact ⟨x, old c.1 x there, rest⟩

theorem waiting_projectWake (wakeAt : Option Time) (activeDeliveries : Nat) :
    Waiting (s.projectWake wakeAt activeDeliveries) := by
  intro latest result last known
  have same : (s.projectWake wakeAt activeDeliveries).latest = some ⟨wakeAt, activeDeliveries, .queued, none⟩ :=
    List.getLast?_concat
  obtain rfl := Option.some.inj (same.symm.trans last)
  cases known

theorem Chained.acknowledge (chained : Chained s) (scheduledTime : Time) : Answered s (s.acknowledge scheduledTime) := by
  unfold AlarmProjector.acknowledge
  have asked := chained.of_same (t := { s with
    waiters := s.waiters ++ [{ acknowledge := s.acknowledges, after := scheduledTime }]
    acknowledges := s.acknowledges + 1 }) rfl rfl rfl
  simp only
  split
  · exact ⟨asked.projectWake _ _, waiting_projectWake _ _, [], (List.append_nil _).symm, fun _ member => by cases member⟩
  · exact asked.answered_settle rfl

theorem Chained.record {i : Nat} {sent : Sent Time Reason} {result : Except Reason (AlarmProjection Time)}
    (chained : Chained s) (known : s.sent[i]? = some sent) (settled : sent.sending = .settled result) :
    Answered s (settle { s with sent := s.sent.set i { sent with result := some result } }) := by
  refine Chained.answered_settle ?_ rfl
  have get := set_get known { sent with result := some result }
  have old : ∀ (j : Nat) (x : Sent Time Reason), (s.sent.set i { sent with result := some result })[j]? = some x →
      ∃ y, s.sent[j]? = some y ∧ y.sending = x.sending ∧ (x.result = y.result ∨ x.result = some result ∧ i = j) := by
    intro j x there
    rw [get j] at there
    split at there
    · rename_i same
      obtain rfl := Option.some.inj there
      exact ⟨sent, same ▸ known, rfl, .inr ⟨rfl, same⟩⟩
    · exact ⟨x, there, rfl, .inl rfl⟩
  have new : ∀ (j : Nat) (x : Sent Time Reason), s.sent[j]? = some x →
      ∃ y, (s.sent.set i { sent with result := some result })[j]? = some y ∧ y.sending = x.sending ∧
        y.wakeAt = x.wakeAt := by
    intro j x there
    rw [get j]
    split
    · rename_i same
      obtain rfl := Option.some.inj (known.symm.trans (same ▸ there))
      exact ⟨_, rfl, rfl, rfl⟩
    · exact ⟨x, there, rfl, rfl⟩
  refine ⟨fun j x there moved k before => ?_, fun j x r there recorded => ?_, fun j x p there asked => ?_,
    fun c called => ?_, chained.numbered, chained.rising⟩
  · obtain ⟨y, there, same, _⟩ := old j x there
    obtain ⟨z, r, there, done⟩ := chained.order j y there (same ▸ moved) k before
    obtain ⟨w, there, same, _⟩ := new k z there
    exact ⟨w, r, there, same.trans done⟩
  · obtain ⟨y, there, same, from_ | ⟨given, place⟩⟩ := old j x there
    · exact same ▸ chained.recorded j y r there (from_ ▸ recorded)
    · obtain rfl := Option.some.inj (given.symm.trans recorded)
      obtain rfl := Option.some.inj (known.symm.trans (place ▸ there))
      exact same ▸ settled
  · obtain ⟨y, there, same, _⟩ := old j x there
    exact chained.own j y p there (same ▸ asked)
  · obtain ⟨x, there, wake, queued, numbering⟩ := chained.calls c called
    obtain ⟨y, there, same, wakes⟩ := new c.1 x there
    exact ⟨y, there, wake.trans wakes.symm, same ▸ queued, same ▸ numbering⟩

/-- A projection that moves on tells nobody, and the latest has not been recorded. -/
theorem Chained.answered_advances {i : Nat} {sent : Sent Time Reason} {sending : Sending Time Reason}
    (chained : Chained s) (waiting : Waiting s) (known : s.sent[i]? = some sent)
    (advances : Advances s i sent sending t) : Answered s t := by
  have waiters : t.waiters = s.waiters ∧ t.answers = s.answers ∧ t.sent.length = s.sent.length := by
    cases advances <;> exact ⟨rfl, rfl, List.length_set⟩
  refine ⟨chained.advances known advances, fun latest result last recorded => ?_,
    [], by rw [waiters.2.1, List.append_nil], fun _ member => by cases member⟩
  have there := latest_get last
  rw [waiters.2.2, advances.get known] at there
  rw [waiters.1]
  split at there
  · obtain rfl := Option.some.inj there
    exact absurd (chained.recorded i sent result known recorded) (advances.unsettled result)
  · refine waiting latest result ?_ recorded
    rw [AlarmProjector.latest, List.getLast?_eq_getElem?]
    exact there

theorem Answered.of_step {e : ProjectorEvent Time Reason} (chained : Chained s) (waiting : Waiting s)
    (admitted : Increasing s e) (stepped : step s e = some t) : Answered s t := by
  rcases step_cases admitted stepped with ⟨wakeAt, activeDeliveries, rfl⟩ | ⟨scheduledTime, rfl⟩ |
    ⟨i, sent, sending, known, advances⟩ | ⟨i, sent, result, known, settled, rfl⟩
  · exact ⟨chained.projectWake _ _, waiting_projectWake _ _, [], (List.append_nil _).symm, fun _ member => by cases member⟩
  · exact chained.acknowledge scheduledTime
  · exact chained.answered_advances waiting known advances
  · exact chained.record known settled

end Answers

section Runs

variable {Time Reason : Type} [LinearOrder Time]

theorem chained_empty : Chained (empty : AlarmProjector Time Reason) :=
  ⟨fun _ _ there => (by cases there), fun _ _ _ there => (by cases there), fun _ _ _ there => (by cases there),
    fun _ called => (by cases called), fun _ called => (by cases called), .nil⟩

theorem chained_of_reached {s : AlarmProjector Time Reason} (reached : Reaches step Increasing empty s) :
    Chained s ∧ Waiting s :=
  reached.invariant (P := fun s => Chained s ∧ Waiting s) ⟨chained_empty, fun _ _ last => (by cases last)⟩ fun _ _ _ both admitted stepped =>
    let answered := Answered.of_step both.1 both.2 admitted stepped
    ⟨answered.chained, answered.waiting⟩

end Runs

end DoRuntime.Browser.AlarmProjector
