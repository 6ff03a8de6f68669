import DoRuntime.Alarms.Entries

namespace DoRuntime.Alarms.LiveScheduler

open Transition

/-- A `deliverAlarm` call of the entry has not settled. -/
def InFlight (s : LiveScheduler) (e : Nat) : Prop := ∃ b, s.task e = .delivering b

/-- A delivery of the entry has not settled, or its result is still to be processed. -/
def Unprocessed (s : LiveScheduler) (e : Nat) : Prop :=
  s.InFlight e ∨ s.isLive e = true ∧ ((∃ r b, s.task e = .sleeping (some r) b) ∨ ∃ r b, s.task e = .abandoning r b)

/-- No alarm of an actor comes due while a delivery of it that a `deleteAll` took off the map is in flight. -/
def DroppedSettleFirst (s : LiveScheduler) : Event → Prop
  | .wake e _ _ => s.isLive e = true → ∀ i, s.dropped i = true → s.InFlight i →
      (s.entry i).actorId ≠ (s.entry e).actorId
  | _ => True

/-- Two deliveries in flight are of two actors. -/
def Serial (s : LiveScheduler) : Prop :=
  ∀ i j, s.InFlight i → s.InFlight j → (s.entry i).actorId = (s.entry j).actorId → i = j

section Moves

variable {s t : LiveScheduler} {event : Event}

/-- A delivery in flight was so before the step, or the step was the wake of its entry. -/
theorem Move.inFlight (move : Move s event t) {i : Nat} (delivering : t.InFlight i) :
    s.InFlight i ∨
      s.isLive i = true ∧ (∃ b, s.task i = .sleeping none b) ∧ ∃ woken env, event = .wake i woken env := by
  obtain ⟨b, delivering⟩ := delivering
  rcases move.task (i := i) (by rw [delivering]; rfl) with same | ⟨live, due, woke, _⟩ | ⟨_, _, other⟩
  · exact .inl ⟨b, same ▸ delivering⟩
  · exact .inr ⟨live, due, woke⟩
  · exact absurd delivering (other b)

theorem Shaped.busy_lt (shaped : Shaped s) {i : Nat} (busy : (s.task i).isBusy = true) : i < s.next := by
  by_contra later
  rw [shaped.later i (Nat.le_of_not_lt later)] at busy
  cases busy

theorem unprocessed_of_busy {i : Nat} (live : s.isLive i = true) (busy : (s.task i).isBusy = true) :
    s.Unprocessed i := by
  cases task : s.task i with
  | sleeping completed b =>
    cases completed with
    | none => simp [task, Task.isBusy] at busy
    | some r => exact .inr ⟨live, .inl ⟨r, b, task⟩⟩
  | delivering b => exact .inl ⟨b, task⟩
  | abandoning r b => exact .inr ⟨live, .inr ⟨r, b, task⟩⟩
  | done => simp [task, Task.isBusy] at busy

theorem Unprocessed.busy {i : Nat} (unprocessed : s.Unprocessed i) : (s.task i).isBusy = true := by
  rcases unprocessed with ⟨b, task⟩ | ⟨_, ⟨r, b, task⟩ | ⟨r, b, task⟩⟩ <;> rw [task] <;> rfl

/-- A delivery unprocessed after a step was so before, or the step was the wake of its entry. -/
theorem Move.unprocessed (shaped : Shaped s) (move : Move s event t) {i : Nat} (unprocessed : t.Unprocessed i) :
    s.Unprocessed i ∨
      s.isLive i = true ∧ (∃ b, s.task i = .sleeping none b) ∧ ∃ woken env, event = .wake i woken env := by
  rcases unprocessed with flying | ⟨live, waiting⟩
  · exact (move.inFlight flying).imp_left .inl
  · have busy : (t.task i).isBusy = true := Unprocessed.busy (.inr ⟨live, waiting⟩)
    rcases move.task busy with same | ⟨_, _, _, b, delivering⟩ | ⟨before, was, _⟩
    · left
      rw [same] at busy
      exact unprocessed_of_busy (move.live_back (shaped.busy_lt busy) live) busy
    · rcases waiting with ⟨r, b', waiting⟩ | ⟨r, b', waiting⟩ <;> simp [delivering] at waiting
    · exact .inl (unprocessed_of_busy before was)

/-- A step that starts a delivery finds none of its actor in flight or unprocessed. -/
theorem start_alone (shaped : Shaped s) (admitted : DroppedSettleFirst s event) (move : Move s event t) {e : Nat}
    (begun : t.InFlight e) (idle : ¬ s.InFlight e) {i : Nat} (unprocessed : s.Unprocessed i) :
    (s.entry i).actorId ≠ (s.entry e).actorId := by
  intro same
  rcases move.inFlight begun with before | ⟨live, ⟨b, due⟩, woken, env, rfl⟩
  · exact idle before
  by_cases live_i : s.isLive i
  · obtain rfl : e = i := by
      rw [isLive_iff] at live live_i
      rw [same, live] at live_i
      exact Option.some.inj live_i
    rcases unprocessed with before | ⟨_, ⟨r, b', waiting⟩ | ⟨r, b', waiting⟩⟩
    · exact idle before
    · simp [due] at waiting
    · simp [due] at waiting
  · rcases unprocessed with ⟨b', delivering⟩ | ⟨live_i', _⟩
    · exact admitted live i (shaped.gone b' i delivering (by simpa using live_i)) ⟨b', delivering⟩ same
    · exact live_i live_i'

theorem Shaped.inFlight_lt (shaped : Shaped s) {i : Nat} (delivering : s.InFlight i) : i < s.next := by
  obtain ⟨b, delivering⟩ := delivering
  exact shaped.busy_lt (by rw [delivering]; rfl)

theorem step_serial (kept : Shaped s ∧ Serial s) (admitted : DroppedSettleFirst s event)
    (stepped : step s event = some t) : Shaped t ∧ Serial t := by
  obtain ⟨shaped, serial⟩ := kept
  have move := step_moves shaped event stepped
  refine ⟨move.shaped shaped, ?_⟩
  have made : ∀ i, t.InFlight i → i < s.next := by
    intro i flying
    rcases move.inFlight flying with before | ⟨live, _⟩
    · exact shaped.inFlight_lt before
    · exact shaped.live_lt live
  have apart : ∀ i j, t.InFlight j → s.InFlight i → ¬ s.InFlight j →
      (s.entry i).actorId ≠ (s.entry j).actorId := fun i j flying before idle =>
    start_alone shaped admitted move flying idle (.inl before)
  intro i j flying_i flying_j same
  rw [move.actorId (made i flying_i), move.actorId (made j flying_j)] at same
  rcases move.inFlight flying_i with before_i | ⟨_, ⟨b, due⟩, woken, env, woke_i⟩
  · by_cases before_j : s.InFlight j
    · exact serial i j before_i before_j same
    · exact absurd same (apart i j flying_j before_i before_j)
  · rcases move.inFlight flying_j with before_j | ⟨_, _, woken', env', woke_j⟩
    · have idle : ¬ s.InFlight i := by
        intro ⟨b', delivering⟩
        simp [due] at delivering
      exact absurd same.symm (apart j i flying_i before_j idle)
    · rw [woke_i] at woke_j
      cases woke_j
      rfl

end Moves

theorem opened_serial {s : LiveScheduler} (opened : Opened s) : Serial s := by
  intro i _ flying_i
  obtain ⟨now, jitter, rows, built, _, _, rfl⟩ := opened
  obtain ⟨b, delivering⟩ := flying_i
  simp only [loaded] at delivering
  split at delivering <;> cases delivering

/-- A clock at 0, no jitter, and nothing that fails. -/
def calm : Env := { now := 0, jitter := fun _ => 0, fails := fun _ => false }

/-- The scheduler over an empty table. -/
def empty : LiveScheduler := loaded { rows := [], alarms := [] }

theorem empty_opened : Opened empty :=
  ⟨0, fun _ => 0, [], { rows := [], alarms := [] }, List.nodup_nil, rfl, rfl⟩

theorem step_wake {s : LiveScheduler} {e b : Nat} {completed : Option AlarmResult} {woken : Float} (env : Env)
    (due : s.task e = .sleeping completed b) (time : (s.entry e).scheduledTime ≤ woken) :
    step s (.wake e woken env) = some (wake env e completed b s).2 := by
  simp only [step, due, time, true_or, if_true]

theorem zero_due : (0 : Float) ≤ 0 := by decide +kernel

/-- In every run in which the deliveries that a `deleteAll` took off the map settle before the next
    one of their actor is due, the deliveries of an actor are one at a time, and each starts only
    when nothing of an earlier one is left to process. -/
theorem delivery_serialised {s₀ s : LiveScheduler} (opened : Opened s₀)
    (reached : Reaches step DroppedSettleFirst s₀ s) :
    s.Serial ∧ ∀ event t, DroppedSettleFirst s event → step s event = some t → ∀ e, t.InFlight e → ¬ s.InFlight e →
      ∀ i, s.Unprocessed i → (s.entry i).actorId ≠ (s.entry e).actorId := by
  obtain ⟨shaped, serial⟩ := reached.invariant ⟨opened.shaped, opened_serial opened⟩
    fun _ _ _ kept admitted stepped => step_serial kept admitted stepped
  refine ⟨serial, ?_⟩
  intro event t admitted stepped e begun idle i unprocessed
  exact start_alone shaped admitted (step_moves shaped event stepped) begun idle unprocessed

theorem settleFirst_of_none {s : LiveScheduler} (none_dropped : ∀ i, s.dropped i = false) (e : Nat) (woken : Float)
    (env : Env) : DroppedSettleFirst s (.wake e woken env) := by
  intro _ i dropped
  simp [none_dropped i] at dropped

/-- An alarm set while another is delivered, and delivered after it. -/
theorem delivery_serialised_queued : ∃ s : LiveScheduler, Reaches step DroppedSettleFirst empty s ∧ s.InFlight 1 ∧
    s.Serial := by
  have start : Reaches step DroppedSettleFirst empty empty := .refl
  have set := start.then (.setAlarm "a" 0 calm) trivial rfl
  have woken := set.then (.wake 0 0 calm) (settleFirst_of_none ?_ 0 0 calm) (step_wake (b := 0) calm rfl zero_due)
  have queued := woken.then (.setAlarm "a" 0 calm) trivial rfl
  have settled := queued.then (.deliverySettled 0 (some ⟨false, false, .ok⟩) calm) trivial rfl
  have again := settled.then (.wake 1 0 calm) (settleFirst_of_none ?_ 1 0 calm) (step_wake (b := 0) calm rfl zero_due)
  · exact ⟨_, again, ⟨0, rfl⟩, (delivery_serialised empty_opened again).1⟩
  · intro i
    change (if i = 1 then false else if i = 0 then false else false) = false
    simp
  · intro i
    change (if i = 0 then false else false) = false
    simp

/-- A delivery goes on while the alarm set after a `deleteAll` is delivered. -/
theorem dropped_delivery_overlaps : ¬ ∀ s₀ s, Opened s₀ → Reaches step (fun _ _ => True) s₀ s → s.Serial := by
  intro serial
  have overlap := serial empty _ empty_opened
    (.head (.setAlarm "a" 0 calm) trivial rfl <|
    .head (.wake 0 0 calm) trivial (step_wake (b := 0) calm rfl zero_due) <|
    .head (.deleteAll calm) trivial rfl <|
    .head (.setAlarm "a" 0 calm) trivial rfl <|
    .head (.wake 1 0 calm) trivial (step_wake (b := 0) calm rfl zero_due) .refl)
  have same := overlap 0 1 ⟨0, rfl⟩ ⟨0, rfl⟩ rfl
  cases same

end DoRuntime.Alarms.LiveScheduler
