import DoRuntime.WebSockets.SocketsKept

namespace DoRuntime.WebSockets

open Js

theorem forall₂_partner {α β : Type} {R : α → β → Prop} {xs : List α} {ys : List β} (same : List.Forall₂ R xs ys) :
    ∀ x ∈ xs, ∃ y ∈ ys, R x y := by
  induction same with
  | nil => simp
  | cons here _ ih =>
    intro x member
    rcases List.mem_cons.1 member with rfl | member
    · exact ⟨_, List.mem_cons_self .., here⟩
    · obtain ⟨y, there, related⟩ := ih x member
      exact ⟨y, List.mem_cons_of_mem _ there, related⟩

theorem forall₂_map_eq {α β γ : Type} {R : α → β → Prop} {f : α → γ} {g : β → γ} {xs : List α} {ys : List β}
    (same : List.Forall₂ R xs ys) (equal : ∀ x y, R x y → g y = f x) : ys.map g = xs.map f := by
  induction same with
  | nil => rfl
  | cons here _ ih => rw [List.map_cons, List.map_cons, ih, equal _ _ here]

namespace Registry

section Agreement

variable {Socket Value : Type} [DecidableEq Socket]

/-- An entry of the registry and one of its mirror tell the same of one socket. -/
structure Agrees (codec : Codec Value) (serial : Nat) (metadata : Socket → SocketMetadata)
    (e : RegistryEntry Socket) (m : MirroredWebSocket Socket) : Prop where
  socket : m.socket = e.raw
  tags : normalizeTags (some m.tags) = .ok e.tags
  stamped : m.autoResponseTimestamp = e.autoResponseTimestamp
  attached : codec.read m.attachment = codec.read (metadata e.raw).attachment
  accepted : (metadata e.raw).accepted = some (.hibernatable serial e.tags)

/-- A socket that no acceptance is known of was neither closed nor released. -/
def Idle (state : SocketMetadata) : Prop :=
  state.accepted = none → state.closeDispatched = false ∧ state.released = false

/-- What an entry shows of the metadata of its socket is the same. -/
def ShowsSame (codec : Codec Value) (old new : SocketMetadata) : Prop :=
  new.accepted = old.accepted ∧ codec.read new.attachment = codec.read old.attachment

structure Agreeing (codec : Codec Value) (r : Registry Socket) : Prop where
  agree : List.Forall₂ (Agrees codec r.serial r.metadata) r.entries r.host.entries
  distinct : (r.entries.map RegistryEntry.raw).Nodup
  response : r.autoResponse = r.host.autoResponsePair
  sized : ∀ pair ∈ r.autoResponse, validateAutoResponse pair = .ok ()
  idle : ∀ s, Idle (r.metadata s)

/-- The registry and its mirror at rest: a close that was dispatched to a listed socket still has to settle. -/
structure Mirrored (codec : Codec Value) (r : Registry Socket) : Prop extends Agreeing codec r where
  closing : ∀ e ∈ r.entries, (r.metadata e.raw).closeDispatched = true →
    .settle r.serial e.raw true ∈ r.checkpoint
  unreleased : ∀ e ∈ r.entries, (r.metadata e.raw).released = false

theorem Agreeing.sockets_eq {codec : Codec Value} {r : Registry Socket} (inv : Agreeing codec r) :
    HibernationMirror.sockets r.host.entries = r.entries.map RegistryEntry.raw :=
  forall₂_map_eq inv.agree fun _ _ related => related.socket

theorem Agreeing.wakeable {codec : Codec Value} {r : Registry Socket} (inv : Agreeing codec r) :
    Wakeable r.host where
  distinct := inv.sockets_eq ▸ inv.distinct
  normal := by
    intro m member
    obtain ⟨e, _, related⟩ := forall₂_partner inv.agree.flip m member
    exact ⟨e.tags, related.tags⟩
  sized := inv.response ▸ inv.sized

/-- A registry built from a mirror agrees with it, where the realm had no other attachment to keep. -/
theorem Woken.mirrored {codec : Codec Value} {metadata : Socket → SocketMetadata} {serial : Nat}
    {checkpoint : List (CheckpointEnd Socket)} {host : HibernationMirror Socket} {woken : Registry Socket}
    (wakeable : Wakeable host) (awake : Woken (answering metadata serial checkpoint host) host.entries woken)
    (kept : ∀ m ∈ host.entries,
      codec.read (m.attachment <|> (metadata m.socket).attachment) = codec.read m.attachment)
    (idle : ∀ s, Idle (metadata s)) : Mirrored codec woken := by
  have entries : woken.entries = host.entries.map entryOf := by
    rw [awake.entries]
    rfl
  have back : ∀ e ∈ woken.entries, ∃ m ∈ host.entries, e = entryOf m ∧ woken.metadata e.raw =
      { accepted := some (.hibernatable serial (entryOf m).tags)
        attachment := m.attachment <|> (metadata m.socket).attachment } := by
    intro e member
    rw [entries] at member
    obtain ⟨m, member, same⟩ := List.mem_map.1 member
    refine ⟨m, member, same.symm, ?_⟩
    rw [← same]
    exact awake.listed m member
  refine ⟨⟨?_, ?_, ?_, ?_, ?_⟩, ?_, ?_⟩
  · rw [awake.host, entries, List.forall₂_map_left_iff]
    refine List.forall₂_same.2 fun m member => ?_
    obtain ⟨tags, normal⟩ := wakeable.normal m member
    have data := awake.listed m member
    refine ⟨rfl, ?_, rfl, ?_, ?_⟩
    · rw [entryOf_tags normal, normal]
    · rw [show (entryOf m).raw = m.socket from rfl, data]
      exact (kept m member).symm
    · rw [show (entryOf m).raw = m.socket from rfl, data, awake.serial]
  · rw [entries, List.map_map]
    exact wakeable.distinct
  · rw [awake.autoResponse, awake.host]
    rfl
  · rw [awake.autoResponse]
    exact wakeable.sized
  · intro s
    by_cases listed : s ∈ HibernationMirror.sockets host.entries
    · obtain ⟨m, member, same⟩ := List.mem_map.1 listed
      rw [← same, awake.listed m member]
      intro unaccepted
      cases unaccepted
    · rw [awake.others s listed]
      exact idle s
  · intro e member dispatched
    obtain ⟨m, _, _, data⟩ := back e member
    rw [data] at dispatched
    cases dispatched
  · intro e member
    obtain ⟨m, _, _, data⟩ := back e member
    rw [data]

theorem Agreeing.accepted_of_listed {codec : Codec Value} {r : Registry Socket} (inv : Agreeing codec r)
    {e : RegistryEntry Socket} (listed : e ∈ r.entries) :
    (r.metadata e.raw).accepted = some (.hibernatable r.serial e.tags) := by
  obtain ⟨_, _, related⟩ := forall₂_partner inv.agree e listed
  exact related.accepted

theorem Agreeing.has_of_listed {codec : Codec Value} {r : Registry Socket} (inv : Agreeing codec r)
    {e : RegistryEntry Socket} (listed : e ∈ r.entries) : r.host.has e.raw = true := by
  obtain ⟨m, member, related⟩ := forall₂_partner inv.agree e listed
  exact List.any_eq_true.2 ⟨m, member, by simpa using related.socket⟩

/-- Metadata may change where it shows in no entry. -/
theorem Agreeing.reread {codec : Codec Value} {r r' : Registry Socket} (inv : Agreeing codec r)
    (serial : r'.serial = r.serial) (entries : r'.entries = r.entries) (host : r'.host = r.host)
    (response : r'.autoResponse = r.autoResponse)
    (kept : ∀ e ∈ r.entries, ShowsSame codec (r.metadata e.raw) (r'.metadata e.raw))
    (idle : ∀ s, Idle (r'.metadata s)) : Agreeing codec r' where
  agree := by
    rw [serial, entries, host]
    have both := (List.forall₂_and_left (p := fun e => e ∈ r.entries) _ _).2 ⟨fun _ member => member, inv.agree⟩
    refine both.imp fun e m related => ?_
    obtain ⟨member, related⟩ := related
    obtain ⟨accepted, attached⟩ := kept e member
    exact ⟨related.socket, related.tags, related.stamped, related.attached.trans attached.symm,
      accepted.trans related.accepted⟩
  distinct := entries ▸ inv.distinct
  response := by rw [response, host, inv.response]
  sized := response ▸ inv.sized
  idle := idle

theorem metadata_update (P : Socket → SocketMetadata → Prop) {r r' : Registry Socket} {socket : Socket}
    {state : SocketMetadata} (changed : r'.metadata = Function.update r.metadata socket state)
    (others : ∀ s, P s (r.metadata s)) (here : P socket state) : ∀ s, P s (r'.metadata s) := by
  rw [changed]
  exact (Function.forall_update_iff r.metadata P).2 ⟨here, fun s _ => others s⟩

theorem idle_update {r r' : Registry Socket} {socket : Socket} {state : SocketMetadata}
    (changed : r'.metadata = Function.update r.metadata socket state) (idle : ∀ s, Idle (r.metadata s))
    (here : Idle state) : ∀ s, Idle (r'.metadata s) :=
  metadata_update (fun _ => Idle) changed idle here

theorem showsSame_update {codec : Codec Value} {r r' : Registry Socket} {socket : Socket} {state : SocketMetadata}
    (changed : r'.metadata = Function.update r.metadata socket state)
    (here : ShowsSame codec (r.metadata socket) state) : ∀ s, ShowsSame codec (r.metadata s) (r'.metadata s) :=
  metadata_update (fun s => ShowsSame codec (r.metadata s)) changed (fun _ => ⟨rfl, rfl⟩) here

theorem Agreeing.completeOwnClose {codec : Codec Value} {r : Registry Socket} (inv : Agreeing codec r)
    (socket : Socket) : Agreeing codec (r.completeOwnClose socket) := by
  refine inv.reread rfl rfl rfl rfl (fun e _ => showsSame_update rfl (by exact ⟨rfl, rfl⟩) e.raw) (idle_update rfl inv.idle ?_)
  intro unaccepted
  obtain ⟨undispatched, unreleased⟩ := inv.idle socket unaccepted
  exact ⟨undispatched, by simp [undispatched, unreleased]⟩

theorem Agreeing.remove {codec : Codec Value} {r : Registry Socket} (inv : Agreeing codec r) (raw : Socket) :
    Agreeing codec (r.remove raw) := by
  unfold Registry.remove
  split
  · refine ⟨?_, ?_, inv.response, inv.sized, inv.idle⟩
    · refine List.rel_filter (fun e m related => ?_) inv.agree
      simp only [related.socket]
    · exact inv.distinct.sublist (List.filter_sublist.map _)
  · exact inv

theorem remove_entries (r : Registry Socket) (raw : Socket) :
    (r.remove raw).entries = r.entries.filter fun entry => entry.raw ≠ raw := by
  unfold Registry.remove
  split
  · rfl
  · rename_i absent
    refine (List.filter_eq_self.2 fun e member => ?_).symm
    by_contra same
    exact absent (List.any_eq_true.2 ⟨e, member, by simpa using same⟩)

theorem remove_metadata (r : Registry Socket) (raw : Socket) : (r.remove raw).metadata = r.metadata := by
  unfold Registry.remove
  split <;> rfl

theorem remove_serial (r : Registry Socket) (raw : Socket) : (r.remove raw).serial = r.serial := by
  unfold Registry.remove
  split <;> rfl

theorem remove_checkpoint (r : Registry Socket) (raw : Socket) : (r.remove raw).checkpoint = r.checkpoint := by
  unfold Registry.remove
  split <;> rfl

/-- While a checkpoint drains, a listed socket is released only if its close was dispatched, and then its own
removal is among the `tasks` to come. -/
structure Draining (codec : Codec Value) (r : Registry Socket) (tasks : List (CheckpointEnd Socket)) : Prop extends
    Agreeing codec r where
  removal : ∀ e ∈ r.entries, (r.metadata e.raw).closeDispatched = true → .settle r.serial e.raw true ∈ tasks
  released : ∀ e ∈ r.entries, (r.metadata e.raw).released = true → (r.metadata e.raw).closeDispatched = true

/-- What settling or completing can do to the flags of a socket. -/
theorem completeOwnClose_flags (r : Registry Socket) (socket s : Socket) :
    ((r.completeOwnClose socket).metadata s).closeDispatched = (r.metadata s).closeDispatched ∧
      (((r.completeOwnClose socket).metadata s).released = true →
        (r.metadata s).released = true ∨ (r.metadata s).closeDispatched = true) := by
  by_cases here : s = socket
  · have new : (r.completeOwnClose socket).metadata s = { r.metadata s with
        ownCloseCompletion := false
        released := (r.metadata s).released || (r.metadata s).closeDispatched } := by
      rw [here]
      exact Function.update_self ..
    rw [new]
    exact ⟨rfl, by simp⟩
  · rw [show (r.completeOwnClose socket).metadata s = r.metadata s from Function.update_of_ne here ..]
    exact ⟨rfl, Or.inl⟩

theorem completePending_flags (r : Registry Socket) (socket s : Socket) :
    ((r.completePending socket).metadata s).closeDispatched = (r.metadata s).closeDispatched ∧
      (((r.completePending socket).metadata s).released = true →
        (r.metadata s).released = true ∨ (r.metadata s).closeDispatched = true) := by
  unfold completePending
  split
  · exact completeOwnClose_flags r socket s
  · exact ⟨rfl, Or.inl⟩

theorem completePending_same (r : Registry Socket) (socket : Socket) :
    (r.completePending socket).serial = r.serial ∧ (r.completePending socket).entries = r.entries := by
  unfold completePending
  split <;> exact ⟨rfl, rfl⟩

theorem Agreeing.completePending {codec : Codec Value} {r : Registry Socket} (inv : Agreeing codec r)
    (socket : Socket) : Agreeing codec (r.completePending socket) := by
  unfold Registry.completePending
  split
  · exact inv.completeOwnClose socket
  · exact inv

theorem settle_flags (r : Registry Socket) (registry : Nat) (raw s : Socket) (isClose : Bool) :
    ((r.settle registry raw isClose).metadata s).closeDispatched = (r.metadata s).closeDispatched ∧
      (((r.settle registry raw isClose).metadata s).released = true →
        (r.metadata s).released = true ∨ (r.metadata s).closeDispatched = true) := by
  have same : (if isClose ∧ registry = r.serial then r.remove raw else r).metadata = r.metadata := by
    split
    · exact remove_metadata r raw
    · rfl
  have flags := completePending_flags (if isClose ∧ registry = r.serial then r.remove raw else r) raw s
  rw [same] at flags
  exact flags

theorem settle_serial (r : Registry Socket) (registry : Nat) (raw : Socket) (isClose : Bool) :
    (r.settle registry raw isClose).serial = r.serial := by
  have same : (if isClose ∧ registry = r.serial then r.remove raw else r).serial = r.serial := by
    split
    · exact remove_serial r raw
    · rfl
  exact (completePending_same ..).1.trans same

theorem settle_entries (r : Registry Socket) (registry : Nat) (raw : Socket) (isClose : Bool) :
    (r.settle registry raw isClose).entries =
      if isClose ∧ registry = r.serial then r.entries.filter fun entry => entry.raw ≠ raw else r.entries := by
  have same : (if isClose ∧ registry = r.serial then r.remove raw else r).entries =
      if isClose ∧ registry = r.serial then r.entries.filter fun entry => entry.raw ≠ raw else r.entries := by
    split
    · exact remove_entries r raw
    · rfl
  exact (completePending_same ..).2.trans same

theorem Agreeing.settle {codec : Codec Value} {r : Registry Socket} (inv : Agreeing codec r) (registry : Nat)
    (raw : Socket) (isClose : Bool) : Agreeing codec (r.settle registry raw isClose) := by
  unfold Registry.settle
  refine Agreeing.completePending ?_ raw
  split
  · exact inv.remove raw
  · exact inv

theorem Draining.settle {codec : Codec Value} {r : Registry Socket} {tasks : List (CheckpointEnd Socket)}
    {registry : Nat} {raw : Socket} {isClose : Bool} (inv : Draining codec r (.settle registry raw isClose :: tasks)) :
    Draining codec (r.settle registry raw isClose) tasks := by
  have listed : ∀ e ∈ (r.settle registry raw isClose).entries,
      e ∈ r.entries ∧ ¬ (isClose ∧ registry = r.serial ∧ e.raw = raw) := by
    intro e member
    rw [settle_entries] at member
    split at member
    · obtain ⟨member, other⟩ := List.mem_filter.1 member
      exact ⟨member, fun own => by simp [own.2.2] at other⟩
    · rename_i other
      exact ⟨member, fun own => other ⟨own.1, own.2.1⟩⟩
  refine ⟨inv.toAgreeing.settle registry raw isClose, fun e member dispatched => ?_, fun e member released => ?_⟩
  · obtain ⟨member, other⟩ := listed e member
    rw [(settle_flags ..).1] at dispatched
    rw [settle_serial]
    rcases List.mem_cons.1 (inv.removal e member dispatched) with same | later
    · cases same
      exact absurd ⟨rfl, rfl, rfl⟩ other
    · exact later
  · obtain ⟨member, _⟩ := listed e member
    rw [(settle_flags ..).1]
    rcases (settle_flags ..).2 released with before | dispatched
    · exact inv.released e member before
    · exact dispatched

theorem Draining.completeOwnClose {codec : Codec Value} {r : Registry Socket} {tasks : List (CheckpointEnd Socket)}
    {socket : Socket} (inv : Draining codec r (.completeOwnClose socket :: tasks)) :
    Draining codec (r.completeOwnClose socket) tasks := by
  refine ⟨inv.toAgreeing.completeOwnClose socket, fun e member dispatched => ?_, fun e member released => ?_⟩
  · rw [(completeOwnClose_flags ..).1] at dispatched
    rcases List.mem_cons.1 (inv.removal e member dispatched) with same | later
    · cases same
    · exact later
  · rw [(completeOwnClose_flags ..).1]
    rcases (completeOwnClose_flags ..).2 released with before | dispatched
    · exact inv.released e member before
    · exact dispatched

theorem Draining.drained {codec : Codec Value} {tasks : List (CheckpointEnd Socket)} {r : Registry Socket}
    (inv : Draining codec r tasks) : Draining codec (tasks.foldl runCheckpointEnd r) [] := by
  induction tasks generalizing r with
  | nil => exact inv
  | cons task rest ih =>
    cases task with
    | settle registry raw isClose => exact ih inv.settle
    | completeOwnClose socket => exact ih inv.completeOwnClose

theorem Mirrored.drainCheckpoint {codec : Codec Value} {r : Registry Socket} (inv : Mirrored codec r) :
    Mirrored codec r.drainCheckpoint := by
  have start : Draining codec { r with checkpoint := [] } r.checkpoint := by
    refine ⟨⟨inv.agree, inv.distinct, inv.response, inv.sized, inv.idle⟩, inv.closing, fun e member released => ?_⟩
    have kept := inv.unreleased e member
    exact absurd (released.symm.trans kept) (by decide)
  have drained := start.drained
  refine ⟨drained.toAgreeing, fun e member dispatched => ?_, fun e member => ?_⟩
  · cases drained.removal e member dispatched
  · by_contra released
    rw [Bool.not_eq_false] at released
    cases drained.removal e member (drained.released e member released)

/-- Metadata may change where it shows in no entry, once nothing is dispatched or released by it. -/
theorem Mirrored.reread {codec : Codec Value} {r r' : Registry Socket} (inv : Mirrored codec r)
    (agreeing : Agreeing codec r') (serial : r'.serial = r.serial) (entries : r'.entries = r.entries)
    (kept : ∀ e ∈ r.entries, (r'.metadata e.raw).released = (r.metadata e.raw).released ∧
      ((r'.metadata e.raw).closeDispatched = true → (r.metadata e.raw).closeDispatched = true ∨
        .settle r.serial e.raw true ∈ r'.checkpoint))
    (queued : ∀ task ∈ r.checkpoint, task ∈ r'.checkpoint) : Mirrored codec r' where
  toAgreeing := agreeing
  closing := by
    rw [serial, entries]
    intro e member dispatched
    rcases (kept e member).2 dispatched with before | awaited
    · exact queued _ (inv.closing e member before)
    · exact awaited
  unreleased := by
    rw [entries]
    intro e member
    exact (kept e member).1.trans (inv.unreleased e member)

theorem Mirrored.ownCloseWritten {codec : Codec Value} {r : Registry Socket} (inv : Mirrored codec r)
    (socket : Socket) (pair : Bool) : Mirrored codec (r.ownCloseWritten socket pair) := by
  unfold Registry.ownCloseWritten
  split
  · have agreeing := @Agreeing.reread _ _ _ codec r (r.updateMetadata socket fun state =>
        { state with ownCloseCompletion := true }) inv.toAgreeing rfl rfl rfl rfl
      (fun e _ => showsSame_update rfl (by exact ⟨rfl, rfl⟩) e.raw) (idle_update rfl inv.idle (inv.idle socket))
    refine inv.reread agreeing rfl rfl (fun e _ => ?_) fun _ queued => queued
    have flags := @metadata_update Socket _ (fun s state => state.released = (r.metadata s).released ∧
      (state.closeDispatched = true → (r.metadata s).closeDispatched = true ∨
        .settle r.serial s true ∈ r.checkpoint)) r (r.updateMetadata socket fun state =>
          { state with ownCloseCompletion := true }) socket _ rfl (fun _ => ⟨rfl, Or.inl⟩) ⟨rfl, Or.inl⟩
    exact flags e.raw
  · exact inv.reread ⟨inv.agree, inv.distinct, inv.response, inv.sized, inv.idle⟩ rfl rfl
      (fun _ _ => ⟨rfl, Or.inl⟩) fun _ queued => List.mem_append_left _ queued

theorem Mirrored.enter {codec : Codec Value} {r : Registry Socket} (inv : Mirrored codec r) {raw : Socket}
    (here : r.acceptedHere raw = true) (isClose : Bool) : Mirrored codec (r.enter raw isClose) := by
  cases isClose with
  | false =>
    unfold Registry.enter
    simp only [Bool.false_eq_true, if_false, Bool.false_or]
    split
    · exact inv.reread ⟨inv.agree, inv.distinct, inv.response, inv.sized, inv.idle⟩ rfl rfl
        (fun _ _ => ⟨rfl, Or.inl⟩) fun _ queued => List.mem_append_left _ queued
    · exact inv
  | true =>
    have accepted : (r.metadata raw).accepted ≠ none := by
      intro unaccepted
      unfold acceptedHere at here
      rw [unaccepted] at here
      cases here
    have agreeing := @Agreeing.reread _ _ _ codec r (r.enter raw true) inv.toAgreeing rfl rfl rfl rfl
      (fun e _ => showsSame_update rfl (by exact ⟨rfl, rfl⟩) e.raw)
      (idle_update rfl inv.idle (fun unaccepted => absurd unaccepted accepted))
    have awaited : .settle r.serial raw true ∈ (r.enter raw true).checkpoint :=
      List.mem_append_right _ (List.mem_singleton_self _)
    refine inv.reread agreeing rfl rfl (fun e _ => ?_) fun _ queued => List.mem_append_left _ queued
    have flags := @metadata_update Socket _ (fun s state => state.released = (r.metadata s).released ∧
      (state.closeDispatched = true → (r.metadata s).closeDispatched = true ∨
        .settle r.serial s true ∈ (r.enter raw true).checkpoint)) r (r.enter raw true) raw _ rfl
      (fun _ => ⟨rfl, Or.inl⟩) ⟨rfl, fun _ => .inr awaited⟩
    exact flags e.raw

theorem completePending_others (r : Registry Socket) {socket s : Socket} (other : s ≠ socket) :
    (r.completePending socket).metadata s = r.metadata s := by
  unfold completePending
  split
  · exact Function.update_of_ne other ..
  · rfl

theorem completePending_checkpoint (r : Registry Socket) (socket : Socket) :
    (r.completePending socket).checkpoint = r.checkpoint := by
  unfold completePending
  split <;> rfl

theorem settle_others (r : Registry Socket) (registry : Nat) {raw s : Socket} (isClose : Bool) (other : s ≠ raw) :
    (r.settle registry raw isClose).metadata s = r.metadata s := by
  unfold Registry.settle
  rw [completePending_others _ other]
  split
  · rw [remove_metadata]
  · rfl

theorem settle_checkpoint (r : Registry Socket) (registry : Nat) (raw : Socket) (isClose : Bool) :
    (r.settle registry raw isClose).checkpoint = r.checkpoint := by
  unfold Registry.settle
  rw [completePending_checkpoint]
  split
  · exact remove_checkpoint r raw
  · rfl

/-- A close that an aborted context refuses takes the socket from the list and from the mirror. -/
theorem Mirrored.refuseClose {codec : Codec Value} {r : Registry Socket} (inv : Mirrored codec r) (raw : Socket) :
    Mirrored codec (r.settle r.serial raw true) := by
  have listed : ∀ e ∈ (r.settle r.serial raw true).entries, e ∈ r.entries ∧ e.raw ≠ raw := by
    intro e member
    rw [settle_entries, if_pos ⟨rfl, rfl⟩] at member
    obtain ⟨member, other⟩ := List.mem_filter.1 member
    exact ⟨member, by simpa using other⟩
  refine ⟨inv.toAgreeing.settle r.serial raw true, fun e member dispatched => ?_, fun e member => ?_⟩
  · obtain ⟨member, other⟩ := listed e member
    rw [settle_others r _ true other] at dispatched
    rw [settle_checkpoint, settle_serial]
    exact inv.closing e member dispatched
  · obtain ⟨member, other⟩ := listed e member
    rw [settle_others r _ true other]
    exact inv.unreleased e member

theorem Mirrored.setWebSocketAutoResponse {codec : Codec Value} {r next : Registry Socket} (inv : Mirrored codec r)
    {pair : Option HibernationAutoResponse} (ran : r.setWebSocketAutoResponse pair = .ok next) :
    Mirrored codec next := by
  cases pair with
  | none =>
    cases ran
    refine ⟨⟨inv.agree, inv.distinct, rfl, fun other present => ?_, inv.idle⟩, inv.closing, inv.unreleased⟩
    cases present
  | some pair =>
    obtain ⟨_, valid, same⟩ := (except_bind_ok ..).1 ran
    cases same
    refine ⟨⟨inv.agree, inv.distinct, rfl, fun other present => ?_, inv.idle⟩, inv.closing, inv.unreleased⟩
    cases present
    exact valid

theorem entryFor_some {r : Registry Socket} {socket : Socket} {entry : RegistryEntry Socket}
    (found : r.entryFor socket = some entry) : entry ∈ r.entries ∧ entry.raw = socket :=
  ⟨List.mem_of_find?_eq_some found, by simpa using List.find?_some found⟩

theorem entryFor_none {r : Registry Socket} {socket : Socket} (missing : r.entryFor socket = none) :
    ∀ e ∈ r.entries, e.raw ≠ socket := by
  intro e member
  simpa using List.find?_eq_none.1 missing e member

/-- The metadata of a socket that is not listed may change as it will. -/
theorem Mirrored.unlisted {codec : Codec Value} {r : Registry Socket} (inv : Mirrored codec r) {socket : Socket}
    (absent : ∀ e ∈ r.entries, e.raw ≠ socket) {f : SocketMetadata → SocketMetadata}
    (idle : Idle (f (r.metadata socket))) : Mirrored codec (r.updateMetadata socket f) := by
  have same : ∀ e ∈ r.entries, (r.updateMetadata socket f).metadata e.raw = r.metadata e.raw :=
    fun e member => Function.update_of_ne (absent e member) ..
  have agreeing := @Agreeing.reread _ _ _ codec r (r.updateMetadata socket f) inv.toAgreeing rfl rfl rfl rfl
    (fun e member => by rw [same e member]; exact ⟨rfl, rfl⟩) (idle_update rfl inv.idle idle)
  exact inv.reread agreeing rfl rfl (fun e member => by rw [same e member]; exact ⟨rfl, Or.inl⟩)
    fun _ queued => queued

theorem Mirrored.acceptClassic {codec : Codec Value} {r : Registry Socket} (inv : Mirrored codec r)
    (socket : Socket) : Mirrored codec (r.acceptClassic socket) := by
  unfold Registry.acceptClassic
  split
  · exact inv
  · rename_i unaccepted
    refine inv.unlisted (fun e member same => ?_) (fun unaccepted => by cases unaccepted)
    have accepted := inv.accepted_of_listed member
    rw [same] at accepted
    rw [accepted] at unaccepted
    exact unaccepted rfl

/-- An attachment reaches the mirror's entry of a listed socket. -/
theorem Mirrored.attached {codec : Codec Value} {r : Registry Socket} (inv : Mirrored codec r) (socket : Socket)
    (bytes : Bytes) : Mirrored codec { r.updateMetadata socket fun state => { state with attachment := some bytes } with
      host := r.host.update socket fun entry => { entry with attachment := some bytes } } := by
  have shown : ∀ s, ((r.updateMetadata socket fun state => { state with attachment := some bytes }).metadata s) =
      { r.metadata s with attachment := if s = socket then some bytes else (r.metadata s).attachment } := by
    intro s
    by_cases here : s = socket
    · rw [here, if_pos rfl]
      exact Function.update_self ..
    · rw [if_neg here]
      exact Function.update_of_ne here ..
  refine ⟨⟨?_, inv.distinct, inv.response, inv.sized, fun s => ?_⟩, fun e member dispatched => ?_, fun e member => ?_⟩
  · refine List.forall₂_map_right_iff.2 (inv.agree.imp fun e m related => ?_)
    have same := related.socket
    refine ⟨?_, ?_, ?_, ?_, ?_⟩
    · split <;> exact same
    · split <;> exact related.tags
    · split <;> exact related.stamped
    · rw [shown, same]
      by_cases here : e.raw = socket
      · rw [if_pos here, if_pos here]
      · rw [if_neg here, if_neg here]
        exact related.attached
    · rw [shown]
      exact related.accepted
  · rw [shown]
    exact inv.idle s
  · rw [shown] at dispatched
    exact inv.closing e member dispatched
  · rw [shown]
    exact inv.unreleased e member

theorem Mirrored.serializeAttachment {codec : Codec Value} {r : Registry Socket} (inv : Mirrored codec r)
    (socket : Socket) (value : Value) : Mirrored codec (r.serializeAttachment codec socket value).1 := by
  unfold Registry.serializeAttachment
  cases codec.attachmentBytes value with
  | error failure => exact inv
  | ok bytes =>
    have unlisted : (∀ e ∈ r.entries, e.raw ≠ socket) → Mirrored codec
        (r.updateMetadata socket fun state => { state with attachment := some bytes }) :=
      fun absent => inv.unlisted absent (inv.idle socket)
    have listed : ∀ e ∈ r.entries, e.raw = socket →
        ∃ tags, (r.metadata socket).accepted = some (.hibernatable r.serial tags) :=
      fun e member same => ⟨e.tags, same ▸ inv.accepted_of_listed member⟩
    simp only
    split
    · rename_i registry tags accepted
      split
      · unfold attachmentChanged
        split
        · rename_i missing
          exact unlisted (entryFor_none missing)
        · rename_i entry found
          obtain ⟨member, same⟩ := entryFor_some found
          have there := inv.has_of_listed member
          simp only [HibernationMirror.attachment, updateMetadata, there, if_true]
          rw [same]
          exact inv.attached socket bytes
      · rename_i other
        refine unlisted fun e member same => other ?_
        obtain ⟨_, accepted'⟩ := listed e member same
        rw [accepted] at accepted'
        cases accepted'
        rfl
    · rename_i other
      refine unlisted fun e member same => ?_
      obtain ⟨tags, accepted⟩ := listed e member same
      exact other r.serial tags accepted

theorem Mirrored.receiveText {codec : Codec Value} {r : Registry Socket} (inv : Mirrored codec r)
    (socket : Socket) (data : JsString) (now : Int) : Mirrored codec (r.receiveText socket data now).1 := by
  unfold Registry.receiveText
  split
  · exact inv
  · rename_i entry found
    split
    · obtain ⟨member, _⟩ := entryFor_some found
      simp only [HibernationMirror.autoResponseTimestamp, inv.has_of_listed member, if_true]
      have raws : (r.entries.map fun e => if e.raw = entry.raw then { e with autoResponseTimestamp := some now } else e).map
          RegistryEntry.raw = r.entries.map RegistryEntry.raw := by
        rw [List.map_map]
        refine List.map_congr_left fun e _ => ?_
        by_cases here : e.raw = entry.raw <;> simp [here]
      have listed : ∀ e ∈ r.entries.map fun e =>
          if e.raw = entry.raw then { e with autoResponseTimestamp := some now } else e,
          ∃ e' ∈ r.entries, e'.raw = e.raw := by
        intro e member
        have raw : e.raw ∈ r.entries.map RegistryEntry.raw := raws ▸ List.mem_map.2 ⟨e, member, rfl⟩
        exact List.mem_map.1 raw
      refine ⟨⟨?_, ?_, inv.response, inv.sized, inv.idle⟩, fun e member dispatched => ?_, fun e member => ?_⟩
      · refine List.forall₂_map_left_iff.2 (List.forall₂_map_right_iff.2 (inv.agree.imp fun e m related => ?_))
        rw [related.socket]
        by_cases here : e.raw = entry.raw
        · rw [if_pos here, if_pos here]
          exact ⟨related.socket, related.tags, rfl, related.attached, related.accepted⟩
        · rw [if_neg here, if_neg here]
          exact related
      · exact raws.symm ▸ inv.distinct
      · obtain ⟨e', member, same⟩ := listed e member
        rw [← same] at dispatched ⊢
        exact inv.closing e' member dispatched
      · obtain ⟨e', member, same⟩ := listed e member
        rw [← same]
        exact inv.unreleased e' member
    · exact inv

end Agreement

end Registry

end DoRuntime.WebSockets
