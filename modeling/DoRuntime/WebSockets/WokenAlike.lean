import DoRuntime.WebSockets.Eviction

namespace DoRuntime.WebSockets

open Js

def RehydratedWebSocket.rename {Socket Socket' : Type} (ρ : Socket → Socket') (value : RehydratedWebSocket Socket) :
    RehydratedWebSocket Socket' where
  socket := ρ value.socket
  tags := value.tags
  attachment := value.attachment
  autoResponseTimestamp := value.autoResponseTimestamp

def RegistryEntry.rename {Socket Socket' : Type} (ρ : Socket → Socket') (e : RegistryEntry Socket) :
    RegistryEntry Socket' where
  raw := ρ e.raw
  tags := e.tags
  autoResponseTimestamp := e.autoResponseTimestamp

namespace Registry

variable {Socket Socket' Value : Type} [DecidableEq Socket] [DecidableEq Socket']

/-- The registry of a fresh realm, built from what the mirror hands out. -/
def wake (ρ : Socket → Socket') (mirror : HibernationMirror Socket) : Except JsError (Registry Socket') :=
  let host := HibernationMirror.create (mirror.snapshot.map (RehydratedWebSocket.rename ρ)) mirror.autoResponsePair
  create (fun _ => {}) 0 [] host host.snapshot

/-- The two registries show the same, where `ρ` takes a socket of the old realm to the one of the fresh realm. -/
structure Alike (codec : Codec Value) (ρ : Socket → Socket') (old : Registry Socket) (fresh : Registry Socket') :
    Prop where
  order : fresh.getWebSockets none = (old.getWebSockets none).map ρ
  tagged : ∀ tag, fresh.getWebSockets (some tag) = (old.getWebSockets (some tag)).map ρ
  tags : ∀ s ∈ old.getWebSockets none, fresh.getTags (ρ s) = old.getTags s
  attachment : ∀ s ∈ old.getWebSockets none,
    fresh.deserializeAttachment codec (ρ s) = old.deserializeAttachment codec s
  stamped : ∀ s ∈ old.getWebSockets none,
    fresh.getWebSocketAutoResponseTimestamp (ρ s) = old.getWebSocketAutoResponseTimestamp s
  autoResponse : fresh.getWebSocketAutoResponse = old.getWebSocketAutoResponse

/-- Nothing of the registry is lost when its realm is evicted. -/
def Survives (codec : Codec Value) (ρ : Socket → Socket') (r : Registry Socket) : Prop :=
  ∃ fresh, wake ρ r.host = .ok fresh ∧ Alike codec ρ r fresh

/-- What `acceptWebSocket` checks. -/
def Acceptable (r : Registry Socket) (socket : Socket) (tags : Option (List JsString)) (refused : Option JsError) :
    Prop :=
  (r.metadata socket).accepted = none ∧ r.entries.length < maxHibernatableSockets ∧
    (∃ normalized, normalizeTags tags = .ok normalized) ∧ refused = none

/-- A socket that is accepted holds no attachment yet, or one that reads as if there were none. -/
def Lossless (codec : Codec Value) (r : Registry Socket) : Event Socket Value → Prop
  | .acceptWebSocket socket tags refused =>
    r.Acceptable socket tags refused → r.deserializeAttachment codec socket = .ok codec.null
  | _ => True

def boot (rehydrated : List (RehydratedWebSocket Socket)) (autoResponsePair : Option HibernationAutoResponse) :
    Except JsError (Registry Socket) :=
  let mirror := HibernationMirror.create rehydrated autoResponsePair
  create (fun _ => {}) 0 [] mirror mirror.snapshot

def afterAccept (r : Registry Socket) (socket : Socket) (normalized : List JsString) : Registry Socket :=
  { r.updateMetadata socket fun state => { state with accepted := some (.hibernatable r.serial normalized) } with
    entries := r.entries ++ [⟨socket, normalized, none⟩]
    host := r.host.accepted socket normalized }

theorem acceptWebSocket_acceptable {r : Registry Socket} {socket : Socket} {tags : Option (List JsString)}
    {refused : Option JsError} {normalized : List JsString} (acceptable : r.Acceptable socket tags refused)
    (normal : normalizeTags tags = .ok normalized) :
    (r.acceptWebSocket socket tags refused).1 = r.afterAccept socket normalized := by
  obtain ⟨unaccepted, room, _, unrefused⟩ := acceptable
  unfold Registry.acceptWebSocket
  rw [if_neg (by rw [unaccepted]; decide), if_neg (by omega), normal, unrefused]
  rfl

theorem acceptWebSocket_refused {r : Registry Socket} {socket : Socket} {tags : Option (List JsString)}
    {refused : Option JsError} (unacceptable : ¬ r.Acceptable socket tags refused) :
    (r.acceptWebSocket socket tags refused).1 = r := by
  unfold Registry.acceptWebSocket
  split
  · rfl
  · rename_i unaccepted
    split
    · rfl
    · rename_i room
      cases normal : normalizeTags tags with
      | error failure => rfl
      | ok normalized =>
        cases refusal : refused with
        | some failure => rfl
        | none =>
          refine absurd ⟨?_, by omega, ⟨normalized, normal⟩, refusal⟩ unacceptable
          simpa using unaccepted

/-- Where an accepted socket was not listed, its mirror's entry comes last. -/
theorem accepted_entries {codec : Codec Value} {r : Registry Socket} (inv : Agreeing codec r) {socket : Socket}
    (unaccepted : (r.metadata socket).accepted = none) (normalized : List JsString) :
    (r.host.accepted socket normalized).entries = r.host.entries ++ [⟨socket, normalized, none, none⟩] := by
  refine HibernationMirror.set_absent fun member => ?_
  rw [inv.sockets_eq] at member
  obtain ⟨e, listed, same⟩ := List.mem_map.1 member
  have accepted := inv.accepted_of_listed listed
  rw [same, unaccepted] at accepted
  cases accepted

theorem Mirrored.afterAccept {codec : Codec Value} {r : Registry Socket} (inv : Mirrored codec r) {socket : Socket}
    (unaccepted : (r.metadata socket).accepted = none) {tags : Option (List JsString)} {normalized : List JsString}
    (normal : normalizeTags tags = .ok normalized)
    (blank : r.deserializeAttachment codec socket = .ok codec.null) :
    Mirrored codec (r.afterAccept socket normalized) := by
  have absent : ∀ e ∈ r.entries, e.raw ≠ socket := by
    intro e member same
    have accepted := inv.accepted_of_listed member
    rw [same, unaccepted] at accepted
    cases accepted
  have here : (r.afterAccept socket normalized).metadata socket =
      { r.metadata socket with accepted := some (.hibernatable r.serial normalized) } := Function.update_self ..
  have others : ∀ e ∈ r.entries, (r.afterAccept socket normalized).metadata e.raw = r.metadata e.raw :=
    fun e member => Function.update_of_ne (absent e member) ..
  have idle := inv.idle socket unaccepted
  refine ⟨⟨?_, ?_, inv.response, inv.sized, ?_⟩, fun e member dispatched => ?_, fun e member => ?_⟩
  · have both := (List.forall₂_and_left (p := fun e => e ∈ r.entries) _ _).2 ⟨fun _ member => member, inv.agree⟩
    have before : List.Forall₂ (Agrees codec r.serial (r.afterAccept socket normalized).metadata) r.entries
        r.host.entries := by
      refine both.imp fun e m related => ?_
      obtain ⟨member, related⟩ := related
      refine ⟨related.socket, related.tags, related.stamped, ?_, ?_⟩
      · rw [others e member]
        exact related.attached
      · rw [others e member]
        exact related.accepted
    rw [show (r.afterAccept socket normalized).host.entries = _ from accepted_entries inv.toAgreeing unaccepted normalized]
    refine List.rel_append before (.cons ⟨rfl, normalizeTags_again normal, rfl, ?_, ?_⟩ .nil)
    · rw [here]
      exact blank.symm
    · rw [here]
  · rw [show (r.afterAccept socket normalized).entries = r.entries ++ [⟨socket, normalized, none⟩] from rfl,
      List.map_append, List.nodup_append]
    refine ⟨inv.distinct, List.nodup_singleton _, fun s member last same other => ?_⟩
    obtain ⟨e, listed, raw⟩ := List.mem_map.1 member
    exact absent e listed (raw.trans (other.trans (List.mem_singleton.1 same)))
  · exact idle_update rfl inv.idle (fun none => by cases none)
  · rcases List.mem_append.1 member with member | last
    · rw [others e member] at dispatched
      exact inv.closing e member dispatched
    · rw [List.mem_singleton.1 last, here] at dispatched
      exact absurd (dispatched.symm.trans idle.1) (by decide)
  · rcases List.mem_append.1 member with member | last
    · rw [others e member]
      exact inv.unreleased e member
    · rw [List.mem_singleton.1 last, here]
      exact idle.2

theorem clone_again (entries : List (MirroredWebSocket Socket)) :
    (entries.map MirroredWebSocket.clone).map cloneEntry = entries := by
  rw [List.map_map]
  exact List.map_id'' (fun _ => rfl) _

/-- A mirror seeded from another holds what that one held. -/
theorem create_snapshot (mirror : HibernationMirror Socket)
    (distinct : (HibernationMirror.sockets mirror.entries).Nodup) :
    HibernationMirror.create mirror.snapshot mirror.autoResponsePair = mirror := by
  have entries := HibernationMirror.create_entries mirror.snapshot mirror.autoResponsePair
    (by rw [HibernationMirror.snapshot, List.map_map]; exact distinct)
  rw [HibernationMirror.snapshot, clone_again] at entries
  obtain ⟨_, _⟩ := mirror
  simp only [HibernationMirror.create] at entries ⊢
  rw [HibernationMirror.snapshot, entries]

theorem Mirrored.replacement {codec : Codec Value} {r next : Registry Socket} (inv : Mirrored codec r)
    {freshRealm : Bool} (ran : r.replacement freshRealm = .ok next) : Mirrored codec next := by
  have wakeable := inv.wakeable
  unfold Registry.replacement at ran
  simp only [create_snapshot _ wakeable.distinct] at ran
  have fresh : ∀ s : Socket, Idle ((fun _ => {} : Socket → SocketMetadata) s) := fun _ _ => ⟨rfl, rfl⟩
  cases freshRealm with
  | true =>
    obtain ⟨woken, made, awake⟩ := create_woken wakeable (fun _ => {}) (r.serial + 1) []
    cases made.symm.trans ran
    refine awake.mirrored wakeable (fun m _ => ?_) fresh
    cases m.attachment <;> rfl
  | false =>
    obtain ⟨woken, made, awake⟩ := create_woken wakeable r.metadata (r.serial + 1) r.checkpoint
    cases made.symm.trans ran
    refine awake.mirrored wakeable (fun m member => ?_) inv.idle
    obtain ⟨e, _, related⟩ := forall₂_partner inv.agree.flip m member
    cases own : m.attachment with
    | some bytes => rfl
    | none =>
      have read := related.attached
      rw [own] at read
      rw [related.socket]
      exact read.symm

theorem boot_mirrored (codec : Codec Value) {rehydrated : List (RehydratedWebSocket Socket)}
    {autoResponsePair : Option HibernationAutoResponse} {r : Registry Socket}
    (booted : boot rehydrated autoResponsePair = .ok r) : Mirrored codec r := by
  have wakeable := create_wakeable (HibernationMirror.create_distinct rehydrated autoResponsePair) booted
  obtain ⟨woken, made, awake⟩ := create_woken wakeable (fun _ => {}) 0 []
  cases made.symm.trans booted
  refine awake.mirrored wakeable (fun m _ => ?_) fun _ _ => ⟨rfl, rfl⟩
  cases m.attachment <;> rfl

theorem step_mirrored {codec : Codec Value} {r t : Registry Socket} (inv : Mirrored codec r) {e : Event Socket Value}
    (lossless : Lossless codec r e) (stepped : step codec r e = some t) : Mirrored codec t := by
  cases e with
  | acceptWebSocket socket tags refused =>
    cases stepped
    by_cases acceptable : r.Acceptable socket tags refused
    · have blank := lossless acceptable
      obtain ⟨unaccepted, _, ⟨normalized, normal⟩, _⟩ := id acceptable
      rw [acceptWebSocket_acceptable acceptable normal]
      exact inv.afterAccept unaccepted normal blank
    · rw [acceptWebSocket_refused acceptable]
      exact inv
  | acceptClassic socket =>
    cases stepped
    exact inv.acceptClassic socket
  | serializeAttachment socket value =>
    cases stepped
    exact inv.serializeAttachment socket value
  | setWebSocketAutoResponse pair =>
    cases stepped
    cases ran : r.setWebSocketAutoResponse pair with
    | error failure => exact inv
    | ok next => exact inv.setWebSocketAutoResponse ran
  | receiveText socket data now =>
    cases stepped
    exact inv.receiveText socket data now
  | enter raw isClose =>
    obtain ⟨here, stepped⟩ := Option.ite_none_right_eq_some.1 stepped
    cases stepped
    exact inv.enter here isClose
  | refuseClose raw =>
    obtain ⟨_, stepped⟩ := Option.ite_none_right_eq_some.1 stepped
    cases stepped
    exact inv.refuseClose raw
  | ownCloseWritten socket pair =>
    cases stepped
    exact inv.ownCloseWritten socket pair
  | drainCheckpoint =>
    cases stepped
    exact inv.drainCheckpoint
  | replace freshRealm =>
    cases stepped
    cases ran : r.replacement freshRealm with
    | error failure => exact inv
    | ok next => exact inv.replacement ran

def renamed (ρ : Socket → Socket') (m : MirroredWebSocket Socket) : MirroredWebSocket Socket' where
  socket := ρ m.socket
  tags := m.tags
  attachment := m.attachment
  autoResponseTimestamp := m.autoResponseTimestamp

/-- The mirror that the fresh realm is given. -/
theorem woken_mirror (ρ : Socket ↪ Socket') {mirror : HibernationMirror Socket}
    (distinct : (HibernationMirror.sockets mirror.entries).Nodup) :
    HibernationMirror.create (mirror.snapshot.map (RehydratedWebSocket.rename ρ)) mirror.autoResponsePair =
      ⟨mirror.entries.map (renamed ρ), mirror.autoResponsePair⟩ := by
  have copied : mirror.snapshot.map (RehydratedWebSocket.rename ρ) =
      (mirror.entries.map (renamed ρ)).map MirroredWebSocket.clone := by
    rw [HibernationMirror.snapshot, List.map_map, List.map_map]
    rfl
  have different : (HibernationMirror.sockets (mirror.entries.map (renamed ρ))).Nodup := by
    have images := distinct.map ρ.injective
    rw [HibernationMirror.sockets, List.map_map] at images ⊢
    exact images
  rw [copied]
  exact create_snapshot ⟨mirror.entries.map (renamed ρ), mirror.autoResponsePair⟩ different

theorem wake_eq (ρ : Socket ↪ Socket') {mirror : HibernationMirror Socket} (wakeable : Wakeable mirror) :
    ∃ fresh, wake ρ mirror = .ok fresh ∧ Woken (answering (fun _ => {}) 0 []
      ⟨mirror.entries.map (renamed ρ), mirror.autoResponsePair⟩) (mirror.entries.map (renamed ρ)) fresh := by
  have there : Wakeable (⟨mirror.entries.map (renamed ρ), mirror.autoResponsePair⟩ : HibernationMirror Socket') := by
    refine ⟨?_, fun m member => ?_, wakeable.sized⟩
    · have images := wakeable.distinct.map ρ.injective
      rw [HibernationMirror.sockets, List.map_map] at images ⊢
      exact images
    · obtain ⟨m', member, same⟩ := List.mem_map.1 member
      rw [← same]
      exact wakeable.normal m' member
  unfold wake
  simp only [woken_mirror ρ wakeable.distinct]
  exact create_woken there (fun _ => {}) 0 []

theorem getWebSocketAutoResponseTimestamp_rename {ρ : Socket ↪ Socket'} {old : Registry Socket}
    {fresh : Registry Socket'} (same : fresh.entries = old.entries.map (RegistryEntry.rename ρ)) (s : Socket) :
    fresh.getWebSocketAutoResponseTimestamp (ρ s) = old.getWebSocketAutoResponseTimestamp s := by
  unfold getWebSocketAutoResponseTimestamp entryFor
  rw [same, List.find?_map]
  have test : ((fun entry : RegistryEntry Socket' => decide (entry.raw = ρ s)) ∘ RegistryEntry.rename ρ) =
      fun entry => decide (entry.raw = s) := by
    funext entry
    exact decide_eq_decide.2 ρ.injective.eq_iff
  rw [test]
  cases old.entries.find? fun entry => decide (entry.raw = s) <;> rfl

theorem Mirrored.survives {codec : Codec Value} {r : Registry Socket} (inv : Mirrored codec r) (ρ : Socket ↪ Socket') :
    Survives codec ρ r := by
  obtain ⟨fresh, woke, awake⟩ := wake_eq ρ inv.wakeable
  have entries : fresh.entries = r.entries.map (RegistryEntry.rename ρ) := by
    rw [awake.entries]
    refine (List.nil_append _).trans ?_
    rw [List.map_map]
    refine forall₂_map_eq inv.agree fun e m related => ?_
    have tags := entryOf_tags (m := renamed ρ m) related.tags
    unfold entryOf at tags
    simp only [Function.comp, entryOf, renamed, RegistryEntry.rename, related.socket, related.stamped] at tags ⊢
    rw [tags]
  have raws : fresh.entries.map RegistryEntry.raw = (r.entries.map RegistryEntry.raw).map ρ := by
    rw [entries, List.map_map, List.map_map]
    rfl
  have listed : ∀ s ∈ r.getWebSockets none, ∃ e ∈ r.entries, e.raw = s ∧ ∃ m,
      Agrees codec r.serial r.metadata e m ∧ fresh.metadata (ρ s) =
        { accepted := some (.hibernatable 0 e.tags), attachment := m.attachment } := by
    intro s member
    obtain ⟨e, member, same⟩ := List.mem_map.1 (List.mem_reverse.1 member)
    obtain ⟨m, mirrored, related⟩ := forall₂_partner inv.agree e member
    refine ⟨e, member, same, m, related, ?_⟩
    have data := awake.listed (renamed ρ m) (List.mem_map.2 ⟨m, mirrored, rfl⟩)
    rw [entryOf_tags (m := renamed ρ m) related.tags] at data
    rw [← same, ← related.socket]
    refine data.trans ?_
    cases own : m.attachment <;> simp [renamed, own, answering]
  refine ⟨fresh, woke, ?_, fun tag => ?_, fun s member => ?_, fun s member => ?_, fun s _ => ?_, ?_⟩
  · unfold getWebSockets
    rw [raws, List.map_reverse]
  · simp only [getWebSockets, entries, List.filter_map, List.map_map]
    rfl
  · obtain ⟨e, member, same, m, related, data⟩ := listed s member
    have kept : r.getTags s = .ok e.tags := by
      rw [← same]
      simp only [getTags, inv.unreleased e member, related.accepted]
      rfl
    rw [kept]
    simp only [getTags, data]
    rfl
  · obtain ⟨e, _, same, m, related, data⟩ := listed s member
    unfold deserializeAttachment
    rw [data, ← same]
    exact related.attached
  · exact getWebSocketAutoResponseTimestamp_rename entries s
  · exact awake.autoResponse.trans inv.response.symm

/-- The mirror is told nothing of an attachment that a socket brings. -/
theorem accepted_attachment_lost {codec : Codec Value} {r : Registry Socket} (inv : Mirrored codec r)
    (ρ : Socket ↪ Socket') {socket : Socket} {tags : Option (List JsString)} {refused : Option JsError}
    (acceptable : r.Acceptable socket tags refused)
    (survives : Survives codec ρ (r.acceptWebSocket socket tags refused).1) :
    r.deserializeAttachment codec socket = .ok codec.null := by
  obtain ⟨unaccepted, _, ⟨normalized, normal⟩, _⟩ := id acceptable
  rw [acceptWebSocket_acceptable acceptable normal] at survives
  obtain ⟨fresh, woke, alike⟩ := survives
  have grown := accepted_entries inv.toAgreeing unaccepted normalized
  have wakeable : Wakeable (r.host.accepted socket normalized) := by
    refine ⟨HibernationMirror.set_distinct _ inv.wakeable.distinct, fun m member => ?_, inv.wakeable.sized⟩
    rw [grown] at member
    rcases List.mem_append.1 member with member | last
    · exact inv.wakeable.normal m member
    · rw [List.mem_singleton.1 last]
      exact ⟨normalized, normalizeTags_again normal⟩
  obtain ⟨fresh', woke', awake⟩ := wake_eq ρ wakeable
  cases woke.symm.trans woke'
  have data := awake.listed (renamed ρ ⟨socket, normalized, none, none⟩) (by rw [grown]; simp)
  have listed : socket ∈ (r.afterAccept socket normalized).getWebSockets none := by
    unfold getWebSockets afterAccept
    simp
  have read := alike.attachment socket listed
  have kept : (r.afterAccept socket normalized).deserializeAttachment codec socket =
      r.deserializeAttachment codec socket := by
    unfold deserializeAttachment afterAccept updateMetadata
    simp only [Function.update_self]
  rw [← kept, ← read]
  unfold deserializeAttachment
  rw [show fresh.metadata (ρ socket) = _ from data]
  rfl

/-- A run keeps every socket's state through an eviction exactly as long as no socket is accepted with an
attachment. -/
theorem survives_iff_lossless (codec : Codec Value) (ρ : Socket ↪ Socket')
    (rehydrated : List (RehydratedWebSocket Socket)) (autoResponsePair : Option HibernationAutoResponse)
    (start r : Registry Socket) (booted : boot rehydrated autoResponsePair = .ok start)
    (reached : Transition.Reaches (step codec) (Lossless codec) start r) :
    Survives codec ρ r ∧
      ∀ e t, step codec r e = some t → (Survives codec ρ t ↔ Lossless codec r e) := by
  have inv := reached.invariant (boot_mirrored codec booted) fun _ _ _ before admitted stepped =>
    step_mirrored before admitted stepped
  refine ⟨inv.survives ρ, fun e t stepped => ⟨fun survives => ?_, fun lossless => ?_⟩⟩
  · cases e with
    | acceptWebSocket socket tags refused =>
      cases stepped
      exact fun acceptable => accepted_attachment_lost inv ρ acceptable survives
    | _ => trivial
  · exact (step_mirrored inv lossless stepped).survives ρ

/-- Numbers of one byte, where 0 is the value of no attachment. -/
def byteCodec : Codec Nat where
  structuredClone _ := .ok ()
  serializeValue n := .ok [n]
  deserializeValue bytes := .ok (bytes.headD 0)
  stringOf _ := none
  null := 0

def emptyRegistry : Registry Nat := ⟨0, fun _ => {}, ⟨[], none⟩, [], none, []⟩

def acceptedWithTag : Registry Nat := emptyRegistry.afterAccept 1 [js "room"]

theorem survives_iff_lossless_accepted :
    Survives byteCodec (Function.Embedding.refl Nat) acceptedWithTag ∧
      ∀ e t, step byteCodec acceptedWithTag e = some t →
        (Survives byteCodec (Function.Embedding.refl Nat) t ↔ Lossless byteCodec acceptedWithTag e) := by
  have ran : Transition.Reaches (step byteCodec) (Lossless byteCodec) emptyRegistry acceptedWithTag := by
    refine Relation.ReflTransGen.single ⟨.acceptWebSocket 1 (some [js "room"]) none, fun _ => rfl, ?_⟩
    exact congrArg some (acceptWebSocket_acceptable ⟨rfl, by decide, ⟨[js "room"], by rfl⟩, rfl⟩ rfl)
  exact survives_iff_lossless byteCodec (Function.Embedding.refl Nat) [] none emptyRegistry acceptedWithTag rfl ran

/-- A socket that is given an attachment and accepted afterwards comes back without it. -/
theorem early_attachment_lost :
    ∃ r : Registry Nat, Transition.run (step byteCodec) emptyRegistry
        [.serializeAttachment 1 7, .acceptWebSocket 1 (some [js "room"]) none] = some r ∧
      boot [] none = .ok emptyRegistry ∧ ¬ Survives byteCodec (Function.Embedding.refl Nat) r := by
  have inv := (boot_mirrored byteCodec (show boot [] none = .ok emptyRegistry from rfl)).serializeAttachment
    1 7
  refine ⟨_, rfl, rfl, fun survives => ?_⟩
  have blank := accepted_attachment_lost inv (Function.Embedding.refl Nat)
    ⟨rfl, by decide, ⟨[js "room"], by rfl⟩, rfl⟩ survives
  cases blank

end Registry

end DoRuntime.WebSockets
