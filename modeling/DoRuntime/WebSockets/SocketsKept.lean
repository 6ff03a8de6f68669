import DoRuntime.WebSockets.HibernationMirror

namespace DoRuntime.WebSockets

open Js

theorem eraseDups_distinct {α : Type} [BEq α] [LawfulBEq α] : ∀ {xs : List α}, xs.Nodup → xs.eraseDups = xs
  | [], _ => rfl
  | x :: xs, distinct => by
    obtain ⟨absent, rest⟩ := List.nodup_cons.1 distinct
    have others : xs.filter (fun y => !y == x) = xs := by
      refine List.filter_eq_self.2 fun y member => ?_
      simp only [Bool.not_eq_true', beq_eq_false_iff_ne]
      intro same
      exact absent (same ▸ member)
    rw [List.eraseDups_cons, others, eraseDups_distinct rest]

theorem eraseDups_spec {α : Type} [BEq α] [LawfulBEq α] (n : Nat) : ∀ xs : List α, xs.length ≤ n →
    xs.eraseDups.Nodup ∧ xs.eraseDups.length ≤ xs.length := by
  induction n with
  | zero =>
    intro xs short
    rw [List.length_eq_zero_iff.1 (Nat.le_zero.1 short)]
    simp
  | succ n ih =>
    intro xs short
    cases xs with
    | nil => simp
    | cons x xs =>
      have shorter := List.length_filter_le (fun y => !y == x) xs
      obtain ⟨distinct, bound⟩ := ih (xs.filter fun y => !y == x) (by simp at short; omega)
      rw [List.eraseDups_cons]
      constructor
      · refine List.nodup_cons.2 ⟨fun member => ?_, distinct⟩
        simp [List.mem_eraseDups] at member
      · simp only [List.length_cons]
        omega

theorem normalizeTags_some_iff {tags normalized : List JsString} :
    normalizeTags (some tags) = .ok normalized ↔
      tags.length ≤ maxTags ∧ (∀ tag ∈ tags.eraseDups, checkTag tag = .ok ()) ∧ tags.eraseDups = normalized := by
  rw [← forM_ok_iff, normalizeTags]
  by_cases many : maxTags < tags.length
  · rw [if_pos many]
    constructor
    · intro failed
      cases failed
    · intro few
      omega
  · rw [if_neg many, except_bind_ok]
    constructor
    · intro passed
      obtain ⟨_, checked, same⟩ := passed
      exact ⟨by omega, checked, by cases same; rfl⟩
    · intro passed
      obtain ⟨_, checked, same⟩ := passed
      exact ⟨(), checked, by rw [same]; rfl⟩

/-- Tags that were normalized once are their own normal form. -/
theorem normalizeTags_again {tags : Option (List JsString)} {normalized : List JsString}
    (ok : normalizeTags tags = .ok normalized) : normalizeTags (some normalized) = .ok normalized := by
  cases tags with
  | none =>
    have empty : normalized = [] := by
      cases ok
      rfl
    rw [empty]
    exact normalizeTags_some_iff.2 ⟨by simp, by simp, rfl⟩
  | some tags =>
    obtain ⟨few, checked, same⟩ := normalizeTags_some_iff.1 ok
    obtain ⟨distinct, bound⟩ := eraseDups_spec _ tags le_rfl
    rw [← same]
    have again := eraseDups_distinct distinct
    refine normalizeTags_some_iff.2 ⟨by omega, ?_, again⟩
    rw [again]
    exact checked

namespace HibernationMirror

variable {Socket : Type} [DecidableEq Socket]

def sockets (entries : List (MirroredWebSocket Socket)) : List Socket := entries.map MirroredWebSocket.socket

theorem set_absent {entries : List (MirroredWebSocket Socket)} {entry : MirroredWebSocket Socket}
    (absent : entry.socket ∉ sockets entries) : set entries entry = entries ++ [entry] := by
  unfold set
  rw [if_neg]
  simp only [List.any_eq_true, decide_eq_true_eq, not_exists, not_and]
  intro e member same
  exact absent (List.mem_map.2 ⟨e, member, same⟩)

theorem set_distinct {entries : List (MirroredWebSocket Socket)} (entry : MirroredWebSocket Socket)
    (distinct : (sockets entries).Nodup) : (sockets (set entries entry)).Nodup := by
  by_cases present : entry.socket ∈ sockets entries
  · have there : (entries.any fun e => e.socket = entry.socket) = true := by
      obtain ⟨e, member, same⟩ := List.mem_map.1 present
      exact List.any_eq_true.2 ⟨e, member, by simpa using same⟩
    have kept : sockets (set entries entry) = sockets entries := by
      unfold set sockets
      rw [if_pos there, List.map_map]
      refine List.map_congr_left fun e _ => ?_
      by_cases same : e.socket = entry.socket <;> simp [same]
    rw [kept]
    exact distinct
  · rw [set_absent present, sockets, List.map_append, List.map_singleton]
    exact List.nodup_append.2 ⟨distinct, List.nodup_singleton _, by
      intro socket member other last same
      rw [List.mem_singleton] at last
      exact present (last ▸ same ▸ member)⟩

theorem create_distinct (rehydrated : List (RehydratedWebSocket Socket)) (pair : Option HibernationAutoResponse) :
    (sockets (create rehydrated pair).entries).Nodup := by
  have folded : ∀ entries : List (MirroredWebSocket Socket), (sockets entries).Nodup →
      (sockets (rehydrated.foldl (fun entries value => set entries (cloneEntry value)) entries)).Nodup := by
    induction rehydrated with
    | nil => exact fun _ distinct => distinct
    | cons value rest ih => exact fun entries distinct => ih _ (set_distinct _ distinct)
  exact folded [] List.nodup_nil

/-- A mirror seeded with entries of different sockets holds exactly those. -/
theorem create_entries (rehydrated : List (RehydratedWebSocket Socket)) (pair : Option HibernationAutoResponse)
    (distinct : (rehydrated.map RehydratedWebSocket.socket).Nodup) :
    (create rehydrated pair).entries = rehydrated.map cloneEntry := by
  have folded : ∀ entries : List (MirroredWebSocket Socket),
      (sockets entries ++ rehydrated.map RehydratedWebSocket.socket).Nodup →
      rehydrated.foldl (fun entries value => set entries (cloneEntry value)) entries =
        entries ++ rehydrated.map cloneEntry := by
    clear distinct
    induction rehydrated with
    | nil => simp
    | cons value rest ih =>
      intro entries distinct
      have absent : (cloneEntry value).socket ∉ sockets entries := by
        intro member
        exact (List.nodup_append.1 distinct).2.2 _ member _ (List.mem_cons_self ..) rfl
      rw [List.foldl_cons, set_absent absent, ih]
      · simp
      · simpa [sockets, cloneEntry] using distinct
  exact (folded [] (by simpa [sockets] using distinct)).trans (List.nil_append _)

end HibernationMirror

namespace Registry

section Rehydration

variable {Socket : Type} [DecidableEq Socket]

/-- The entry that a mirrored socket comes back as. -/
def entryOf (m : MirroredWebSocket Socket) : RegistryEntry Socket where
  raw := m.socket
  tags := (normalizeTags (some m.tags)).toOption.getD []
  autoResponseTimestamp := m.autoResponseTimestamp

theorem entryOf_tags {m : MirroredWebSocket Socket} {tags : List JsString}
    (normal : normalizeTags (some m.tags) = .ok tags) : (entryOf m).tags = tags := by
  unfold entryOf
  rw [normal]
  rfl

/-- `woken` is `r` after the mirrored sockets `ms` were rehydrated. -/
structure Woken (r : Registry Socket) (ms : List (MirroredWebSocket Socket))
    (woken : Registry Socket) : Prop where
  serial : woken.serial = r.serial
  host : woken.host = r.host
  autoResponse : woken.autoResponse = r.autoResponse
  checkpoint : woken.checkpoint = r.checkpoint
  entries : woken.entries = r.entries ++ ms.map entryOf
  others : ∀ s, s ∉ HibernationMirror.sockets ms → woken.metadata s = r.metadata s
  listed : ∀ m ∈ ms, woken.metadata m.socket =
    { accepted := some (.hibernatable r.serial (entryOf m).tags)
      attachment := m.attachment <|> (r.metadata m.socket).attachment }

theorem rehydrate_ok (r : Registry Socket) {m : MirroredWebSocket Socket}
    {tags : List JsString} (normal : normalizeTags (some m.tags) = .ok tags) :
    ∃ woken, rehydrate r m.clone = .ok woken ∧ Woken r [m] woken := by
  have same := entryOf_tags normal
  refine ⟨_, except_bind_ok .. |>.2 ⟨tags, normal, rfl⟩, rfl, rfl, rfl, rfl, ?_, ?_, ?_⟩
  · simp only [List.map_singleton]
    rw [← same]
    rfl
  · intro s other
    exact Function.update_of_ne (fun equal => other (by simp [HibernationMirror.sockets, equal, MirroredWebSocket.clone])) ..
  · intro m' member
    rw [List.mem_singleton] at member
    subst member
    rw [same]
    exact Function.update_self ..

theorem rehydrate_all {ms : List (MirroredWebSocket Socket)} (r : Registry Socket)
    (distinct : (HibernationMirror.sockets ms).Nodup)
    (normal : ∀ m ∈ ms, ∃ tags, normalizeTags (some m.tags) = .ok tags) :
    ∃ woken, (ms.map MirroredWebSocket.clone).foldlM rehydrate r = .ok woken ∧
      Woken r ms woken := by
  induction ms generalizing r with
  | nil => exact ⟨r, rfl, rfl, rfl, rfl, rfl, by simp, fun _ _ => rfl, by simp⟩
  | cons m rest ih =>
    obtain ⟨absent, distinct⟩ := List.nodup_cons.1 distinct
    obtain ⟨tags, here⟩ := normal m (List.mem_cons_self ..)
    obtain ⟨next, ran, first⟩ := rehydrate_ok r here
    obtain ⟨woken, later, last⟩ := ih next distinct fun m' member => normal m' (List.mem_cons_of_mem _ member)
    refine ⟨woken, ?_, last.serial.trans first.serial, last.host.trans first.host,
      last.autoResponse.trans first.autoResponse, last.checkpoint.trans first.checkpoint, ?_, ?_, ?_⟩
    · rw [List.map_cons, List.foldlM_cons]
      exact except_bind_ok .. |>.2 ⟨next, ran, later⟩
    · rw [last.entries, first.entries]
      simp
    · intro s other
      have different : s ≠ m.socket := fun equal => other (equal ▸ List.mem_cons_self ..)
      have later : s ∉ HibernationMirror.sockets rest := fun member => other (List.mem_cons_of_mem _ member)
      rw [last.others s later, first.others s (by simpa [HibernationMirror.sockets] using different)]
    · intro m' member
      rcases List.mem_cons.1 member with rfl | member
      · rw [last.others _ absent, first.listed _ (List.mem_singleton_self _)]
      · have different : m'.socket ≠ m.socket := fun equal =>
          absent (equal ▸ List.mem_map.2 ⟨m', member, rfl⟩)
        rw [last.listed m' member, first.serial,
          first.others _ (by simpa [HibernationMirror.sockets] using different)]

theorem foldlM_rehydrate_normal {ms : List (MirroredWebSocket Socket)}
    {r woken : Registry Socket} (ran : (ms.map MirroredWebSocket.clone).foldlM rehydrate r = .ok woken) :
    ∀ m ∈ ms, ∃ tags, normalizeTags (some m.tags) = .ok tags := by
  induction ms generalizing r with
  | nil => simp
  | cons m rest ih =>
    rw [List.map_cons, List.foldlM_cons, except_bind_ok] at ran
    obtain ⟨next, first, later⟩ := ran
    obtain ⟨tags, normal, _⟩ := (except_bind_ok ..).1 first
    intro m' member
    rcases List.mem_cons.1 member with rfl | member
    · exact ⟨tags, normal⟩
    · exact ih later m' member

/-- A mirror that a registry can be built from. -/
structure Wakeable (host : HibernationMirror Socket) : Prop where
  distinct : (HibernationMirror.sockets host.entries).Nodup
  normal : ∀ m ∈ host.entries, ∃ tags, normalizeTags (some m.tags) = .ok tags
  sized : ∀ pair ∈ host.autoResponsePair, validateAutoResponse pair = .ok ()

/-- The registry a constructor has before the sockets are back. -/
def answering (metadata : Socket → SocketMetadata) (serial : Nat) (checkpoint : List (CheckpointEnd Socket))
    (host : HibernationMirror Socket) : Registry Socket :=
  ⟨serial, metadata, host, [], host.autoResponsePair, checkpoint⟩

theorem create_eq {metadata : Socket → SocketMetadata} {serial : Nat}
    {checkpoint : List (CheckpointEnd Socket)} {host : HibernationMirror Socket}
    {rehydrated : List (RehydratedWebSocket Socket)}
    (sized : ∀ pair ∈ host.autoResponsePair, validateAutoResponse pair = .ok ()) :
    create metadata serial checkpoint host rehydrated =
      rehydrated.foldlM rehydrate (answering metadata serial checkpoint host) := by
  obtain ⟨entries, pair⟩ := host
  cases pair with
  | none => rfl
  | some pair =>
    have valid := sized pair rfl
    simp only [create, setWebSocketAutoResponse, valid]
    rfl

theorem create_sized {metadata : Socket → SocketMetadata} {serial : Nat}
    {checkpoint : List (CheckpointEnd Socket)} {host : HibernationMirror Socket}
    {rehydrated : List (RehydratedWebSocket Socket)} {woken : Registry Socket}
    (ran : create metadata serial checkpoint host rehydrated = .ok woken) :
    ∀ pair ∈ host.autoResponsePair, validateAutoResponse pair = .ok () := by
  intro pair present
  have present : host.autoResponsePair = some pair := present
  simp only [create, present, setWebSocketAutoResponse] at ran
  cases valid : validateAutoResponse pair with
  | error failure =>
    rw [valid] at ran
    cases ran
  | ok done => rfl

theorem create_woken {host : HibernationMirror Socket} (wakeable : Wakeable host)
    (metadata : Socket → SocketMetadata) (serial : Nat) (checkpoint : List (CheckpointEnd Socket)) :
    ∃ woken, create metadata serial checkpoint host host.snapshot = .ok woken ∧
      Woken (answering metadata serial checkpoint host) host.entries woken := by
  rw [create_eq wakeable.sized]
  exact rehydrate_all _ wakeable.distinct wakeable.normal

theorem create_wakeable {host : HibernationMirror Socket}
    {metadata : Socket → SocketMetadata} {serial : Nat} {checkpoint : List (CheckpointEnd Socket)}
    {woken : Registry Socket} (distinct : (HibernationMirror.sockets host.entries).Nodup)
    (ran : create metadata serial checkpoint host host.snapshot = .ok woken) : Wakeable host where
  distinct := distinct
  normal := by
    rw [create_eq (create_sized ran)] at ran
    exact foldlM_rehydrate_normal ran
  sized := create_sized ran

end Rehydration

end Registry

end DoRuntime.WebSockets
