import DoRuntime.Browser.WorkerSupervisor

namespace DoRuntime.Browser.WorkerSupervisor

open Prog

variable {Configuration Key : Type} [DecidableEq Key]

/-- What the frames of an open socket come to: those posted, those held, those taken. -/
abbrev Account : Type := Nat → List Frame → List Frame → List Frame → Prop

/-- Every frame that was taken is posted or held, in order. -/
def balanced : Account := fun _ posted pending taken => posted ++ pending = taken

/-- The sockets for which `Kept` allows an exception: those being torn down and those being flushed. -/
structure Slack where
  torn : Nat → Prop
  loose : Nat → Prop
  account : Account

def noSlack : Slack where
  torn := fun _ => False
  loose := fun _ => False
  account := balanced

structure Kept (key : Configuration → Key) (slack : Slack) (s : WorkerSupervisor Configuration Key) :
    Prop where
  registered : ∀ i ∈ s.sockets, i < s.nextSocket ∧ (s.socket i).closed = false ∧
    (s.socket i).key = key (s.socket i).configuration
  nodup : s.sockets.Nodup
  unique : ∀ i ∈ s.sockets, ∀ j ∈ s.sockets, (s.socket i).key = (s.socket j).key →
    (s.socket i).id = (s.socket j).id → i = j
  workers : ∀ k p, s.workers k = some p → p < s.nextPlacement ∧ (s.placement p).key = k
  attached : ∀ i ∈ s.sockets, ¬ slack.torn i → ∀ p, s.workers (s.socket i).key = some p →
    (s.socket i).port = true
  asleep : ∀ i ∈ s.sockets, ¬ slack.torn i → s.workers (s.socket i).key = none →
    s.hibernated (s.socket i).key ≠ none
  awake : ∀ k p, s.workers k = some p → s.hibernated k = none
  held : ∀ i ∈ s.sockets, ¬ slack.loose i → (s.socket i).pending ≠ [] →
    ∃ p, s.workers (s.socket i).key = some p ∧
      ((s.placement p).readyNow = false ∨ (s.placement p).hibernation ≠ none)
  probing : ∀ i ∈ s.sockets, ¬ slack.loose i → ∀ p, s.workers (s.socket i).key = some p →
    (s.placement p).hibernation = some false → (s.socket i).pending = []
  accounted : ∀ i ∈ s.sockets, (s.socket i).closing = false →
    slack.account i (s.socket i).posted (s.socket i).pending (s.socket i).taken

/-- Peers that neither call back nor throw. -/
def quiet : Site → Act Configuration Key Unit := fun _ => pure ()

@[simp]
theorem quiet_bind {α : Type} (site : Site) (f : Unit → Act Configuration Key α) : (quiet site >>= f) = f () := rfl

@[simp]
theorem pure_bind' {α β : Type} (a : α) (f : α → Act Configuration Key β) : (pure a >>= f) = f a := rfl

section Sockets

variable {key : Configuration → Key} {slack : Slack} {s : WorkerSupervisor Configuration Key}

theorem setSocket_self (i : Nat) (f : Socket Configuration Key → Socket Configuration Key) :
    (s.setSocket i f).socket i = f (s.socket i) := by
  simp [setSocket]

theorem setSocket_other {i j : Nat} (other : j ≠ i) (f : Socket Configuration Key → Socket Configuration Key) :
    (s.setSocket i f).socket j = s.socket j := by
  simp [setSocket, other]

/-- A socket changes in a way that keeps its name and what `Kept` says of it. -/
theorem Kept.setSocket (kept : Kept key slack s) (i : Nat)
    {f : Socket Configuration Key → Socket Configuration Key} (account : Account)
    (name : ∀ c, (f c).key = c.key ∧ (f c).configuration = c.configuration ∧ (f c).id = c.id ∧
      (f c).closed = c.closed)
    (others : ∀ j, j ≠ i → ∀ posted pending taken, slack.account j posted pending taken →
      account j posted pending taken)
    (port : i ∈ s.sockets → ¬ slack.torn i → ∀ p, s.workers (s.socket i).key = some p →
      (f (s.socket i)).port = true)
    (held : i ∈ s.sockets → ¬ slack.loose i → (f (s.socket i)).pending ≠ [] →
      ∃ p, s.workers (s.socket i).key = some p ∧
        ((s.placement p).readyNow = false ∨ (s.placement p).hibernation ≠ none))
    (probing : i ∈ s.sockets → ¬ slack.loose i → ∀ p, s.workers (s.socket i).key = some p →
      (s.placement p).hibernation = some false → (f (s.socket i)).pending = [])
    (accounted : i ∈ s.sockets → (f (s.socket i)).closing = false →
      account i (f (s.socket i)).posted (f (s.socket i)).pending (f (s.socket i)).taken) :
    Kept key { slack with account } (s.setSocket i f) := by
  have named : ∀ j, ((s.setSocket i f).socket j).key = (s.socket j).key ∧
      ((s.setSocket i f).socket j).configuration = (s.socket j).configuration ∧
      ((s.setSocket i f).socket j).id = (s.socket j).id ∧
      ((s.setSocket i f).socket j).closed = (s.socket j).closed := by
    intro j
    by_cases same : j = i
    · rw [same, setSocket_self]
      exact name _
    · rw [setSocket_other same]
      exact ⟨rfl, rfl, rfl, rfl⟩
  refine ⟨?_, kept.nodup, ?_, kept.workers, ?_, ?_, kept.awake, ?_, ?_, ?_⟩
  · intro j open_j
    rw [(named j).1, (named j).2.1, (named j).2.2.2]
    exact kept.registered j open_j
  · intro j open_j l open_l
    rw [(named j).1, (named l).1, (named j).2.2.1, (named l).2.2.1]
    exact kept.unique j open_j l open_l
  · intro j open_j whole p
    rw [(named j).1]
    intro current
    by_cases same : j = i
    · subst same
      rw [setSocket_self]
      exact port open_j whole p current
    · rw [setSocket_other same]
      exact kept.attached j open_j whole p current
  · intro j open_j whole
    rw [(named j).1]
    exact kept.asleep j open_j whole
  · intro j open_j tight
    rw [(named j).1]
    by_cases same : j = i
    · subst same
      rw [setSocket_self]
      exact held open_j tight
    · rw [setSocket_other same]
      exact kept.held j open_j tight
  · intro j open_j tight
    rw [(named j).1]
    by_cases same : j = i
    · subst same
      rw [setSocket_self]
      exact probing open_j tight
    · rw [setSocket_other same]
      exact kept.probing j open_j tight
  · intro j open_j
    by_cases same : j = i
    · subst same
      rw [setSocket_self]
      exact accounted open_j
    · rw [setSocket_other same]
      intro live
      exact others j same _ _ _ (kept.accounted j open_j live)

/-- Nothing but the sockets differs. -/
structure OnlySockets (s t : WorkerSupervisor Configuration Key) : Prop where
  workers : t.workers = s.workers
  placement : t.placement = s.placement
  nextPlacement : t.nextPlacement = s.nextPlacement
  hibernated : t.hibernated = s.hibernated
  sockets : ∀ i ∈ t.sockets, i ∈ s.sockets
  key : ∀ i, (t.socket i).key = (s.socket i).key
  configuration : ∀ i, (t.socket i).configuration = (s.socket i).configuration

theorem OnlySockets.refl (s : WorkerSupervisor Configuration Key) : OnlySockets s s :=
  ⟨rfl, rfl, rfl, rfl, fun _ => id, fun _ => rfl, fun _ => rfl⟩

theorem OnlySockets.trans {t u : WorkerSupervisor Configuration Key} (first : OnlySockets s t)
    (second : OnlySockets t u) : OnlySockets s u :=
  ⟨second.workers.trans first.workers, second.placement.trans first.placement,
    second.nextPlacement.trans first.nextPlacement, second.hibernated.trans first.hibernated,
    fun i open_i => first.sockets i (second.sockets i open_i), fun i => (second.key i).trans (first.key i),
    fun i => (second.configuration i).trans (first.configuration i)⟩

theorem Kept.finish (kept : Kept key slack s) (i : Nat) :
    Kept key slack ({ s with sockets := s.sockets.erase i }.setSocket i fun c =>
      { c with closed := true, port := false }) := by
  have remains : ∀ j, j ∈ s.sockets.erase i ↔ j ≠ i ∧ j ∈ s.sockets := fun j => kept.nodup.mem_erase_iff
  have others : ∀ j, j ∈ s.sockets.erase i → ({ s with sockets := s.sockets.erase i }.setSocket i fun c =>
      { c with closed := true, port := false }).socket j = s.socket j := by
    intro j open_j
    exact setSocket_other ((remains j).1 open_j).1 _
  refine ⟨?_, kept.nodup.erase i, ?_, kept.workers, ?_, ?_, kept.awake, ?_, ?_, ?_⟩
  · intro j open_j
    rw [others j open_j]
    exact kept.registered j ((remains j).1 open_j).2
  · intro j open_j l open_l
    rw [others j open_j, others l open_l]
    exact kept.unique j ((remains j).1 open_j).2 l ((remains l).1 open_l).2
  · intro j open_j
    rw [others j open_j]
    exact kept.attached j ((remains j).1 open_j).2
  · intro j open_j
    rw [others j open_j]
    exact kept.asleep j ((remains j).1 open_j).2
  · intro j open_j
    rw [others j open_j]
    exact kept.held j ((remains j).1 open_j).2
  · intro j open_j
    rw [others j open_j]
    exact kept.probing j ((remains j).1 open_j).2
  · intro j open_j
    rw [others j open_j]
    exact kept.accounted j ((remains j).1 open_j).2

theorem finish_spec (site : Site) (i : Nat) (s₀ : WorkerSupervisor Configuration Key) :
    Ensures (fun s => Kept key slack s ∧ OnlySockets s₀ s) (finish quiet site i)
      (fun _ s => (Kept key slack s ∧ OnlySockets s₀ s) ∧ i ∉ s.sockets ∧ (s.socket i).closed = true)
      fun _ => False := by
  intro s ⟨kept, same⟩
  rw [WorkerSupervisor.finish, state_bind]
  by_cases closed : (s.socket i).closed = true
  · simp only [closed, if_true, pure_run]
    refine ⟨⟨kept, same⟩, ?_, trivial⟩
    intro open_i
    rw [(kept.registered i open_i).2.1] at closed
    cases closed
  · simp only [closed, if_false, update_bind]
    refine ⟨⟨kept.finish i, same.trans ⟨rfl, rfl, rfl, rfl, fun j => List.mem_of_mem_erase, ?_, ?_⟩⟩, ?_,
      by rw [setSocket_self]⟩
    · intro j
      simp only [WorkerSupervisor.setSocket]
      split <;> rfl
    · intro j
      simp only [WorkerSupervisor.setSocket]
      split <;> rfl
    · exact fun open_i => (kept.nodup.mem_erase_iff.1 open_i).1 rfl

theorem OnlySockets.setSocket {s₀ : WorkerSupervisor Configuration Key} (same : OnlySockets s₀ s) (i : Nat)
    {f : Socket Configuration Key → Socket Configuration Key} 
    (name : ∀ c, (f c).key = c.key ∧ (f c).configuration = c.configuration) :
    OnlySockets s₀ (s.setSocket i f) := by
  refine same.trans ⟨rfl, rfl, rfl, rfl, fun _ => id, ?_, ?_⟩
  · intro j
    simp only [WorkerSupervisor.setSocket]
    split
    · exact (name _).1
    · rfl
  · intro j
    simp only [WorkerSupervisor.setSocket]
    split
    · exact (name _).2
    · rfl

theorem endSocket_spec (site : Site) (i : Nat) (close : Frame) (s₀ : WorkerSupervisor Configuration Key) :
    Ensures (fun s => Kept key slack s ∧ OnlySockets s₀ s) (endSocket quiet site i close)
      (fun _ s => (Kept key slack s ∧ OnlySockets s₀ s) ∧ i ∉ s.sockets) fun _ => False := by
  intro s ⟨kept, same⟩
  rw [endSocket, update_bind, quiet_bind]
  apply (finish_spec site i s₀).weaken (fun _ => id) (fun _ _ done => ⟨done.1, done.2.1⟩) fun _ => id
  refine ⟨?_, same.setSocket i fun _ => ⟨rfl, rfl⟩⟩
  exact kept.setSocket i slack.account (fun _ => ⟨rfl, rfl, rfl, rfl⟩) (fun _ _ _ _ _ => id)
    (fun open_i whole => kept.attached i open_i whole) (fun open_i tight => kept.held i open_i tight)
    (fun open_i tight => kept.probing i open_i tight) (fun _ live => by cases live)

/-- Once every socket of the key has been ended, nothing of it needs an exception. -/
theorem Kept.tighten (kept : Kept key slack s)
    (gone : ∀ i ∈ s.sockets, ¬ slack.torn i ∧ ¬ slack.loose i) :
    Kept key { slack with torn := fun _ => False, loose := fun _ => False } s :=
  { kept with
    attached := fun i open_i _ => kept.attached i open_i (gone i open_i).1
    asleep := fun i open_i _ => kept.asleep i open_i (gone i open_i).1
    held := fun i open_i _ => kept.held i open_i (gone i open_i).2
    probing := fun i open_i _ => kept.probing i open_i (gone i open_i).2 }

theorem mem_socketsFor {k : Key} {i : Nat} : i ∈ s.socketsFor k ↔ i ∈ s.sockets ∧ (s.socket i).key = k := by
  simp [socketsFor]

theorem endSockets_spec (site : Site) (k : Key) (code : Nat) (reason : String)
    (s₀ : WorkerSupervisor Configuration Key) :
    Ensures (fun s => Kept key slack s ∧ OnlySockets s₀ s) (endSockets quiet site k code reason)
      (fun _ s => (Kept key slack s ∧ OnlySockets s₀ s) ∧ ∀ i ∈ s.sockets, (s.socket i).key ≠ k)
      fun _ => False := by
  apply Ensures.state
  intro s ⟨kept, same⟩
  refine (Ensures.forEach (fun rest (t : WorkerSupervisor Configuration Key) =>
    (Kept key slack t ∧ OnlySockets s t) ∧ ∀ i ∈ t.sockets, (t.socket i).key = k → i ∈ rest) ?_).weaken
    ?_ ?_ fun _ => id
  · intro i rest t ⟨⟨kept, from_s⟩, left⟩
    have ended := endSocket_spec site i (.close code reason) t t ⟨kept, OnlySockets.refl t⟩
    rcases ran : endSocket quiet site i (.close code reason) t with ⟨_ | _, u⟩ <;> simp only [ran] at ended ⊢
    obtain ⟨⟨kept_u, from_t⟩, gone⟩ := ended
    refine ⟨⟨kept_u, from_s.trans from_t⟩, ?_⟩
    intro j open_j named
    rw [from_t.key] at named
    rcases List.mem_cons.1 (left j (from_t.sockets j open_j) named) with rfl | later
    · exact absurd open_j gone
    · exact later
  · intro t ⟨same_t, _⟩
    rw [same_t]
    exact ⟨⟨kept, OnlySockets.refl s⟩, fun i open_i named => mem_socketsFor.2 ⟨open_i, named⟩⟩
  · intro _ t ⟨⟨kept, from_s⟩, left⟩
    refine ⟨⟨kept, same.trans from_s⟩, ?_⟩
    intro i open_i named
    exact List.not_mem_nil (left i open_i named)

end Sockets

section Workers

variable {key : Configuration → Key} {slack : Slack} {s : WorkerSupervisor Configuration Key}

theorem setPlacement_self (p : Nat) (f : Placement Configuration Key → Placement Configuration Key) :
    (s.setPlacement p f).placement p = f (s.placement p) := by
  simp [setPlacement]

theorem setPlacement_other {p q : Nat} (other : q ≠ p)
    (f : Placement Configuration Key → Placement Configuration Key) :
    (s.setPlacement p f).placement q = s.placement q := by
  simp [setPlacement, other]

theorem Kept.setPlacement (kept : Kept key slack s) (p : Nat)
    {f : Placement Configuration Key → Placement Configuration Key} (name : ∀ q, (f q).key = q.key)
    (held : ∀ i ∈ s.sockets, ¬ slack.loose i → s.workers (s.socket i).key = some p →
      (s.socket i).pending ≠ [] →
      (f (s.placement p)).readyNow = false ∨ (f (s.placement p)).hibernation ≠ none)
    (probing : ∀ i ∈ s.sockets, ¬ slack.loose i → s.workers (s.socket i).key = some p →
      (f (s.placement p)).hibernation = some false → (s.socket i).pending = []) :
    Kept key slack (s.setPlacement p f) := by
  refine { kept with workers := ?_, held := ?_, probing := ?_ }
  · intro k q current
    obtain ⟨known, named⟩ := kept.workers k q current
    refine ⟨known, ?_⟩
    by_cases same : q = p
    · rw [same, setPlacement_self, name, ← same, named]
    · rw [setPlacement_other same, named]
  · intro i open_i tight frames
    obtain ⟨q, current, waits⟩ := kept.held i open_i tight frames
    refine ⟨q, current, ?_⟩
    by_cases same : q = p
    · subst same
      rw [setPlacement_self]
      exact held i open_i tight current frames
    · rw [setPlacement_other same]
      exact waits
  · intro i open_i tight q current uncanceled
    by_cases same : q = p
    · subst same
      rw [setPlacement_self] at uncanceled
      exact probing i open_i tight current uncanceled
    · rw [setPlacement_other same] at uncanceled
      exact kept.probing i open_i tight q current uncanceled

/-- A change that leaves `readyNow` and the probe alone. -/
theorem Kept.setPlacement_same (kept : Kept key slack s) (p : Nat)
    {f : Placement Configuration Key → Placement Configuration Key}
    (same : ∀ q, (f q).key = q.key ∧ (f q).readyNow = q.readyNow ∧ (f q).hibernation = q.hibernation) :
    Kept key slack (s.setPlacement p f) := by
  apply kept.setPlacement p (fun q => (same q).1)
  · intro i open_i tight current frames
    rw [(same _).2.1, (same _).2.2]
    obtain ⟨q, current_q, waits⟩ := kept.held i open_i tight frames
    cases current.symm.trans current_q
    exact waits
  · intro i open_i tight current uncanceled
    rw [(same _).2.2] at uncanceled
    exact kept.probing i open_i tight p current uncanceled

theorem isCurrent_iff (p : Nat) : s.isCurrent p = true ↔ s.workers (s.placement p).key = some p := by
  simp [isCurrent]

/-- A placement leaves `#workers`, to be looked after by the rest of `#discard`. -/
theorem Kept.leave (kept : Kept key slack s) {p : Nat}
    (slackens : ∀ i ∈ s.sockets, slack.torn i ∨ slack.loose i → (s.socket i).key = (s.placement p).key)
    {f : Placement Configuration Key → Placement Configuration Key} (name : ∀ q, (f q).key = q.key)
    (current : s.isCurrent p = true) (hibernated : Option Snapshot) :
    Kept key { slack with
        torn := fun i => (s.socket i).key = (s.placement p).key
        loose := fun i => (s.socket i).key = (s.placement p).key }
      (((s.setPlacement p f).setWorker (s.placement p).key none).setHibernated (s.placement p).key
        hibernated) := by
  have others : ∀ k q, (s.setWorker (s.placement p).key none).workers k = some q →
      k ≠ (s.placement p).key ∧ s.workers k = some q ∧ q ≠ p := by
    intro k q running
    simp only [setWorker] at running
    split at running
    · cases running
    · rename_i other
      refine ⟨other, running, ?_⟩
      intro same
      rw [same] at running
      exact other (kept.workers k p running).2.symm
  have tight : ∀ {i}, i ∈ s.sockets → (s.socket i).key ≠ (s.placement p).key →
      ¬ slack.torn i ∧ ¬ slack.loose i :=
    fun open_i other => ⟨fun torn => other (slackens _ open_i (.inl torn)),
      fun loose => other (slackens _ open_i (.inr loose))⟩
  refine ⟨kept.registered, kept.nodup, kept.unique, ?_, ?_, ?_, ?_, ?_, ?_, kept.accounted⟩
  · intro k q running
    obtain ⟨_, running, other⟩ := others k q running
    obtain ⟨known, named⟩ := kept.workers k q running
    refine ⟨known, ?_⟩
    rw [show ((((s.setPlacement p f).setWorker (s.placement p).key none).setHibernated
      (s.placement p).key hibernated).placement q) = s.placement q from setPlacement_other other f, named]
  · intro i open_i other q running
    obtain ⟨_, running, _⟩ := others _ q running
    exact kept.attached i open_i (tight open_i other).1 q running
  · intro i open_i other asleep
    have other' : (s.socket i).key ≠ (s.placement p).key := other
    have kept_asleep := kept.asleep i open_i (tight open_i other).1
    simp only [setWorker, setHibernated, WorkerSupervisor.setPlacement, other', if_false] at asleep ⊢
    exact kept_asleep asleep
  · intro k q running
    obtain ⟨other, running, _⟩ := others k q running
    simp only [setHibernated, other, if_false]
    exact kept.awake k q running
  · intro i open_i other frames
    have other' : (s.socket i).key ≠ (s.placement p).key := other
    obtain ⟨q, running, waits⟩ := kept.held i open_i (tight open_i other).2 frames
    have apart : q ≠ p := by
      intro same
      rw [same] at running
      exact other' (kept.workers _ p running).2.symm
    refine ⟨q, ?_, ?_⟩
    · simp only [setHibernated, setWorker, WorkerSupervisor.setPlacement, other', if_false]
      exact running
    · rw [show ((((s.setPlacement p f).setWorker (s.placement p).key none).setHibernated
        (s.placement p).key hibernated).placement q) = s.placement q from setPlacement_other apart f]
      exact waits
  · intro i open_i other q running uncanceled
    obtain ⟨_, running, apart⟩ := others _ q running
    rw [show ((((s.setPlacement p f).setWorker (s.placement p).key none).setHibernated
        (s.placement p).key hibernated).placement q) = s.placement q from setPlacement_other apart f] at uncanceled
    exact kept.probing i open_i (tight open_i other).2 q running uncanceled

/-- The loop over the sockets of a key whose worker is gone. -/
theorem dropPort (kept : Kept key slack s) {i : Nat} (idle : s.workers (s.socket i).key = none) :
    Kept key slack (s.setSocket i fun c => { c with port := false }) := by
  refine kept.setSocket i slack.account (fun _ => ⟨rfl, rfl, rfl, rfl⟩) (fun _ _ _ _ _ => id) ?_ ?_ ?_ ?_
  · intro _ _ p running
    rw [idle] at running
    cases running
  · exact fun open_i tight => kept.held i open_i tight
  · exact fun open_i tight => kept.probing i open_i tight
  · exact fun open_i => kept.accounted i open_i

theorem tearDown_spec (k : Key) (xs : List Nat) (close : Frame) (s₀ : WorkerSupervisor Configuration Key) :
    Ensures
      (fun t => (Kept key slack t ∧ OnlySockets s₀ t ∧ t.workers k = none) ∧
        (∀ i ∈ xs, (t.socket i).key = k) ∧ ∀ i ∈ t.sockets, (t.socket i).key = k → i ∈ xs)
      (forEach xs fun i => do
        update fun s => s.setSocket i fun c => { c with port := false }
        endSocket quiet .peerOfDiscard i close)
      (fun _ t => Kept key slack t ∧ OnlySockets s₀ t ∧ ∀ i ∈ t.sockets, (t.socket i).key ≠ k)
      fun _ => False := by
  apply (Ensures.forEach (fun rest (t : WorkerSupervisor Configuration Key) =>
    (Kept key slack t ∧ OnlySockets s₀ t ∧ t.workers k = none) ∧ (∀ i ∈ rest, (t.socket i).key = k) ∧
      ∀ i ∈ t.sockets, (t.socket i).key = k → i ∈ rest) ?_).weaken (fun _ => id) ?_ fun _ => id
  · intro i rest t ⟨⟨kept, from_s, idle⟩, named, left⟩
    have name := named i List.mem_cons_self
    have dropped := dropPort kept (i := i) (by rw [name]; exact idle)
    have same : OnlySockets t (t.setSocket i fun c => { c with port := false }) :=
      (OnlySockets.refl t).setSocket i fun _ => ⟨rfl, rfl⟩
    have ended := endSocket_spec .peerOfDiscard i close t _ ⟨dropped, same⟩
    rw [update_bind]
    generalize t.setSocket i _ = u at ended ⊢
    rcases ran : endSocket quiet .peerOfDiscard i close u with ⟨_ | _, v⟩ <;> simp only [ran] at ended ⊢
    obtain ⟨⟨kept_v, from_t⟩, gone⟩ := ended
    refine ⟨⟨kept_v, from_s.trans from_t, by rw [from_t.workers]; exact idle⟩, ?_, ?_⟩
    · intro j later
      rw [from_t.key]
      exact named j (List.mem_cons_of_mem i later)
    · intro j open_j name_j
      rw [from_t.key] at name_j
      rcases List.mem_cons.1 (left j (from_t.sockets j open_j) name_j) with rfl | later
      · exact absurd open_j gone
      · exact later
  · intro _ t ⟨⟨kept, from_s, _⟩, _, left⟩
    exact ⟨kept, from_s, fun i open_i name => List.not_mem_nil (left i open_i name)⟩

/-- `#discard` without its sockets ends every socket of the key. -/
theorem discard_spec (slack : Slack) (p : Nat) :
    Ensures
      (fun s => Kept key slack s ∧
        (s.isCurrent p = true → ∀ i ∈ s.sockets, slack.torn i ∨ slack.loose i →
          (s.socket i).key = (s.placement p).key) ∧
        (s.isCurrent p = false → ∀ i ∈ s.sockets, ¬ slack.torn i ∧ ¬ slack.loose i))
      (discard quiet p false)
      (fun _ s => Kept key { slack with torn := fun _ => False, loose := fun _ => False } s)
      fun _ => False := by
  intro s ⟨kept, running, gone⟩
  rw [discard, state_bind]
  by_cases current : s.isCurrent p = true
  · simp only [current, if_true, update_bind, Bool.false_eq_true, if_false, quiet]
    have left := kept.leave (running current)
      (f := fun q => { q with idleTimer := false, hibernation := none, readiness := q.readiness <|> some false })
      (fun _ => rfl) current none
    refine (tearDown_spec (s.placement p).key (s.socketsFor (s.placement p).key)
      (.close 1011 "Worker stopped") _).bind
      (T := fun _ s => Kept key { slack with torn := fun _ => False, loose := fun _ => False } s) ?_ _
      ⟨⟨left, OnlySockets.refl _, ?_⟩, ?_, ?_⟩
    · intro _ t ⟨kept, same, ended⟩
      have gone : ∀ i ∈ t.sockets, (s.socket i).key ≠ (s.placement p).key := by
        intro i open_i
        rw [show (s.socket i).key = (t.socket i).key from (same.key i).symm]
        exact ended i open_i
      exact (kept.tighten fun i open_i => ⟨gone i open_i, gone i open_i⟩).setPlacement_same p
        fun _ => ⟨rfl, rfl, rfl⟩
    · simp [setHibernated, setWorker]
    · intro i named
      exact (mem_socketsFor.1 named).2
    · intro i open_i named
      exact mem_socketsFor.2 ⟨open_i, named⟩
  · simp only [current, pure_run]
    exact kept.tighten (gone (Bool.eq_false_of_not_eq_true current))

theorem dropPorts_spec (k : Key) (xs : List Nat) :
    Keeps (fun t => Kept key slack t ∧ t.workers k = none ∧ ∀ i ∈ xs, (t.socket i).key = k)
      (forEach xs fun i => do
        update fun s => s.setSocket i fun c => { c with port := false }
        pure () : Act Configuration Key Unit) := by
  refine (Ensures.forEach (E := fun _ => False) (fun rest (t : WorkerSupervisor Configuration Key) =>
    (Kept key slack t ∧ t.workers k = none ∧ ∀ i ∈ xs, (t.socket i).key = k) ∧ ∀ i ∈ rest, i ∈ xs) ?_).weaken
    (fun t start => ⟨start, fun _ => id⟩) (fun _ t done => done.1) fun _ => False.elim
  intro i rest t ⟨⟨kept, idle, named⟩, members⟩
  have name := named i (members i List.mem_cons_self)
  have same : OnlySockets t (t.setSocket i fun c => { c with port := false }) :=
    (OnlySockets.refl t).setSocket i fun _ => ⟨rfl, rfl⟩
  refine ⟨⟨dropPort kept (by rw [name]; exact idle), idle, ?_⟩,
    fun j later => members j (List.mem_cons_of_mem i later)⟩
  intro j member
  rw [same.key]
  exact named j member

/-- `#discard` of a worker that hibernates with no frame held. -/
theorem sleep_spec (p : Nat) (snapshot : Snapshot) (whole : ∀ i, ¬ slack.torn i ∧ ¬ slack.loose i)
    (kept : Kept key slack s) (current : s.isCurrent p = true)
    (empty : ∀ i ∈ s.sockets, (s.socket i).key = (s.placement p).key → (s.socket i).pending = []) :
    Kept key slack (discard quiet p true (s.setHibernated (s.placement p).key (some snapshot))).2 := by
  have running : (s.setHibernated (s.placement p).key (some snapshot)).isCurrent p = true := current
  have left := kept.leave (fun i _ slackens => absurd slackens (by simp [whole i]))
    (f := fun q => { q with idleTimer := false, hibernation := none, readiness := q.readiness <|> some false })
    (fun _ => rfl) current (some snapshot)
  have asleep : Kept key slack (((s.setPlacement p fun q => { q with
      idleTimer := false, hibernation := none, readiness := q.readiness <|> some false }).setWorker
      (s.placement p).key none).setHibernated (s.placement p).key (some snapshot)) := by
    refine { left with attached := ?_, asleep := ?_, held := ?_, probing := ?_ }
    · intro i open_i _ q running
      by_cases same : (s.socket i).key = (s.placement p).key
      · simp [setHibernated, setWorker, WorkerSupervisor.setPlacement, same] at running
      · exact left.attached i open_i same q running
    · intro i open_i _ idle
      by_cases same : (s.socket i).key = (s.placement p).key
      · simp [setHibernated, setWorker, WorkerSupervisor.setPlacement, same]
      · exact left.asleep i open_i same idle
    · intro i open_i _ frames
      by_cases same : (s.socket i).key = (s.placement p).key
      · exact absurd (empty i open_i same) frames
      · exact left.held i open_i same frames
    · intro i open_i _ q running uncanceled
      by_cases same : (s.socket i).key = (s.placement p).key
      · exact empty i open_i same
      · exact left.probing i open_i same q running uncanceled
  rw [discard, state_bind]
  simp only [running, if_true, update_bind, pure_bind', quiet]
  apply Ensures.reached (P := fun t => Kept key slack t ∧ t.workers (s.placement p).key = none ∧
    ∀ i ∈ s.socketsFor (s.placement p).key, (t.socket i).key = (s.placement p).key)
  · refine Ensures.bind ((dropPorts_spec (s.placement p).key (s.socketsFor (s.placement p).key)).weaken
      (fun _ => id) (fun _ _ => id) fun _ kept => kept.1) ?_
    intro _ t ⟨kept, _⟩
    exact kept.setPlacement_same p fun _ => ⟨rfl, rfl, rfl⟩
  · refine ⟨asleep, ?_, ?_⟩
    · simp [setWorker, setHibernated]
    · exact fun i named => (mem_socketsFor.1 named).2

theorem describesLiveSockets_ids {k : Key} {snapshot : Snapshot}
    (describes : s.describesLiveSockets k snapshot = true) {i : Nat} (named : i ∈ s.socketsFor k) :
    (s.socket i).id ∈ snapshot.ids := by
  simp only [describesLiveSockets, Bool.and_eq_true, decide_eq_true_eq, List.all_eq_true,
    List.contains_iff_mem] at describes
  obtain ⟨⟨⟨_, nodup⟩, same_length⟩, live⟩ := describes
  have same := (nodup.subperm fun id => live id).perm_of_length_le (Nat.le_of_eq same_length.symm)
  rw [same.mem_iff, List.mem_dedup]
  exact List.mem_map_of_mem named

theorem Kept.attach (kept : Kept key slack s) (i : Nat) :
    Kept key slack (s.setSocket i fun c => { c with port := true }) :=
  kept.setSocket i slack.account (fun _ => ⟨rfl, rfl, rfl, rfl⟩) (fun _ _ _ _ _ => id)
    (fun _ _ _ _ => rfl) (fun open_i tight => kept.held i open_i tight)
    (fun open_i tight => kept.probing i open_i tight) (fun open_i => kept.accounted i open_i)

theorem rehydrate_spec (k : Key) (snapshot : Snapshot) (kept : Kept key slack s)
    (describes : s.describesLiveSockets k snapshot = true) :
    Ensures (fun t => t = s) (rehydrate k snapshot)
      (fun _ t => (Kept key slack t ∧ OnlySockets s t) ∧ ∀ i ∈ t.sockets, (t.socket i).key = k →
        (t.socket i).port = true)
      fun t => Kept key slack t ∧ OnlySockets s t := by
  intro t same
  subst same
  refine (Ensures.forEach (fun rest (u : WorkerSupervisor Configuration Key) =>
    (Kept key slack u ∧ OnlySockets t u) ∧ ∀ i ∈ u.sockets, (u.socket i).key = k →
      (t.socket i).id ∈ rest ∨ (u.socket i).port = true) ?_).weaken (R := fun u => u = t) ?_ ?_
      (fun _ => id) t rfl
  · intro id rest u ⟨⟨kept_u, same⟩, left⟩
    cases found : (t.socketsFor k).reverse.find? fun i => (t.socket i).id = id with
    | none => exact ⟨kept_u, same⟩
    | some j =>
      refine ⟨⟨kept_u.attach j, same.setSocket j fun _ => ⟨rfl, rfl⟩⟩, ?_⟩
      intro i open_i named
      by_cases this : i = j
      · rw [this, setSocket_self]
        exact .inr rfl
      · rw [setSocket_other this] at named ⊢
        rcases left i open_i named with waits | attached
        · rcases List.mem_cons.1 waits with now | later
          · have member := List.mem_of_find?_eq_some found
            have same_id := List.find?_some found
            simp only [decide_eq_true_eq] at same_id
            rw [List.mem_reverse, mem_socketsFor] at member
            refine absurd (kept.unique i (same.sockets i open_i) j member.1 ?_ ?_) this
            · rw [member.2, ← same.key, named]
            · rw [now, same_id]
          · exact .inl later
        · exact .inr attached
  · intro u same
    subst same
    exact ⟨⟨kept, OnlySockets.refl u⟩, fun i open_i named =>
      .inl (describesLiveSockets_ids describes (mem_socketsFor.2 ⟨open_i, named⟩))⟩
  · intro _ u ⟨done, left⟩
    exact ⟨done, fun i open_i named => (left i open_i named).resolve_left List.not_mem_nil⟩

theorem Kept.addPlacement (kept : Kept key slack s) (placement : Placement Configuration Key) :
    Kept key slack (s.addPlacement placement) := by
  have others : ∀ k p, s.workers k = some p → (s.addPlacement placement).placement p = s.placement p := by
    intro k p running
    have known := (kept.workers k p running).1
    simp [WorkerSupervisor.addPlacement, Nat.ne_of_lt known]
  refine { kept with workers := ?_, held := ?_, probing := ?_ }
  · intro k p running
    rw [others k p running]
    exact ⟨Nat.lt_succ_of_lt (kept.workers k p running).1, (kept.workers k p running).2⟩
  · intro i open_i tight frames
    obtain ⟨p, running, waits⟩ := kept.held i open_i tight frames
    exact ⟨p, running, by rw [others _ p running]; exact waits⟩
  · intro i open_i tight p running
    rw [others _ p running]
    exact kept.probing i open_i tight p running

/-- A new worker is registered under its key; its sockets have no port yet. -/
theorem Kept.spawned (kept : Kept key slack s) (whole : ∀ i, ¬ slack.torn i ∧ ¬ slack.loose i)
    (placement : Placement Configuration Key) (idle : s.workers placement.key = none)
    (unready : placement.readyNow = false) (unprobed : placement.hibernation = none) :
    Kept key { slack with torn := fun i => (s.socket i).key = placement.key }
      (((s.addPlacement placement).setWorker placement.key (some s.nextPlacement)).setHibernated
        placement.key none) := by
  have added := kept.addPlacement placement
  have fresh : (s.addPlacement placement).placement s.nextPlacement = placement := by
    simp [WorkerSupervisor.addPlacement]
  have runs : ∀ k p, ((s.addPlacement placement).setWorker placement.key (some s.nextPlacement)).workers k = some p →
      (k = placement.key ∧ p = s.nextPlacement) ∨ (k ≠ placement.key ∧ s.workers k = some p) := by
    intro k p running
    simp only [setWorker] at running
    split at running
    · rename_i same
      cases running
      exact .inl ⟨same, rfl⟩
    · rename_i other
      exact .inr ⟨other, running⟩
  refine { added with workers := ?_, attached := ?_, asleep := ?_, awake := ?_, held := ?_, probing := ?_ }
  · intro k p running
    rcases runs k p running with ⟨same, rfl⟩ | ⟨_, running⟩
    · exact ⟨Nat.lt_succ_self _, by rw [same]; exact congrArg Placement.key fresh⟩
    · exact added.workers k p running
  · intro i open_i other p running
    rcases runs _ p running with ⟨same, _⟩ | ⟨_, running⟩
    · exact absurd same other
    · exact added.attached i open_i (whole i).1 p running
  · intro i open_i other asleep
    have other' : (s.socket i).key ≠ placement.key := other
    have kept_asleep := kept.asleep i open_i (whole i).1
    simp only [setWorker, setHibernated, WorkerSupervisor.addPlacement, other', if_false] at asleep ⊢
    exact kept_asleep asleep
  · intro k p running
    rcases runs k p running with ⟨same, _⟩ | ⟨other, running⟩
    · simp [setHibernated, same]
    · simp only [setHibernated, other, if_false]
      exact added.awake k p running
  · intro i open_i _ frames
    obtain ⟨p, running, waits⟩ := added.held i open_i (whole i).2 frames
    have other : (s.socket i).key ≠ placement.key := by
      intro same
      have runs : s.workers (s.socket i).key = some p := running
      rw [same, idle] at runs
      cases runs
    refine ⟨p, ?_, waits⟩
    have runs : s.workers (s.socket i).key = some p := running
    simp only [setWorker, setHibernated, WorkerSupervisor.addPlacement, other, if_false]
    exact runs
  · intro i open_i tight p running uncanceled
    rcases runs _ p running with ⟨_, rfl⟩ | ⟨_, running⟩
    · have none_probe : ((s.addPlacement placement).placement s.nextPlacement).hibernation = some false := uncanceled
      rw [fresh, unprobed] at none_probe
      cases none_probe
    · exact added.probing i open_i tight p running uncanceled

/-- What `#spawn` leaves once its sockets are attached or ended. -/
theorem Kept.awoken {k : Key} {p : Nat} (kept : Kept key slack s) (loose : ∀ i, ¬ slack.loose i)
    (torn : ∀ i ∈ s.sockets, slack.torn i → (s.socket i).key = k) (running : s.workers k = some p)
    (ports : ∀ i ∈ s.sockets, (s.socket i).key = k → (s.socket i).port = true) :
    Kept key { slack with torn := fun _ => False, loose := fun _ => False } s := by
  refine { kept with attached := ?_, asleep := ?_, held := ?_, probing := ?_ }
  · intro i open_i _ q current
    by_cases torn_i : slack.torn i
    · exact ports i open_i (torn i open_i torn_i)
    · exact kept.attached i open_i torn_i q current
  · intro i open_i _ idle
    by_cases torn_i : slack.torn i
    · rw [torn i open_i torn_i, running] at idle
      cases idle
    · exact kept.asleep i open_i torn_i idle
  · exact fun i open_i _ => kept.held i open_i (loose i)
  · exact fun i open_i _ => kept.probing i open_i (loose i)

theorem sendInitialize_spec {k : Key} {p : Nat} (snapshot : Option Snapshot) (outcome : Spawn)
    (kept : Kept key slack s) (loose : ∀ i, ¬ slack.loose i)
    (torn : ∀ i ∈ s.sockets, slack.torn i → (s.socket i).key = k) (running : s.workers k = some p)
    (known : snapshot = none → ∀ i ∈ s.sockets, (s.socket i).key ≠ k) :
    Ensures (fun t => t = s) (sendInitialize quiet k snapshot outcome)
      (fun _ t => Kept key { slack with torn := fun _ => False, loose := fun _ => False } t ∧ OnlySockets s t)
      fun t => Kept key slack t ∧ OnlySockets s t := by
  have done : ∀ t, Kept key slack t ∧ OnlySockets s t →
      (∀ i ∈ t.sockets, (t.socket i).key = k → (t.socket i).port = true) →
      Kept key { slack with torn := fun _ => False, loose := fun _ => False } t := by
    intro t kept_same ports
    obtain ⟨kept_t, same⟩ := kept_same
    apply kept_t.awoken loose ?_ (by rw [same.workers]; exact running) ports
    intro i open_i torn_i
    rw [same.key]
    exact torn i (same.sockets i open_i) torn_i
  unfold sendInitialize
  refine Ensures.bind (Q := fun _ t => (Kept key slack t ∧ OnlySockets s t) ∧
    ∀ i ∈ t.sockets, (t.socket i).key = k → (t.socket i).port = true) ?_ fun _ t ready => ?_
  swap
  · obtain ⟨kept_t, ports⟩ := ready
    cases outcome with
    | postFails error => exact kept_t
    | ok | createFails | hostFails => exact ⟨done t kept_t ports, kept_t.2⟩
  cases snapshot with
  | none =>
    intro t same
    subst same
    exact ⟨⟨kept, OnlySockets.refl t⟩, fun i open_i named => absurd named (known rfl i open_i)⟩
  | some snapshot =>
    intro t same
    subst same
    rw [restoreSockets, state_bind]
    by_cases describes : t.describesLiveSockets k snapshot = true
    · simp only [describes, if_true]
      exact rehydrate_spec k snapshot kept describes t rfl
    · simp only [describes, Bool.false_eq_true, if_false]
      have ended := endSockets_spec .peer k 1011 "Worker snapshot no longer matches its transports" t t
        ⟨kept, OnlySockets.refl t⟩
      rcases ran : endSockets quiet .peer k 1011 "Worker snapshot no longer matches its transports" t with
        ⟨_ | _, u⟩ <;> simp only [ran] at ended ⊢
      exact ⟨ended.1, fun i open_i named => absurd named (ended.2 i open_i)⟩

theorem noSlack_whole (account : Account) (i : Nat) :
    ¬ Slack.torn { noSlack with account } i ∧ ¬ Slack.loose { noSlack with account } i :=
  ⟨id, id⟩

theorem spawned_running (s : WorkerSupervisor Configuration Key) (k : Key)
    (placement : Placement Configuration Key) (unprobed : placement.hibernation = none) :
    let t := ((s.addPlacement placement).setWorker k (some s.nextPlacement)).setHibernated k none
    t.workers k = some s.nextPlacement ∧ (t.placement s.nextPlacement).hibernation = none ∧
      t.placement s.nextPlacement = placement ∧ t.socket = s.socket := by
  simp [WorkerSupervisor.addPlacement, setWorker, setHibernated, unprobed]

theorem spawn_spec {account : Account} (configuration : Configuration) (outcome : Spawn)
    (kept : Kept key { noSlack with account } s) (idle : s.workers (key configuration) = none) :
    Ensures (fun t => t = s) (spawn key quiet configuration outcome)
      (fun p t => Kept key { noSlack with account } t ∧ t.workers (key configuration) = some p ∧
        (t.placement p).hibernation = none ∧ ∀ i, (t.socket i).configuration = (s.socket i).configuration)
      fun t => Kept key { noSlack with account } t := by
  have initializes : ∀ outcome : Spawn,
      Ensures (fun t => t = s)
        (do
          update fun s => (s.addPlacement {
            configuration, key := key configuration, readyNow := false, readiness := none, hibernation := none
            idle := false, idleTimer := false, probe := none, terminated := false }).setWorker
              (key configuration) (some s.nextPlacement)
          update fun s => s.setHibernated (key configuration) none
          attempt (sendInitialize quiet (key configuration) (s.hibernated (key configuration)) outcome)
            fun error => do
              discard quiet s.nextPlacement false
              raise error
          pure s.nextPlacement)
        (fun p t => Kept key { noSlack with account } t ∧ t.workers (key configuration) = some p ∧
          (t.placement p).hibernation = none ∧ ∀ i, (t.socket i).configuration = (s.socket i).configuration)
        fun s => Kept key { noSlack with account } s := by
    intro outcome t same
    rw [same]
    simp only [update_bind]
    let placement : Placement Configuration Key := {
      configuration, key := key configuration, readyNow := false, readiness := none, hibernation := none
      idle := false, idleTimer := false, probe := none, terminated := false }
    have spawned := kept.spawned (noSlack_whole account) placement idle rfl rfl
    obtain ⟨running, unprobed, named, sockets⟩ := spawned_running s (key configuration) placement rfl
    have restores := sendInitialize_spec (s.hibernated (key configuration)) outcome spawned (fun _ => id)
      (fun _ _ => id) running ?_
    · generalize ((s.addPlacement _).setWorker _ _).setHibernated _ none = u at *
      have attempted : Ensures (fun v => v = u)
          (attempt (sendInitialize quiet (key configuration) (s.hibernated (key configuration)) outcome)
            fun error => do
              discard quiet s.nextPlacement false
              raise error)
          (fun _ v => Kept key { noSlack with account } v ∧ OnlySockets u v)
          fun v => Kept key { noSlack with account } v := by
        refine Ensures.attempt restores fun error => Ensures.bind ((discard_spec
          { noSlack with account, torn := fun i => (s.socket i).key = key configuration }
          s.nextPlacement).weaken ?_ (fun _ _ => id) fun _ => False.elim) fun _ => Ensures.raise fun _ => id
        intro v ⟨kept_v, same⟩
        have keyed : (v.placement s.nextPlacement).key = key configuration := by
          rw [same.placement, named]
        have current : v.isCurrent s.nextPlacement = true := by
          rw [isCurrent_iff, keyed, same.workers]
          exact running
        refine ⟨kept_v, ?_, ?_⟩
        · intro _ i open_i torn
          rw [keyed, same.key, sockets]
          exact torn.resolve_right id
        · intro gone
          rw [current] at gone
          cases gone
      refine Ensures.bind attempted (fun _ => Ensures.pure ?_) u rfl
      intro v ⟨kept_v, same⟩
      refine ⟨kept_v, ?_, ?_⟩
      · rw [same.workers]
        exact running
      · rw [same.placement]
        exact ⟨unprobed, fun i => by rw [same.configuration, sockets]⟩
    · intro none_kept i open_i named
      apply kept.asleep i open_i id
      · rw [show (s.socket i).key = key configuration from named]
        exact idle
      · rw [show (s.socket i).key = key configuration from named]
        exact none_kept
  intro u same
  rw [same]
  cases outcome with
  | createFails => exact kept
  | hostFails => exact kept.addPlacement _
  | ok => exact initializes .ok s rfl
  | postFails error => exact initializes (.postFails error) s rfl

theorem ensure_spec {account : Account} (configuration : Configuration) (outcome : Spawn)
    (kept : Kept key { noSlack with account } s) :
    Ensures (fun t => t = s) (ensure key quiet configuration outcome)
      (fun p t => Kept key { noSlack with account } t ∧ t.workers (key configuration) = some p ∧
        (t.placement p).hibernation ≠ some false ∧
        ∀ i, (t.socket i).configuration = (s.socket i).configuration)
      (Kept key { noSlack with account }) := by
  intro u same
  subst same
  have known : Kept key { noSlack with account }
      (if u.identities.any fun c => key c = key configuration then u
        else { u with identities := u.identities ++ [configuration] }) ∧
      (if u.identities.any fun c => key c = key configuration then u
        else { u with identities := u.identities ++ [configuration] }).workers = u.workers ∧
      (if u.identities.any fun c => key c = key configuration then u
        else { u with identities := u.identities ++ [configuration] }).socket = u.socket := by
    split
    · exact ⟨kept, rfl, rfl⟩
    · exact ⟨{ kept with }, rfl, rfl⟩
  rw [ensure, state_bind]
  by_cases barred : (u.deletions.any fun d => (u.deletion d).includes configuration) = true
  · simp only [barred, if_true]
    exact kept
  · simp only [barred, Bool.false_eq_true, if_false]
    rw [identity, update_bind]
    generalize (if u.identities.any fun c => key c = key configuration then u
        else { u with identities := u.identities ++ [configuration] }) = t at known ⊢
    obtain ⟨kept_t, same, sockets⟩ := known
    rw [← sockets]
    cases running : u.workers (key configuration) with
    | none =>
      have spawned := spawn_spec configuration outcome kept_t (by rw [same, running]) t rfl
      dsimp only
      rcases ran : spawn key quiet configuration outcome t with ⟨_ | p, v⟩ <;> simp only [ran] at spawned ⊢
      · exact spawned
      · exact ⟨spawned.1, spawned.2.1, by rw [spawned.2.2.1]; simp, spawned.2.2.2⟩
    | some p =>
      simp only [update_bind, pure_run]
      refine ⟨kept_t.setPlacement p (fun _ => rfl) ?_ ?_, by rw [← same] at running; exact running, ?_, ?_⟩
      · intro i open_i tight current frames
        obtain ⟨q, current_q, waits⟩ := kept_t.held i open_i tight frames
        cases current.symm.trans current_q
        refine waits.imp_right ?_
        cases (t.placement p).hibernation <;> simp
      · intro i _ _ _ uncanceled
        cases probe : (t.placement p).hibernation <;> simp [probe] at uncanceled
      · rw [setPlacement_self]
        cases (t.placement p).hibernation <;> simp
      · exact fun _ => rfl

end Workers

section Frames

variable {key : Configuration → Key} {slack : Slack} {s : WorkerSupervisor Configuration Key}

theorem Kept.reaccount (kept : Kept key slack s) {account : Account}
    (same : ∀ i ∈ s.sockets, (s.socket i).closing = false →
      slack.account i (s.socket i).posted (s.socket i).pending (s.socket i).taken →
      account i (s.socket i).posted (s.socket i).pending (s.socket i).taken) :
    Kept key { slack with account } s :=
  { kept with accounted := fun i open_i live => same i open_i live (kept.accounted i open_i live) }

/-- How the account of a socket changes when it takes one more frame. -/
structure Takes (i : Nat) (frame : Frame) (account account' : Account) : Prop where
  others : ∀ j, j ≠ i → ∀ posted pending taken, account j posted pending taken →
    account' j posted pending taken
  pushed : ∀ posted pending taken, account i posted pending taken →
    account' i posted (pending ++ [frame]) taken
  posted : ∀ posted taken, account i posted [] taken → account' i (posted ++ [frame]) [] taken

theorem post_spec {i : Nat} {frame : Frame} {account : Account} (kept : Kept key slack s)
    (takes : Takes i frame slack.account account) (port : (s.socket i).port = true)
    (empty : i ∈ s.sockets → (s.socket i).pending = []) :
    Ensures (fun t => t = s) (post quiet i frame)
      (fun _ t => (Kept key { slack with account } t ∧ OnlySockets s t) ∧
        ((t.socket i).closed = true ∨
          (t.socket i).port = true ∧ (i ∈ t.sockets → (t.socket i).pending = [])))
      fun _ => False := by
  intro t same
  subst same
  have posted : Kept key { slack with account } (t.setSocket i fun c => { c with posted := c.posted ++ [frame] }) := by
    refine kept.setSocket i account (fun _ => ⟨rfl, rfl, rfl, rfl⟩) takes.others
      (fun open_i whole => kept.attached i open_i whole) (fun open_i tight => kept.held i open_i tight)
      (fun open_i tight => kept.probing i open_i tight) ?_
    intro open_i live
    have before := kept.accounted i open_i live
    rw [empty open_i] at before ⊢
    exact takes.posted _ _ before
  have same : OnlySockets t (t.setSocket i fun c => { c with posted := c.posted ++ [frame] }) :=
    (OnlySockets.refl t).setSocket i fun _ => ⟨rfl, rfl⟩
  rw [post, state_bind]
  simp only [port, if_true, update_bind]
  by_cases closes : frame.isClose = true
  · simp only [closes, if_true]
    have finished := finish_spec .peer i t _ ⟨posted, same⟩
    generalize t.setSocket i _ = u at finished ⊢
    rcases ran : finish quiet .peer i u with ⟨_ | _, v⟩ <;> simp only [ran] at finished ⊢
    exact ⟨finished.1, .inl finished.2.2⟩
  · simp only [closes]
    refine ⟨⟨posted, same⟩, .inr ?_⟩
    rw [setSocket_self]
    exact ⟨port, empty⟩

theorem receive_spec {i : Nat} {frame : Frame} {account account' : Account}
    (outcome : Spawn) (takes : Takes i frame account account')
    (kept : Kept key { noSlack with account } s) :
    Ensures (fun t => t = s) (receive key quiet i frame outcome)
      (fun _ t => Kept key { noSlack with account := account' } t)
      (Kept key { noSlack with account }) := by
  have unchanged : ∀ t : WorkerSupervisor Configuration Key, Kept key { noSlack with account } t →
      (i ∈ t.sockets → (t.socket i).closing = true) → Kept key { noSlack with account := account' } t := by
    intro t kept closing
    refine kept.reaccount ?_
    intro j open_j live
    by_cases same : j = i
    · subst same
      rw [closing open_j] at live
      cases live
    · exact takes.others j same _ _ _
  intro t same
  rw [same, receive, state_bind]
  by_cases done : (s.socket i).closed = true ∨ ((s.socket i).closing = true ∧ ¬ frame.isClose = true)
  · simp only [done, if_true]
    apply unchanged s kept
    intro open_i
    rcases done with closed | ⟨closing, _⟩
    · rw [(kept.registered i open_i).2.1] at closed
      cases closed
    · exact closing
  simp only [done, if_false]
  have ensured := ensure_spec (s.socket i).configuration outcome kept s rfl
  rw [bind_run]
  rcases ran : ensure key quiet (s.socket i).configuration outcome s with ⟨_ | p, t⟩ <;>
    simp only [ran] at ensured ⊢
  · exact ensured
  obtain ⟨kept_t, running, uncanceled, named⟩ := ensured
  have current : i ∈ t.sockets → t.workers (t.socket i).key = some p := by
    intro open_i
    rw [(kept_t.registered i open_i).2.2, named]
    exact running
  rw [state_bind]
  by_cases closed : (t.socket i).closed = true
  · simp only [closed, if_true]
    apply unchanged t kept_t
    intro open_i
    rw [(kept_t.registered i open_i).2.1] at closed
    cases closed
  simp only [closed, Bool.false_eq_true, if_false]
  -- attaching a port changes nothing that the frame depends on
  have sends : ∀ u : WorkerSupervisor Configuration Key, Kept key { noSlack with account } u →
      OnlySockets t u → (u.socket i).port = true →
      Ensures (fun v => v = u)
        (if ¬ (t.placement p).readyNow = true ∨ (t.placement p).hibernation.isSome = true then
          update fun s => s.setSocket i fun c => { c with pending := c.pending ++ [frame] }
        else post quiet i frame : Act Configuration Key Unit)
        (fun _ v => Kept key { noSlack with account := account' } v)
        (Kept key { noSlack with account }) := by
    intro u kept_u same port v this
    rw [this]
    have current_u : i ∈ u.sockets → u.workers (u.socket i).key = some p := by
      intro open_i
      rw [same.workers, same.key]
      exact current (same.sockets i open_i)
    by_cases waits : ¬ (t.placement p).readyNow = true ∨ (t.placement p).hibernation.isSome = true
    · simp only [waits, if_true, update_run]
      refine kept_u.setSocket i account' (fun _ => ⟨rfl, rfl, rfl, rfl⟩) takes.others
        (fun open_i whole => kept_u.attached i open_i whole) ?_ ?_ ?_
      · intro open_i _ _
        refine ⟨p, current_u open_i, ?_⟩
        rw [same.placement]
        refine waits.imp (fun unready => by simpa using unready) ?_
        intro probing none_probing
        rw [none_probing] at probing
        cases probing
      · intro open_i _ q running_q probing
        cases (current_u open_i).symm.trans running_q
        rw [same.placement] at probing
        exact absurd probing uncanceled
      · intro open_i live
        exact takes.pushed _ _ _ (kept_u.accounted i open_i live)
    · have empty : i ∈ u.sockets → (u.socket i).pending = [] := by
        intro open_i
        by_contra frames
        obtain ⟨q, running_q, held⟩ := kept_u.held i open_i id frames
        cases (current_u open_i).symm.trans running_q
        rw [same.placement] at held
        apply waits
        refine held.imp (fun unready => by simp [unready]) ?_
        intro probing
        exact Option.isSome_iff_ne_none.2 probing
      simp only [waits, if_false]
      have posted := post_spec kept_u takes port empty u rfl
      rcases ran : post quiet i frame u with ⟨_ | _, v⟩ <;> simp only [ran] at posted ⊢
      exact posted.1.1
  by_cases port : (t.socket i).port = true
  · simp only [port, if_true]
    exact sends t kept_t (OnlySockets.refl t) port t rfl
  · simp only [port, Bool.false_eq_true, if_false]
    exact sends _ (kept_t.attach i) ((OnlySockets.refl t).setSocket i fun _ => ⟨rfl, rfl⟩)
      (by rw [setSocket_self]) _ rfl

/-- The account while the frames `rest` of a socket wait to be posted. -/
def posting (i : Nat) (rest : List Frame) : Account := fun j posted pending taken =>
  if j = i then posted ++ pending ++ rest = taken else posted ++ pending = taken

theorem posting_takes (i : Nat) (frame : Frame) (rest : List Frame) :
    Takes i frame (posting i (frame :: rest)) (posting i rest) := by
  refine ⟨?_, ?_, ?_⟩
  · intro j other posted pending taken before
    simpa [posting, other] using before
  · intro posted pending taken before
    simpa [posting] using before
  · intro posted taken before
    simpa [posting] using before

theorem postAll_spec {i : Nat} {frames : List Frame} (kept : Kept key { slack with account := posting i frames } s)
    (port : (s.socket i).port = true) (empty : i ∈ s.sockets → (s.socket i).pending = []) :
    Ensures (fun t => t = s) (postAll quiet i frames)
      (fun _ t => (Kept key { slack with account := balanced } t ∧ OnlySockets s t) ∧
        (i ∈ t.sockets → (t.socket i).pending = []))
      fun _ => False := by
  have settled : ∀ t : WorkerSupervisor Configuration Key, ∀ rest, (i ∈ t.sockets → rest = []) →
      Kept key { slack with account := posting i rest } t → Kept key { slack with account := balanced } t := by
    intro t rest none_left kept_t
    refine kept_t.reaccount ?_
    intro j open_j _ before
    by_cases same : j = i
    · subst same
      simpa [posting, balanced, none_left open_j] using before
    · simpa [posting, balanced, same] using before
  induction frames generalizing s with
  | nil =>
    intro t same
    rw [same]
    exact ⟨⟨settled s [] (fun _ => rfl) kept, OnlySockets.refl s⟩, empty⟩
  | cons frame rest ih =>
    intro t same
    rw [same]
    have posted := post_spec kept (posting_takes i frame rest) port empty s rfl
    rw [postAll, bind_run]
    rcases ran : post quiet i frame s with ⟨_ | _, u⟩ <;> simp only [ran] at posted ⊢
    obtain ⟨⟨kept_u, same_u⟩, next⟩ := posted
    rw [state_bind]
    by_cases closed : (u.socket i).closed = true
    · simp only [closed, if_true]
      have gone : i ∉ u.sockets := by
        intro open_i
        rw [(kept_u.registered i open_i).2.1] at closed
        cases closed
      exact ⟨⟨settled u rest (fun open_i => absurd open_i gone) kept_u, same_u⟩, fun open_i => absurd open_i gone⟩
    · simp only [closed, Bool.false_eq_true, if_false]
      obtain ⟨port_u, empty_u⟩ := next.resolve_left closed
      have later := ih kept_u port_u empty_u u rfl
      rcases ran : postAll quiet i rest u with ⟨_ | _, v⟩ <;> simp only [ran] at later ⊢
      exact ⟨⟨later.1.1, same_u.trans later.1.2⟩, later.2⟩

theorem Kept.reloose (kept : Kept key slack s) {loose : Nat → Prop}
    (tight : ∀ i ∈ s.sockets, ¬ loose i → ¬ slack.loose i ∨ (s.socket i).pending = []) :
    Kept key { slack with loose } s := by
  refine { kept with held := ?_, probing := ?_ }
  · intro i open_i loose_i frames
    rcases tight i open_i loose_i with tight_i | empty
    · exact kept.held i open_i tight_i frames
    · exact absurd empty frames
  · intro i open_i loose_i p running probing
    rcases tight i open_i loose_i with tight_i | empty
    · exact kept.probing i open_i tight_i p running probing
    · exact empty

/-- `#flush` of a placement whose sockets are all attached: what they held is posted. -/
theorem flush_spec (p : Nat)
    (kept : Kept key { noSlack with loose := fun i => (s.socket i).key = (s.placement p).key } s)
    (current : s.isCurrent p = true)
    (waits : (s.placement p).readyNow = false ∨ (s.placement p).hibernation ≠ none →
      Kept key noSlack s) :
    Ensures (fun t => t = s) (flush quiet p)
      (fun _ t => Kept key noSlack t ∧ OnlySockets s t) fun _ => False := by
  rw [isCurrent_iff] at current
  intro t same
  rw [same, flush, state_bind]
  by_cases idle : ¬ (s.placement p).readyNow = true ∨ (s.placement p).hibernation.isSome = true
  · simp only [idle, if_true]
    refine ⟨waits (idle.imp (fun unready => by simpa using unready) Option.isSome_iff_ne_none.1), OnlySockets.refl s⟩
  simp only [idle, if_false]
  refine (Ensures.forEach (E := fun _ => False) (fun rest (u : WorkerSupervisor Configuration Key) =>
    (Kept key { noSlack with loose := fun i => i ∈ rest } u ∧ OnlySockets s u) ∧
      ∀ i ∈ rest, (s.socket i).key = (s.placement p).key) ?_).weaken (R := fun u => u = s) ?_ ?_
      (fun _ => id) s rfl
  · intro i rest u ⟨⟨kept_u, same_u⟩, named⟩
    have running : u.workers (u.socket i).key = some p := by
      rw [same_u.workers, same_u.key, named i List.mem_cons_self]
      exact current
    have later : ∀ j ∈ rest, (s.socket j).key = (s.placement p).key :=
      fun j member => named j (List.mem_cons_of_mem i member)
    rw [state_bind]
    by_cases port : (u.socket i).port = true
    · simp only [port, if_true, update_bind]
      have taken : Kept key { noSlack with
          loose := fun j => j ∈ i :: rest, account := posting i (u.socket i).pending }
          (u.setSocket i fun c => { c with pending := [] }) := by
        refine kept_u.setSocket i _ (fun _ => ⟨rfl, rfl, rfl, rfl⟩) ?_
          (fun open_i whole => kept_u.attached i open_i whole) (fun _ _ frames => absurd rfl frames)
          (fun _ _ _ _ _ => rfl) ?_
        · intro j other posted pending taken before
          simpa [posting, balanced, noSlack, other] using before
        · intro open_i live
          have before := kept_u.accounted i open_i live
          simpa [posting, balanced, noSlack] using before
      have same_v : OnlySockets u (u.setSocket i fun c => { c with pending := [] }) :=
        (OnlySockets.refl u).setSocket i fun _ => ⟨rfl, rfl⟩
      have taken' : Kept key { { noSlack with loose := fun j => j ∈ i :: rest } with
          account := posting i (u.socket i).pending } (u.setSocket i fun c => { c with pending := [] }) := taken
      have posted := postAll_spec taken'
        (by rw [setSocket_self]; exact port) (fun _ => by rw [setSocket_self]) _ rfl
      generalize u.setSocket i _ = v at same_v posted ⊢
      rcases ran : postAll quiet i (u.socket i).pending v with ⟨_ | _, w⟩ <;> simp only [ran] at posted ⊢
      obtain ⟨⟨kept_w, same_w⟩, empty⟩ := posted
      refine ⟨⟨kept_w.reloose ?_, same_u.trans (same_v.trans same_w)⟩, later⟩
      intro j open_j left
      by_cases this : j = i
      · subst this
        exact .inr (empty open_j)
      · exact .inl fun member => (List.mem_cons.1 member).elim this left
    · simp only [port, Bool.false_eq_true, if_false]
      refine ⟨⟨kept_u.reloose ?_, same_u⟩, later⟩
      intro j open_j left
      refine .inl fun member => ?_
      rcases List.mem_cons.1 member with rfl | member
      · exact port (kept_u.attached j open_j id p running)
      · exact left member
  · intro u same_u
    rw [same_u]
    refine ⟨⟨kept.reloose ?_, OnlySockets.refl s⟩, fun i member => (mem_socketsFor.1 member).2⟩
    exact fun i open_i left => .inl fun named => left (mem_socketsFor.2 ⟨open_i, named⟩)
  · intro _ u ⟨⟨kept_u, same_u⟩, _⟩
    refine ⟨kept_u.reloose ?_, same_u⟩
    exact fun i _ _ => .inl List.not_mem_nil

/-- A placement turns ready, or leaves its probe, and delivers what its sockets held. -/
theorem wake_spec (p : Nat)
    {f : Placement Configuration Key → Placement Configuration Key} (name : ∀ q, (f q).key = q.key)
    (calm : ∀ q : Placement Configuration Key, (f q).hibernation = some false → q.hibernation = some false)
    (still : ∀ q : Placement Configuration Key, (f q).readyNow = false ∨ (f q).hibernation ≠ none →
      q.readyNow = false ∨ q.hibernation ≠ none)
    (kept : Kept key noSlack s) (current : s.isCurrent p = true) :
    Ensures (fun t => t = s.setPlacement p f) (flush quiet p)
      (fun _ t => Kept key noSlack t) fun _ => False := by
  have named : ((s.setPlacement p f).placement p).key = (s.placement p).key := by
    rw [setPlacement_self, name]
  refine (flush_spec p ?_ ?_ ?_).weaken (fun _ => id) (fun _ _ done => done.1) fun _ => id
  · have loosened : Kept key { noSlack with loose := fun i => (s.socket i).key = (s.placement p).key } s :=
      kept.reloose fun _ _ _ => .inl id
    rw [named]
    apply loosened.setPlacement p name
    · intro i open_i loose running
      exact absurd (kept.workers _ p running).2.symm loose
    · intro i open_i loose running
      exact absurd (kept.workers _ p running).2.symm loose
  · rw [isCurrent_iff, named]
    exact (isCurrent_iff p).1 current
  · intro waits
    rw [setPlacement_self] at waits
    apply kept.setPlacement p name
    · intro i open_i _ running frames
      exact waits
    · intro i open_i tight running probing
      exact kept.probing i open_i tight p running (calm _ probing)

theorem resume_spec (p : Nat) (kept : Kept key noSlack s)
    (current : s.isCurrent p = true) :
    Ensures (fun t => t = s) (resume quiet p) (fun _ t => Kept key noSlack t) fun _ => False := by
  intro t same
  rw [same, resume, update_bind]
  refine wake_spec p (f := fun q => { q with hibernation := none }) (fun _ => rfl) (fun _ probing => ?_)
    (fun _ waits => ?_) kept current _ rfl
  · cases probing
  · exact waits.imp_right fun probing => absurd rfl probing

theorem scheduleIdle_keeps (p : Nat) (slack : Slack) :
    Keeps (Kept key slack : WorkerSupervisor Configuration Key → Prop) (scheduleIdle p) :=
  Keeps.update fun _ kept => kept.setPlacement_same p fun _ => ⟨rfl, rfl, rfl⟩

/-- The account of a socket that is closing asks nothing. -/
def closingAt (i : Nat) : Account := fun j posted pending taken => j ≠ i ∧ balanced j posted pending taken

theorem closingAt_takes (i : Nat) (frame : Frame) : Takes i frame (closingAt i) (closingAt i) :=
  ⟨fun _ _ _ _ _ => id, fun _ _ _ before => absurd rfl before.1, fun _ _ before => absurd rfl before.1⟩

theorem close_keeps {i code : Nat} {reason : String} {notifyPeer : Bool} {outcome : Spawn} :
    Keeps (Kept key noSlack : WorkerSupervisor Configuration Key → Prop)
      (close key quiet i code reason notifyPeer outcome) := by
  intro s kept
  rw [close, state_bind]
  by_cases done : (s.socket i).closed = true ∨ (s.socket i).closing = true
  · simp only [done, if_true]
    exact kept
  simp only [done, if_false, update_bind]
  have closing : Kept key { noSlack with account := closingAt i }
      (s.setSocket i fun c => { c with closing := true }) :=
    kept.setSocket i (closingAt i) (fun _ => ⟨rfl, rfl, rfl, rfl⟩) (fun j other _ _ _ before => ⟨other, before⟩)
      (fun open_i whole => kept.attached i open_i whole) (fun open_i tight => kept.held i open_i tight)
      (fun open_i tight => kept.probing i open_i tight) (fun _ live => by cases live)
  have received := receive_spec outcome (closingAt_takes i (.close code reason)) closing
  have settles : ∀ t : WorkerSupervisor Configuration Key,
      Kept key { noSlack with account := closingAt i } t → Kept key noSlack t :=
    fun t kept_t => kept_t.reaccount fun j _ _ before => before.2
  have kept_after := received.weaken (fun _ => id) (fun _ => settles) settles
  cases notifyPeer with
  | true => exact kept_after _ rfl
  | false => exact kept_after _ rfl

theorem closeSockets_keeps (site : Site) (configuration : Configuration) (code : Nat) (reason : String)
    :
    Ensures (Kept key noSlack : WorkerSupervisor Configuration Key → Prop)
      (closeSockets key quiet site configuration code reason) (fun _ => Kept key noSlack)
      fun _ => False := by
  intro s kept
  rw [closeSockets, update_bind]
  have torn : Kept key { noSlack with torn := fun i => (s.socket i).key = key configuration }
      (s.setHibernated (key configuration) none) := by
    refine { kept with attached := ?_, asleep := ?_, awake := ?_ }
    · exact fun i open_i _ => kept.attached i open_i id
    · intro i open_i other asleep
      have other' : (s.socket i).key ≠ key configuration := other
      simp only [setHibernated, other', if_false]
      exact kept.asleep i open_i id asleep
    · intro k p running
      by_cases same : k = key configuration
      · simp [setHibernated, same]
      · simp only [setHibernated, same, if_false]
        exact kept.awake k p running
  have ended := endSockets_spec site (key configuration) code reason _ _ ⟨torn, OnlySockets.refl _⟩
  generalize source : s.setHibernated (key configuration) none = u at ended ⊢
  have sockets : ∀ i, (u.socket i).key = (s.socket i).key := by
    intro i
    rw [← source]
    rfl
  rcases ran : endSockets quiet site (key configuration) code reason u with ⟨_ | _, v⟩ <;>
    simp only [ran] at ended ⊢
  obtain ⟨⟨kept_v, same⟩, gone⟩ := ended
  apply kept_v.tighten
  intro i open_i
  refine ⟨?_, id⟩
  intro named
  apply gone i open_i
  rw [same.key, sockets]
  exact named

theorem stop_keeps (configuration : Configuration) (reason : String) :
    Ensures (Kept key noSlack : WorkerSupervisor Configuration Key → Prop)
      (stop key quiet configuration reason) (fun _ => Kept key noSlack) fun _ => False := by
  intro s kept
  rw [stop, state_bind]
  cases s.workers (key configuration) with
  | some p =>
    exact discard_spec noSlack p s ⟨kept, fun _ _ _ slackens => by simp [noSlack] at slackens,
      fun _ _ _ => ⟨id, id⟩⟩
  | none => exact closeSockets_keeps .peer configuration 1011 reason s kept

theorem identity_keeps (configuration : Configuration) (slack : Slack) :
    Keeps (Kept key slack : WorkerSupervisor Configuration Key → Prop) (identity key configuration) := by
  apply Keeps.update
  intro s kept
  split
  · exact kept
  · exact { kept with }

theorem delete_keeps (configuration : Configuration) (includes : Configuration → Bool) :
    Keeps (Kept key noSlack : WorkerSupervisor Configuration Key → Prop)
      (delete key quiet configuration includes) := by
  apply Keeps.bind (identity_keeps configuration _)
  intro _
  apply Keeps.state
  intro s _
  apply Keeps.bind (Keeps.update fun _ kept => { kept with })
  intro _
  apply Keeps.forEach
  intro target _
  apply Keeps.attempt
  · apply Keeps.bind
    · exact (closeSockets_keeps .peerOfDelete target 1001 "Worker deleted").weaken (fun _ => id) (fun _ _ => id)
        fun _ => False.elim
    · exact fun _ => (stop_keeps target "Worker deleted").weaken (fun _ => id) (fun _ _ => id) fun _ => False.elim
  · exact fun _ => Keeps.update fun _ kept => { kept with }

end Frames

section Untouched

variable {key : Configuration → Key}

/-- No socket but those registered in `s₀` differs, and none is registered anew. -/
structure Untouched (s₀ s : WorkerSupervisor Configuration Key) : Prop where
  nextSocket : s.nextSocket = s₀.nextSocket
  sockets : ∀ i ∈ s.sockets, i ∈ s₀.sockets
  others : ∀ i, i ∉ s₀.sockets → s.socket i = s₀.socket i
  names : ∀ i, (s.socket i).key = (s₀.socket i).key ∧ (s.socket i).id = (s₀.socket i).id

variable {s₀ : WorkerSupervisor Configuration Key}

theorem Untouched.setSocket {s : WorkerSupervisor Configuration Key} (untouched : Untouched s₀ s) {i : Nat}
    (registered : i ∈ s₀.sockets) {f : Socket Configuration Key → Socket Configuration Key}
    (name : ∀ c, (f c).key = c.key ∧ (f c).id = c.id) : Untouched s₀ (s.setSocket i f) := by
  refine ⟨untouched.nextSocket, untouched.sockets, ?_, ?_⟩
  · intro j other
    rw [setSocket_other fun same => other (by rw [same]; exact registered)]
    exact untouched.others j other
  · intro j
    by_cases same : j = i
    · rw [same, setSocket_self, (name _).1, (name _).2]
      exact untouched.names i
    · rw [setSocket_other same]
      exact untouched.names j

theorem finish_untouched (site : Site) {i : Nat} (registered : i ∈ s₀.sockets) :
    Keeps (Untouched s₀) (finish quiet site i) := by
  apply Keeps.state
  intro s untouched
  split
  · exact Keeps.pure
  · apply Keeps.bind (Keeps.update ?_) fun _ => Keeps.pure
    intro t untouched
    exact Untouched.setSocket (s := { t with sockets := t.sockets.erase i }) ⟨untouched.nextSocket,
      fun j open_j => untouched.sockets j (List.mem_of_mem_erase open_j), untouched.others, untouched.names⟩ registered
      fun _ => ⟨rfl, rfl⟩

theorem endSocket_untouched (site : Site) {i : Nat} (registered : i ∈ s₀.sockets) (close : Frame) :
    Keeps (Untouched s₀) (endSocket quiet site i close) :=
  Keeps.bind (Keeps.update fun _ untouched => untouched.setSocket registered fun _ => ⟨rfl, rfl⟩) fun _ =>
    finish_untouched site registered

theorem endSockets_untouched (site : Site) (k : Key) (code : Nat) (reason : String) :
    Keeps (Untouched s₀) (endSockets quiet site k code reason) := by
  apply Keeps.state
  intro s untouched
  apply Keeps.forEach
  intro i named
  exact endSocket_untouched site (untouched.sockets i (mem_socketsFor.1 named).1) _

theorem discard_untouched (p : Nat) : Keeps (Untouched s₀) (discard quiet p false) := by
  apply Keeps.state
  intro s untouched
  split
  · apply Keeps.bind (Keeps.update fun _ untouched => { untouched with })
    intro _
    apply Keeps.bind (Keeps.update fun _ untouched => { untouched with })
    intro _
    apply Keeps.bind
    · apply Keeps.forEach
      intro i named
      have registered := untouched.sockets i (mem_socketsFor.1 named).1
      exact Keeps.bind (Keeps.update fun _ untouched => untouched.setSocket registered fun _ => ⟨rfl, rfl⟩) fun _ =>
        endSocket_untouched .peerOfDiscard registered _
    · exact fun _ => Keeps.bind (Keeps.update fun _ untouched => { untouched with }) fun _ => Keeps.pure
  · exact Keeps.pure

theorem restoreSockets_untouched (k : Key) (snapshot : Option Snapshot) :
    Keeps (Untouched s₀) (restoreSockets quiet k snapshot) := by
  cases snapshot with
  | none => exact Keeps.pure
  | some snapshot =>
    apply Keeps.state
    intro s untouched
    split
    · apply Keeps.state
      intro t untouched
      apply Keeps.forEach
      intro id _
      split
      · rename_i i found
        have named := List.mem_of_find?_eq_some found
        rw [List.mem_reverse, mem_socketsFor] at named
        exact Keeps.update fun _ still => still.setSocket (untouched.sockets i named.1) fun _ => ⟨rfl, rfl⟩
      · exact Keeps.raise
    · exact endSockets_untouched .peer k 1011 _

theorem ensure_untouched (configuration : Configuration) (outcome : Spawn) :
    Keeps (Untouched s₀) (ensure key quiet configuration outcome) := by
  have initializes : ∀ k snapshot outcome, Keeps (Untouched s₀) (sendInitialize quiet k snapshot outcome) := by
    intro k snapshot outcome
    apply Keeps.bind (restoreSockets_untouched k snapshot)
    intro _
    split
    · exact Keeps.raise
    · exact Keeps.pure
  have spawns : Keeps (Untouched s₀) (spawn key quiet configuration outcome) := by
    apply Keeps.state
    intro s _
    dsimp only
    split
    · exact Keeps.raise
    · exact Keeps.bind (Keeps.update fun _ untouched => { untouched with }) fun _ => Keeps.raise
    · apply Keeps.bind (Keeps.update fun _ untouched => { untouched with })
      intro _
      apply Keeps.bind (Keeps.update fun _ untouched => { untouched with })
      intro _
      apply Keeps.bind
      · apply Keeps.attempt (initializes _ _ _)
        exact fun _ => Keeps.bind (discard_untouched _) fun _ => Keeps.raise
      · exact fun _ => Keeps.pure
  apply Keeps.state
  intro s _
  split
  · exact Keeps.raise
  · apply Keeps.bind
    · apply Keeps.update
      intro t untouched
      split
      · exact untouched
      · exact { untouched with }
    · intro _
      split
      · exact spawns
      · exact Keeps.bind (Keeps.update fun _ untouched => { untouched with }) fun _ => Keeps.pure

end Untouched

section Calls

variable {key : Configuration → Key}

/-- Registering a socket whose key has a worker, and attaching it. -/
theorem Kept.register {s : WorkerSupervisor Configuration Key} (kept : Kept key noSlack s) {i p : Nat}
    (known : i < s.nextSocket) (unregistered : i ∉ s.sockets) (live : (s.socket i).closed = false)
    (named : (s.socket i).key = key (s.socket i).configuration)
    (unique : ∀ j ∈ s.sockets, (s.socket j).key = (s.socket i).key → (s.socket j).id ≠ (s.socket i).id)
    (running : s.workers (s.socket i).key = some p) (empty : (s.socket i).pending = [])
    (untaken : (s.socket i).posted = [] ∧ (s.socket i).taken = []) :
    Kept key noSlack ({ s with sockets := s.sockets ++ [i] }.setSocket i fun c => { c with port := true }) := by
  have member : ∀ j, j ∈ s.sockets ++ [i] ↔ j ∈ s.sockets ∨ j = i := by simp
  have others : ∀ j ∈ s.sockets, ({ s with sockets := s.sockets ++ [i] }.setSocket i fun c =>
      { c with port := true }).socket j = s.socket j := by
    intro j open_j
    apply setSocket_other
    intro same
    rw [same] at open_j
    exact unregistered open_j
  have this : ({ s with sockets := s.sockets ++ [i] }.setSocket i fun c => { c with port := true }).socket i =
      { s.socket i with port := true } := setSocket_self i _
  refine ⟨?_, ?_, ?_, kept.workers, ?_, ?_, kept.awake, ?_, ?_, ?_⟩
  · intro j open_j
    rcases (member j).1 open_j with open_j | rfl
    · rw [others j open_j]
      exact kept.registered j open_j
    · rw [this]
      exact ⟨known, live, named⟩
  · change (s.sockets ++ [i]).Nodup
    rw [List.nodup_append]
    refine ⟨kept.nodup, List.nodup_singleton i, ?_⟩
    intro j open_j l same
    rw [List.mem_singleton.1 same]
    intro eq
    rw [eq] at open_j
    exact unregistered open_j
  · intro j open_j l open_l
    rcases (member j).1 open_j with old_j | rfl <;> rcases (member l).1 open_l with old_l | rfl
    · rw [others j old_j, others l old_l]
      exact kept.unique j old_j l old_l
    · rw [others j old_j, this]
      exact fun same_key same_id => absurd same_id (unique j old_j same_key)
    · rw [others l old_l, this]
      exact fun same_key same_id => absurd same_id.symm (unique l old_l same_key.symm)
    · exact fun _ _ => rfl
  · intro j open_j whole q running_q
    rcases (member j).1 open_j with open_j | rfl
    · rw [others j open_j] at running_q ⊢
      exact kept.attached j open_j whole q running_q
    · rw [this]
  · intro j open_j whole asleep
    rcases (member j).1 open_j with open_j | rfl
    · rw [others j open_j] at asleep ⊢
      exact kept.asleep j open_j whole asleep
    · rw [this] at asleep
      rw [show s.workers (s.socket j).key = none from asleep] at running
      cases running
  · intro j open_j tight frames
    rcases (member j).1 open_j with open_j | rfl
    · rw [others j open_j] at frames ⊢
      exact kept.held j open_j tight frames
    · rw [this] at frames
      exact absurd empty frames
  · intro j open_j tight q running_q probing
    rcases (member j).1 open_j with open_j | rfl
    · rw [others j open_j] at running_q ⊢
      exact kept.probing j open_j tight q running_q probing
    · rw [this]
      exact empty
  · intro j open_j
    rcases (member j).1 open_j with open_j | rfl
    · rw [others j open_j]
      exact kept.accounted j open_j
    · rw [this]
      intro _
      change (s.socket j).posted ++ (s.socket j).pending = (s.socket j).taken
      rw [empty, untaken.1, untaken.2]
      rfl

theorem Kept.addSocket {s : WorkerSupervisor Configuration Key} (kept : Kept key noSlack s)
    (c : Socket Configuration Key) : Kept key noSlack (s.addSocket c) := by
  have same : ∀ i ∈ s.sockets, (s.addSocket c).socket i = s.socket i := by
    intro i open_i
    simp [WorkerSupervisor.addSocket, Nat.ne_of_lt (kept.registered i open_i).1]
  refine ⟨?_, kept.nodup, ?_, kept.workers, ?_, ?_, kept.awake, ?_, ?_, ?_⟩
  · intro i open_i
    rw [same i open_i]
    exact ⟨Nat.lt_succ_of_lt (kept.registered i open_i).1, (kept.registered i open_i).2⟩
  · intro i open_i j open_j
    rw [same i open_i, same j open_j]
    exact kept.unique i open_i j open_j
  · intro i open_i
    rw [same i open_i]
    exact kept.attached i open_i
  · intro i open_i
    rw [same i open_i]
    exact kept.asleep i open_i
  · intro i open_i
    rw [same i open_i]
    exact kept.held i open_i
  · intro i open_i
    rw [same i open_i]
    exact kept.probing i open_i
  · intro i open_i
    rw [same i open_i]
    exact kept.accounted i open_i

theorem finish_keeps (site : Site) (i : Nat) (slack : Slack) :
    Keeps (Kept key slack : WorkerSupervisor Configuration Key → Prop) (finish quiet site i) := by
  intro s kept
  have finished := finish_spec site i s s ⟨kept, OnlySockets.refl s⟩
  rcases ran : finish quiet site i s with ⟨_ | _, t⟩ <;> simp only [ran] at finished ⊢
  exact finished.1.1

theorem connect_keeps (configuration : Configuration) (id : String) (outcome : Spawn) :
    Keeps (Kept key noSlack : WorkerSupervisor Configuration Key → Prop)
      (connect key quiet configuration id outcome) := by
  intro s kept
  rw [connect, state_bind, update_bind]
  generalize made : ({
    configuration, id, key := key configuration, pending := [], closed := false, closing := false, port := false
    posted := [], taken := [] } : Socket Configuration Key) = c
  have added := kept.addSocket c
  have unregistered : s.nextSocket ∉ s.sockets := fun open_i =>
    Nat.lt_irrefl _ (kept.registered _ open_i).1
  cases found : (s.socketsFor (key configuration)).find? fun j => (s.socket j).id = id with
  | some previous =>
    exact (close_keeps.bind fun _ => finish_keeps .peer s.nextSocket noSlack) _ added
  | none =>
    have untouched : Keeps (Untouched (s.addSocket c)) (ensure key quiet configuration outcome) :=
      ensure_untouched configuration outcome
    have ensured := (ensure_spec configuration outcome added).and_keeps untouched
    have begins : Untouched (s.addSocket c) (s.addSocket c) :=
      ⟨rfl, fun _ member => member, fun _ _ => rfl, fun _ => ⟨rfl, rfl⟩⟩
    have fresh : (s.addSocket c).socket s.nextSocket = c := by simp [WorkerSupervisor.addSocket]
    refine Ensures.attempt (Ensures.bind ensured (T := fun _ => Kept key noSlack) ?_) (fun e =>
      ((finish_keeps .peer s.nextSocket noSlack).bind fun _ => Keeps.raise).weaken (fun _ kept => kept.1)
        (fun _ _ kept => kept) fun _ kept => kept) _ ⟨rfl, begins⟩
    intro p t ⟨⟨kept_t, running, _, _⟩, untouched⟩
    have this : t.socket s.nextSocket = c := (untouched.others _ unregistered).trans fresh
    apply kept_t.register (i := s.nextSocket) (p := p)
    · rw [untouched.nextSocket]
      exact Nat.lt_succ_self s.nextSocket
    · exact fun open_i => unregistered (untouched.sockets _ open_i)
    · rw [this, ← made]
    · rw [this, ← made]
    · intro j open_j
      have old : j ∈ s.sockets := untouched.sockets j open_j
      have same : (s.addSocket c).socket j = s.socket j := by
        simp [WorkerSupervisor.addSocket, Nat.ne_of_lt (kept.registered j old).1]
      rw [this, ← made, (untouched.names j).1, (untouched.names j).2, same]
      intro same_key same_id
      have other := List.find?_eq_none.1 found j (mem_socketsFor.2 ⟨old, same_key⟩)
      exact other (by simpa using same_id)
    · rw [this, ← made]
      exact running
    · rw [this, ← made]
    · rw [this, ← made]
      exact ⟨rfl, rfl⟩

theorem Kept.cancel {slack : Slack} {s : WorkerSupervisor Configuration Key} (kept : Kept key slack s) (p : Nat)
    {f : Placement Configuration Key → Placement Configuration Key}
    (same : ∀ q, (f q).key = q.key ∧ (f q).readyNow = q.readyNow ∧
      (f q).hibernation = q.hibernation.map fun _ => true) : Kept key slack (s.setPlacement p f) := by
  apply kept.setPlacement p fun q => (same q).1
  · intro i open_i tight running frames
    obtain ⟨q, running_q, waits⟩ := kept.held i open_i tight frames
    cases running.symm.trans running_q
    rw [(same _).2.1, (same _).2.2]
    refine waits.imp_right ?_
    cases (s.placement p).hibernation <;> simp
  · intro i _ _ _ probing
    rw [(same _).2.2] at probing
    cases probe : (s.placement p).hibernation <;> simp [probe] at probing

theorem hibernate_spec (p : Nat) (byTimer : Bool) {s : WorkerSupervisor Configuration Key}
    (kept : Kept key noSlack s)
    (empty : s.isCurrent p = true → (s.placement p).hibernation = none → ∀ i ∈ s.sockets,
      (s.socket i).key = (s.placement p).key → (s.socket i).pending = []) :
    Kept key noSlack (hibernate p byTimer s).2 := by
  rw [hibernate, state_bind]
  split
  · exact kept
  · rename_i begins
    simp only [not_or, Bool.not_eq_true, Bool.not_eq_false, Option.isSome_eq_false_iff,
      Option.isNone_iff_eq_none] at begins
    refine kept.setPlacement p (f := fun q => { q with hibernation := some false, probe := some byTimer })
      (fun _ => rfl) ?_ ?_
    · exact fun _ _ _ _ _ => .inr (by simp)
    · intro i open_i _ running _
      exact empty begins.1 begins.2 i open_i (kept.workers _ p running).2.symm

theorem probeFailed_keeps (p : Nat) (byTimer : Bool) (slack : Slack) :
    Keeps (Kept key slack : WorkerSupervisor Configuration Key → Prop) (probeFailed p byTimer) := by
  apply Keeps.state
  intro s _
  split
  · exact scheduleIdle_keeps p slack
  · exact Keeps.pure

theorem probed_keeps (p : Nat) (answer : ProbeAnswer) :
    Keeps (Kept key noSlack : WorkerSupervisor Configuration Key → Prop) (probed quiet p answer) := by
  intro s kept
  have unprobed : Kept key noSlack (s.setPlacement p fun q => { q with probe := none }) :=
    kept.setPlacement_same p fun _ => ⟨rfl, rfl, rfl⟩
  rw [probed, state_bind, update_bind]
  have named : ((s.setPlacement p fun q => { q with probe := none }).placement p).key = (s.placement p).key := by
    rw [setPlacement_self]
  have probing : ((s.setPlacement p fun q => { q with probe := none }).placement p).hibernation =
      (s.placement p).hibernation := by
    rw [setPlacement_self]
  by_cases current : s.isCurrent p = true
  · have current_t : (s.setPlacement p fun q => { q with probe := none }).isCurrent p = true := by
      rw [isCurrent_iff, named]
      exact (isCurrent_iff p).1 current
    generalize (s.setPlacement p fun q => { q with probe := none }) = t at *
    have resumed := resume_spec p unprobed current_t
    simp only [current, if_true]
    cases answer with
    | error =>
      exact Ensures.bind (Ensures.attempt resumed fun _ => Ensures.pure fun _ => False.elim)
        (fun _ => probeFailed_keeps p _ noSlack) t rfl
    | snapshot answer =>
      dsimp only
      cases asleep : answer.filter fun snapshot =>
          decide ((s.placement p).hibernation = some false) && s.describesLiveSockets (s.placement p).key snapshot with
      | none =>
        refine Ensures.attempt (Ensures.bind (resumed.weaken (fun _ => id) (fun _ _ => id) fun _ => False.elim)
          (E := Kept key noSlack) fun _ => ?_) (fun _ => probeFailed_keeps p _ noSlack) t rfl
        apply Keeps.state
        intro u _
        split
        · exact scheduleIdle_keeps p noSlack
        · exact Keeps.pure
      | some snapshot =>
        simp only [Option.filter_eq_some_iff, Bool.and_eq_true, decide_eq_true_eq] at asleep
        have empty : ∀ i ∈ t.sockets, (t.socket i).key = (t.placement p).key → (t.socket i).pending = [] := by
          intro i open_i same
          apply unprobed.probing i open_i id p
          · rw [same]
            exact (isCurrent_iff p).1 current_t
          · rw [probing]
            exact asleep.2.1
        have sleeps := sleep_spec p snapshot (fun _ => ⟨id, id⟩) unprobed current_t empty
        dsimp only
        rw [update_bind]
        rcases ran : discard quiet p true (t.setHibernated (t.placement p).key (some snapshot)) with ⟨_ | _, u⟩ <;>
          simp only [ran] at sleeps ⊢ <;> exact sleeps
  · simp only [current]
    exact unprobed

theorem reportLifecycle_keeps (p : Nat) (idle : Bool) :
    Keeps (Kept key noSlack : WorkerSupervisor Configuration Key → Prop) (reportLifecycle p idle) := by
  apply Keeps.state
  intro s _
  split
  · apply Keeps.update
    intro t kept
    cases idle with
    | true => exact kept.setPlacement_same p fun _ => ⟨rfl, rfl, rfl⟩
    | false => exact kept.cancel p fun _ => ⟨rfl, rfl, rfl⟩
  · exact Keeps.pure

theorem ready_keeps (p : Nat) :
    Keeps (Kept key noSlack : WorkerSupervisor Configuration Key → Prop) (ready quiet p) := by
  intro s kept
  rw [ready, state_bind]
  by_cases current : s.isCurrent p = true
  · simp only [current, if_true, update_bind]
    exact (wake_spec p (f := fun q => { q with readyNow := true, readiness := q.readiness <|> some true })
      (fun _ => rfl) (fun _ => id) (fun _ waits => .inr (waits.resolve_left (by simp))) kept current).weaken
      (fun _ => id) (fun _ _ => id) (fun _ => False.elim) _ rfl
  · simp only [current]
    exact kept

theorem workerFrame_keeps (i : Nat) (frame : Frame) :
    Keeps (Kept key noSlack : WorkerSupervisor Configuration Key → Prop) (workerFrame quiet i frame) := by
  apply Keeps.state
  intro s _
  split
  · rw [quiet_bind]
    split
    · exact finish_keeps .peer i noSlack
    · exact Keeps.pure
  · exact Keeps.pure

theorem ensure_keeps (configuration : Configuration) (outcome : Spawn) :
    Keeps (Kept key noSlack : WorkerSupervisor Configuration Key → Prop) (ensure key quiet configuration outcome) :=
  fun s kept => (ensure_spec configuration outcome kept).weaken (fun _ => id) (fun _ _ done => done.1)
    (fun _ => id) s rfl

theorem assertCurrent_keeps (reference : Option Nat) :
    Keeps (Kept key noSlack : WorkerSupervisor Configuration Key → Prop) (assertCurrent key reference) := by
  cases reference with
  | none => exact Keeps.pure
  | some r =>
    apply Keeps.state
    intro s _
    split
    · exact Keeps.pure
    · exact Keeps.raise

theorem startResolve_keeps (configuration : Configuration) (reference : Option Nat) :
    Keeps (Kept key noSlack : WorkerSupervisor Configuration Key → Prop)
      (startResolve key configuration reference) :=
  Keeps.bind (assertCurrent_keeps reference) fun _ => Keeps.update fun _ kept => { kept with }

theorem resumeResolve_keeps (n : Nat) (outcome : Spawn) :
    Keeps (Kept key noSlack : WorkerSupervisor Configuration Key → Prop) (resumeResolve key quiet n outcome) := by
  have settles : ∀ phase, Keeps (Kept key noSlack : WorkerSupervisor Configuration Key → Prop)
      (update fun s => s.setResolve n phase : Act Configuration Key Unit) := fun phase => Keeps.update fun _ kept => { kept with }
  apply Keeps.state
  intro s _
  dsimp only
  split
  · split
    · exact Keeps.pure
    · exact settles _
  · apply Keeps.bind (settles _)
    intro _
    apply Keeps.bind (assertCurrent_keeps _)
    exact fun _ => Keeps.bind (ensure_keeps _ outcome) fun _ => settles _
  · split
    · exact Keeps.pure
    · apply Keeps.bind (settles _)
      intro _
      split
      · apply Keeps.bind (assertCurrent_keeps _)
        intro _
        split
        · exact Keeps.pure
        · exact Keeps.update fun _ kept => { kept with }
      · exact Keeps.pure
  · exact Keeps.pure

/-- The account of a socket that took one more frame than was logged. -/
def took (i : Nat) (frame : Frame) : Account := fun j posted pending taken =>
  posted ++ pending = if j = i then taken ++ [frame] else taken

theorem took_takes (i : Nat) (frame : Frame) : Takes i frame balanced (took i frame) := by
  refine ⟨?_, ?_, ?_⟩
  · intro j other posted pending taken before
    simpa [took, balanced, other] using before
  · intro posted pending taken before
    simp only [balanced] at before
    simp [took, ← before]
  · intro posted taken before
    simp only [balanced, List.append_nil] at before
    simp [took, before]

theorem receive_keeps (i : Nat) (frame : Frame) (outcome : Spawn) :
    Keeps (Kept key noSlack : WorkerSupervisor Configuration Key → Prop)
      (exec key quiet (.receive i frame outcome)) := by
  intro s kept
  refine Ensures.bind (receive_spec outcome (took_takes i frame) kept) (fun _ => Ensures.update ?_) s rfl
  intro t kept_t
  refine kept_t.setSocket i balanced (fun _ => ⟨rfl, rfl, rfl, rfl⟩) ?_
    (fun open_i whole => kept_t.attached i open_i whole) (fun open_i tight => kept_t.held i open_i tight)
    (fun open_i tight => kept_t.probing i open_i tight) ?_
  · intro j other posted pending taken before
    simpa [took, balanced, other] using before
  · intro open_i live
    have before := kept_t.accounted i open_i live
    simpa [took, balanced] using before

end Calls

/-- What the supervisor owes the sockets that have not ended: their frames are posted in the order
    received, those still held wait for a worker that starts or is probed, and a key that hibernates
    holds none. -/
def KeepsFrames (s : WorkerSupervisor Configuration Key) : Prop :=
  (∀ i ∈ s.sockets, (s.socket i).closing = false →
    (s.socket i).posted ++ (s.socket i).pending = (s.socket i).taken) ∧
  (∀ i ∈ s.sockets, (s.socket i).pending ≠ [] → ∃ p, s.workers (s.socket i).key = some p ∧
    ((s.placement p).readyNow = false ∨ (s.placement p).hibernation ≠ none)) ∧
  ∀ k, s.hibernated k ≠ none → ∀ i ∈ s.sockets, (s.socket i).key = k → (s.socket i).pending = []

/-- The placements that an event begins to probe. -/
def begins (key : Configuration → Key) (s : WorkerSupervisor Configuration Key) :
    Event Configuration → Nat → Prop
  | .call (.hibernate configuration), p => s.workers (key configuration) = some p
  | .idleTimer p', p => p = p' ∧ s.isCurrent p = true
  | _, _ => False

/-- No probe begins while a frame is held for the key. -/
def ProbesUnheld (key : Configuration → Key) (s : WorkerSupervisor Configuration Key)
    (e : Event Configuration) : Prop :=
  ∀ p, begins key s e p → (s.placement p).hibernation = none →
    ∀ i ∈ s.sockets, (s.socket i).key = (s.placement p).key → (s.socket i).pending = []

section Runs

variable {key : Configuration → Key}

theorem Kept.keepsFrames {s : WorkerSupervisor Configuration Key} (kept : Kept key noSlack s) :
    s.KeepsFrames := by
  refine ⟨kept.accounted, fun i open_i => kept.held i open_i id, ?_⟩
  intro k asleep i open_i named
  by_contra frames
  obtain ⟨p, running, _⟩ := kept.held i open_i id frames
  rw [named] at running
  exact asleep (kept.awake k p running)

theorem initial_kept [Inhabited Configuration] [Inhabited Key] :
    Kept key noSlack (initial : WorkerSupervisor Configuration Key) := by
  refine ⟨?_, List.nodup_nil, ?_, ?_, ?_, ?_, ?_, ?_, ?_, ?_⟩ <;> simp [initial]

theorem exec_kept {s t : WorkerSupervisor Configuration Key} (api : Api Configuration)
    (kept : Kept key noSlack s) (admitted : ProbesUnheld key s (.call api))
    (ran : (exec key quiet api s).2 = t) : Kept key noSlack t := by
  rw [← ran]
  cases api with
  | ensure configuration outcome =>
    exact (Keeps.bind (ensure_keeps configuration outcome) fun _ => Keeps.pure).reached kept
  | connect configuration id outcome => exact (connect_keeps configuration id outcome).reached kept
  | receive i frame outcome => exact (receive_keeps i frame outcome).reached kept
  | close i code reason outcome => exact close_keeps.reached kept
  | closeSockets configuration code reason =>
    exact ((closeSockets_keeps .peer configuration code reason).weaken (fun _ => id) (fun _ _ => id)
      fun _ => False.elim).reached kept
  | hibernate configuration =>
    rw [exec, state_bind]
    cases running : s.workers (key configuration) with
    | none => exact kept
    | some p =>
      apply hibernate_spec p false kept
      intro _ unprobed
      exact admitted p running unprobed
  | stop configuration reason =>
    exact ((stop_keeps configuration reason).weaken (fun _ => id) (fun _ _ => id)
      fun _ => False.elim).reached kept
  | delete configuration includes => exact (delete_keeps configuration includes).reached kept
  | reference configuration =>
    refine Ensures.reached (Keeps.bind (identity_keeps configuration noSlack) fun _ => Keeps.update ?_) kept
    exact fun _ kept => { kept with }
  | resolve configuration => exact (startResolve_keeps configuration none).reached kept
  | resolveReference r =>
    rw [exec, state_bind]
    split
    · exact (startResolve_keeps _ _).reached kept
    · exact kept

theorem step_kept (s : WorkerSupervisor Configuration Key) (e : Event Configuration)
    (t : WorkerSupervisor Configuration Key) (kept : Kept key noSlack s) (admitted : ProbesUnheld key s e)
    (stepped : step key quiet s e = some t) : Kept key noSlack t := by
  cases e with
  | call api => exact exec_kept api kept admitted (Option.some.inj stepped)
  | ready p =>
    simp only [step, Option.ite_none_right_eq_some, Option.some.injEq] at stepped
    rw [← stepped.2]
    exact (ready_keeps p).reached kept
  | failed p =>
    simp only [step, Option.ite_none_right_eq_some, Option.some.injEq] at stepped
    rw [← stepped.2]
    refine ((discard_spec noSlack p).weaken ?_ (fun _ _ => id) fun _ => False.elim).reached kept
    exact fun _ kept => ⟨kept, fun _ _ _ slackens => by simp [noSlack] at slackens, fun _ _ _ => ⟨id, id⟩⟩
  | lifecycle p idle =>
    simp only [step, Option.ite_none_right_eq_some, Option.some.injEq] at stepped
    rw [← stepped.2]
    exact (reportLifecycle_keeps p idle).reached kept
  | idleTimer p =>
    simp only [step, Option.ite_none_right_eq_some, Option.some.injEq] at stepped
    rw [← stepped.2]
    refine hibernate_spec p true
      (kept.setPlacement_same p (f := fun q => { q with idleTimer := false }) fun _ => ⟨rfl, rfl, rfl⟩) ?_
    rw [isCurrent_iff, setPlacement_self]
    intro current unprobed
    exact admitted p ⟨rfl, (isCurrent_iff p).2 current⟩ unprobed
  | probed p answer =>
    simp only [step, Option.ite_none_right_eq_some, Option.some.injEq] at stepped
    rw [← stepped.2]
    exact (probed_keeps p answer).reached kept
  | workerFrame i frame =>
    cases stepped
    exact (workerFrame_keeps i frame).reached kept
  | resumeResolve n outcome =>
    cases stepped
    exact (resumeResolve_keeps n outcome).reached kept
  | rejectResolve n =>
    simp only [step] at stepped
    split at stepped <;> cases stepped
    exact { kept with }
  | startRemoval d =>
    simp only [step] at stepped
    split at stepped
    · split at stepped <;> cases stepped
      exact { kept with }
    · cases stepped
  | removed d ok =>
    simp only [step] at stepped
    split at stepped <;> cases stepped
    exact { kept with }
  | clear d =>
    simp only [step, Option.ite_none_right_eq_some, Option.some.injEq] at stepped
    rw [← stepped.2]
    exact { kept with }

end Runs

end DoRuntime.Browser.WorkerSupervisor
