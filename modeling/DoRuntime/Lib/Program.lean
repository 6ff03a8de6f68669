import Mathlib

/-- A computation on a state that may throw, and keeps what it did to the state when it does. -/
def Prog (ε σ α : Type) : Type := σ → Except ε α × σ

namespace Prog

variable {ε σ α β : Type}

protected def pure (a : α) : Prog ε σ α := fun s => (.ok a, s)

protected def bind (m : Prog ε σ α) (f : α → Prog ε σ β) : Prog ε σ β := fun s =>
  match m s with
  | (.ok a, s) => f a s
  | (.error e, s) => (.error e, s)

instance : Monad (Prog ε σ) where
  pure := Prog.pure
  bind := Prog.bind

def state : Prog ε σ σ := fun s => (.ok s, s)

def update (f : σ → σ) : Prog ε σ Unit := fun s => (.ok (), f s)

def raise (e : ε) : Prog ε σ α := fun s => (.error e, s)

def attempt (m : Prog ε σ α) (handler : ε → Prog ε σ α) : Prog ε σ α := fun s =>
  match m s with
  | (.ok a, s) => (.ok a, s)
  | (.error e, s) => handler e s

def forEach (xs : List α) (f : α → Prog ε σ Unit) : Prog ε σ Unit :=
  match xs with
  | [] => Pure.pure ()
  | x :: rest => f x >>= fun _ => forEach rest f

section Equations

variable (s : σ)

@[simp]
theorem pure_run (a : α) : (Pure.pure a : Prog ε σ α) s = (.ok a, s) := rfl

theorem bind_run (m : Prog ε σ α) (f : α → Prog ε σ β) : (m >>= f) s =
    match m s with
    | (.ok a, s) => f a s
    | (.error e, s) => (.error e, s) := rfl

theorem bind_run_ok {m : Prog ε σ α} {f : α → Prog ε σ β} {s t : σ} {a : α} (ran : m s = (.ok a, t)) :
    (m >>= f) s = f a t := by
  rw [bind_run, ran]

theorem bind_run_error {m : Prog ε σ α} {f : α → Prog ε σ β} {s t : σ} {e : ε} (ran : m s = (.error e, t)) :
    (m >>= f) s = (.error e, t) := by
  rw [bind_run, ran]

@[simp]
theorem state_bind (f : σ → Prog ε σ β) : (state >>= f) s = f s s := rfl

@[simp]
theorem update_run (f : σ → σ) : (update f : Prog ε σ Unit) s = (.ok (), f s) := rfl

@[simp]
theorem update_bind (f : σ → σ) (g : Unit → Prog ε σ β) : (update f >>= g) s = g () (f s) := rfl

@[simp]
theorem raise_run (e : ε) : (raise e : Prog ε σ α) s = (.error e, s) := rfl

theorem attempt_run_ok {m : Prog ε σ α} {handler : ε → Prog ε σ α} {s t : σ} {a : α}
    (ran : m s = (.ok a, t)) : attempt m handler s = (.ok a, t) := by
  rw [attempt, ran]

theorem attempt_run_error {m : Prog ε σ α} {handler : ε → Prog ε σ α} {s t : σ} {e : ε}
    (ran : m s = (.error e, t)) : attempt m handler s = handler e t := by
  rw [attempt, ran]

theorem attempt_run_eq {m m' : Prog ε σ α} {s t : σ} (same : m s = m' t) (handler : ε → Prog ε σ α) :
    attempt m handler s = attempt m' handler t := by
  rw [attempt, attempt, same]

end Equations

/-- From `P`, the computation returns in `Q` or throws in `E`. -/
def Ensures (P : σ → Prop) (m : Prog ε σ α) (Q : α → σ → Prop) (E : σ → Prop) : Prop :=
  ∀ s, P s →
    match m s with
    | (.ok a, t) => Q a t
    | (.error _, t) => E t

/-- The computation keeps `I`, whether it returns or throws. -/
def Keeps (I : σ → Prop) (m : Prog ε σ α) : Prop := Ensures I m (fun _ => I) I

section Rules

variable {P I E : σ → Prop} {Q : α → σ → Prop} {T : β → σ → Prop}

theorem Ensures.weaken {R F : σ → Prop} {Q' : α → σ → Prop} {m : Prog ε σ α} (ensures : Ensures P m Q E)
    (pre : ∀ s, R s → P s) (post : ∀ a s, Q a s → Q' a s) (thrown : ∀ s, E s → F s) :
    Ensures R m Q' F := by
  intro s start
  have done := ensures s (pre s start)
  rcases ran : m s with ⟨_ | a, t⟩ <;> simp only [ran] at done ⊢
  · exact thrown t done
  · exact post a t done

theorem Ensures.reached {m : Prog ε σ α} (ensures : Ensures P m (fun _ => I) I) {s : σ} (start : P s) :
    I (m s).2 := by
  have done := ensures s start
  rcases ran : m s with ⟨_ | a, t⟩ <;> simpa only [ran] using done

/-- A computation may be followed from each state by itself. -/
theorem Ensures.each {m : Prog ε σ α} (ensures : ∀ s, P s → Ensures (fun t => t = s) m Q E) : Ensures P m Q E :=
  fun s start => ensures s start s rfl

theorem Ensures.pure {a : α} (holds : ∀ s, P s → Q a s) : Ensures P (Pure.pure a : Prog ε σ α) Q E :=
  holds

theorem Ensures.bind {m : Prog ε σ α} {f : α → Prog ε σ β} (first : Ensures P m Q E)
    (rest : ∀ a, Ensures (Q a) (f a) T E) : Ensures P (m >>= f) T E := by
  intro s start
  have done := first s start
  rw [bind_run]
  rcases ran : m s with ⟨_ | a, t⟩ <;> simp only [ran] at done ⊢
  · exact done
  · exact rest a t done

theorem Ensures.state {f : σ → Prog ε σ β} (rest : ∀ s, P s → Ensures (fun t => t = s ∧ P t) (f s) T E) :
    Ensures P (Prog.state >>= f) T E := by
  intro s start
  exact rest s start s ⟨rfl, start⟩

theorem Ensures.update {f : σ → σ} {Q : Unit → σ → Prop} (holds : ∀ s, P s → Q () (f s)) :
    Ensures P (Prog.update f : Prog ε σ Unit) Q E := holds

theorem Ensures.raise {e : ε} (holds : ∀ s, P s → E s) : Ensures P (Prog.raise e : Prog ε σ α) Q E := holds

theorem Ensures.attempt {m : Prog ε σ α} {handler : ε → Prog ε σ α} {F : σ → Prop}
    (first : Ensures P m Q F) (caught : ∀ e, Ensures F (handler e) Q E) :
    Ensures P (Prog.attempt m handler) Q E := by
  intro s start
  have done := first s start
  unfold Prog.attempt
  rcases ran : m s with ⟨_ | a, t⟩ <;> simp only [ran] at done ⊢
  · exact caught _ t done
  · exact done

/-- A loop that keeps an invariant of the elements still to come. -/
theorem Ensures.forEach (J : List α → σ → Prop) {f : α → Prog ε σ Unit} {xs : List α}
    (body : ∀ x rest, Ensures (J (x :: rest)) (f x) (fun _ => J rest) E) :
    Ensures (J xs) (Prog.forEach xs f) (fun _ => J []) E := by
  induction xs with
  | nil => exact fun s start => start
  | cons x rest ih => exact Ensures.bind (body x rest) fun _ => ih

theorem Keeps.pure {a : α} : Keeps I (Pure.pure a : Prog ε σ α) := Ensures.pure fun _ kept => kept

theorem Keeps.raise {e : ε} : Keeps I (Prog.raise e : Prog ε σ α) := Ensures.raise fun _ kept => kept

theorem Keeps.bind {m : Prog ε σ α} {f : α → Prog ε σ β} (first : Keeps I m) (rest : ∀ a, Keeps I (f a)) :
    Keeps I (m >>= f) := Ensures.bind first rest

theorem Keeps.state {f : σ → Prog ε σ β} (rest : ∀ s, I s → Keeps I (f s)) : Keeps I (Prog.state >>= f) := by
  intro s start
  exact rest s start s start

theorem Keeps.update {f : σ → σ} (kept : ∀ s, I s → I (f s)) : Keeps I (Prog.update f : Prog ε σ Unit) := kept

theorem Keeps.attempt {m : Prog ε σ α} {handler : ε → Prog ε σ α} (first : Keeps I m)
    (caught : ∀ e, Keeps I (handler e)) : Keeps I (Prog.attempt m handler) :=
  Ensures.attempt first caught

theorem Keeps.forEach {f : α → Prog ε σ Unit} {xs : List α} (body : ∀ x ∈ xs, Keeps I (f x)) :
    Keeps I (Prog.forEach xs f) := by
  induction xs with
  | nil => exact Keeps.pure
  | cons x rest ih =>
    exact Keeps.bind (body x List.mem_cons_self) fun _ => ih fun y later => body y (List.mem_cons_of_mem x later)

/-- What a computation ensures and what it keeps. -/
theorem Ensures.and_keeps {m : Prog ε σ α} (ensures : Ensures P m Q E) (keeps : Keeps I m) :
    Ensures (fun s => P s ∧ I s) m (fun a s => Q a s ∧ I s) fun s => E s ∧ I s := by
  intro s ⟨start, kept⟩
  have done := ensures s start
  have still := keeps s kept
  rcases ran : m s with ⟨_ | a, t⟩ <;> simp only [ran] at done still ⊢ <;> exact ⟨done, still⟩

end Rules

/-- From `P`, the computation returns in `Q` or throws in `E`, which is told what it throws. -/
def Meets (P : σ → Prop) (m : Prog ε σ α) (Q : α → σ → Prop) (E : ε → σ → Prop) : Prop :=
  ∀ s, P s → (∀ a t, m s = (.ok a, t) → Q a t) ∧ ∀ e t, m s = (.error e, t) → E e t

section Thrown

variable {P : σ → Prop} {Q : α → σ → Prop} {T : β → σ → Prop} {E F : ε → σ → Prop}

theorem Meets.weaken {R : σ → Prop} {Q' : α → σ → Prop} {m : Prog ε σ α} (meets : Meets P m Q E)
    (pre : ∀ s, R s → P s) (post : ∀ a s, Q a s → Q' a s) (thrown : ∀ e s, E e s → F e s) : Meets R m Q' F :=
  fun s start => ⟨fun a t ran => post a t ((meets s (pre s start)).1 a t ran),
    fun e t ran => thrown e t ((meets s (pre s start)).2 e t ran)⟩

/-- A computation may be followed from each state by itself. -/
theorem Meets.each {m : Prog ε σ α} (meets : ∀ s, P s → Meets (fun t => t = s) m Q E) : Meets P m Q E :=
  fun s start => meets s start s rfl

theorem Meets.pure {a : α} (holds : ∀ s, P s → Q a s) : Meets P (Pure.pure a : Prog ε σ α) Q E := by
  intro s start
  refine ⟨fun b t ran => ?_, fun e t ran => ?_⟩
  · cases ran
    exact holds s start
  · cases ran

theorem Meets.bind {m : Prog ε σ α} {f : α → Prog ε σ β} (first : Meets P m Q E) (rest : ∀ a, Meets (Q a) (f a) T E) :
    Meets P (m >>= f) T E := by
  intro s start
  obtain ⟨returned, thrown⟩ := first s start
  rcases ran : m s with ⟨e | a, t⟩
  · rw [bind_run_error ran]
    refine ⟨fun b u done => ?_, fun e' u done => ?_⟩
    · cases done
    · cases done
      exact thrown e t ran
  · rw [bind_run_ok ran]
    exact rest a t (returned a t ran)

theorem Meets.state {f : σ → Prog ε σ β} (rest : ∀ s, P s → Meets (fun t => t = s) (f s) T E) :
    Meets P (Prog.state >>= f) T E :=
  fun s start => rest s start s rfl

theorem Meets.update {f : σ → σ} {Q : Unit → σ → Prop} (holds : ∀ s, P s → Q () (f s)) :
    Meets P (Prog.update f : Prog ε σ Unit) Q E := by
  intro s start
  refine ⟨fun b t ran => ?_, fun e t ran => ?_⟩
  · cases ran
    exact holds s start
  · cases ran

theorem Meets.raise {e : ε} (holds : ∀ s, P s → E e s) : Meets P (Prog.raise e : Prog ε σ α) Q E := by
  intro s start
  refine ⟨fun b t ran => ?_, fun e' t ran => ?_⟩
  · cases ran
  · cases ran
    exact holds s start

theorem Meets.attempt {m : Prog ε σ α} {handler : ε → Prog ε σ α} (first : Meets P m Q F)
    (caught : ∀ e, Meets (F e) (handler e) Q E) : Meets P (Prog.attempt m handler) Q E := by
  intro s start
  obtain ⟨returned, thrown⟩ := first s start
  rcases ran : m s with ⟨e | a, t⟩
  · rw [attempt_run_error ran]
    exact caught e t (thrown e t ran)
  · rw [attempt_run_ok ran]
    refine ⟨fun b u done => ?_, fun e u done => ?_⟩
    · cases done
      exact returned a t ran
    · cases done

/-- A loop that keeps an invariant of the elements still to come. -/
theorem Meets.forEach (J : List α → σ → Prop) {f : α → Prog ε σ Unit} {xs : List α}
    (body : ∀ x rest, Meets (J (x :: rest)) (f x) (fun _ => J rest) E) :
    Meets (J xs) (Prog.forEach xs f) (fun _ => J []) E := by
  induction xs with
  | nil => exact Meets.pure fun s start => start
  | cons x rest ih => exact Meets.bind (body x rest) fun _ => ih

end Thrown

end Prog
