import Roster.Service.Session

/-!
Running the steps of a request.

A step is run on a session. A step that works on the copy alone is determined by its effect, a function of
the copy that gives nothing when the step fails. What is committed is followed in three ways: a step may
leave it alone, a step may leave it alone whenever it fails, and a step may keep a property of it.
-/

set_option autoImplicit false

namespace Roster.Step

variable {α β : Type}

/-- Runs a step on a session. -/
def exec (step : Step α) (session : Session) : Except Failure α × Session :=
  step.run.run session

theorem exec_bind (x : Step α) (f : α → Step β) (σ : Session) :
    exec (x >>= f) σ =
      match exec x σ with
      | (.ok a, τ) => exec (f a) τ
      | (.error e, τ) => (.error e, τ) := by
  change (ExceptT.bindCont f (exec x σ).1) (exec x σ).2 = _
  rcases exec x σ with ⟨a | a, τ⟩ <;> rfl

theorem exec_bind_ok {x : Step α} {f : α → Step β} {σ τ : Session} {a : α}
    (h : exec x σ = (.ok a, τ)) : exec (x >>= f) σ = exec (f a) τ := by
  rw [exec_bind, h]

theorem exec_bind_error {x : Step α} {f : α → Step β} {σ τ : Session} {e : Failure}
    (h : exec x σ = (.error e, τ)) : exec (x >>= f) σ = (.error e, τ) := by
  rw [exec_bind, h]

@[simp] theorem exec_pure (a : α) (σ : Session) : exec (pure a) σ = (.ok a, σ) := rfl

@[simp] theorem exec_attempt (result : Except Failure α) (σ : Session) :
    exec (attempt result) σ = (result, σ) := rfl

@[simp] theorem exec_refuse (cause : Error) (σ : Session) :
    exec (refuse cause : Step α) σ = (.error (.refused cause), σ) := rfl

@[simp] theorem exec_check (result : Except Error α) (σ : Session) :
    exec (check result) σ = (result.mapError .refused, σ) := rfl

@[simp] theorem exec_look (f : Store → Except Failure α) (σ : Session) :
    exec (look f) σ = (f σ.current, σ) := rfl

theorem exec_change (f : Store → Except Failure (α × Store)) (σ : Session) :
    exec (change f) σ =
      match f σ.current with
      | .ok (a, s) => (.ok a, { σ with current := s })
      | .error e => (.error e, σ) := rfl

@[simp] theorem exec_commit (σ : Session) :
    exec commit σ = (.ok (), { σ with committed := σ.current }) := rfl

@[simp] theorem exec_notify (notice : Notice) (σ : Session) :
    exec (notify notice) σ = (.ok (), { σ with told := σ.told ++ [⟨notice, σ.committed⟩] }) := rfl

@[simp] theorem exec_drawUuid (σ : Session) :
    exec drawUuid σ = (.ok (Uuid.numbered (σ.drawn + 1)), { σ with drawn := σ.drawn + 1 }) := rfl

/-! ## Steps that leave alone what is committed -/

/-- The step does not commit. -/
def Uncommitted (x : Step α) : Prop :=
  ∀ σ, (exec x σ).2.committed = σ.committed

/-- The step commits only if it succeeds with a result that has a property. -/
def CommitsOnly (P : α → Prop) (x : Step α) : Prop :=
  ∀ σ, (exec x σ).2.committed = σ.committed ∨ ∃ a, (exec x σ).1 = .ok a ∧ P a

/-- The step succeeds, and its result has a property. -/
def Succeeds (P : α → Prop) (x : Step α) : Prop :=
  ∀ σ, ∃ a, (exec x σ).1 = .ok a ∧ P a

theorem Uncommitted.bind {x : Step α} {f : α → Step β} (hx : Uncommitted x)
    (hf : ∀ a, Uncommitted (f a)) : Uncommitted (x >>= f) := by
  intro σ
  have h := hx σ
  rw [exec_bind]
  generalize exec x σ = p at h ⊢
  rcases p with ⟨e | a, τ⟩
  · exact h
  · exact (hf a τ).trans h

theorem uncommitted_pure (a : α) : Uncommitted (pure a : Step α) := fun _ => rfl

theorem uncommitted_attempt (result : Except Failure α) : Uncommitted (attempt result) := fun _ => rfl

theorem uncommitted_refuse (cause : Error) : Uncommitted (refuse cause : Step α) := fun _ => rfl

theorem uncommitted_check (result : Except Error α) : Uncommitted (check result) := fun _ => rfl

theorem uncommitted_look (f : Store → Except Failure α) : Uncommitted (look f) := fun _ => rfl

theorem uncommitted_change (f : Store → Except Failure (α × Store)) : Uncommitted (change f) := by
  intro σ
  rw [exec_change]
  split <;> rfl

theorem uncommitted_notify (notice : Notice) : Uncommitted (notify notice) := fun _ => rfl

theorem uncommitted_drawUuid : Uncommitted drawUuid := fun _ => rfl

theorem Uncommitted.commitsOnly {x : Step α} (h : Uncommitted x) (P : α → Prop) : CommitsOnly P x :=
  fun σ => .inl (h σ)

theorem CommitsOnly.mono {P Q : α → Prop} {x : Step α} (h : CommitsOnly P x) (hPQ : ∀ a, P a → Q a) :
    CommitsOnly Q x :=
  fun σ => (h σ).imp_right fun ⟨a, ha, hP⟩ => ⟨a, ha, hPQ a hP⟩

/-- A step that does not commit may come first; only the results that it can have count for what follows. -/
theorem CommitsOnly.bind {P : β → Prop} {x : Step α} {f : α → Step β} (hx : Uncommitted x)
    (hf : ∀ σ a, (exec x σ).1 = .ok a → CommitsOnly P (f a)) : CommitsOnly P (x >>= f) := by
  intro σ
  have h := hx σ
  have hf := hf σ
  rw [exec_bind]
  generalize exec x σ = p at h hf ⊢
  rcases p with ⟨e | a, τ⟩
  · exact .inl h
  · rcases hf a rfl τ with hτ | ha
    · exact .inl (hτ.trans h)
    · exact .inr ha

/-- Nothing after a commit may fail. -/
theorem CommitsOnly.commit {P : α → Prop} {f : Unit → Step α} (hf : Succeeds P (f ())) :
    CommitsOnly P (Step.commit >>= f) := by
  intro σ
  rw [exec_bind_ok (exec_commit σ)]
  exact .inr (hf _)

theorem Succeeds.notify {P : α → Prop} {notice : Notice} {f : Unit → Step α} (hf : Succeeds P (f ())) :
    Succeeds P (Step.notify notice >>= f) := by
  intro σ
  rw [exec_bind_ok (exec_notify notice σ)]
  exact hf _

theorem succeeds_pure {P : α → Prop} {a : α} (ha : P a) : Succeeds P (pure a : Step α) :=
  fun _ => ⟨a, rfl, ha⟩

/-! ## Steps that work on the copy alone -/

/-- What a step makes of a store that it works on: a result and the store that it leaves, or a failure. -/
def effect (x : Step α) (s : Store) : Except Failure (α × Store) :=
  match exec x ⟨s, s, 0, [], []⟩ with
  | (.ok a, τ) => .ok (a, τ.current)
  | (.error e, _) => .error e

/-- The step looks at the copy alone and changes nothing else: it does what its effect says. -/
structure Local (x : Step α) : Prop where
  ok : ∀ {σ : Session} {a : α} {s : Store}, effect x σ.current = .ok (a, s) →
    exec x σ = (.ok a, { σ with current := s })
  error : ∀ {σ : Session} {e : Failure}, effect x σ.current = .error e →
    ∃ s, exec x σ = (.error e, { σ with current := s })

/-- A step whose run is a function of the copy. -/
theorem Local.of_exec {x : Step α} (f : Store → Except Failure α × Store)
    (h : ∀ σ, exec x σ = ((f σ.current).1, { σ with current := (f σ.current).2 })) : Local x := by
  constructor
  · intro σ a s hs
    simp only [effect, h] at hs
    rw [h]
    generalize f σ.current = p at hs ⊢
    rcases p with ⟨e | b, t⟩
    · cases hs
    · cases hs
      rfl
  · intro σ e hs
    simp only [effect, h] at hs
    rw [h]
    generalize f σ.current = p at hs ⊢
    rcases p with ⟨e' | b, t⟩
    · cases hs
      exact ⟨t, rfl⟩
    · cases hs

theorem Local.uncommitted {x : Step α} (hx : Local x) : Uncommitted x := by
  intro σ
  cases h : effect x σ.current with
  | error e =>
    obtain ⟨s, hs⟩ := hx.error h
    rw [hs]
  | ok p => rw [hx.ok h]

theorem effect_bind {x : Step α} (f : α → Step β) (hx : Local x) (hf : ∀ a, Local (f a)) (s : Store) :
    effect (x >>= f) s = (effect x s).bind fun p => effect (f p.1) p.2 := by
  cases h : effect x s with
  | error e =>
    obtain ⟨t, ht⟩ := hx.error (σ := ⟨s, s, 0, [], []⟩) h
    rw [effect, exec_bind_error ht]
    rfl
  | ok p =>
    obtain ⟨a, t⟩ := p
    rw [effect, exec_bind_ok (hx.ok (σ := ⟨s, s, 0, [], []⟩) h)]
    cases h' : effect (f a) t with
    | error e =>
      obtain ⟨u, hu⟩ := (hf a).error (σ := ⟨s, t, 0, [], []⟩) h'
      rw [hu]
      exact h'.symm
    | ok q =>
      rw [(hf a).ok (σ := ⟨s, t, 0, [], []⟩) h']
      exact h'.symm

theorem Local.bind {x : Step α} {f : α → Step β} (hx : Local x) (hf : ∀ a, Local (f a)) :
    Local (x >>= f) := by
  constructor
  · intro σ b s h
    rw [effect_bind f hx hf] at h
    cases hp : effect x σ.current with
    | error e =>
      rw [hp] at h
      cases h
    | ok p =>
      rw [hp] at h
      rw [exec_bind_ok (hx.ok hp)]
      exact (hf p.1).ok (σ := { σ with current := p.2 }) h
  · intro σ e h
    rw [effect_bind f hx hf] at h
    cases hp : effect x σ.current with
    | error e' =>
      rw [hp] at h
      cases h
      obtain ⟨s, hs⟩ := hx.error hp
      exact ⟨s, exec_bind_error hs⟩
    | ok p =>
      rw [hp] at h
      rw [exec_bind_ok (hx.ok hp)]
      exact (hf p.1).error (σ := { σ with current := p.2 }) h

theorem local_attempt (result : Except Failure α) : Local (attempt result) :=
  .of_exec (fun s => (result, s)) fun _ => rfl

theorem local_pure (a : α) : Local (pure a : Step α) := local_attempt (.ok a)

theorem local_refuse (cause : Error) : Local (refuse cause : Step α) :=
  local_attempt (.error (.refused cause))

theorem local_check (result : Except Error α) : Local (check result) :=
  local_attempt (result.mapError .refused)

theorem local_look (f : Store → Except Failure α) : Local (look f) :=
  .of_exec (fun s => (f s, s)) fun _ => rfl

theorem local_change (f : Store → Except Failure (α × Store)) : Local (change f) := by
  refine .of_exec (fun s => match f s with | .ok (a, t) => (.ok a, t) | .error e => (.error e, s)) ?_
  intro σ
  rw [exec_change]
  split <;> rfl

theorem local_modifyStore (f : Store → Store) : Local (modifyStore f) := local_change _

@[simp] theorem effect_pure (a : α) (s : Store) : effect (pure a : Step α) s = .ok (a, s) := rfl

/-- A step that is done for its effect alone. -/
theorem effect_return {x : Step Unit} (hx : Local x) (a : α) (s : Store) :
    effect (do
      x
      return a) s = (effect x s).map fun p => (a, p.2) := by
  rw [effect_bind _ hx fun _ => local_pure a]
  cases effect x s <;> rfl

@[simp] theorem effect_attempt (result : Except Failure α) (s : Store) :
    effect (attempt result) s = result.map fun a => (a, s) := by
  cases result <;> rfl

@[simp] theorem effect_refuse (cause : Error) (s : Store) :
    effect (refuse cause : Step α) s = .error (.refused cause) := rfl

@[simp] theorem effect_check (result : Except Error α) (s : Store) :
    effect (check result) s = (result.mapError .refused).map fun a => (a, s) := by
  cases result <;> rfl

@[simp] theorem effect_look (f : Store → Except Failure α) (s : Store) :
    effect (look f) s = (f s).map fun a => (a, s) := by
  rw [effect, exec_look]
  cases f s <;> rfl

theorem effect_attempt_bind (result : Except Failure α) (f : α → Step β) (s : Store) :
    effect (attempt result >>= f) s = result.bind fun a => effect (f a) s := by
  cases result <;> rfl

theorem effect_check_bind (result : Except Error α) (f : α → Step β) (s : Store) :
    effect (check result >>= f) s = (result.mapError .refused).bind fun a => effect (f a) s :=
  effect_attempt_bind _ f s

theorem effect_look_bind (g : Store → Except Failure α) (f : α → Step β) (s : Store) :
    effect (look g >>= f) s = (g s).bind fun a => effect (f a) s :=
  effect_attempt_bind (g s) f s

@[simp] theorem effect_change (f : Store → Except Failure (α × Store)) (s : Store) :
    effect (change f) s = f s := by
  rw [effect, exec_change]
  rcases f s with e | ⟨a, t⟩ <;> rfl

@[simp] theorem effect_modifyStore (f : Store → Store) (s : Store) :
    effect (modifyStore f) s = .ok ((), f s) := rfl

end Roster.Step

namespace Roster

/-- The session in which a request on a directory starts. -/
def Directory.start (d : Directory) : Session := ⟨d.store, d.store, d.drawn, d.kept, []⟩

theorem Directory.run_eq {α : Type} (d : Directory) (x : Step α) :
    d.run x = ⟨(Step.exec x d.start).1,
      ⟨(Step.exec x d.start).2.committed, (Step.exec x d.start).2.drawn, (Step.exec x d.start).2.kept⟩,
      (Step.exec x d.start).2.told⟩ := rfl

end Roster
