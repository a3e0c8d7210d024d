import Roster.Proofs.Locality

/-!
What steps ensure.

An invariant of what is committed is followed through the steps of a request together with what is known of
the copy that they work on. Each step hands on what it has established to the step after it.
-/

set_option autoImplicit false

namespace Roster.Step

variable {α β : Type} {I P : Store → Prop}

/-- Where the committed store has a property and the copy another one, the step keeps the property of what is
committed, and its result and the copy that it leaves have a third one if it succeeds. -/
def Ensures (I P : Store → Prop) (x : Step α) (Q : α → Store → Prop) : Prop :=
  ∀ σ, I σ.committed → P σ.current →
    I (exec x σ).2.committed ∧ ∀ a, (exec x σ).1 = .ok a → Q a (exec x σ).2.current

namespace Ensures

theorem mono {x : Step α} {Q R : α → Store → Prop} (h : Ensures I P x Q) (hQR : ∀ a s, Q a s → R a s) :
    Ensures I P x R := by
  intro σ hI hP
  obtain ⟨hcommitted, hresult⟩ := h σ hI hP
  exact ⟨hcommitted, fun a ha => hQR a _ (hresult a ha)⟩

theorem weaken {P' : Store → Prop} {x : Step α} {Q : α → Store → Prop} (h : Ensures I P x Q)
    (hP : ∀ s, P' s → P s) : Ensures I P' x Q :=
  fun σ hI hP' => h σ hI (hP σ.current hP')

theorem bind {x : Step α} {f : α → Step β} {Q : α → Store → Prop} {R : β → Store → Prop}
    (hx : Ensures I P x Q) (hf : ∀ a, Ensures I (Q a) (f a) R) : Ensures I P (x >>= f) R := by
  intro σ hI hP
  obtain ⟨hcommitted, hresult⟩ := hx σ hI hP
  rw [exec_bind]
  generalize exec x σ = p at hcommitted hresult ⊢
  rcases p with ⟨e | a, τ⟩
  · refine ⟨hcommitted, ?_⟩
    intro b hb
    cases hb
  · exact hf a τ hcommitted (hresult a rfl)

/-- What is known whatever the copy is may be set apart. -/
theorem of_fact {p : Prop} {x : Step α} {Q : α → Store → Prop} (h : p → Ensures I P x Q) :
    Ensures I (fun s => p ∧ P s) x Q :=
  fun σ hI hP => h hP.1 σ hI hP.2

end Ensures

theorem ensures_attempt (result : Except Failure α) :
    Ensures I P (attempt result) fun a s => result = .ok a ∧ P s :=
  fun _ hI hP => ⟨hI, fun _ ha => ⟨ha, hP⟩⟩

theorem ensures_pure (a : α) : Ensures I P (pure a) fun b s => a = b ∧ P s := by
  intro σ hI hP
  refine ⟨hI, ?_⟩
  intro b hb
  cases hb
  exact ⟨rfl, hP⟩

theorem ensures_check (result : Except Error α) :
    Ensures I P (check result) fun a s => result = .ok a ∧ P s := by
  refine (ensures_attempt _).mono ?_
  rintro a s ⟨ha, hP⟩
  cases result with
  | error e => cases ha
  | ok b =>
    cases ha
    exact ⟨rfl, hP⟩

theorem ensures_refuse (cause : Error) (Q : α → Store → Prop) : Ensures I P (refuse cause) Q := by
  intro σ hI _
  refine ⟨hI, ?_⟩
  intro a ha
  cases ha

theorem ensures_look (f : Store → Except Failure α) :
    Ensures I P (look f) fun a s => f s = .ok a ∧ P s :=
  fun _ hI hP => ⟨hI, fun _ ha => ⟨ha, hP⟩⟩

theorem ensures_commit (hPI : ∀ s, P s → I s) : Ensures I P commit fun _ s => P s :=
  fun _ _ hP => ⟨hPI _ hP, fun _ _ => hP⟩

theorem ensures_notify (notice : Notice) : Ensures I P (notify notice) fun _ s => P s :=
  fun _ hI hP => ⟨hI, fun _ _ => hP⟩

/-- A step that works on the copy alone ensures what its effect does. -/
theorem Local.ensures {x : Step α} (hx : Local x) :
    Ensures I P x fun a s => ∃ s₀, P s₀ ∧ effect x s₀ = .ok (a, s) := by
  intro σ hI hP
  cases h : effect x σ.current with
  | error e =>
    obtain ⟨s, hs⟩ := hx.error h
    rw [hs]
    refine ⟨hI, ?_⟩
    intro a ha
    cases ha
  | ok p =>
    rw [hx.ok h]
    refine ⟨hI, ?_⟩
    intro a ha
    cases ha
    exact ⟨σ.current, hP, h⟩

theorem Uncommitted.ensures {x : Step α} (hx : Uncommitted x) : Ensures I P x fun _ _ => True := by
  intro σ hI _
  rw [hx σ]
  exact ⟨hI, fun _ _ => trivial⟩

/-- A request that has done its work commits it, tells of it and shows a resource. -/
theorem ensures_finish {k : Kind} {ctx : Context} (hPI : ∀ s, P s → I s) (event : Event)
    (attached : List (String × Json)) (r : Row k) :
    Ensures I P (do
      commit
      notify (.after event (.one r.uuid))
      Request.renderOne ctx k attached r) fun _ _ => True := by
  refine (ensures_commit hPI).bind fun _ => (ensures_notify _).bind fun _ => ?_
  exact (uncommitted_renderOne ctx attached r).ensures

/-- What a request ensures from the start holds of what it leaves. -/
theorem Ensures.run {x : Step α} {Q : α → Store → Prop} (h : Ensures I P x Q) {d : Directory} (hI : I d.store)
    (hP : P d.store) : I (d.run x).directory.store :=
  (h d.start hI hP).1

end Roster.Step
