import Mathlib.Logic.Basic

namespace Madmail.Lib

/-- A loop whose body gives a result or goes back with new variables: it ends with
a result after so many rounds. -/
inductive Ends {σ ρ : Type} (body : σ → ρ ⊕ σ) : σ → Nat → ρ → Prop
  | done (h : body s = .inl r) : Ends body s 1 r
  | again (h : body s = .inr t) (hr : Ends body t n r) : Ends body s (n + 1) r

section Ends
variable {σ ρ : Type} {body : σ → ρ ⊕ σ} {s : σ} {r : ρ}

theorem Ends.unique (h : Ends body s n r) (h' : Ends body s m q) : m = n ∧ q = r := by
  induction h generalizing m with
  | done hs =>
    cases h' with
    | done hs' =>
      rw [hs] at hs'
      cases hs'
      exact ⟨rfl,rfl⟩
    | again hs' _ =>
      rw [hs] at hs'
      cases hs'
  | again hs _ ih =>
    cases h' with
    | done hs' =>
      rw [hs] at hs'
      cases hs'
    | again hs' hr' =>
      rw [hs] at hs'
      cases hs'
      obtain ⟨rfl,rfl⟩ := ih hr'
      exact ⟨rfl,rfl⟩

/-- A loop that goes back with a smaller measure each time ends. -/
theorem ends_within (measure : σ → Nat) (hless : ∀ s t, body s = .inr t → measure t < measure s)
    (s : σ) : ∃ n r, n ≤ measure s + 1 ∧ Ends body s n r := by
  induction hm : measure s using Nat.strongRecOn generalizing s with
  | ind m ih =>
    cases hs : body s with
    | inl r => exact ⟨1,r,by omega,.done hs⟩
    | inr t =>
      have hlt := hless s t hs
      obtain ⟨n,r,hn,hr⟩ := ih (measure t) (by omega) t rfl
      exact ⟨n + 1,r,by omega,.again hs hr⟩

/-- What holds before each round and, by the last one, of the result. -/
theorem Ends.rule {I : σ → Prop} {Q : ρ → Prop} (hdone : ∀ s r, I s → body s = .inl r → Q r)
    (hagain : ∀ s t, I s → body s = .inr t → I t) (h : Ends body s n r) (hs : I s) : Q r := by
  induction h with
  | done hb => exact hdone _ _ hs hb
  | again hb _ ih => exact ih (hagain _ _ hs hb)

end Ends

/-- From some fuel on the computation returns one result, which is of this kind if it does
not fail. -/
def Yields {ε α : Type} (x : Nat → ExceptT ε Option α) (Q : α → Prop) : Prop :=
  ∃ result, (∃ least, ∀ fuel, least ≤ fuel → (x fuel).run = some result) ∧
    ∀ a, result = .ok a → Q a

namespace Yields
variable {ε α β : Type} {x y : Nat → ExceptT ε Option α} {f : Nat → α → ExceptT ε Option β}
  {P P' : α → Prop} {Q : β → Prop}

theorem pure (h : P a) : Yields (fun _ => (Pure.pure a : ExceptT ε Option α)) P :=
  ⟨.ok a,⟨0,fun _ _ => rfl⟩,fun _ he => Except.ok.inj he ▸ h⟩

theorem throw (e : ε) (P : α → Prop) : Yields (fun _ => (throwThe ε e : ExceptT ε Option α)) P :=
  ⟨.error e,⟨0,fun _ _ => rfl⟩,nofun⟩

theorem ofExcept (y : Except ε α) (h : ∀ a, y = .ok a → P a) :
    Yields (fun _ => (MonadExcept.ofExcept y : ExceptT ε Option α)) P := by
  cases y with
  | error e => exact throw e P
  | ok a => exact pure (h a rfl)

theorem bind (hx : Yields x P) (hf : ∀ a, P a → Yields (fun fuel => f fuel a) Q) :
    Yields (fun fuel => x fuel >>= f fuel) Q := by
  obtain ⟨result,⟨n,hrun⟩,hP⟩ := hx
  cases result with
  | error e =>
    refine ⟨.error e,⟨n,fun fuel hn => ?_⟩,nofun⟩
    rw [ExceptT.run_bind,hrun fuel hn]
    rfl
  | ok a =>
    obtain ⟨result,⟨m,hrun'⟩,hQ⟩ := hf a (hP a rfl)
    refine ⟨result,⟨n + m,fun fuel hn => ?_⟩,hQ⟩
    rw [ExceptT.run_bind,hrun fuel (by omega)]
    exact hrun' fuel (by omega)

theorem mono (hx : Yields x P) (h : ∀ a, P a → P' a) : Yields x P' := by
  obtain ⟨result,hrun,hP⟩ := hx
  exact ⟨result,hrun,fun a he => h a (hP a he)⟩

/-- A call costs one unit. -/
theorem succ (hx : Yields (fun fuel => x (fuel + 1)) P) : Yields x P := by
  obtain ⟨result,⟨n,hrun⟩,hP⟩ := hx
  refine ⟨result,⟨n + 1,fun fuel hn => ?_⟩,hP⟩
  obtain ⟨k,rfl⟩ := Nat.exists_eq_add_of_le' hn
  exact hrun (k + n) (by omega)

theorem ite [Decidable c] (hx : c → Yields x P) (hy : ¬c → Yields y P) :
    Yields (fun fuel => if c then x fuel else y fuel) P := by
  by_cases h : c
  · simp only [if_pos h]
    exact hx h
  · simp only [if_neg h]
    exact hy h

end Yields

end Madmail.Lib
