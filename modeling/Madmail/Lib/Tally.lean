import Mathlib.Data.List.Forall2

namespace Madmail.Lib.Tally
open List

/-- The counters of a state, and what one acquisition adds to each of them. -/
structure Meter (σ ι : Type) where
  held : σ → ι → Nat
  demand : σ → ι → Nat

namespace Meter
variable {σ ι : Type} {μ : Meter σ ι} {s t u : σ}

def Grew (μ : Meter σ ι) (s t : σ) : Prop :=
  ∀ i, μ.held t i = μ.held s i + μ.demand s i ∧ μ.demand t i = μ.demand s i

def Kept (μ : Meter σ ι) (s t : σ) : Prop :=
  ∀ i, μ.held t i = μ.held s i ∧ μ.demand t i = μ.demand s i

def Covered (μ : Meter σ ι) (s : σ) : Prop := ∀ i, μ.demand s i ≤ μ.held s i

theorem Kept.refl (μ : Meter σ ι) (s : σ) : μ.Kept s s := fun _ => ⟨rfl,rfl⟩

theorem Grew.covered (h : μ.Grew s t) : μ.Covered t := by
  intro i
  obtain ⟨hheld,hdemand⟩ := h i
  omega

theorem Grew.back (h : μ.Grew s t) (h' : μ.Grew u t) : μ.Kept s u := by
  intro i
  obtain ⟨hheld,hdemand⟩ := h i
  obtain ⟨hheld',hdemand'⟩ := h' i
  omega

def each (μ : Meter σ Unit) : Meter (List σ) Nat :=
  { held := fun l i => (l[i]?).elim 0 (μ.held · ())
    demand := fun l i => (l[i]?).elim 0 (μ.demand · ()) }

section Each
variable {μ : Meter σ Unit} {l l' l'' : List σ}

theorem each_grew (h : Forall₂ μ.Grew l l') : μ.each.Grew l l' := by
  induction h with
  | nil => exact fun i => ⟨rfl,rfl⟩
  | cons hfirst _ ih =>
    intro i
    cases i with
    | zero => exact hfirst ()
    | succ i => exact ih i

theorem each_kept (h : Forall₂ μ.Kept l l') : μ.each.Kept l l' := by
  induction h with
  | nil => exact fun i => ⟨rfl,rfl⟩
  | cons hfirst _ ih =>
    intro i
    cases i with
    | zero => exact hfirst ()
    | succ i => exact ih i

theorem each_covered (h : μ.each.Covered l) : ∀ s ∈ l, μ.Covered s := by
  intro s hs i
  obtain ⟨n,hn⟩ := mem_iff_getElem?.mp hs
  have hcovered := h n
  simp only [each,hn,Option.elim_some] at hcovered
  exact hcovered

theorem forall₂_back (h : Forall₂ μ.Grew l l') (h' : Forall₂ μ.Grew l'' l') :
    Forall₂ μ.Kept l l'' := by
  induction h generalizing l'' with
  | nil =>
    cases h'
    exact .nil
  | cons hfirst _ ih =>
    cases h' with
    | cons hfirst' hrest' => exact .cons (hfirst.back hfirst') (ih hrest')

theorem forall₂_covered (h : Forall₂ μ.Grew l l') : ∀ s ∈ l', μ.Covered s := by
  intro s hs
  obtain ⟨n,hn⟩ := mem_iff_getElem?.mp hs
  have hat := (forall₂_iff_get.mp h)
  obtain ⟨hlen,hget⟩ := hat
  obtain ⟨hlt,rfl⟩ := List.getElem?_eq_some_iff.mp hn
  exact (hget n (hlen ▸ hlt) hlt).covered

end Each

end Meter

end Madmail.Lib.Tally
