import Mathlib.Data.List.Basic

namespace Madmail.Lib
open Function

/-- The books of an owner that takes out handles one after the other: how many
it took out, the one it holds, and how often each was closed. -/
@[ext]
structure Ledger where
  issued : Nat
  held : Option Nat
  closes : Nat → Nat

namespace Ledger

inductive Effect where
  | keep
  | acquire
  -- The handle that is held is closed and given up, if there is one.
  | close
  -- It is given up without a call.
  | drop

def apply (l : Ledger) : Effect → Ledger
  | .keep => l
  | .acquire => { l with issued := l.issued + 1, held := some l.issued }
  | .close =>
    match l.held with
    | none => l
    | some n => { l with held := none, closes := update l.closes n (l.closes n + 1) }
  | .drop => { l with held := none }

structure Valid (l : Ledger) : Prop where
  held_issued : ∀ n, l.held = some n → n < l.issued
  closed_issued : ∀ n, l.issued ≤ n → l.closes n = 0

def ClosedOnce (l : Ledger) : Prop :=
  ∀ n < l.issued, l.closes n = if l.held = some n then 0 else 1

/-- The effects that lose no handle. -/
def Lawful (l : Ledger) : Effect → Prop
  | .keep | .close => True
  | .acquire | .drop => l.held = none

variable {l : Ledger}

theorem Valid.apply (h : l.Valid) (e : Effect) : (l.apply e).Valid := by
  cases e with
  | keep => exact h
  | acquire =>
    refine ⟨fun n hn => ?_,fun n hn => h.closed_issued n (Nat.le_of_succ_le hn)⟩
    cases hn
    exact Nat.lt_succ_self _
  | drop => exact ⟨fun n hn => (nomatch hn),h.closed_issued⟩
  | close =>
    cases hl : l.held with
    | none => simpa only [Ledger.apply,hl] using h
    | some m =>
      simp only [Ledger.apply,hl]
      refine ⟨fun n hn => (nomatch hn),fun n hn => ?_⟩
      have hne : n ≠ m := Nat.ne_of_gt (Nat.lt_of_lt_of_le (h.held_issued m hl) hn)
      simpa only [update_of_ne hne] using h.closed_issued n hn

theorem closedOnce_acquire_iff (hv : l.Valid) (h : l.ClosedOnce) :
    (l.apply .acquire).ClosedOnce ↔ l.held = none := by
  constructor
  · intro hc
    cases hl : l.held with
    | none => rfl
    | some m =>
      have hm := hv.held_issued m hl
      have hnew := hc m (Nat.lt_succ_of_lt hm)
      have hold := h m hm
      simp only [Ledger.apply,Option.some.injEq,if_neg (Nat.ne_of_gt hm)] at hnew
      simp only [hl,↓reduceIte] at hold
      omega
  · intro hn n hlt
    rcases Nat.lt_succ_iff_lt_or_eq.mp hlt with hlt | rfl
    · have hold := h n hlt
      simpa [Ledger.apply,hn,Nat.ne_of_gt hlt] using hold
    · simpa [Ledger.apply] using hv.closed_issued l.issued (Nat.le_refl _)

theorem closedOnce_drop_iff (hv : l.Valid) (h : l.ClosedOnce) :
    (l.apply .drop).ClosedOnce ↔ l.held = none := by
  constructor
  · intro hc
    cases hl : l.held with
    | none => rfl
    | some m =>
      have hnew := hc m (hv.held_issued m hl)
      have hold := h m (hv.held_issued m hl)
      simp only [Ledger.apply,reduceCtorEq,↓reduceIte] at hnew
      simp only [hl,↓reduceIte] at hold
      omega
  · intro hn n hlt
    simpa [Ledger.apply,hn] using h n hlt

theorem ClosedOnce.close (h : l.ClosedOnce) : (l.apply .close).ClosedOnce := by
  cases hl : l.held with
  | none => simpa only [Ledger.apply,hl] using h
  | some m =>
    intro n hlt
    simp only [Ledger.apply,hl] at hlt ⊢
    have hold := h n hlt
    rw [hl] at hold
    by_cases he : n = m
    · subst he
      simpa using hold
    · simpa [he,Ne.symm he] using hold

theorem closedOnce_apply_iff (hv : l.Valid) (h : l.ClosedOnce) (e : Effect) :
    (l.apply e).ClosedOnce ↔ l.Lawful e := by
  cases e with
  | keep => exact iff_of_true h trivial
  | close => exact iff_of_true h.close trivial
  | acquire => exact closedOnce_acquire_iff hv h
  | drop => exact closedOnce_drop_iff hv h

/-- No handle is closed twice, and none that is held. -/
def AtMostOnce (l : Ledger) : Prop := ∀ n, l.closes n ≤ if l.held = some n then 0 else 1

theorem AtMostOnce.apply (h : l.AtMostOnce) (hv : l.Valid) (e : Effect) :
    (l.apply e).AtMostOnce := by
  intro n
  have hn := h n
  have hnew := hv.closed_issued n
  cases e with
  | close =>
    rw [Ledger.apply]
    cases hl : l.held with
    | none => exact hn
    | some m =>
      simp only [hl,Option.some.injEq,update_apply] at hn ⊢
      grind
  | _ => grind [Ledger.apply]

end Ledger

end Madmail.Lib
