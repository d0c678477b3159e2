import Mathlib.Data.List.Nodup

namespace Madmail.Lib.Retry

variable {verdict : Nat → α → Verdict} {items : List α}

inductive Verdict where
  | done | failed | retry
  deriving DecidableEq, Repr

/-- The items of a bounded retry process that enter round `n`: those that every
earlier round has asked to retry. -/
def pending (verdict : Nat → α → Verdict) (items : List α) : Nat → List α
  | 0 => items
  | n + 1 => (pending verdict items n).filter (fun a => verdict n a = .retry)

theorem mem_pending_succ :
    a ∈ pending verdict items (n + 1) ↔ a ∈ pending verdict items n ∧ verdict n a = .retry := by
  simp [pending]

theorem pending_antitone (hnm : n ≤ m) (ha : a ∈ pending verdict items m) :
    a ∈ pending verdict items n := by
  induction hnm with
  | refl => exact ha
  | step _ ih => exact ih (mem_pending_succ.mp ha).1

theorem settled_gone (hv : verdict n a ≠ .retry) (hnm : n < m) : a ∉ pending verdict items m := by
  intro ha
  exact hv (mem_pending_succ.mp (pending_antitone hnm ha)).2

/-- An item that has left the process was settled in exactly one round, and it
took part in that round. -/
theorem settled_once (ha : a ∈ items) (hend : a ∉ pending verdict items bound) :
    ∃ n, n < bound ∧ (a ∈ pending verdict items n ∧ verdict n a ≠ .retry) ∧
      ∀ m, (a ∈ pending verdict items m ∧ verdict m a ≠ .retry) → m = n := by
  induction bound with
  | zero => exact absurd ha hend
  | succ k ih =>
    by_cases hk : a ∈ pending verdict items k
    · have hv : verdict k a ≠ .retry := fun hv => hend (mem_pending_succ.mpr ⟨hk,hv⟩)
      refine ⟨k,Nat.lt_succ_self k,⟨hk,hv⟩,?_⟩
      rintro m ⟨hm,hmv⟩
      rcases Nat.lt_trichotomy m k with hlt | heq | hgt
      · exact absurd hk (settled_gone hmv hlt)
      · exact heq
      · exact absurd hm (settled_gone hv hgt)
    · obtain ⟨n,hn,hp,hu⟩ := ih hk
      exact ⟨n,Nat.lt_succ_of_lt hn,hp,hu⟩

end Madmail.Lib.Retry
