import Mathlib.Algebra.GroupWithZero.Nat
import Mathlib.Data.List.Nodup

namespace Madmail.Lib
open List

section Members
variable {σ α : Type} {l : List σ} {i : Nat} {x : σ}

theorem sum_map_set (f : σ → Nat) (y : σ) (h : l[i]? = some x) :
    ((l.set i y).map f).sum + f x = (l.map f).sum + f y := by
  induction l generalizing i with
  | nil => cases h
  | cons z l ih =>
    cases i with
    | zero =>
      cases h
      simp only [set_cons_zero,map_cons,sum_cons]
      omega
    | succ i =>
      have hrest := ih h
      simp only [set_cons_succ,map_cons,sum_cons]
      omega

theorem map_set_same (f : σ → α) (y : σ) (h : l[i]? = some x) (hy : f y = f x) :
    (l.set i y).map f = l.map f := by
  induction l generalizing i with
  | nil => rfl
  | cons z l ih =>
    cases i with
    | zero =>
      cases h
      simp [hy]
    | succ i => exact congrArg (f z :: ·) (ih h)

theorem exists_mem_set {P : σ → Prop} {y : σ} (h : l[i]? = some x) (hx : ¬ P x) :
    (∃ z ∈ l.set i y, P z) ↔ (∃ z ∈ l, P z) ∨ P y := by
  induction l generalizing i with
  | nil => cases h
  | cons z l ih =>
    cases i with
    | zero =>
      cases h
      simp [hx,or_comm]
    | succ i =>
      have hrest := ih h
      simp [hrest,or_assoc]

variable [BEq α]

/-- One holder changes what it holds. -/
theorem count_flatMap_set (f : σ → List α) (y : σ) (t : α) (h : l[i]? = some x) :
    ((l.set i y).flatMap f).count t + (f x).count t =
      (l.flatMap f).count t + (f y).count t := by
  rw [count_flatMap,count_flatMap]
  exact sum_map_set (List.count t ∘ f) y h

theorem count_flatMap_concat (f : σ → List α) (y : σ) (t : α) :
    ((l ++ [y]).flatMap f).count t = (l.flatMap f).count t + (f y).count t := by
  rw [flatMap_append,count_append,flatMap_cons,flatMap_nil,append_nil]

end Members

section Entries
variable {κ α : Type} [DecidableEq κ] {entries : List (κ × α)} {key : κ} {value : α}

theorem mem_of_lookup (h : entries.lookup key = some value) : (key,value) ∈ entries := by
  obtain ⟨before,after,heq, -⟩ := lookup_eq_some_iff.mp h
  rw [heq]
  exact mem_append_right _ mem_cons_self

theorem not_mem_of_lookup (h : entries.lookup key = none) : ∀ entry ∈ entries, entry.1 ≠ key := by
  intro entry hentry heq
  have hnone := lookup_eq_none_iff.mp h entry hentry
  simp [heq] at hnone

theorem lookup_filter (h : entries.lookup key = some value) (hkeep : keep (key,value) = true) :
    (entries.filter keep).lookup key = some value := by
  obtain ⟨before,after,rfl,hbefore⟩ := lookup_eq_some_iff.mp h
  rw [filter_append,filter_cons_of_pos hkeep]
  refine lookup_eq_some_iff.mpr ⟨_,_,rfl,fun entry hentry => ?_⟩
  exact hbefore entry (mem_of_mem_filter hentry)

theorem lookup_filter_dropped (h : entries.lookup key = some value)
    (hunique : (entries.map Prod.fst).Nodup) (hdrop : keep (key,value) = false) :
    (entries.filter keep).lookup key = none := by
  rw [lookup_eq_none_iff]
  intro entry hentry
  obtain ⟨hmem,hkeep⟩ := mem_filter.mp hentry
  refine bne_iff_ne.mpr fun heq => ?_
  have hentries : entry = (key,value) :=
    inj_on_of_nodup_map hunique hmem (mem_of_lookup h) heq.symm
  rw [hentries,hdrop] at hkeep
  cases hkeep

theorem lookup_map_value {β : Type} (f : κ → α → β) (key : κ) :
    (entries.map (fun entry => (entry.1,f entry.1 entry.2))).lookup key =
      (entries.lookup key).map (f key) := by
  induction entries with
  | nil => rfl
  | cons entry rest ih =>
    rw [map_cons,lookup_cons,lookup_cons,ih]
    split
    · rename_i heq
      rw [eq_of_beq heq,Option.map_some]
    · rfl

/-- A value is changed in place. -/
theorem lookup_map_key (f : α → α) (key key' : κ) :
    (entries.map (fun entry => if entry.1 = key then (key,f entry.2) else entry)).lookup key' =
      if key' = key then (entries.lookup key').map f else entries.lookup key' := by
  have hmap : (fun entry : κ × α => if entry.1 = key then (key,f entry.2) else entry) =
      fun entry => (entry.1,if entry.1 = key then f entry.2 else entry.2) := by
    funext entry
    split <;> simp_all
  rw [hmap,lookup_map_value fun k v => if k = key then f v else v]
  split
  · rfl
  · exact Option.map_id'

end Entries

end Madmail.Lib
