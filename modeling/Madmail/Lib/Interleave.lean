import Mathlib.Data.List.Nodup

namespace Madmail.Lib
open List

/-- The calls of several goroutines, each with the name of its goroutine: the calls
of every one of them stand in their own order. -/
structure Interleaving [DecidableEq ι] (names : List ι) (calls : ι → List α)
    (merged : List (ι × α)) : Prop where
  name : ∀ e ∈ merged, e.1 ∈ names
  order : ∀ i ∈ names, (merged.filter (fun e => e.1 = i)).map Prod.snd = calls i

namespace Interleaving
variable {ι α : Type} [DecidableEq ι] {names : List ι} {calls : ι → List α} {merged : List (ι × α)}

theorem mem_iff (h : Interleaving names calls merged) :
    (i,x) ∈ merged ↔ i ∈ names ∧ x ∈ calls i := by
  constructor
  · intro hm
    have hi := h.name _ hm
    refine ⟨hi,?_⟩
    rw [← h.order i hi]
    exact mem_map.mpr ⟨(i,x),mem_filter.mpr ⟨hm,by simp⟩,rfl⟩
  · rintro ⟨hi,hx⟩
    rw [← h.order i hi] at hx
    obtain ⟨⟨j,y⟩,hm,rfl⟩ := mem_map.mp hx
    obtain ⟨hm,hj⟩ := mem_filter.mp hm
    have hji : j = i := by simpa using hj
    exact hji ▸ hm

theorem sequential (hn : names.Nodup) :
    Interleaving names calls (names.flatMap (fun i => (calls i).map (Prod.mk i))) := by
  have hskip : ∀ (rest : List ι) (i : ι), i ∉ rest →
      (rest.flatMap (fun j => (calls j).map (Prod.mk j))).filter (fun e => e.1 = i) = [] := by
    intro rest i hi
    refine filter_eq_nil_iff.mpr fun e he => ?_
    obtain ⟨j,hj,he⟩ := mem_flatMap.mp he
    obtain ⟨y, -,rfl⟩ := mem_map.mp he
    have hne : j ≠ i := fun hji => hi (hji ▸ hj)
    simpa using hne
  refine ⟨fun e he => ?_,fun i hi => ?_⟩
  · obtain ⟨j,hj,he⟩ := mem_flatMap.mp he
    obtain ⟨y, -,rfl⟩ := mem_map.mp he
    exact hj
  · obtain ⟨pre,post,rfl⟩ := append_of_mem hi
    have hmid := nodup_middle.mp hn
    obtain ⟨hout, -⟩ := nodup_cons.mp hmid
    have hpre : i ∉ pre := fun hm => hout (mem_append_left _ hm)
    have hpost : i ∉ post := fun hm => hout (mem_append_right _ hm)
    rw [flatMap_append,flatMap_cons,filter_append,filter_append,
      hskip pre i hpre,hskip post i hpost]
    simp [filter_map,Function.comp_def]

theorem perm (h : Interleaving names calls merged) (hp : names'.Perm names) :
    Interleaving names' calls merged :=
  ⟨fun e he => hp.mem_iff.mpr (h.name e he),fun i hi => h.order i (hp.mem_iff.mp hi)⟩

theorem exists_last (hn : names.Nodup) (hi : i ∈ names) :
    ∃ rest, Interleaving names calls (rest ++ (calls i).map (Prod.mk i)) := by
  obtain ⟨pre,post,rfl⟩ := append_of_mem hi
  have hperm : (pre ++ i :: post).Perm ((pre ++ post) ++ [i]) :=
    perm_middle.trans (@perm_append_comm _ [i] _)
  have hseq : Interleaving (pre ++ i :: post) calls _ :=
    (sequential (hperm.nodup_iff.mp hn)).perm hperm
  rw [flatMap_append,flatMap_singleton] at hseq
  exact ⟨_,hseq⟩

end Interleaving

end Madmail.Lib
