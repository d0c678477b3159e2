import Mathlib.Data.List.Chain
import Mathlib.Data.List.Infix

namespace Madmail.Lib.Bytes
open List

def ascii (text : String) : List UInt8 := text.toList.map fun c => UInt8.ofNat c.toNat

section
variable [DecidableEq α]

def after (sep : List α) : List α → Option (List α)
  | [] => if sep = [] then some [] else none
  | c :: cs => if sep <+: c :: cs then some ((c :: cs).drop sep.length) else after sep cs

def lastIndex (text : List α) : List α → Option Nat
  | [] => if text = [] then some 0 else none
  | c :: cs =>
    match lastIndex text cs with
    | some i => some (i + 1)
    | none => if text <+: c :: cs then some 0 else none

def trimFront (words : List (List α)) : Nat → List α → List α
  | 0, s => s
  | turns + 1, s =>
    match words.find? (· <+: s) with
    | none => s
    | some word => trimFront words turns (s.drop word.length)

def trimWords (words : List (List α)) (s : List α) : List α :=
  let front := trimFront words s.length s
  (trimFront (words.map List.reverse) front.length front.reverse).reverse

theorem after_append {sep a s : List α} (h : ∀ k < a.length, ¬ sep <+: a.drop k ++ s) :
    after sep (a ++ s) = after sep s := by
  induction a with
  | nil => rfl
  | cons c a ih =>
    have hfirst : ¬ sep <+: c :: (a ++ s) := h 0 (by simp)
    rw [cons_append,after,if_neg hfirst]
    exact ih fun k hk => h (k + 1) (by simpa using hk)

theorem after_sep {sep : List α} (h : sep ≠ []) {s : List α} : after sep (sep ++ s) = some s := by
  obtain ⟨c,cs,rfl⟩ := exists_cons_of_ne_nil h
  rw [cons_append,after,if_pos ⟨s,rfl⟩]
  simp

theorem after_eq_none {sep s : List α} (h : ¬ sep <:+: s) : after sep s = none := by
  induction s with
  | nil => simpa [after] using h
  | cons c cs ih =>
    rw [after,if_neg fun hp => h hp.isInfix]
    exact ih fun hi => h (hi.trans (suffix_cons c cs).isInfix)

theorem lastIndex_eq_none {text s : List α} (h : ¬ text <:+: s) : lastIndex text s = none := by
  induction s with
  | nil => simpa [lastIndex] using h
  | cons c cs ih =>
    rw [lastIndex,ih fun hi => h (hi.trans (suffix_cons c cs).isInfix)]
    exact if_neg fun hp => h hp.isInfix

theorem lastIndex_append {text s : List α} (hne : s ≠ []) (h : text <+: s)
    (hlast : ¬ text <:+: s.tail) {a : List α} : lastIndex text (a ++ s) = some a.length := by
  induction a with
  | nil =>
    obtain ⟨c,cs,rfl⟩ := exists_cons_of_ne_nil hne
    have hnone : lastIndex text cs = none := lastIndex_eq_none hlast
    rw [nil_append,lastIndex,hnone]
    exact if_pos h
  | cons c a ih => rw [cons_append,lastIndex,ih,length_cons]

theorem lastIndex_at_end {text : List α} (hne : text ≠ []) {a : List α} :
    lastIndex text (a ++ text) = some a.length := by
  refine lastIndex_append hne (prefix_refl text) ?_
  intro h
  have hlen := h.length_le
  have hpos := length_pos_iff.mpr hne
  rw [length_tail] at hlen
  omega

end

/-- No two words of the set start the same text. -/
def IsCode (P : List α → Prop) : Prop :=
  ∀ ⦃a b x y⦄, P a → P b → a ++ x = b ++ y → a = b

theorem isCode_of_prefix (h : ∀ a b, P a → P b → a <+: b → a = b) : IsCode P := by
  intro a b x y ha hb hxy
  rcases prefix_or_prefix_of_prefix (prefix_append a x) (hxy ▸ prefix_append b y)
    with hab | hba
  · exact h a b ha hb hab
  · exact (h b a hb ha hba).symm

/-- Words of a code that end with a word of another kind are a code again. -/
theorem IsCode.closed_by {K D : List α → Prop} (hcode : IsCode fun w => K w ∨ D w)
    (hdisj : ∀ w, K w → ¬ D w) :
    IsCode fun w => ∃ (ks : List (List α)) (d : List α), (∀ k ∈ ks, K k) ∧ D d ∧ w = ks.flatten ++ d := by
  rintro _ _ x y ⟨ks,d,hks,hd,rfl⟩ ⟨js,e,hjs,he,rfl⟩ h
  induction ks generalizing js with
  | nil =>
    cases js with
    | nil => simpa using hcode (.inr hd) (.inr he) (by simpa using h)
    | cons j js =>
      have hj := hjs j mem_cons_self
      have hdj : d = j := hcode (.inr hd) (.inl hj) (by simpa using h)
      exact absurd hd (hdj ▸ hdisj j hj)
  | cons k ks ih =>
    have hk := hks k mem_cons_self
    cases js with
    | nil =>
      have hke : k = e := hcode (.inl hk) (.inr he) (by simpa using h)
      exact absurd he (hke ▸ hdisj k hk)
    | cons j js =>
      have hkj : k = j := hcode (.inl hk) (.inl (hjs j mem_cons_self)) (by simpa using h)
      subst hkj
      have hrest := ih (fun k hk => hks k (mem_cons_of_mem _ hk)) js
        (fun j hj => hjs j (mem_cons_of_mem _ hj)) (by simpa using h)
      simp [hrest]

section
variable [DecidableEq α] {words : List (List α)}

theorem trimFront_stop (h : ∀ w ∈ words, ¬ w <+: s) (turns : Nat) :
    trimFront words turns s = s := by
  cases turns with
  | zero => rfl
  | succ turns =>
    have hfind : words.find? (· <+: s) = none := by simpa [find?_eq_none] using h
    rw [trimFront,hfind]

theorem trimFront_words (hcode : IsCode (· ∈ words)) {ws : List (List α)} (hws : ∀ w ∈ ws, w ∈ words)
    {s : List α} (hs : ∀ w ∈ words, ¬ w <+: s) {turns : Nat} (hturns : ws.length ≤ turns) :
    trimFront words turns (ws.flatten ++ s) = s := by
  induction ws generalizing turns with
  | nil => exact trimFront_stop hs turns
  | cons w ws ih =>
    rw [length_cons] at hturns
    obtain ⟨turns,rfl⟩ : ∃ n, turns = n + 1 := ⟨turns - 1,by omega⟩
    rw [flatten_cons,append_assoc]
    have hfind : words.find? (· <+: w ++ (ws.flatten ++ s)) = some w := by
      obtain ⟨v,hv⟩ : ∃ v, words.find? (· <+: w ++ (ws.flatten ++ s)) = some v := by
        rw [← Option.isSome_iff_exists,find?_isSome]
        exact ⟨w,hws w mem_cons_self,by simp⟩
      have hmem := mem_of_find?_eq_some hv
      obtain ⟨y,hy⟩ : v <+: w ++ (ws.flatten ++ s) := by simpa using find?_some hv
      rw [hv,hcode hmem (hws w mem_cons_self) hy]
    rw [trimFront,hfind]
    simp only [drop_left]
    exact ih (fun v hv => hws v (mem_cons_of_mem _ hv)) (by omega)

theorem trimWords_wrap (hne : [] ∉ words) (hcode : IsCode (· ∈ words))
    (hback : IsCode (· ∈ words.map List.reverse)) {l r : List (List α)} (hl : ∀ w ∈ l, w ∈ words)
    (hr : ∀ w ∈ r, w ∈ words) {s : List α} (hfront : ∀ w ∈ words, ¬ w <+: s ++ r.flatten)
    (hend : ∀ w ∈ words, ¬ w <:+ s) : trimWords words (l.flatten ++ (s ++ r.flatten)) = s := by
  have hlen : ∀ ws : List (List α), (∀ w ∈ ws, w ∈ words) → ws.length ≤ ws.flatten.length := by
    intro ws hws
    induction ws with
    | nil => simp
    | cons w ws ih =>
      have hpos : 0 < w.length :=
        length_pos_iff.mpr fun h => hne (h ▸ hws w mem_cons_self)
      have := ih fun v hv => hws v (mem_cons_of_mem _ hv)
      simp only [flatten_cons,length_cons,length_append]
      omega
  have hl' := hlen l hl
  have hr' := hlen r hr
  have hfirst : trimFront words (l.flatten ++ (s ++ r.flatten)).length (l.flatten ++ (s ++ r.flatten))
      = s ++ r.flatten := by
    apply trimFront_words hcode hl hfront
    rw [length_append]
    omega
  have hsecond : trimFront (words.map List.reverse) (s ++ r.flatten).length (s ++ r.flatten).reverse
      = s.reverse := by
    rw [reverse_append,reverse_flatten]
    apply trimFront_words hback
    · intro w hw
      obtain ⟨v,hv,rfl⟩ := mem_map.mp (mem_reverse.mp hw)
      exact mem_map.mpr ⟨v,hr v hv,rfl⟩
    · intro w hw
      obtain ⟨v,hv,rfl⟩ := mem_map.mp hw
      rw [ reverse_prefix]
      exact hend v hv
    · rw [length_reverse,length_map,length_append]
      omega
  simp only [trimWords]
  rw [hfirst,hsecond,reverse_reverse]

theorem trimFront_suffix (turns : Nat) (s : List α) : trimFront words turns s <:+ s := by
  induction turns generalizing s with
  | zero => exact suffix_refl s
  | succ turns ih =>
    rw [trimFront]
    split
    · exact suffix_refl s
    · exact (ih _).trans (drop_suffix _ s)

theorem trimFront_ne (hne : [] ∉ words) {s w : List α} (hw : w ∈ words) (hs : w <+: s) {turns : Nat}
    (hturns : 0 < turns) : trimFront words turns s ≠ s := by
  obtain ⟨turns,rfl⟩ : ∃ n, turns = n + 1 := ⟨turns - 1,by omega⟩
  obtain ⟨v,hv⟩ : ∃ v, words.find? (· <+: s) = some v := by
    rw [← Option.isSome_iff_exists,find?_isSome]
    exact ⟨w,hw,by simpa using hs⟩
  have hmem := mem_of_find?_eq_some hv
  have hvs : v <+: s := by simpa using find?_some hv
  rw [trimFront,hv]
  intro (heq : trimFront words turns (s.drop v.length) = s)
  have hsuffix : trimFront words turns (s.drop v.length) <:+ s.drop v.length := trimFront_suffix _ _
  have hlen := hsuffix.length_le
  have hpos : 0 < v.length := length_pos_iff.mpr fun h => hne (h ▸ hmem)
  have hle := hvs.length_le
  rw [heq,length_drop] at hlen
  omega

end

/-- In this list no `x` is followed by a `y`. -/
def Apart (x y : α) (l : List α) : Prop := l.IsChain fun a b => a = x → b ≠ y

theorem Apart.not_adjacent (h : Apart x y l) : ¬ [x,y] <:+: l := by
  rintro ⟨a,b,rfl⟩
  have hsplit : a ++ [x,y] ++ b = a ++ x :: y :: b := by simp
  rw [Apart,hsplit,isChain_append_cons_cons] at h
  exact h.2.1 rfl rfl

theorem apart_of_not_mem {x y : α} {l : List α} (h : x ∉ l) : Apart x y l := by
  rw [Apart,isChain_iff_forall_rel_of_append_cons_cons]
  rintro a b l₁ l₂ rfl rfl
  simp at h

theorem Apart.append {x y : α} {a b : List α} (ha : Apart x y a) (hb : Apart x y b)
    (h : a.getLast? ≠ some x ∨ b.head? ≠ some y) : Apart x y (a ++ b) := by
  refine isChain_append.mpr ⟨ha,hb,?_⟩
  rintro u hu v hv rfl rfl
  exact h.elim (fun h => h hu) (fun h => h hv)

theorem apart_flatten {x y : α} {ls : List (List α)} (h : ∀ l ∈ ls, Apart x y l ∧ l.head? ≠ some y) :
    Apart x y ls.flatten ∧ ls.flatten.head? ≠ some y := by
  induction ls with
  | nil => exact ⟨apart_of_not_mem (by simp),by simp⟩
  | cons l ls ih =>
    obtain ⟨hl,hhead⟩ := h l mem_cons_self
    obtain ⟨hls,hls'⟩ := ih fun l hl => h l (mem_cons_of_mem _ hl)
    refine ⟨hl.append hls (.inr hls'),?_⟩
    cases l with
    | nil => exact hls'
    | cons c l => simpa using hhead

end Madmail.Lib.Bytes
