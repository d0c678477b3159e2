import Mathlib.Data.List.DropRight

namespace Madmail.Lib.Strings
open List

/-- `strings.Split`, for a separator of one character. -/
def split (s : String) (sep : Char) : List String := (s.toList.splitOn sep).map String.ofList

/-- `strings.SplitN`: the last part is what is left of the text. -/
def splitN (s : String) (sep : Char) (n : Nat) : List String :=
  (go n s.toList).map String.ofList
where
  go : Nat → List Char → List (List Char)
    | 0, _ => []
    | 1, rest => [rest]
    | n + 2, rest =>
      if sep ∈ rest then
        rest.takeWhile (· ≠ sep) :: go (n + 1) (rest.dropWhile (· ≠ sep)).tail
      else [rest]

/-- `strings.Trim`. -/
def trim (s : String) (cutset : List Char) : String :=
  String.ofList ((s.toList.dropWhile (· ∈ cutset)).rdropWhile (· ∈ cutset))

def hasPrefix (s pre : String) : Bool := pre.toList.isPrefixOf s.toList

def hasSuffix (s suf : String) : Bool := suf.toList.isSuffixOf s.toList

def trimPrefix (s pre : String) : String :=
  if hasPrefix s pre then String.ofList (s.toList.drop pre.length) else s

def trimSuffix (s suf : String) : String :=
  if hasSuffix s suf then String.ofList (s.toList.take (s.length - suf.length)) else s

def trimRight (s : String) (cutset : List Char) : String :=
  String.ofList (s.toList.rdropWhile (· ∈ cutset))

/-- What follows the first occurrence of a text. -/
def after (s text : String) : Option String :=
  (s.toList.tails.find? (fun rest => text.toList.isPrefixOf rest)).map
    (fun rest => String.ofList (rest.drop text.length))

/-- Drops the characters that the first octets belong to. -/
def dropBytes : Nat → List Char → List Char
  | 0, cs => cs
  | _ + 1, [] => []
  | n + 1, c :: cs => dropBytes (n + 1 - c.utf8Size) cs

def contains (s : String) (c : Char) : Bool := c ∈ s.toList

theorem hasPrefix_iff : hasPrefix s pre = true ↔ pre.toList <+: s.toList :=
  isPrefixOf_iff_prefix

theorem hasSuffix_iff : hasSuffix s suf = true ↔ suf.toList <:+ s.toList :=
  isSuffixOf_iff_suffix

theorem hasPrefix_append_char (ht : t.toList = [c]) (h : c ∉ pre.toList) :
    hasPrefix (s ++ t) pre = hasPrefix s pre := by
  rw [Bool.eq_iff_iff,hasPrefix_iff,hasPrefix_iff,String.toList_append,ht]
  constructor
  · intro hp
    rcases prefix_concat_iff.mp hp with heq | hp
    · rw [heq] at h
      simp at h
    · exact hp
  · intro hp
    exact hp.trans (prefix_append _ _)

theorem trimSuffix_append : trimSuffix (s ++ suf) suf = s := by
  have hs : hasSuffix (s ++ suf) suf = true := by
    rw [hasSuffix_iff,String.toList_append]
    exact suffix_append _ _
  have hlen : s.length = s.toList.length := String.length_toList.symm
  rw [trimSuffix,if_pos hs,String.toList_append,String.length_append,Nat.add_sub_cancel,hlen,
    take_left,String.ofList_toList]

theorem exists_of_hasSuffix (h : hasSuffix s suf = true) : ∃ t, s = t ++ suf := by
  obtain ⟨t,ht⟩ := hasSuffix_iff.mp h
  exact ⟨String.ofList t,String.ext (by simp [ht])⟩

theorem length_trimPrefix_le (s pre : String) : (trimPrefix s pre).length ≤ s.length := by
  unfold trimPrefix
  split
  · rw [String.length_ofList,length_drop,String.length_toList]
    exact Nat.sub_le _ _
  · exact Nat.le_refl _

theorem length_trimPrefix_lt {s pre : String} (hne : pre ≠ "") (h : hasPrefix s pre = true) :
    (trimPrefix s pre).length < s.length := by
  have hle := (hasPrefix_iff.mp h).length_le
  have hpos : 0 < pre.length := Nat.pos_of_ne_zero (by simpa using hne)
  rw [trimPrefix,if_pos h]
  simp only [String.length_ofList,length_drop,String.length_toList] at hle ⊢
  omega

theorem length_trimSuffix_le (s suf : String) : (trimSuffix s suf).length ≤ s.length := by
  unfold trimSuffix
  split
  · rw [String.length_ofList,length_take,String.length_toList]
    exact Nat.min_le_right _ _
  · exact Nat.le_refl _

theorem length_trimSuffix_lt (hne : suf ≠ "") (h : hasSuffix s suf = true) :
    (trimSuffix s suf).length < s.length := by
  have hle := (hasSuffix_iff.mp h).length_le
  have hpos : 0 < suf.length := Nat.pos_of_ne_zero (by simpa using hne)
  rw [trimSuffix,if_pos h]
  simp only [String.length_ofList,length_take,String.length_toList] at hle ⊢
  omega

theorem dropBytes_append (h : n ≤ cs.length) :
    dropBytes n (cs ++ rest) = dropBytes n cs ++ rest := by
  induction cs generalizing n with
  | nil =>
    obtain rfl : n = 0 := Nat.le_zero.mp h
    simp [dropBytes]
  | cons c cs ih =>
    cases n with
    | zero => rfl
    | succ n =>
      have hc := c.utf8Size_pos
      rw [length_cons] at h
      apply ih
      omega

theorem length_dropBytes_le (n : Nat) (cs : List Char) : (dropBytes n cs).length ≤ cs.length := by
  induction cs generalizing n with
  | nil => cases n <;> exact Nat.le_refl 0
  | cons c cs ih =>
    cases n with
    | zero => exact Nat.le_refl _
    | succ n => exact Nat.le_succ_of_le (ih _)

theorem length_dropBytes_lt (hn : n ≠ 0) (h : cs ≠ []) : (dropBytes n cs).length < cs.length := by
  obtain ⟨n,rfl⟩ := Nat.exists_eq_succ_of_ne_zero hn
  obtain ⟨c,cs,rfl⟩ := exists_cons_of_ne_nil h
  exact Nat.lt_succ_of_le (length_dropBytes_le _ cs)

theorem not_mem_of_splitOn {sep : Char} {cs part : List Char} (h : part ∈ cs.splitOn sep) :
    sep ∉ part := by
  induction cs generalizing part with
  | nil =>
    simp only [splitOn_nil,mem_singleton] at h
    simp [h]
  | cons c cs ih =>
    rw [List.splitOn,splitOnP_cons_eq_if_modifyHead] at h
    split at h
    · rcases mem_cons.mp h with rfl | h
      · simp
      · exact ih h
    · rename_i hc
      obtain ⟨p,ps,hp⟩ := exists_cons_of_ne_nil (splitOnP_ne_nil (· == sep) cs)
      have hsplit : cs.splitOn sep = p :: ps := hp
      rw [hp,modifyHead_cons] at h
      rcases mem_cons.mp h with rfl | h
      · have hc' : sep ≠ c := fun he => hc (by simp [he])
        have hp' : sep ∉ p := ih (by simp [hsplit])
        simp [hc',hp']
      · exact ih (by simp [hsplit,h])

/-- The parts, each with the separator after it, are the text. -/
theorem flatMap_splitOn {sep : Char} {cs : List Char} :
    (cs.splitOn sep).flatMap (· ++ [sep]) = cs ++ [sep] := by
  induction cs with
  | nil => simp
  | cons c cs ih =>
    rw [List.splitOn,splitOnP_cons_eq_if_modifyHead]
    obtain ⟨p,ps,hp⟩ := exists_cons_of_ne_nil (splitOnP_ne_nil (· == sep) cs)
    have hsplit : cs.splitOn sep = p :: ps := hp
    rw [hsplit] at ih
    rw [hp]
    split
    · rename_i hc
      rw [flatMap_cons,ih,beq_iff_eq.mp hc]
      rfl
    · rw [flatMap_cons,append_assoc] at ih
      rw [modifyHead_cons,flatMap_cons,cons_append,cons_append,
        cons_append,append_assoc,ih]

theorem length_splitOn {sep : Char} {cs : List Char} :
    (cs.splitOn sep).length = cs.count sep + 1 := by
  induction cs with
  | nil => simp
  | cons c cs ih =>
    rw [List.splitOn,splitOnP_cons_eq_if_modifyHead,count_cons]
    split
    · rw [length_cons]
      exact congrArg (· + 1) ih
    · rw [length_modifyHead]
      exact ih

theorem length_split (s : String) (sep : Char) :
    (split s sep).length = s.toList.count sep + 1 := by
  rw [split,length_map,length_splitOn]

/-- Two parts: the text has the separator once, between them. -/
theorem split_pair {s a b : String} (h : split s sep = [a,b]) :
    s.toList = a.toList ++ sep :: b.toList ∧ sep ∉ a.toList ∧ sep ∉ b.toList := by
  unfold split at h
  have hlen : (s.toList.splitOn sep).length = 2 := by
    simpa using congrArg List.length h
  obtain ⟨x,y,hxy⟩ := length_eq_two.mp hlen
  rw [hxy] at h
  simp only [map_cons,map_nil,List.cons.injEq,and_true] at h
  obtain ⟨rfl,rfl⟩ := h
  have hs : [sep].intercalate (s.toList.splitOn sep) = s.toList := intercalate_splitOn sep
  rw [hxy] at hs
  refine ⟨?_,?_,?_⟩
  · rw [← hs]; simp [List.intercalate]
  · simpa using @not_mem_of_splitOn sep s.toList x (by simp [hxy])
  · simpa using @not_mem_of_splitOn sep s.toList y (by simp [hxy])

theorem split_join (sep : Char) {a b : String} (ha : sep ∉ a.toList) (hb : sep ∉ b.toList) :
    split (a ++ String.singleton sep ++ b) sep = [a,b] := by
  have hs : ([sep].intercalate [a.toList,b.toList]).splitOn sep = [a.toList,b.toList] :=
    splitOn_intercalate sep (by simp [ha,hb]) (by simp)
  have hl : [sep].intercalate [a.toList,b.toList] = a.toList ++ sep :: b.toList := by
    simp [List.intercalate]
  rw [hl] at hs
  simp [split,hs]

/-- A part without the separator is split off first. -/
theorem splitN_cons (hs : sep ∉ s.toList) :
    splitN (s ++ String.singleton sep ++ t) sep (n + 2) = s :: splitN t sep (n + 1) := by
  have hall : ∀ x ∈ s.toList, (decide (x ≠ sep)) = true := by
    intro x hx
    refine decide_eq_true fun heq => hs ?_
    rwa [← heq]
  have hlist : (s ++ String.singleton sep ++ t).toList = s.toList ++ sep :: t.toList := by
    simp [String.toList_append]
  have htake : (s.toList ++ sep :: t.toList).takeWhile (fun x => decide (x ≠ sep)) = s.toList := by
    rw [takeWhile_append_of_pos hall]
    simp
  have hdrop : (s.toList ++ sep :: t.toList).dropWhile (fun x => decide (x ≠ sep)) = sep :: t.toList := by
    rw [dropWhile_append_of_pos hall]
    simp
  unfold splitN
  rw [hlist,splitN.go,if_pos (by simp),htake,hdrop]
  simp

theorem splitN_one : splitN s sep 1 = [s] := by
  simp [splitN,splitN.go]

theorem length_splitN_go (sep : Char) (n : Nat) (cs : List Char) :
    0 < (splitN.go sep (n + 1) cs).length ∧ (splitN.go sep (n + 1) cs).length ≤ n + 1 := by
  induction n generalizing cs with
  | zero => simp [splitN.go]
  | succ n ih =>
    rw [splitN.go]
    split
    · have hrest := ih (cs.dropWhile (fun x => decide (x ≠ sep))).tail
      simp only [length_cons]
      omega
    · simp

theorem length_splitN (s : String) (sep : Char) (n : Nat) :
    0 < (splitN s sep (n + 1)).length ∧ (splitN s sep (n + 1)).length ≤ n + 1 := by
  rw [splitN,length_map]
  exact length_splitN_go sep n s.toList

theorem count_dropWhile {c : Char} {p : Char → Bool} (hp : p c = false) (cs : List Char) :
    (cs.dropWhile p).count c = cs.count c := by
  induction cs with
  | nil => rfl
  | cons d cs ih =>
    rw [dropWhile_cons]
    split
    · rename_i hd
      have hne : d ≠ c := fun he => by simp [← he,hd] at hp
      rw [ih,count_cons_of_ne hne]
    · rfl

theorem count_trim (h : c ∉ cutset) : (trim s cutset).toList.count c = s.toList.count c := by
  have hp : decide (c ∈ cutset) = false := by simpa using h
  simp only [trim,String.toList_ofList,List.rdropWhile,count_reverse]
  rw [count_dropWhile hp,count_reverse,count_dropWhile hp]

theorem trimmed_ends {cs : List Char} {p : Char → Bool} (h : (cs.dropWhile p).rdropWhile p ≠ []) :
    ((cs.dropWhile p).rdropWhile p).dropWhile p = (cs.dropWhile p).rdropWhile p := by
  obtain ⟨rest,hrest⟩ := rdropWhile_prefix p (l := cs.dropWhile p)
  generalize (cs.dropWhile p).rdropWhile p = t at h hrest ⊢
  cases t with
  | nil => exact absurd rfl h
  | cons c t =>
    have hd : (cs.dropWhile p).head? = some c := by rw [← hrest]; rfl
    have hc := head?_dropWhile_not p cs
    rw [hd] at hc
    simp [hc]

/-- Characters of the cutset around a trimmed text are trimmed off again. -/
theorem trim_wrap (hl : ∀ c ∈ l.toList, c ∈ cutset) (hr : ∀ c ∈ r.toList, c ∈ cutset) (s : String) :
    trim (l ++ trim s cutset ++ r) cutset = trim s cutset := by
  apply String.ext
  simp only [trim,String.toList_append,String.toList_ofList]
  generalize hp : (fun c => decide (c ∈ cutset)) = p
  have hlp : ∀ c ∈ l.toList, p c = true := fun c hc => by rw [← hp]; simpa using hl c hc
  have hrp : ∀ c ∈ r.toList, p c = true := fun c hc => by rw [← hp]; simpa using hr c hc
  rw [append_assoc,dropWhile_append_of_pos hlp]
  by_cases h : (s.toList.dropWhile p).rdropWhile p = []
  · rw [h,nil_append,dropWhile_eq_nil_iff.mpr hrp,rdropWhile_nil]
  · rw [dropWhile_append,trimmed_ends h]
    simp only [List.isEmpty_iff,h,↓reduceIte]
    have hback : ∀ c ∈ r.toList.reverse, p c = true := fun c hc => hrp c (mem_reverse.mp hc)
    calc ((s.toList.dropWhile p).rdropWhile p ++ r.toList).rdropWhile p
        = ((s.toList.dropWhile p).rdropWhile p).rdropWhile p := by
          rw [List.rdropWhile,reverse_append,dropWhile_append_of_pos hback]
          rfl
      _ = (s.toList.dropWhile p).rdropWhile p := rdropWhile_idempotent _ _

end Madmail.Lib.Strings
