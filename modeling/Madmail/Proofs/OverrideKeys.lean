import Madmail.Remote.Overrides

namespace Madmail.Proofs.OverrideKeys
open Lib Overrides EndpointCache List Function

section Keys
variable {env : Env}

def canonical (env : Env) (k : String) : String := (cacheOf env fun _ => none).normalizeKey k

def bare (k : String) : String := Strings.trimSuffix k "."

/-- Nothing marks the key as an address literal. -/
structure Plain (env : Env) (k : String) : Prop where
  opened : Strings.hasPrefix k "[" = false
  closed : Strings.hasSuffix k "]" = false
  tagged : Strings.hasPrefix (toLower env k) "ipv6:" = false

theorem length_toLower : (toLower env s).length = s.length := by
  rw [toLower,String.length_ofList,length_map,String.length_toList]

theorem toLower_append (env : Env) (s t : String) :
    toLower env (s ++ t) = toLower env s ++ toLower env t := by
  apply String.ext
  simp [toLower]

def IsMark (s : String) (c : Char) : Prop := s.toList = [c] ∧ c ∈ ['.','[',']']

theorem dot_mark : IsMark "." '.' := ⟨by simp,by simp⟩

theorem open_mark : IsMark "[" '[' := ⟨by simp,by simp⟩

theorem close_mark : IsMark "]" ']' := ⟨by simp,by simp⟩

theorem toLower_mark (env : Env) (h : IsMark m c) : toLower env m = m := by
  have hmark : env.low c = c := (env.low_mark c c h.2).mpr rfl
  apply String.ext
  rw [toLower,String.toList_ofList,h.1,map_singleton,hmark]

theorem hasPrefix_toLower (h : IsMark m c) :
    Strings.hasPrefix (toLower env s) m = Strings.hasPrefix s m := by
  rw [Bool.eq_iff_iff,Strings.hasPrefix_iff,Strings.hasPrefix_iff,toLower,
    String.toList_ofList,h.1]
  cases s.toList with
  | nil => simp
  | cons d cs =>
    rw [map_cons,cons_prefix_cons,cons_prefix_cons,eq_comm,
      env.low_mark d c h.2,eq_comm]
    simp

theorem hasSuffix_toLower (env : Env) (s : String) (h : IsMark m c) :
    Strings.hasSuffix (toLower env s) m = Strings.hasSuffix s m := by
  rw [Bool.eq_iff_iff,Strings.hasSuffix_iff,Strings.hasSuffix_iff,toLower,
    String.toList_ofList,h.1]
  rcases eq_nil_or_concat s.toList with hs | ⟨cs,d,hs⟩
  · simp [hs]
  · rw [hs,concat_eq_append,map_append,map_singleton]
    have hd : env.low d = c ↔ d = c := env.low_mark d c h.2
    constructor
    · rintro ⟨pre,hp⟩
      have heq := (append_inj' hp rfl).2
      rw [singleton_inj] at heq
      exact ⟨cs,by rw [hd.mp heq.symm]⟩
    · rintro ⟨pre,hp⟩
      have heq := (append_inj' hp rfl).2
      rw [singleton_inj] at heq
      exact ⟨cs.map env.low,by rw [hd.mpr heq.symm]⟩

theorem bare_of_undotted (h : Strings.hasSuffix k "." = false) : bare k = k := by
  rw [bare,Strings.trimSuffix,if_neg (by simp [h])]

theorem bare_dotted (x : String) : bare (x ++ ".") = x := Strings.trimSuffix_append

theorem dotted_or_bare (k : String) :
    k = bare k ++ "." ∨ Strings.hasSuffix k "." = false ∧ bare k = k := by
  cases h : Strings.hasSuffix k "." with
  | true =>
    obtain ⟨x,rfl⟩ := Strings.exists_of_hasSuffix h
    exact .inl (by rw [bare_dotted])
  | false => exact .inr ⟨rfl,bare_of_undotted h⟩

theorem not_hasSuffix_dotted (x : String) : Strings.hasSuffix (x ++ ".") "]" = false := by
  rw [← Bool.not_eq_true,Strings.hasSuffix_iff,String.toList_append]
  rintro ⟨pre,hp⟩
  have heq := (append_inj' hp rfl).2
  exact absurd heq (by decide)

theorem storedKey_eq : storedKey env k = toLower env (bare k) := by
  have hlow : toLower env "." = "." := toLower_mark env dot_mark
  rcases dotted_or_bare k with hk | ⟨hk,hb⟩
  · rw [storedKey,hk,toLower_append,hlow,Strings.trimSuffix_append,bare_dotted]
  · have hs : Strings.hasSuffix (toLower env k) "." = false := by
      rw [hasSuffix_toLower env k dot_mark,hk]
    rw [hb,storedKey,Strings.trimSuffix,if_neg (by simp [hs])]

theorem plain_of_bare (h : Plain env (bare k)) : Plain env k := by
  rcases dotted_or_bare k with hk | ⟨_,hb⟩
  · rw [hk]
    have hlow : toLower env "." = "." := toLower_mark env dot_mark
    refine ⟨?_,not_hasSuffix_dotted _,?_⟩
    · rw [← h.opened]
      exact Strings.hasPrefix_append_char dot_mark.1 (by simp)
    · rw [← h.tagged,toLower_append,hlow]
      exact Strings.hasPrefix_append_char dot_mark.1 (by simp)
  · rwa [hb] at h

theorem Plain.congr (h : Plain env a) (heq : toLower env a = toLower env b) : Plain env b := by
  refine ⟨?_,?_,?_⟩
  · rw [← hasPrefix_toLower open_mark,← heq,hasPrefix_toLower open_mark,h.opened]
  · rw [← hasSuffix_toLower env b close_mark,← heq,hasSuffix_toLower env a close_mark,h.closed]
  · rw [← heq,h.tagged]

theorem canonical_of_plain (h : Plain env (bare k)) : canonical env k = storedKey env k := by
  have hk := plain_of_bare h
  have htrim : Strings.trimSuffix (Strings.trimPrefix k "[") "]" = k := by
    rw [Strings.trimPrefix,if_neg (by simp [hk.opened]),Strings.trimSuffix,
      if_neg (by simp [hk.closed])]
  have hstrip : stripIPv6 (toLower env) k = k := if_neg (by simp [hk.tagged])
  rw [storedKey_eq]
  simp only [canonical,Cache.normalizeKey,cacheOf,htrim,hstrip,bare]

theorem length_stripIPv6_le (env : Env) (s : String) :
    (stripIPv6 (toLower env) s).length ≤ s.length := by
  unfold stripIPv6
  split
  · rw [String.length_ofList,← String.length_toList]
    exact Strings.length_dropBytes_le 5 s.toList
  · exact Nat.le_refl _

theorem length_of_tagged (h : Strings.hasPrefix (toLower env s) "ipv6:" = true) :
    5 ≤ s.toList.length := by
  have hle := (Strings.hasPrefix_iff.mp h).length_le
  rwa [String.length_toList,String.length_toList,length_toLower,← String.length_toList] at hle

theorem length_stripIPv6_lt (h : Strings.hasPrefix (toLower env s) "ipv6:" = true) :
    (stripIPv6 (toLower env) s).length < s.length := by
  have hlen := length_of_tagged h
  rw [stripIPv6,if_pos h,String.length_ofList,← String.length_toList]
  apply Strings.length_dropBytes_lt (by decide)
  intro hnil
  simp [hnil] at hlen

theorem trimPrefix_dotted :
    Strings.trimPrefix (x ++ ".") "[" = Strings.trimPrefix x "[" ++ "." := by
  have hp : Strings.hasPrefix (x ++ ".") "[" = Strings.hasPrefix x "[" :=
    Strings.hasPrefix_append_char dot_mark.1 (by simp)
  unfold Strings.trimPrefix
  rw [hp]
  split
  · rename_i h
    apply String.ext
    have hlen := (Strings.hasPrefix_iff.mp h).length_le
    rw [String.length_toList] at hlen
    simp only [String.toList_ofList,String.toList_append,drop_append_of_le_length hlen]
  · rfl

theorem stripIPv6_dotted :
    stripIPv6 (toLower env) (x ++ ".") = stripIPv6 (toLower env) x ++ "." := by
  have hlow : toLower env "." = "." := toLower_mark env dot_mark
  have hp : Strings.hasPrefix (toLower env (x ++ ".")) "ipv6:"
      = Strings.hasPrefix (toLower env x) "ipv6:" := by
    rw [toLower_append,hlow]
    exact Strings.hasPrefix_append_char dot_mark.1 (by simp)
  unfold stripIPv6
  rw [hp]
  split
  · rename_i h
    apply String.ext
    simp [Strings.dropBytes_append (length_of_tagged h)]
  · rfl

theorem canonical_dotted : canonical env (x ++ ".")
    = toLower env (stripIPv6 (toLower env) (Strings.trimPrefix x "[")) := by
  have hclosed : Strings.trimSuffix (Strings.trimPrefix x "[" ++ ".") "]"
      = Strings.trimPrefix x "[" ++ "." := by
    rw [Strings.trimSuffix,if_neg (by simp [not_hasSuffix_dotted])]
  simp [canonical,Cache.normalizeKey,cacheOf,trimPrefix_dotted,hclosed,stripIPv6_dotted,Strings.trimSuffix_append]

theorem length_canonical_dotted (h : Strings.hasPrefix x "[" = true ∨
    Strings.hasPrefix (toLower env x) "ipv6:" = true) :
    (canonical env (x ++ ".")).length < x.length := by
  rw [canonical_dotted,length_toLower]
  cases hx : Strings.hasPrefix x "[" with
  | true =>
    have hlt := Strings.length_trimPrefix_lt (by decide) hx
    exact Nat.lt_of_le_of_lt (length_stripIPv6_le env _) hlt
  | false =>
    rw [Strings.trimPrefix,if_neg (by simp [hx])]
    apply length_stripIPv6_lt
    rcases h with h | h
    · rw [hx] at h
      cases h
    · exact h

theorem length_canonical_lt (h : ¬Plain env x) : (canonical env x).length < x.length := by
  have hdot := Strings.length_trimSuffix_le (stripIPv6 (toLower env)
    (Strings.trimSuffix (Strings.trimPrefix x "[") "]")) "."
  have hsix := length_stripIPv6_le env (Strings.trimSuffix (Strings.trimPrefix x "[") "]")
  have hclose := Strings.length_trimSuffix_le (Strings.trimPrefix x "[") "]"
  have hopen := Strings.length_trimPrefix_le x "["
  simp only [canonical,Cache.normalizeKey,cacheOf,length_toLower]
  cases ho : Strings.hasPrefix x "[" with
  | true =>
    have hlt := Strings.length_trimPrefix_lt (by decide) ho
    omega
  | false =>
    have hx : Strings.trimPrefix x "[" = x := by
      rw [Strings.trimPrefix,if_neg (by simp [ho])]
    rw [hx] at hdot hsix hclose ⊢
    cases hc : Strings.hasSuffix x "]" with
    | true =>
      have hlt := Strings.length_trimSuffix_lt (by decide) hc
      omega
    | false =>
      have hx : Strings.trimSuffix x "]" = x := by
        rw [Strings.trimSuffix,if_neg (by simp [hc])]
      rw [hx] at hdot ⊢
      have htag : Strings.hasPrefix (toLower env x) "ipv6:" = true := by
        rw [← Bool.not_eq_false]
        exact fun ht => h ⟨ho,hc,ht⟩
      have hlt := length_stripIPv6_lt htag
      omega

/-- A key that is not plain is looked up elsewhere than it is stored, or shares its
row with a key of another canonical form. -/
theorem unplain (h : ¬Plain env (bare k)) :
    canonical env k ≠ storedKey env k ∨
    canonical env (bare k) ≠ storedKey env k ∧ storedKey env (bare k) = storedKey env k := by
  have hlen : (storedKey env k).length = (bare k).length := by rw [storedKey_eq,length_toLower]
  have hshort : (canonical env (bare k)).length < (bare k).length := length_canonical_lt h
  rcases dotted_or_bare k with hk | ⟨_,hb⟩
  · by_cases hmarked : Strings.hasPrefix (bare k) "[" = true ∨
        Strings.hasPrefix (toLower env (bare k)) "ipv6:" = true
    · left
      intro heq
      have hlt := length_canonical_dotted hmarked
      rw [← hk,heq,hlen] at hlt
      exact Nat.lt_irrefl _ hlt
    · right
      simp only [not_or,Bool.not_eq_true] at hmarked
      -- only the bracket at the end is left, so there is no second dot
      have hclosed : Strings.hasSuffix (bare k) "]" = true := by
        rw [← Bool.not_eq_false]
        exact fun hc => h ⟨hmarked.1,hc,hmarked.2⟩
      have hundotted : bare (bare k) = bare k := by
        rcases dotted_or_bare (bare k) with hd | ⟨_,hb⟩
        · rw [hd,not_hasSuffix_dotted] at hclosed
          cases hclosed
        · exact hb
      refine ⟨?_,?_⟩
      · intro heq
        rw [heq,hlen] at hshort
        exact Nat.lt_irrefl _ hshort
      · rw [storedKey_eq,storedKey_eq,hundotted]
  · left
    intro heq
    rw [hb,heq,hlen,hb] at hshort
    exact Nat.lt_irrefl _ hshort

end Keys

def Takes (w : Writer) (t : String) : Prop := w = .admin → t ≠ ""

def rowKey (env : Env) (k : String) : Writer → String
  | .cache => storedKey env k
  | .admin | .cli => k

theorem store_some (hk : k ≠ "") :
    w.store env table k t comment = some table' ↔
    Takes w t ∧ save env table (rowKey env k w) ⟨t,comment⟩ = .ok table' := by
  cases w with
  | cache =>
    simp only [Writer.store,Overrides.set,rowKey]
    cases save env table (storedKey env k) ⟨t,comment⟩ <;> simp [Except.toOption,Takes]
  | admin =>
    by_cases ht : t = ""
    · simp [Writer.store,handlePost,Takes,ht]
    · simp only [Writer.store,handlePost,rowKey,hk,ht,or_self,↓reduceIte]
      cases save env table k ⟨t,comment⟩ <;> simp [Takes,ht]
  | cli =>
    simp only [Writer.store,endpointCacheSet,rowKey]
    cases save env table k ⟨t,comment⟩ <;> simp [Except.toOption,Takes]

theorem save_ok (h : save env table key row = .ok table') :
    table' = update table key (some row) := by
  unfold save at h
  split at h
  · cases h
  · exact (Except.ok.inj h).symm

def Same (env : Env) (table table' : Table) (k : String) : Prop :=
  get env table' k = get env table k ∧
  (cacheOf env table').resolve k = (cacheOf env table).resolve k ∧
  (cacheOf env table').resolveMX k = (cacheOf env table).resolveMX k

def Found (env : Env) (table : Table) (k t comment : String) : Prop :=
  get env table k = some ⟨t,comment⟩ ∧ (cacheOf env table).resolve k = t ∧
  (cacheOf env table).resolveMX k = some t

def Gone (env : Env) (table : Table) (k t : String) : Prop :=
  get env table k = none ∧ (cacheOf env table).resolve k ≠ t ∧
  (cacheOf env table).resolveMX k = none

/-- An override that was stored under a key applies under it until it is deleted, and
leaves the keys of other canonical forms alone. -/
def Applies (env : Env) (w : Writer) (k t : String) : Prop :=
  ∀ table table' comment, w.store env table k t comment = some table' →
    Found env table' k t comment ∧ Gone env (delete env table' k) k t ∧
    ∀ k', canonical env k' ≠ canonical env k →
      Same env table table' k' ∧ Same env table (delete env table' k) k'

def unoverridden (env : Env) (key : String) : String := if env.isIP key then key else ""

section Lookups
variable {env : Env} {table : Table} {k : String}

theorem override_cacheOf :
    (cacheOf env table).override k = (table (canonical env k)).map Row.targetHost := rfl

theorem resolve_cacheOf : (cacheOf env table).resolve k
    = ((table (canonical env k)).map Row.targetHost).getD (unoverridden env (canonical env k)) := by
  unfold Cache.resolve
  rw [override_cacheOf]
  cases table (canonical env k) <;> rfl

theorem same_of_rows (hs : table' (storedKey env k) = table (storedKey env k))
    (hc : table' (canonical env k) = table (canonical env k)) : Same env table table' k := by
  refine ⟨hs,?_,?_⟩
  · rw [resolve_cacheOf,resolve_cacheOf,hc]
  · rw [Cache.resolveMX,Cache.resolveMX,override_cacheOf,override_cacheOf,hc]

theorem found_of_row (hs : table (storedKey env k) = some ⟨t,comment⟩)
    (hc : canonical env k = storedKey env k) : Found env table k t comment := by
  refine ⟨hs,?_,?_⟩
  · rw [resolve_cacheOf,hc,hs]
    rfl
  · rw [Cache.resolveMX,override_cacheOf,hc,hs]
    rfl

theorem gone_of_row (hs : table (storedKey env k) = none)
    (hc : canonical env k = storedKey env k) (ht : t ≠ unoverridden env (storedKey env k)) :
    Gone env table k t := by
  refine ⟨hs,?_,?_⟩
  · rw [resolve_cacheOf,hc,hs]
    exact ht.symm
  · rw [Cache.resolveMX,override_cacheOf,hc,hs]
    rfl

theorem other_rows (hplain : Plain env (bare k)) (hne : canonical env k' ≠ canonical env k) :
    storedKey env k' ≠ storedKey env k ∧ canonical env k' ≠ storedKey env k := by
  rw [canonical_of_plain hplain] at hne
  refine ⟨?_,hne⟩
  intro heq
  have hplain' : Plain env (bare k') := by
    apply hplain.congr
    rw [← storedKey_eq,← storedKey_eq,heq]
  exact hne ((canonical_of_plain hplain').trans heq)

end Lookups

/-- The key is plain, a writer that keeps its spelling is given the stored one, and the
target is not the answer for a key without an override. -/
structure Fitting (env : Env) (w : Writer) (k t : String) : Prop where
  plain : Plain env (bare k)
  spelled : w ≠ .cache → storedKey env k = k
  target : t ≠ unoverridden env (storedKey env k)

theorem Fitting.rowKey_eq (h : Fitting env w k t) : rowKey env k w = storedKey env k := by
  cases w with
  | cache => rfl
  | admin | cli => exact (h.spelled (by decide)).symm

theorem applies_of_fitting (hk : k ≠ "") (h : Takes w t → Fitting env w k t) :
    Applies env w k t := by
  intro table table' comment hstore
  obtain ⟨htakes,hsave⟩ := (store_some hk).mp hstore
  have hfit := h htakes
  have hcanon := canonical_of_plain hfit.plain
  rw [hfit.rowKey_eq] at hsave
  obtain rfl := save_ok hsave
  refine ⟨found_of_row (by simp) hcanon,gone_of_row (by simp [delete,remove]) hcanon hfit.target,?_⟩
  intro k' hne
  obtain ⟨hs,hc⟩ := other_rows hfit.plain hne
  refine ⟨same_of_rows ?_ ?_,same_of_rows ?_ ?_⟩
  · rw [update_of_ne hs]
  · rw [update_of_ne hc]
  · rw [delete,remove,update_of_ne hs,update_of_ne hs]
  · rw [delete,remove,update_of_ne hc,update_of_ne hc]

theorem store_empty (hk : k ≠ "") (ht : Takes w t) :
    w.store env (fun _ => none) k t ""
      = some (update (fun _ => none) (rowKey env k w) (some ⟨t,""⟩)) := by
  rw [store_some hk,save]
  simp [ht]

theorem key_of_some (h : update (fun _ => none : Table) key (some row) key' ≠ none) : key' = key := by
  by_contra hne
  exact h (update_of_ne hne _ _)

theorem fitting_of_applies (hk : k ≠ "") (ht : Takes w t) (h : Applies env w k t) :
    Fitting env w k t := by
  obtain ⟨⟨hget,_,hmx⟩,⟨_,hgone,_⟩,hothers⟩ := h _ _ _ (store_empty hk ht)
  have hrow : storedKey env k = rowKey env k w := by
    apply key_of_some
    rw [Overrides.get] at hget
    rw [hget]
    exact Option.some_ne_none _
  have hcanon : canonical env k = storedKey env k := by
    rw [hrow]
    apply key_of_some
    intro hnone
    rw [Cache.resolveMX,override_cacheOf,hnone] at hmx
    cases hmx
  refine ⟨?_,?_,?_⟩
  · by_contra hplain
    rcases unplain hplain with hne | ⟨hne,hshared⟩
    · exact hne hcanon
    -- the key less its dot has the same row and is looked up elsewhere
    · rw [← hcanon] at hne
      obtain ⟨⟨hsame,_⟩,_⟩ := hothers (bare k) hne
      rw [Overrides.get,Overrides.get,hshared,hrow,update_self] at hsame
      cases hsame
  · intro hw
    cases w with
    | cache => exact absurd rfl hw
    | admin => exact hrow
    | cli => exact hrow
  · intro heq
    apply hgone
    rw [resolve_cacheOf,hcanon,delete,remove,update_self,heq]
    rfl

/-- The override applies under its key exactly if the key is plain, the admin API and
the command are given the spelling that is looked up, and the target tells. -/
theorem applies_iff (env : Env) (w : Writer) (k t : String) (hk : k ≠ "") :
    Applies env w k t ↔ (Takes w t → Fitting env w k t) := by
  constructor
  · intro h ht
    exact fitting_of_applies hk ht h
  · exact applies_of_fitting hk

theorem toLower_eq_mark {mark : Char} (h : mark.val.toNat < 97)
    (hm : mark.val.toNat < 65 ∨ 90 < mark.val.toNat) : c.toLower = mark ↔ c = mark := by
  unfold Char.toLower
  split
  · rename_i hc
    have hlow : 65 ≤ c.val.toNat := by simpa [UInt32.le_iff_toNat_le] using hc.1
    have hhigh : c.val.toNat ≤ 90 := by simpa [UInt32.le_iff_toNat_le] using hc.2
    have hshift : ('a'.val - 'A'.val).toNat = 32 := by decide
    simp only [Char.ext_iff,← UInt32.toNat_inj,UInt32.toNat_add]
    rw [hshift]
    omega
  · rfl

theorem low_mark_ascii (c mark : Char) (h : mark ∈ ['.','[',']']) :
    c.toLower = mark ↔ c = mark := by
  simp only [mem_cons,not_mem_nil,or_false] at h
  rcases h with rfl | rfl | rfl <;> exact toLower_eq_mark (by decide) (by decide)

def asciiEnv : Env :=
  { low := Char.toLower
    low_mark := low_mark_ascii
    isIP := fun s => s = "1.1.1.1"
    duplicate := "UNIQUE constraint failed" }

theorem domain_override_applies :
    "Example.ORG." ≠ "" ∧ Applies asciiEnv .cache "Example.ORG." "192.0.2.1" :=
  ⟨by decide,(applies_iff asciiEnv .cache "Example.ORG." "192.0.2.1" (by decide)).mpr
    fun _ => ⟨⟨by decide,by decide,by decide⟩,nofun,by decide⟩⟩

/-- The override of a literal in brackets is stored with them and looked up without. -/
theorem literal_override_ignored :
    (Writer.cache.store asciiEnv (fun _ => none) "[1.1.1.1]" "2.2.2.2" "").map
        (fun table => ((cacheOf asciiEnv table).resolve "[1.1.1.1]",
          (cacheOf asciiEnv table).resolveMX "[1.1.1.1]"))
      = some ("1.1.1.1",none) ∧ ¬Applies asciiEnv .cache "[1.1.1.1]" "2.2.2.2" := by
  refine ⟨by decide,?_⟩
  intro h
  have htakes : Takes .cache "2.2.2.2" := nofun
  have hfit := fitting_of_applies (by decide) htakes h
  exact absurd hfit.plain.opened (by decide)

end Madmail.Proofs.OverrideKeys
