import Madmail.Config.DataSize
import Madmail.Lib.Strings

namespace Madmail.Proofs.DataSizes
open Lib DataSize List

def value (ds : List Char) : Nat := Nat.ofDigitChars 10 ds 0

def unit (suffix : List Char) : Option Nat :=
  if suffix = ['G'] then some (1024 * 1024 * 1024)
  else if suffix = ['M'] then some (1024 * 1024)
  else if suffix = ['K'] then some 1024
  else if suffix = ['B'] ∨ suffix = ['b'] then some 1
  else none

section Groups
variable (d : Digits)

def number (group : List Char) : List Char := group.takeWhile d.isDigit

def suffix (group : List Char) : List Char := group.dropWhile d.isDigit

def groupSize (group : List Char) : Nat :=
  value (number d group) * (unit (suffix d group)).getD 0

/-- A group is a number of 63 bits with a unit, which zero may do without. -/
structure Readable (group : List Char) : Prop where
  digits : number d group ≠ [] ∧ ∀ c ∈ number d group, c.isDigit = true
  small : value (number d group) < 2 ^ 63
  once : ∀ c ∈ suffix d group, d.isDigit c = false
  known : (unit (suffix d group)).isSome ∨ value (number d group) = 0

def groups (s : String) : List (List Char) := s.toList.splitOn ' '

def size (s : String) : Nat := ((groups s).map (groupSize d)).sum

end Groups

theorem le_ofDigitChars (ds : List Char) (n : Nat) : n ≤ Nat.ofDigitChars 10 ds n := by
  induction ds generalizing n with
  | nil => exact Nat.le_refl n
  | cons c ds ih =>
    rw [Nat.ofDigitChars_cons]
    have h := ih (10 * n + (c.toNat - '0'.toNat))
    omega

theorem parseUint_ok (hn : n < 2 ^ 64) :
    parseUint ds n = .ok m ↔
    (∀ c ∈ ds, c.isDigit = true) ∧ Nat.ofDigitChars 10 ds n < 2 ^ 64 ∧
      m = Nat.ofDigitChars 10 ds n := by
  induction ds generalizing n with
  | nil =>
    constructor
    · intro h
      exact ⟨by simp,hn,(Except.ok.inj h).symm⟩
    · rintro ⟨-, -,rfl⟩
      rfl
  | cons c ds ih =>
    rw [parseUint,Nat.ofDigitChars_cons,forall_mem_cons]
    generalize 10 * n + (c.toNat - '0'.toNat) = next
    by_cases hc : c.isDigit = true
    · rw [if_pos hc]
      split
      · rename_i hlt
        rw [ih hlt,and_iff_right hc]
      · rename_i hge
        have hle := le_ofDigitChars ds next
        constructor
        · nofun
        · rintro ⟨-,hlt, -⟩
          exact absurd (Nat.lt_of_le_of_lt hle hlt) hge
    · rw [if_neg hc]
      constructor
      · nofun
      · rintro ⟨⟨hc', -⟩, -⟩
        exact absurd hc' hc

section Scanning
variable {d : Digits}

theorem unsigned (h : d.isDigit c = true) : ¬(c = '-' ∨ c = '+') := by
  rintro (rfl | rfl)
  · rw [d.ascii '-' (by decide)] at h
    exact absurd h (by decide)
  · rw [d.ascii '+' (by decide)] at h
    exact absurd h (by decide)

theorem atoi_ok (hd : ∀ c ∈ ds, d.isDigit c = true) :
    atoi (String.ofList ds) = .ok num ↔
    (ds ≠ [] ∧ ∀ c ∈ ds, c.isDigit = true) ∧ value ds < 2 ^ 63 ∧ num = Int64.ofNat (value ds) := by
  cases ds with
  | nil => simp [atoi,parseSigned]
  | cons c cs =>
    have hsigned : parseSigned (c :: cs) = (parseUint (c :: cs) 0).map fun n => (false,n) := by
      rw [parseSigned,if_neg (unsigned (hd c mem_cons_self))]
    rw [atoi,String.toList_ofList,hsigned]
    cases hp : parseUint (c :: cs) 0 with
    | error err =>
      constructor
      · nofun
      · rintro ⟨⟨-,hdigits⟩,hsmall, -⟩
        have hok := (parseUint_ok (by decide)).mpr ⟨hdigits,Nat.lt_trans hsmall (by decide),rfl⟩
        rw [hp] at hok
        cases hok
    | ok n =>
      obtain ⟨hdigits, -,hn⟩ := (parseUint_ok (by decide)).mp hp
      have hvalue : value (c :: cs) = n := hn.symm
      rw [hvalue]
      simp only [Except.map]
      split
      · rename_i hlt
        rw [Except.ok.injEq]
        constructor
        · intro h
          exact ⟨⟨cons_ne_nil _ _,hdigits⟩,hlt,h.symm⟩
        · rintro ⟨-, -,rfl⟩
          rfl
      · rename_i hge
        constructor
        · nofun
        · rintro ⟨-,hlt, -⟩
          exact absurd hlt hge

theorem ofNat_eq_zero (hn : n < 2 ^ 63) : Int64.ofNat n = 0 ↔ n = 0 := by
  constructor
  · intro h
    have hint := congrArg Int64.toInt h
    rw [Int64.toInt_ofNat_of_lt hn] at hint
    exact Int.ofNat_eq_zero.mp hint
  · rintro rfl
    rfl

theorem ok_add (hp : p = Int64.ofNat (n * u)) :
    (Except.ok (t + p) : Except String Int64) = .ok t' ↔
    ((some u).isSome ∨ n = 0) ∧ t' = t + Int64.ofNat (n * (some u).getD 0) := by
  rw [hp,Except.ok.injEq]
  constructor
  · intro h
    exact ⟨.inl rfl,h.symm⟩
  · intro h
    exact h.2.symm

/-- The products of the code are one product modulo the word. -/
theorem addSize_ok (hn : n < 2 ^ 63) :
    addSize t (Int64.ofNat n) (String.ofList sf) = .ok t' ↔
    ((unit sf).isSome ∨ n = 0) ∧ t' = t + Int64.ofNat (n * (unit sf).getD 0) := by
  have hG : String.ofList sf = "G" ↔ sf = ['G'] := String.ofList_inj
  have hM : String.ofList sf = "M" ↔ sf = ['M'] := String.ofList_inj
  have hK : String.ofList sf = "K" ↔ sf = ['K'] := String.ofList_inj
  have hB : String.ofList sf = "B" ↔ sf = ['B'] := String.ofList_inj
  have hb : String.ofList sf = "b" ↔ sf = ['b'] := String.ofList_inj
  simp only [addSize,unit,hG,hM,hK,hB,hb]
  by_cases h : sf = ['G']
  · rw [if_pos h,if_pos h]
    apply ok_add
    rw [Int64.ofNat_mul,Int64.mul_assoc,Int64.mul_assoc]
    rfl
  rw [if_neg h,if_neg h]
  by_cases h : sf = ['M']
  · rw [if_pos h,if_pos h]
    apply ok_add
    rw [Int64.ofNat_mul,Int64.mul_assoc]
    rfl
  rw [if_neg h,if_neg h]
  by_cases h : sf = ['K']
  · rw [if_pos h,if_pos h]
    apply ok_add
    rw [Int64.ofNat_mul]
    rfl
  rw [if_neg h,if_neg h]
  by_cases h : sf = ['B'] ∨ sf = ['b']
  · rw [if_pos h,if_pos h]
    apply ok_add
    rw [Nat.mul_one]
  rw [if_neg h,if_neg h]
  by_cases hzero : n = 0
  · rw [if_neg (not_not.mpr ((ofNat_eq_zero hn).mpr hzero)),hzero]
    simp [eq_comm]
  · rw [if_pos ((ofNat_eq_zero hn).not.mpr hzero)]
    simp [hzero]

theorem not_negative (hn : n < 2 ^ 63) : ¬Int64.ofNat n < 0 := by
  rw [Int64.lt_iff_toInt_lt,Int64.toInt_ofNat_of_lt hn]
  exact Int.not_lt.mpr (Int.natCast_nonneg n)

theorem endGroup_ok (hd : ∀ c ∈ ds, d.isDigit c = true) :
    endGroup ⟨t,String.ofList ds,String.ofList sf⟩ = .ok t' ↔
    ((ds ≠ [] ∧ ∀ c ∈ ds, c.isDigit = true) ∧ value ds < 2 ^ 63 ∧
      ((unit sf).isSome ∨ value ds = 0)) ∧ t' = t + Int64.ofNat (value ds * (unit sf).getD 0) := by
  simp only [endGroup]
  cases hnum : atoi (String.ofList ds) with
  | error err =>
    constructor
    · nofun
    · rintro ⟨⟨hdigits,hsmall, -⟩, -⟩
      have hok := (atoi_ok hd).mpr ⟨hdigits,hsmall,rfl⟩
      rw [hnum] at hok
      cases hok
  | ok num =>
    obtain ⟨hdigits,hsmall,rfl⟩ := (atoi_ok hd).mp hnum
    simp only [bind,Except.bind,if_neg (not_negative hsmall)]
    rw [addSize_ok hsmall,and_iff_right hdigits,and_iff_right hsmall]

/-- Characters that are all put at the end of one text. -/
theorem scan_run (st : String → Scan)
    (hst : ∀ c ∈ cs, ∀ x, scanChar d (st x) c = .ok (st (x.push c))) (rest : List Char) (x : String) :
    scan d (cs ++ rest) (st x) = scan d rest (st (x ++ String.ofList cs)) := by
  induction cs generalizing x with
  | nil => simp
  | cons c cs ih =>
    obtain ⟨hc,hst⟩ := forall_mem_cons.mp hst
    have hpush : x ++ String.ofList (c :: cs) = x.push c ++ String.ofList cs := by
      apply String.ext
      simp
    rw [cons_append,scan,hpush,← ih hst,hc]

theorem scan_digits (hd : ∀ c ∈ ds, d.isDigit c = true) (rest : List Char) (t : Int64)
    (cd : String) : scan d (ds ++ rest) ⟨t,cd,""⟩ = scan d rest ⟨t,cd ++ String.ofList ds,""⟩ :=
  scan_run (fun cd => ⟨t,cd,""⟩) (fun c hc x => by simp [scanChar,hd c hc]) rest cd

theorem scan_suffix (hs : ∀ c ∈ sf, d.isDigit c = false ∧ c ≠ ' ') (rest : List Char) (t : Int64)
    (cd x : String) : scan d (sf ++ rest) ⟨t,cd,x⟩ = scan d rest ⟨t,cd,x ++ String.ofList sf⟩ :=
  scan_run (fun x => ⟨t,cd,x⟩) (fun c hc x => by simp [scanChar,hs c hc]) rest x

theorem scan_space : scan d (' ' :: rest) st
    = (endGroup st).bind fun total => scan d rest { total := total } := by
  have hspace : d.isDigit ' ' = false := d.ascii ' ' (by decide)
  rw [scan,scanChar,hspace]
  cases endGroup st <;> rfl

theorem scan_late_digit (hlate : ∃ c ∈ sf, d.isDigit c = true) (hspace : ' ' ∉ sf) (hx : x ≠ "") :
    scan d (sf ++ rest) ⟨t,cd,x⟩ ≠ .ok v := by
  induction sf generalizing x with
  | nil =>
    obtain ⟨c,hc, -⟩ := hlate
    cases hc
  | cons c sf ih =>
    rw [cons_append,scan]
    cases hc : d.isDigit c with
    | true => simp [scanChar,hc,hx]
    | false =>
      simp only [mem_cons,not_or] at hspace
      have hne : c ≠ ' ' := Ne.symm hspace.1
      simp only [scanChar,hc,Bool.false_eq_true,↓reduceIte,ne_eq,hne,not_false_eq_true]
      apply ih
      · obtain ⟨e,he,hd⟩ := hlate
        rcases mem_cons.mp he with rfl | he
        · rw [hc] at hd
          cases hd
        · exact ⟨e,he,hd⟩
      · exact hspace.2
      · simp

theorem bind_ok {x : Except String α} :
    x.bind f = .ok v ↔ ∃ a, x = .ok a ∧ f a = .ok v := by
  cases x with
  | error err | ok a => simp [Except.bind]

theorem scan_number :
    scan d (group ++ rest) { total := t }
      = scan d (suffix d group ++ rest) ⟨t,String.ofList (number d group),""⟩ := by
  have hsplit : number d group ++ suffix d group = group := takeWhile_append_dropWhile
  have hnumber : ∀ c ∈ number d group, d.isDigit c = true := fun c hc => mem_takeWhile_imp hc
  have h := scan_digits hnumber (suffix d group ++ rest) t ""
  rwa [← append_assoc,hsplit,String.empty_append] at h

theorem scan_mixed (hspace : ' ' ∉ suffix d group)
    (hmixed : ¬∀ c ∈ suffix d group, d.isDigit c = false) (rest : List Char) :
    scan d (suffix d group ++ rest) ⟨t,cd,""⟩ ≠ .ok v := by
  simp only [not_forall,Bool.not_eq_false] at hmixed
  obtain ⟨e,he,hdigit⟩ := hmixed
  have hhead := head?_dropWhile_not d.isDigit group
  have hsuffix : group.dropWhile d.isDigit = suffix d group := rfl
  rw [hsuffix] at hhead
  cases hs : suffix d group with
  | nil =>
    rw [hs] at he
    cases he
  | cons c sf =>
    rw [hs] at he hspace hhead
    simp only [mem_cons,not_or] at hspace
    have hc : d.isDigit c = false := hhead
    have honly : ∀ e ∈ [c], d.isDigit e = false ∧ e ≠ ' ' := by simp [hc,Ne.symm hspace.1]
    have hfirst := scan_suffix honly (sf ++ rest) t cd ""
    rw [singleton_append] at hfirst
    rw [cons_append,hfirst]
    apply scan_late_digit _ hspace.2 (by simp)
    rcases mem_cons.mp he with rfl | he
    · rw [hc] at hdigit
      cases hdigit
    · exact ⟨e,he,hdigit⟩

theorem scan_group (hspace : ' ' ∉ group) :
    scan d (group ++ ' ' :: rest) { total := t } = .ok v ↔
    Readable d group ∧ scan d rest { total := t + Int64.ofNat (groupSize d group) } = .ok v := by
  have hnumber : ∀ c ∈ number d group, d.isDigit c = true := fun c hc => mem_takeWhile_imp hc
  have hclean : ' ' ∉ suffix d group := fun hc => hspace ((dropWhile_sublist _).mem hc)
  rw [scan_number]
  by_cases honce : ∀ c ∈ suffix d group, d.isDigit c = false
  · have hsuffix : ∀ c ∈ suffix d group, d.isDigit c = false ∧ c ≠ ' ' :=
      fun c hc => ⟨honce c hc,fun heq => hclean (heq ▸ hc)⟩
    rw [scan_suffix hsuffix,String.empty_append,scan_space,bind_ok]
    constructor
    · rintro ⟨total,hend,hrest⟩
      obtain ⟨⟨hdigits,hsmall,hknown⟩,rfl⟩ := (endGroup_ok hnumber).mp hend
      exact ⟨⟨hdigits,hsmall,honce,hknown⟩,hrest⟩
    · rintro ⟨hread,hrest⟩
      exact ⟨_,(endGroup_ok hnumber).mpr ⟨⟨hread.digits,hread.small,hread.known⟩,rfl⟩,hrest⟩
  · constructor
    · intro h
      exact absurd h (scan_mixed hclean honce _)
    · intro h
      exact absurd h.1.once honce

/-- The whole loop: every group is read, and the total is the sum modulo the word. -/
theorem scan_groups {gs : List (List Char)} (hspace : ∀ g ∈ gs, ' ' ∉ g) (t v : Int64) :
    scan d (gs.flatMap (· ++ [' '])) { total := t } = .ok v ↔
    (∀ g ∈ gs, Readable d g) ∧ v = t + Int64.ofNat (gs.map (groupSize d)).sum := by
  induction gs generalizing t with
  | nil => simp [scan,eq_comm]
  | cons g gs ih =>
    obtain ⟨hg,hgs⟩ := forall_mem_cons.mp hspace
    rw [flatMap_cons,append_assoc,singleton_append,scan_group hg,ih hgs,
      forall_mem_cons,map_cons,sum_cons,Int64.ofNat_add,← Int64.add_assoc,
      and_assoc]

end Scanning

theorem parseDataSize_ok :
    parseDataSize d s = .ok v ↔
    (∀ g ∈ groups s, Readable d g) ∧ v = Int64.ofNat (size d s) := by
  have hspace : ∀ g ∈ groups s, ' ' ∉ g := fun g hg => Strings.not_mem_of_splitOn hg
  have hscan := @scan_groups d _ hspace 0 v
  rw [groups,Strings.flatMap_splitOn,Int64.zero_add] at hscan
  unfold parseDataSize
  split
  · rename_i hs
    constructor
    · nofun
    · rintro ⟨hread, -⟩
      have hempty : [] ∈ groups s := by simp [groups,hs]
      exact absurd rfl (hread [] hempty).digits.1
  · rw [String.toList_append]
    exact hscan

/-- Accepted sizes are exact, and what does not fit is refused. -/
def Exact (d : Digits) (s : String) : Prop :=
  (∀ v, parseDataSize d s = .ok v → v.toInt = size d s ∧ 0 ≤ v.toInt) ∧
  (2 ^ 63 ≤ size d s → ∃ err, parseDataSize d s = .error err)

/-- Sizes are exact as long as those that can be read sum up to 63 bits. -/
theorem exact_iff (d : Digits) (s : String) :
    Exact d s ↔ ((∀ g ∈ groups s, Readable d g) → size d s < 2 ^ 63) := by
  constructor
  · intro h hread
    have hok := parseDataSize_ok.mpr ⟨hread,rfl⟩
    have hlt := Int64.toInt_lt (Int64.ofNat (size d s))
    rw [(h.1 _ hok).1] at hlt
    exact_mod_cast hlt
  · intro h
    refine ⟨?_,?_⟩
    · intro v hok
      obtain ⟨hread,rfl⟩ := parseDataSize_ok.mp hok
      rw [Int64.toInt_ofNat_of_lt (h hread)]
      exact ⟨rfl,Int.natCast_nonneg _⟩
    · intro hbig
      cases hparse : parseDataSize d s with
      | error err => exact ⟨err,rfl⟩
      | ok v =>
        have hread := (parseDataSize_ok.mp hparse).1
        exact absurd (h hread) (Nat.not_lt.mpr hbig)

def asciiDigits : Digits := ⟨Char.isDigit,fun _ _ => rfl⟩

example : parseDataSize asciiDigits "1G 5M" = .ok 1078984704 := by decide

/-- The product of one group wraps to a negative size. -/
theorem size_wraps : parseDataSize asciiDigits "9000000000G" = .ok (-8783067657709551616) ∧
    ¬Exact asciiDigits "9000000000G" := by
  have hparse : parseDataSize asciiDigits "9000000000G" = .ok (-8783067657709551616) := by decide
  refine ⟨hparse,?_⟩
  intro h
  exact absurd (h.1 _ hparse).2 (by decide)

end Madmail.Proofs.DataSizes
