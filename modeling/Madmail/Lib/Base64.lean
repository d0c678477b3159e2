import Mathlib.Data.List.Basic

namespace Madmail.Lib.Base64
open List

def pad : UInt8 := 61

def char (n : Nat) : UInt8 :=
  if n < 26 then UInt8.ofNat (65 + n)
  else if n < 52 then UInt8.ofNat (71 + n)
  else if n < 62 then UInt8.ofNat (n - 4)
  else if n = 62 then 43
  else 47

def value (c : UInt8) : Option Nat :=
  let n := c.toNat
  if 65 ≤ n ∧ n < 91 then some (n - 65)
  else if 97 ≤ n ∧ n < 123 then some (n - 71)
  else if 48 ≤ n ∧ n < 58 then some (n + 4)
  else if n = 43 then some 62
  else if n = 47 then some 63
  else none

def encode : List UInt8 → List UInt8
  | [] => []
  | [a] => [char (a.toNat / 4),char (a.toNat % 4 * 16),pad,pad]
  | [a,b] =>
    [char (a.toNat / 4),char (a.toNat % 4 * 16 + b.toNat / 16),char (b.toNat % 16 * 4),pad]
  | a :: b :: c :: rest =>
    char (a.toNat / 4) :: char (a.toNat % 4 * 16 + b.toNat / 16) ::
      char (b.toNat % 16 * 4 + c.toNat / 64) :: char (c.toNat % 64) :: encode rest

/-- Groups of four characters. Padding ends the text, and the bits that it leaves over are
not looked at. -/
def decodeGroups : List UInt8 → Option (List UInt8)
  | [] => some []
  | a :: b :: c :: d :: rest =>
    match value a, value b with
    | some a, some b =>
      let first := UInt8.ofNat (a * 4 + b / 16)
      if c = pad then if d = pad ∧ rest = [] then some [first] else none
      else
        match value c with
        | none => none
        | some c =>
          let second := UInt8.ofNat (b % 16 * 16 + c / 4)
          if d = pad then if rest = [] then some [first,second] else none
          else
            match value d, decodeGroups rest with
            | some d, some rest => some (first :: second :: UInt8.ofNat (c % 4 * 64 + d) :: rest)
            | _, _ => none
    | _, _ => none
  | _ => none

def decode (text : List UInt8) : Option (List UInt8) :=
  decodeGroups (text.filter fun c => c ≠ 10 ∧ c ≠ 13)

theorem value_char : ∀ {n : Nat}, n < 64 → value (char n) = some n := by
  decide

/-- What a character of the alphabet is not: padding, a line end, a space. -/
def IsDatum (c : UInt8) : Prop := c ≠ pad ∧ c ≠ 10 ∧ c ≠ 13 ∧ c ≠ 32

instance : DecidablePred IsDatum := fun _ => inferInstanceAs (Decidable (_ ∧ _))

theorem isDatum_char : ∀ {n : Nat}, n < 64 → IsDatum (char n) := by
  decide

theorem isDatum_of_value (h : (value c).isSome) : IsDatum c := by
  refine ⟨?_,?_,?_,?_⟩
  all_goals
    rintro rfl
    exact absurd h (by decide)

private theorem sextets (a b c : UInt8) :
    a.toNat / 4 < 64 ∧ a.toNat % 4 * 16 < 64 ∧ a.toNat % 4 * 16 + b.toNat / 16 < 64 ∧
      b.toNat % 16 * 4 < 64 ∧ b.toNat % 16 * 4 + c.toNat / 64 < 64 ∧ c.toNat % 64 < 64 := by
  have ha := a.toNat_lt
  have hb := b.toNat_lt
  have hc := c.toNat_lt
  omega

theorem decodeGroups_encode : decodeGroups (encode data) = some data := by
  have byte {n : Nat} {a : UInt8} (h : n = a.toNat) : UInt8.ofNat n = a := by simp [h]
  fun_induction encode data with
  | case1 => rfl
  | case2 a =>
    obtain ⟨h1,h2, -⟩ := sextets a a a
    simp only [decodeGroups,value_char h1,value_char h2,if_true,and_self]
    rw [byte (a := a) (by omega)]
  | case3 a b =>
    obtain ⟨h1, -,h3,h4, -⟩ := sextets a b b
    have hb := b.toNat_lt
    simp only [decodeGroups,value_char h1,value_char h3,value_char h4,(isDatum_char h4).1,
      if_true,if_false]
    rw [byte (a := a) (by omega),byte (a := b) (by omega)]
  | case4 a b c rest ih =>
    obtain ⟨h1, -,h3, -,h5,h6⟩ := sextets a b c
    have hb := b.toNat_lt
    have hc := c.toNat_lt
    simp only [decodeGroups,value_char h1,value_char h3,value_char h5,value_char h6,
      (isDatum_char h5).1,(isDatum_char h6).1,if_false,ih]
    rw [byte (a := a) (by omega),byte (a := b) (by omega),byte (a := c) (by omega)]

theorem mem_encode (h : c ∈ encode data) : IsDatum c ∨ c = pad := by
  fun_induction encode data with
  | case1 => simp at h
  | case2 a =>
    obtain ⟨h1,h2, -⟩ := sextets a a a
    simp only [mem_cons,not_mem_nil,or_false] at h
    rcases h with rfl | rfl | h | h
    · exact .inl (isDatum_char h1)
    · exact .inl (isDatum_char h2)
    · exact .inr h
    · exact .inr h
  | case3 a b =>
    obtain ⟨h1, -,h3,h4, -⟩ := sextets a b b
    simp only [mem_cons,not_mem_nil,or_false] at h
    rcases h with rfl | rfl | rfl | h
    · exact .inl (isDatum_char h1)
    · exact .inl (isDatum_char h3)
    · exact .inl (isDatum_char h4)
    · exact .inr h
  | case4 a b c rest ih =>
    obtain ⟨h1, -,h3, -,h5,h6⟩ := sextets a b c
    simp only [mem_cons] at h
    rcases h with rfl | rfl | rfl | rfl | h
    · exact .inl (isDatum_char h1)
    · exact .inl (isDatum_char h3)
    · exact .inl (isDatum_char h5)
    · exact .inl (isDatum_char h6)
    · exact ih h

theorem head_drop_encode (data : List UInt8) (k : Nat) :
    ((encode data).drop (4 * k)).head? ≠ some pad := by
  fun_induction encode data generalizing k with
  | case1 => simp
  | case2 a | case3 a b =>
    cases k with
    | zero => simpa using (isDatum_char (sextets a a a).1).1
    | succ k => simp [Nat.mul_succ]
  | case4 a b c rest ih =>
    cases k with
    | zero => simpa using (isDatum_char (sextets a a a).1).1
    | succ k => simpa [Nat.mul_succ] using ih k

theorem encode_eq_nil {data : List UInt8} : encode data = [] ↔ data = [] := by
  fun_cases encode data <;> simp

end Madmail.Lib.Base64
