import Madmail.Updatepipe.UnixPipe
import Mathlib.Data.List.TakeWhile

namespace Madmail.Proofs.UpdateLines
open Updatepipe Lib.Bytes List

variable {α : Type} {json : Json α} {id blob : List UInt8} {upd : Update α}

def decimal (n : Nat) : List UInt8 := ascii (toString n)

/-- A key as it comes back from the decoder, which leaves numbers as they are written. -/
def asDecoded : Key → Key
  | .uint64 n => .number (decimal n)
  | key => key

def StringOrUint64 : Key → Prop
  | .uint64 n => n < 2 ^ 64
  | .number _ => False
  | .other _ => True

/-- What is given of the JSON library. `Decode` takes the first value, and a line feed after it does
not matter. -/
structure Encodes (json : Json α) (upd : Update α) (blob : List UInt8) : Prop where
  marshal : json.marshal upd = .ok blob
  no_control : ∀ c ∈ blob, 0x20 ≤ c.toNat
  decode : ∀ rest, rest = [] ∨ rest = [0x0A] →
    json.decode (blob ++ rest) = .ok { upd with key := asDecoded upd.key }

theorem decimal_step (h : 10 ≤ n) :
    decimal n = decimal (n / 10) ++ [UInt8.ofNat (Nat.digitChar (n % 10)).toNat] := by
  simp only [decimal,ascii,Nat.toString_eq_repr,Nat.toList_repr]
  rw [Nat.toDigits_of_base_le (by omega) h,map_append]
  rfl

theorem parseDigits_digit (hd : d < 10) (h : m * 10 + d < 2 ^ 64) (rest : List UInt8) :
    parseDigits m (UInt8.ofNat (Nat.digitChar d).toNat :: rest) = parseDigits (m * 10 + d) rest := by
  have hchar : ∀ d < 10, (UInt8.ofNat (Nat.digitChar d).toNat).toNat = 48 + d := by decide
  rw [parseDigits,hchar d hd,if_pos (by omega),Nat.add_sub_cancel_left]
  exact if_neg (Nat.not_le.mpr h)

theorem parseDigits_decimal (h : n < 2 ^ 64) (rest : List UInt8) :
    parseDigits 0 (decimal n ++ rest) = parseDigits n rest := by
  induction n using Nat.strong_induction_on generalizing rest with
  | _ n ih =>
    by_cases hn : n < 10
    · have hone : decimal n = [UInt8.ofNat (Nat.digitChar n).toNat] := by
        simp only [decimal,ascii,Nat.toString_eq_repr,Nat.toList_repr]
        rw [Nat.toDigits_of_lt_base hn]
        rfl
      rw [hone,singleton_append,parseDigits_digit hn (by omega),Nat.zero_mul,Nat.zero_add]
    · rw [decimal_step (by omega),append_assoc,ih (n / 10) (by omega) (by omega),
        singleton_append,parseDigits_digit (Nat.mod_lt n (by omega)) (by omega),
        Nat.div_add_mod']

theorem resolve_asDecoded (h : StringOrUint64 key) : (asDecoded key).resolve = key := by
  cases key with
  | number text => cases h
  | other json => rfl
  | uint64 n =>
    have hread := parseDigits_decimal h []
    rw [append_nil] at hread
    exact congrArg Key.uint64 hread

theorem unescapeName_escapeName (h : ∀ c ∈ blob, 0x20 ≤ c.toNat) :
    unescapeName (escapeName blob) = blob := by
  rw [unescapeName,escapeName,map_map]
  nth_rewrite 2 [← map_id blob]
  apply map_congr_left
  intro c hc
  have hne : c ≠ 0x10 := fun he => absurd (h c hc) (by rw [he]; decide)
  by_cases hsemi : c = semicolon
  · simp [hsemi]
  · simp [hsemi,hne]

/-- An update is formatted as one line, from which its sender and the update itself can be
read. -/
theorem update_round_trip (hsemi : semicolon ∉ id) (hlf : 0x0A ∉ id)
    (hkey : StringOrUint64 upd.key) (hjson : Encodes json upd blob) :
    ∃ body, formatUpdate json id upd = .ok (body ++ [0x0A]) ∧ 0x0A ∉ body ∧
      ∀ rest, rest = [] ∨ rest = [0x0A] → parseUpdate json (body ++ rest) = .ok (id,upd) := by
  refine ⟨id ++ semicolon :: escapeName blob,by simp [formatUpdate,hjson.marshal],?_,?_⟩
  · intro hmem
    rcases mem_append.mp hmem with hmem | hmem
    · exact hlf hmem
    · rcases mem_cons.mp hmem with hmem | hmem
      · revert hmem
        decide
      · obtain ⟨c,hc,heq⟩ := mem_map.mp hmem
        have hctl := hjson.no_control c hc
        split at heq
        · revert heq
          decide
        · rw [heq] at hctl
          revert hctl
          decide
  · intro rest hrest
    have hid : ∀ c ∈ id, (c ≠ semicolon : Bool) = true := fun c hc =>
      decide_eq_true fun he => hsemi (he ▸ hc)
    have hunescape : unescapeName (escapeName blob ++ rest) = blob ++ rest := by
      rw [unescapeName,map_append,← unescapeName,unescapeName_escapeName hjson.no_control]
      rcases hrest with rfl | rfl <;> rfl
    have hmem : semicolon ∈ id ++ semicolon :: (escapeName blob ++ rest) := by simp
    rw [append_assoc,cons_append,parseUpdate,if_pos hmem,
      dropWhile_append_of_pos hid,takeWhile_append_of_pos hid]
    simp [hunescape,hjson.decode rest hrest,resolve_asDecoded hkey]

/-- Updates with a string or a number for their key, and nothing else in them. -/
def keyJSON : Json Unit where
  decode text :=
    match text with
    | 0x22 :: rest => .ok ⟨.other (0x22 :: rest.takeWhile (· ≠ 0x22) ++ [0x22]),()⟩
    | _ => .ok ⟨.number (text.takeWhile fun c => 48 ≤ c.toNat ∧ c.toNat ≤ 57),()⟩
  marshal upd :=
    match upd.key with
    | .number text | .other text => .ok text
    | .uint64 n => .ok (decimal n)

def ReadBack (key : Key) : Prop :=
  ∃ body, formatUpdate keyJSON (ascii "7-0x1f") ⟨key,()⟩ = .ok (body ++ [0x0A]) ∧ 0x0A ∉ body ∧
    ∀ rest, rest = [] ∨ rest = [0x0A] →
      parseUpdate keyJSON (body ++ rest) = .ok (ascii "7-0x1f",⟨key,()⟩)

theorem keys_read_back : ReadBack (.other (ascii "\"a;b\"")) ∧ ReadBack (.uint64 1207) := by
  have hid : semicolon ∉ ascii "7-0x1f" ∧ 0x0A ∉ ascii "7-0x1f" := by decide
  constructor
  · refine update_round_trip hid.1 hid.2 trivial ⟨rfl,by decide +kernel,?_⟩
    rintro rest (rfl | rfl) <;> rfl
  · refine update_round_trip hid.1 hid.2 (show 1207 < 2 ^ 64 by decide) ⟨rfl,by decide +kernel,?_⟩
    rintro rest (rfl | rfl) <;> rfl

end Madmail.Proofs.UpdateLines
