import Madmail.Framework.Address

namespace Madmail.Proofs.LocalParts
open Exterrors Address List

/-- The characters between quotes, plain or escaped, with what they stand for. -/
inductive Body : List Char → List Char → Prop
  | nil : Body [] []
  | plain (hquote : c ≠ '"') (hback : c ≠ '\\') (hb : Body text raw) : Body (c :: text) (c :: raw)
  | escaped (c : Char) (hb : Body text raw) : Body ('\\' :: c :: text) (c :: raw)

def Plain (text : List Char) : Prop := ∀ c ∈ text, c ≠ '"' ∧ c ≠ '\\' ∧ c ≠ '@'

/-- A local-part in one of the two forms, with its content. -/
inductive WellFormed : List Char → List Char → Prop
  | plain (hne : text ≠ []) (h : Plain text) : WellFormed text text
  | quoted (hne : text ≠ []) (hb : Body text raw) : WellFormed ('"' :: text ++ ['"']) raw

/-- What may follow the characters between quotes: nothing, a backslash that escapes nothing,
or the closing quote. -/
def Ending (tail : List Char) : Prop := tail = [] ∨ tail = ['\\'] ∨ tail = ['"']

section Loop
variable {s text raw tail out before r : List Char}

theorem unquote_body (hb : Body text raw) (ht : Ending tail) (out : List Char) :
    unquote true false false out (text ++ tail) = .ok (out.reverse ++ raw) := by
  induction hb generalizing out with
  | nil => rcases ht with rfl | rfl | rfl <;> simp [unquote]
  | plain hquote hback _ ih => simp [unquote,hquote,hback,ih]
  | escaped c _ ih => simp [unquote,ih]

theorem unquote_plain (h : Plain before) (out rest : List Char) :
    unquote false false false out (before ++ rest) =
      unquote false false false (before.reverse ++ out) rest := by
  induction before generalizing out with
  | nil => rfl
  | cons c before ih =>
    obtain ⟨⟨hquote,hback,hat⟩,hrest⟩ := List.forall_mem_cons.mp h
    simp [unquote,hquote,hback,hat,ih hrest]

theorem unquote_stray (hp : Plain before) (hb : Body text raw) (ht : Ending tail) :
    unquote false false false [] (before ++ '"' :: (text ++ tail)) = .ok (before ++ raw) := by
  have hopen : unquote false false false before.reverse ('"' :: (text ++ tail)) =
      unquote true false false before.reverse (text ++ tail) := by
    simp [unquote]
  rw [unquote_plain hp,List.append_nil,hopen,unquote_body hb ht,List.reverse_reverse]

end Loop

/-- What `UnquoteMbox` accepts is a well-formed local-part, and the result is its content. -/
def Exact (mbox : ByteArray) : Prop :=
  ∀ raw, unquoteOctets mbox = .ok raw →
    ∃ s : String, s.toByteArray = mbox ∧ WellFormed s.toList raw.toList

theorem unquoteMbox_eq (h : unquote false false false [] s.toList = .ok raw) (hne : raw ≠ []) :
    unquoteMbox s = .ok (String.ofList raw) := by
  unfold unquoteMbox
  rw [h]
  cases raw with
  | nil => exact absurd rfl hne
  | cons c raw => rfl

section Quoting
variable {m d : String}

theorem body_escape (text : List Char) : Body (text.flatMap escape) text := by
  induction text with
  | nil => exact .nil
  | cons c text ih =>
    rw [List.flatMap_cons,escape]
    by_cases hc : c = '\\' ∨ c = '"'
    · rw [if_pos hc]
      exact .escaped c ih
    · rw [if_neg hc]
      exact .plain (fun h => hc (.inr h)) (fun h => hc (.inl h)) ih

theorem special_cases (m : String) :
    (quoteMbox m).toList = '"' :: m.toList.flatMap escape ++ ['"'] ∨
      quoteMbox m = m ∧ ∀ c ∈ m.toList, c ∉ mboxSpecial := by
  unfold quoteMbox
  split
  · exact .inl (String.toList_ofList)
  · next h => exact .inr ⟨rfl,by simpa using h⟩

theorem plain_of_unspecial (h : ∀ c ∈ text, c ∉ mboxSpecial) : Plain text := by
  intro c hc
  have hno := h c hc
  refine ⟨?_,?_,?_⟩ <;> rintro rfl <;> exact hno (by decide)

theorem unquoteMbox_quoteMbox (hm : m ≠ "") : unquoteMbox (quoteMbox m) = .ok m := by
  have hne : m.toList ≠ [] := by simpa using hm
  have hout : unquote false false false [] (quoteMbox m).toList = .ok m.toList := by
    rcases special_cases m with h | ⟨h,hno⟩ <;> rw [h]
    · have hempty : Plain [] := nofun
      exact unquote_stray hempty (body_escape _) (.inr (.inr rfl))
    · have hsame := unquote_plain (plain_of_unspecial hno) [] []
      rw [append_nil] at hsame
      rw [hsame]
      simp [unquote]
  rw [unquoteMbox_eq hout hne,String.ofList_toList]

/-- Every character that is neither special nor a control character may stand unquoted. -/
theorem graphic_of_unspecial (hctl : ' ' ≤ c ∧ c.toNat ≠ 0x7F) (hno : c ∉ mboxSpecial) :
    (c ∈ validGraphic || c.isAlphanum || c.toNat > 0x7F) = true := by
  have hascii : ∀ n < 128, ' ' ≤ Char.ofNat n → n ≠ 0x7F → Char.ofNat n ∉ mboxSpecial →
      (Char.ofNat n ∈ validGraphic || (Char.ofNat n).isAlphanum) = true := by decide
  by_cases h : c.toNat > 0x7F
  · simp [h]
  · have hc := hascii c.toNat (by omega)
    rw [Char.ofNat_toNat] at hc
    rw [hc hctl.1 hctl.2 hno]
    rfl

theorem not_postmaster (h : '@' ∈ addr.toList) : isPostmaster addr = false := by
  refine decide_eq_false fun heq => ?_
  have hmem := mem_map_of_mem (f := fun c : Char => if c = 'ſ' then 's' else c.toLower) h
  rw [heq] at hmem
  revert hmem
  decide

theorem split_at (mbox : String) (hat : '@' ∉ d.toList) :
    split (mbox ++ "@" ++ d) =
      if mbox = "" then .error (.leaf "address: empty local-part" none)
      else if d = "" then .error (.leaf "address: empty domain" none)
      else .ok (mbox,d) := by
  have hchars : (mbox ++ "@" ++ d).toList = mbox.toList ++ '@' :: d.toList := by simp
  have hrev : ∀ c ∈ d.toList.reverse, decide (c ≠ '@') = true := by
    intro c hc
    exact decide_eq_true fun he => hat (he ▸ mem_reverse.mp hc)
  unfold split
  rw [not_postmaster (by simp [hchars]),hchars]
  simp only [reverse_append,reverse_cons,append_assoc,singleton_append]
  rw [takeWhile_append_of_pos hrev,dropWhile_append_of_pos hrev]
  simp

end Quoting

/-- A local-part is quoted such that it can be put before a domain, is valid, and comes back
as it was. -/
theorem quoted_round_trip (m d : String) (hm : m ≠ "")
    (hctl : ∀ c ∈ m.toList, ' ' ≤ c ∧ c.toNat ≠ 0x7F) (hd : d ≠ "") (hat : '@' ∉ d.toList) :
    unquoteMbox (quoteMbox m) = .ok m ∧ validMailboxName (quoteMbox m) = true ∧
      split (quoteMbox m ++ "@" ++ d) = .ok (quoteMbox m,d) := by
  have hback := unquoteMbox_quoteMbox hm
  have hne : quoteMbox m ≠ "" := by
    rcases special_cases m with h | ⟨h, -⟩
    · exact fun he => by simp [he] at h
    · rwa [h]
  refine ⟨hback,?_,by rw [split_at _ hat,if_neg hne,if_neg hd]⟩
  unfold validMailboxName
  rcases special_cases m with h | ⟨h,hno⟩
  · rw [h,hback]
    simp only [cons_append,head?_cons,if_true,all_eq_true,Bool.and_eq_true,
      decide_eq_true_eq,bne_iff_ne]
    exact hctl
  · have hfirst : m.toList.head? ≠ some '"' := fun hf =>
      hno '"' (mem_of_head? hf) (by decide)
    rw [h,if_neg hfirst,all_eq_true]
    exact fun c hc => graphic_of_unspecial (hctl c hc) (hno c hc)

theorem spaced_round_trip :
    unquoteMbox (quoteMbox "a \"b") = .ok "a \"b" ∧
      split (quoteMbox "a \"b" ++ "@" ++ "example.org") = .ok ("\"a \\\"b\"","example.org") := by
  obtain ⟨hback, -,hsplit⟩ := quoted_round_trip "a \"b" "example.org" (by decide) (by simp)
    (by decide) (by decide)
  exact ⟨hback,hsplit⟩

end Madmail.Proofs.LocalParts
