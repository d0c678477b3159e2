import Madmail.Pgp.Payload
import Mathlib.Algebra.GroupWithZero.Nat

namespace Madmail.Proofs.PacketGrammar
open PgpVerify List

variable {payload rest x b : List UInt8} {i turns e : Nat} {tag : UInt8}

/-- A final length of one, two or five octets, and as many octets after it. -/
inductive Body : List UInt8 → Prop where
  | one (o : UInt8) (body : List UInt8) (ho : o.toNat < 192) (hlen : body.length = o.toNat) :
      Body (o :: body)
  | two (o p : UInt8) (body : List UInt8) (hlow : 192 ≤ o.toNat) (hhigh : o.toNat < 224)
      (hlen : body.length = (o.toNat - 192) * 2 ^ 8 + p.toNat + 192) : Body (o :: p :: body)
  | five (a b c d : UInt8) (body : List UInt8)
      (hlen : body.length = a.toNat * 2 ^ 24 + b.toNat * 2 ^ 16 + c.toNat * 2 ^ 8 + d.toNat) :
      Body (255 :: a :: b :: c :: d :: body)

/-- Chunks with partial lengths, and what follows the final length. -/
inductive Lengths : List UInt8 → Prop where
  | final (body : List UInt8) (hbody : Body body) : Lengths body
  | chunk (o : UInt8) (chunk rest : List UInt8) (hlow : 224 ≤ o.toNat) (hhigh : o.toNat < 255)
      (hlen : chunk.length = 2 ^ (o.toNat % 32)) (hrest : Lengths rest) :
      Lengths (o :: (chunk ++ rest))

/-- A packet in the new format. Both high bits of its tag are set, and the others are its
type. -/
inductive Packet (type : Nat) : List UInt8 → Prop where
  | mk (tag : UInt8) (body : List UInt8) (htag : 192 ≤ tag.toNat) (htype : tag.toNat % 64 = type)
      (hbody : Lengths body) : Packet type (tag :: body)

/-- Session keys (of type 1 or 3) before one packet of encrypted data (of type 18). -/
def Encrypted (payload : List UInt8) : Prop :=
  ∃ (keys : List (List UInt8)) (data : List UInt8),
    (∀ key ∈ keys, Packet 1 key ∨ Packet 3 key) ∧ Packet 18 data ∧ payload = keys.flatten ++ data

set_option maxRecDepth 4096 in
theorem tag_high : tag &&& 0xC0 = 0xC0 ↔ 192 ≤ tag.toNat := by
  have hall : ∀ n : Fin 256,
      (UInt8.ofNat n &&& 0xC0 = 0xC0 ↔ 192 ≤ (UInt8.ofNat n).toNat) := by decide
  simpa using hall ⟨tag.toNat,tag.toNat_lt⟩

theorem tag_type (tag : UInt8) (type : Nat) (h : type < 64) :
    tag &&& 0x3F = UInt8.ofNat type ↔ tag.toNat % 64 = type := by
  rw [← UInt8.toNat_inj,UInt8.toNat_and]
  have hmask : tag.toNat &&& 63 = tag.toNat % 64 := Nat.and_two_pow_sub_one_eq_mod _ 6
  have hsmall : type % 256 = type := Nat.mod_eq_of_lt (by omega)
  simp [hmask,hsmall]

theorem partialLen_eq {octet : UInt8} : 1 <<< (octet &&& 0x1F).toNat = 2 ^ (octet.toNat % 32) := by
  have hmask : octet.toNat &&& 31 = octet.toNat % 32 := Nat.and_two_pow_sub_one_eq_mod _ 5
  simp [Nat.shiftLeft_eq,hmask]

theorem fiveOctets_eq (a b c d : UInt8) :
    (a.toNat <<< 24) ||| (b.toNat <<< 16) ||| (c.toNat <<< 8) ||| d.toNat =
      a.toNat * 2 ^ 24 + b.toNat * 2 ^ 16 + c.toNat * 2 ^ 8 + d.toNat := by
  have hb := b.toNat_lt
  have hc := c.toNat_lt
  have hd := d.toNat_lt
  have hab : a.toNat <<< 24 ||| b.toNat <<< 16 = (a.toNat * 2 ^ 8 + b.toNat) <<< 16 := by
    rw [← Nat.shiftLeft_add_eq_or_of_lt (by simp [Nat.shiftLeft_eq]; omega)]
    omega
  have habc : (a.toNat * 2 ^ 8 + b.toNat) <<< 16 ||| c.toNat <<< 8 =
      (a.toNat * 2 ^ 16 + b.toNat * 2 ^ 8 + c.toNat) <<< 8 := by
    rw [← Nat.shiftLeft_add_eq_or_of_lt (by simp [Nat.shiftLeft_eq]; omega)]
    simp only [Nat.shiftLeft_eq]
    omega
  rw [hab,habc,← Nat.shiftLeft_add_eq_or_of_lt (by omega)]
  omega

theorem octet_of_drop (h : payload.drop i = rest) (k : Nat) : payload[i + k]? = rest[k]? := by
  rw [← h,getElem?_drop]

theorem length_of_drop (h : payload.drop i = rest) (hne : rest ≠ []) :
    payload.length = i + rest.length := by
  have hlen := congrArg List.length h
  rw [length_drop] at hlen
  have hpos := length_pos_iff.mpr hne
  omega

theorem drop_add_of_drop (h : payload.drop i = a ++ x) : payload.drop (i + a.length) = x := by
  rw [← drop_drop,h,drop_left]

theorem Body.ne_nil (h : Body b) : b ≠ [] := by
  cases h <;> simp

theorem Lengths.ne_nil (h : Lengths b) : b ≠ [] := by
  cases h with
  | final _ hb => exact hb.ne_nil
  | chunk => simp

theorem finalLength_of_body (hb : Body b) (h : payload.drop i = b ++ x) :
    finalLength payload i = .ok (i + b.length) := by
  have hlen := length_of_drop h (by simp [hb.ne_nil])
  have hoct := octet_of_drop h
  have hfirst := hoct 0
  rw [Nat.add_zero] at hfirst
  cases hb with
  | one o body ho hl =>
    simp only [cons_append,getElem?_cons_zero] at hfirst
    simp only [finalLength,hfirst,ho,if_true,length_cons,hl]
    congr 1
    omega
  | two o p body hlow hhigh hl =>
    have hsecond := hoct 1
    simp only [cons_append,getElem?_cons_zero,getElem?_cons_succ] at hfirst hsecond
    simp only [cons_append,length_cons] at hlen
    have hin : ¬ payload.length ≤ i + 1 := by omega
    simp only [finalLength,hfirst,hsecond,Nat.not_lt.mpr hlow,hhigh,hin,if_true,if_false,
      length_cons,hl,Nat.shiftLeft_eq]
    congr 1
    omega
  | five a b c d body hl =>
    have h1 := hoct 1
    have h2 := hoct 2
    have h3 := hoct 3
    have h4 := hoct 4
    simp only [cons_append,getElem?_cons_zero,getElem?_cons_succ]
      at hfirst h1 h2 h3 h4
    simp only [cons_append,length_cons] at hlen
    have hin : ¬ payload.length ≤ i + 4 := by omega
    have hbig : (255 : UInt8).toNat = 255 := rfl
    simp only [finalLength,hfirst,h1,h2,h3,h4,hbig,hin,Nat.reduceLT,if_true,if_false,
      length_cons,hl,fiveOctets_eq]
    congr 1
    omega

theorem skipPartial_of_body (hb : Body b) (h : payload.drop i = b ++ x) :
    skipPartial payload (turns + 1) i = .ok i := by
  have hfirst := octet_of_drop h 0
  rw [Nat.add_zero] at hfirst
  have hstop : ∀ o : UInt8, payload[i]? = some o → ¬ (224 ≤ o.toNat ∧ o.toNat < 255) →
      skipPartial payload (turns + 1) i = .ok i := by
    intro o ho hno
    simp [skipPartial,ho,hno]
  cases hb with
  | one o body ho _ | two o p body _ hhigh _ => exact hstop o hfirst (by omega)
  | five a b c d body _ => exact hstop 255 hfirst (by simp)

theorem packetEnd_of_lengths (hb : Lengths b) (h : payload.drop i = b ++ x) :
    packetEnd payload i = .ok (i + b.length) := by
  have hwalk : ∀ turns, b.length ≤ turns →
      ∃ j, skipPartial payload turns i = .ok j ∧ finalLength payload j = .ok (i + b.length) := by
    -- the turns of the loop are the chunks, each of which takes octets of the payload
    induction hb generalizing i with
    | final b hb =>
      intro turns hturns
      have hpos := length_pos_iff.mpr hb.ne_nil
      obtain ⟨turns,rfl⟩ : ∃ n, turns = n + 1 := ⟨turns - 1,by omega⟩
      exact ⟨i,skipPartial_of_body hb h,finalLength_of_body hb h⟩
    | chunk o chunk rest hlow hhigh hlen hrest ih =>
      intro turns hturns
      simp only [length_cons,length_append] at hturns
      obtain ⟨turns,rfl⟩ : ∃ n, turns = n + 1 := ⟨turns - 1,by omega⟩
      have hfirst := octet_of_drop h 0
      simp only [Nat.add_zero,cons_append,getElem?_cons_zero] at hfirst
      have hdrop : payload.drop (i + (1 + 2 ^ (o.toNat % 32))) = rest ++ x := by
        have hsplit : payload.drop i = (o :: chunk) ++ (rest ++ x) := by simpa using h
        have := drop_add_of_drop hsplit
        rwa [length_cons,hlen,Nat.add_comm _ 1] at this
      have hin : ¬ payload.length ≤ i + (1 + 2 ^ (o.toNat % 32)) := by
        have hlen := length_of_drop hdrop (by simp [hrest.ne_nil])
        have hpos := length_pos_iff.mpr hrest.ne_nil
        rw [length_append] at hlen
        omega
      obtain ⟨j,hj,hfinal⟩ := ih hdrop turns (by omega)
      refine ⟨j,?_,?_⟩
      · simp only [skipPartial,hfirst,hlow,hhigh,and_self,if_true,partialLen_eq,hin,if_false,hj]
      · rw [hfinal]
        simp only [length_cons,length_append,hlen]
        congr 1
        omega
  have hfits : b.length ≤ payload.length := by
    have hlen := length_of_drop h (by simp [hb.ne_nil])
    rw [length_append] at hlen
    omega
  obtain ⟨j,hj,hfinal⟩ := hwalk payload.length hfits
  simp only [packetEnd,hj,hfinal]

theorem drop_eq_octet (h : payload[i]? = some o) : payload.drop i = o :: payload.drop (i + 1) := by
  obtain ⟨hi,rfl⟩ := List.getElem?_eq_some_iff.mp h
  exact drop_eq_getElem_cons hi

theorem drop_split (hie : i ≤ e) (he : e ≤ payload.length) :
    ∃ b x, payload.drop i = b ++ x ∧ b.length = e - i := by
  refine ⟨(payload.drop i).take (e - i),(payload.drop i).drop (e - i),?_,?_⟩
  · rw [take_append_drop]
  · rw [length_take,length_drop]
    omega

theorem body_of_finalLength (h : finalLength payload i = .ok e) (he : e ≤ payload.length) :
    ∃ b x, payload.drop i = b ++ x ∧ Body b ∧ e = i + b.length := by
  revert h
  fun_cases finalLength payload i <;> intro h <;> cases h
  · rename_i o ho hsmall
    obtain ⟨body,x,hbody,hlen⟩ := drop_split (Nat.le_add_right (i + 1) o.toNat) he
    refine ⟨o :: body,x,by rw [drop_eq_octet ho,hbody]; rfl,.one o body hsmall (by omega),?_⟩
    rw [length_cons]
    omega
  · rename_i o ho hlow hhigh _ p hp len
    obtain ⟨body,x,hbody,hlen⟩ := drop_split (Nat.le_add_right (i + 2) _) he
    refine ⟨o :: p :: body,x,by rw [drop_eq_octet ho,drop_eq_octet hp,hbody]; rfl,
      .two o p body (by omega) hhigh (by omega),?_⟩
    rw [length_cons,length_cons]
    omega
  · rename_i o ho _ _ hfive _ a b c d hd hc hb ha len
    obtain ⟨body,x,hbody,hlen⟩ := drop_split (Nat.le_add_right (i + 5) _) he
    simp only [len,fiveOctets_eq] at hlen ⊢
    refine ⟨255 :: a :: b :: c :: d :: body,x,?_,.five a b c d body (by omega),?_⟩
    · rw [drop_eq_octet ho,drop_eq_octet ha,drop_eq_octet hb,drop_eq_octet hc,drop_eq_octet hd,
        hbody,show o = 255 from UInt8.toNat_inj.mp hfive]
      rfl
    · simp only [length_cons]
      omega

theorem lengths_of_skipPartial (h : skipPartial payload turns i = .ok j)
    (hfinal : finalLength payload j = .ok e) (he : e ≤ payload.length) :
    ∃ b x, payload.drop i = b ++ x ∧ Lengths b ∧ e = i + b.length := by
  induction turns generalizing i with
  | zero => cases h
  | succ turns ih =>
    simp only [skipPartial] at h
    split at h
    · cases h
    · rename_i o ho
      split at h
      · rename_i hpart
        split at h
        · cases h
        · rename_i hin
          rw [partialLen_eq] at h hin
          have hpos : 0 < 2 ^ (o.toNat % 32) := Nat.two_pow_pos _
          -- the chunk is in front of the rest that the induction reads
          obtain ⟨b,x,hb,hlengths,hend⟩ := ih h
          have hchunkEnd : i + 1 + 2 ^ (o.toNat % 32) ≤ payload.length := by omega
          obtain ⟨chunk,y,hchunk,hlen⟩ := drop_split (Nat.le_add_right (i + 1) _) hchunkEnd
          rw [Nat.add_sub_cancel_left] at hlen
          have hy : y = b ++ x := by
            have := drop_add_of_drop hchunk
            rw [← this,← hb,hlen,Nat.add_assoc]
          refine ⟨o :: (chunk ++ b),x,?_,.chunk o chunk b hpart.1 hpart.2 hlen hlengths,?_⟩
          · rw [drop_eq_octet ho,hchunk,hy]
            simp
          · simp only [length_cons,length_append]
            omega
      · cases h
        obtain ⟨b,x,hb,hbody,hend⟩ := body_of_finalLength hfinal he
        exact ⟨b,x,hb,.final b hbody,hend⟩

theorem lengths_of_packetEnd (h : packetEnd payload i = .ok e) (he : e ≤ payload.length) :
    ∃ b x, payload.drop i = b ++ x ∧ Lengths b ∧ e = i + b.length := by
  unfold packetEnd at h
  split at h
  · cases h
  · rename_i j hj
    exact lengths_of_skipPartial hj h he

/-- Inside the payload the loop over the partial lengths stops inside the payload, or the
function returns. -/
theorem skipPartial_safe (hi : i < payload.length) (hturns : payload.length ≤ i + turns) :
    skipPartial payload turns i = .error (.returned false) ∨
      ∃ j, skipPartial payload turns i = .ok j ∧ i ≤ j ∧ j < payload.length := by
  induction turns generalizing i with
  | zero => omega
  | succ turns ih =>
    simp only [skipPartial,getElem?_eq_getElem hi]
    split
    · split
      · exact .inl rfl
      · rename_i hin
        rw [partialLen_eq] at hin ⊢
        have hpos : 0 < 2 ^ (payload[i].toNat % 32) := Nat.two_pow_pos _
        rcases ih (Nat.lt_of_not_le hin) (by omega) with h | ⟨j,hj,hij,hjl⟩
        · exact .inl h
        · exact .inr ⟨j,hj,by omega,hjl⟩
    · exact .inr ⟨i,rfl,Nat.le_refl i,hi⟩

theorem finalLength_safe (hi : i < payload.length) :
    finalLength payload i = .error (.returned false) ∨
      ∃ e, finalLength payload i = .ok e ∧ i < e := by
  simp only [finalLength,getElem?_eq_getElem hi]
  split
  · exact .inr ⟨_,rfl,by omega⟩
  · split
    · split
      · exact .inl rfl
      · rename_i hin
        simp only [getElem?_eq_getElem (Nat.lt_of_not_le hin)]
        exact .inr ⟨_,rfl,by omega⟩
    · split
      · split
        · exact .inl rfl
        · rename_i hin
          have h4 : i + 4 < payload.length := Nat.lt_of_not_le hin
          have h3 : i + 3 < payload.length := by omega
          have h2 : i + 2 < payload.length := by omega
          have h1 : i + 1 < payload.length := by omega
          simp only [getElem?_eq_getElem h1,getElem?_eq_getElem h2,
            getElem?_eq_getElem h3,getElem?_eq_getElem h4]
          exact .inr ⟨_,rfl,by omega⟩
      · exact .inl rfl

theorem packetEnd_safe (hi : i < payload.length) :
    packetEnd payload i = .error (.returned false) ∨ ∃ e, packetEnd payload i = .ok e ∧ i < e := by
  unfold packetEnd
  rcases skipPartial_safe hi (Nat.le_add_left payload.length i) with h | ⟨j,hj,hij,hjl⟩
  · exact .inl (by rw [h])
  · rcases finalLength_safe hjl with he | ⟨e,he,hje⟩
    · exact .inl (by rw [hj]; exact he)
    · exact .inr ⟨e,by rw [hj]; exact he,by omega⟩

theorem Packet.ne_nil (h : Packet type p) : p ≠ [] := by
  cases h
  simp

theorem not_encrypted_nil : ¬ Encrypted [] := by
  rintro ⟨keys,data, -,hdata,h⟩
  exact hdata.ne_nil (append_eq_nil_iff.mp h.symm).2

theorem encrypted_cons :
    Encrypted (tag :: rest) ↔ 192 ≤ tag.toNat ∧ ∃ b x, rest = b ++ x ∧ Lengths b ∧
      (tag.toNat % 64 = 18 ∧ x = [] ∨
        (tag.toNat % 64 = 1 ∨ tag.toNat % 64 = 3) ∧ Encrypted x) := by
  constructor
  · rintro ⟨keys,data,hkeys,hdata,h⟩
    cases keys with
    | nil =>
      cases hdata with
      | mk t body htag htype hbody =>
        obtain ⟨rfl,rfl⟩ := cons_eq_cons.mp h
        exact ⟨htag,rest,[],by simp,hbody,.inl ⟨htype,rfl⟩⟩
    | cons key keys =>
      have hrest : Encrypted (keys.flatten ++ data) :=
        ⟨keys,data,fun k hk => hkeys k (mem_cons_of_mem _ hk),hdata,rfl⟩
      rcases hkeys key mem_cons_self with hkey | hkey
      all_goals
        cases hkey with
        | mk t body htag htype hbody =>
          simp only [flatten_cons,cons_append,append_assoc] at h
          obtain ⟨rfl,rfl⟩ := cons_eq_cons.mp h
          exact ⟨htag,body,_,rfl,hbody,.inr ⟨by simp [htype],hrest⟩⟩
  · rintro ⟨htag,b,x,rfl,hb,⟨htype,rfl⟩ | ⟨htype,keys,data,hkeys,hdata,rfl⟩⟩
    · exact ⟨[],tag :: b,by simp,.mk tag b htag htype hb,by simp⟩
    · refine ⟨(tag :: b) :: keys,data,?_,hdata,by simp⟩
      intro k hk
      rcases mem_cons.mp hk with rfl | hk
      · exact htype.imp (fun h => .mk tag b htag h hb) (fun h => .mk tag b htag h hb)
      · exact hkeys k hk

theorem encrypted_drop (ht : payload[i]? = some tag) :
    Encrypted (payload.drop i) ↔ 192 ≤ tag.toNat ∧ ∃ e, packetEnd payload (i + 1) = .ok e ∧
      (tag.toNat % 64 = 18 ∧ e = payload.length ∨
        (tag.toNat % 64 = 1 ∨ tag.toNat % 64 = 3) ∧ Encrypted (payload.drop e)) := by
  have hi : i < payload.length := (List.getElem?_eq_some_iff.mp ht).1
  rw [drop_eq_octet ht,encrypted_cons]
  refine and_congr_right fun _ => ⟨?_,?_⟩
  · rintro ⟨b,x,hbx,hb,hcase⟩
    have hlen := length_of_drop hbx (by simp [hb.ne_nil])
    rw [length_append] at hlen
    refine ⟨i + 1 + b.length,packetEnd_of_lengths hb hbx,hcase.imp ?_ ?_⟩
    · rintro ⟨htype,rfl⟩
      exact ⟨htype,by simpa using hlen.symm⟩
    · rintro ⟨htype,hx⟩
      exact ⟨htype,by rwa [drop_add_of_drop hbx]⟩
  · rintro ⟨e,he,hcase⟩
    have hle : e ≤ payload.length := by
      rcases hcase with ⟨-,rfl⟩ | ⟨-,hx⟩
      · exact Nat.le_refl _
      · by_contra hlt
        rw [drop_eq_nil_of_le (by omega)] at hx
        exact not_encrypted_nil hx
    obtain ⟨b,x,hbx,hb,rfl⟩ := lengths_of_packetEnd he hle
    have hx := drop_add_of_drop hbx
    refine ⟨b,x,hbx,hb,hcase.imp ?_ ?_⟩
    · rintro ⟨htype,hend⟩
      exact ⟨htype,by rw [← hx,hend,drop_length]⟩
    · rintro ⟨htype,hrest⟩
      exact ⟨htype,by rwa [hx] at hrest⟩

theorem inside_of_packetEnd (h : packetEnd payload i = .ok e) : i < payload.length := by
  by_contra hi
  have hout : payload[i]? = none := getElem?_eq_none (Nat.le_of_not_lt hi)
  unfold packetEnd at h
  cases hturns : payload.length with
  | zero =>
    rw [hturns] at h
    cases h
  | succ turns =>
    rw [hturns,skipPartial,hout] at h
    cases h

/-- What the loop over the packets finds out about the rest of the payload. -/
theorem scanPackets_drop (h : payload.length - i < turns) :
    ∃ accepted, scanPackets payload turns i = .returned accepted ∧
      (accepted = true ↔ Encrypted (payload.drop i)) := by
  induction turns generalizing i with
  | zero => omega
  | succ turns ih =>
    by_cases hi : i < payload.length
    · have htag := getElem?_eq_getElem hi
      rw [encrypted_drop htag]
      simp only [scanPackets,hi,htag,if_true]
      generalize payload[i] = tag
      by_cases hhigh : 192 ≤ tag.toNat
      · simp only [tag_high.mpr hhigh,ne_eq,not_true_eq_false,if_false]
        by_cases hin : payload.length ≤ i + 1
        · -- a tag without a length
          refine ⟨false,by simp [hin],iff_of_false (by simp) ?_⟩
          rintro ⟨-,e,he, -⟩
          exact (Nat.not_lt.mpr hin) (inside_of_packetEnd he)
        · simp only [hin,if_false]
          rcases packetEnd_safe (Nat.lt_of_not_le hin) with hend | ⟨e,hend,hie⟩
          · simp only [hend]
            exact ⟨false,rfl,by simp⟩
          · simp only [hend,hhigh,true_and,Except.ok.injEq,exists_eq_left']
            have h18 : tag &&& 0x3F = 18 ↔ tag.toNat % 64 = 18 := tag_type tag 18 (by omega)
            have h1 : tag &&& 0x3F = 1 ↔ tag.toNat % 64 = 1 := tag_type tag 1 (by omega)
            have h3 : tag &&& 0x3F = 3 ↔ tag.toNat % 64 = 3 := tag_type tag 3 (by omega)
            simp only [h18,h1,h3]
            split
            · rename_i hlast
              rw [hlast,drop_length]
              exact ⟨_,rfl,by simp [not_encrypted_nil]⟩
            · rename_i hmore
              split
              · rename_i hother
                exact ⟨false,rfl,by simp [hmore,hother]⟩
              · rename_i hkey
                have hkey' : tag.toNat % 64 = 1 ∨ tag.toNat % 64 = 3 := by omega
                simpa [hmore,hkey'] using ih (i := e) (by omega)
      · simp only [mt tag_high.mp hhigh,ne_eq,not_false_eq_true,if_true]
        exact ⟨false,rfl,by simp [hhigh]⟩
    · simp only [scanPackets,hi,if_false]
      rw [drop_eq_nil_of_le (Nat.le_of_not_lt hi)]
      exact ⟨false,rfl,iff_of_false (by simp) not_encrypted_nil⟩

theorem isEncryptedOpenPGPPayload_returns :
    isEncryptedOpenPGPPayload payload = .returned true ∧ Encrypted payload ∨
      isEncryptedOpenPGPPayload payload = .returned false ∧ ¬ Encrypted payload := by
  have hscan : ∃ accepted, isEncryptedOpenPGPPayload payload = .returned accepted ∧
      (accepted = true ↔ Encrypted payload) := by
    unfold isEncryptedOpenPGPPayload
    split
    · rename_i h
      rw [length_eq_zero_iff.mp h]
      exact ⟨false,rfl,iff_of_false (by simp) not_encrypted_nil⟩
    · exact scanPackets_drop (i := 0) (by omega)
  obtain ⟨accepted,hret,hiff⟩ := hscan
  cases accepted with
  | true => exact .inl ⟨hret,hiff.mp rfl⟩
  | false => exact .inr ⟨hret,fun h => by simpa using hiff.mpr h⟩

theorem finalLength_lt (h : finalLength payload i = .ok e) : e < i + 5 + 2 ^ 32 := by
  revert h
  fun_cases finalLength payload i <;> intro h <;> cases h
  · omega
  · rename_i second _ len
    have hsecond := second.toNat_lt
    omega
  · rename_i a b c d _ _ _ _ len
    have ha := a.toNat_lt
    have hb := b.toNat_lt
    have hc := c.toNat_lt
    have hd := d.toNat_lt
    simp only [len,fiveOctets_eq]
    omega

theorem packetEnd_lt (h : packetEnd payload i = .ok e) : e < payload.length + 5 + 2 ^ 32 := by
  have hi := inside_of_packetEnd h
  unfold packetEnd at h
  rcases skipPartial_safe hi (Nat.le_add_left payload.length i) with hj | ⟨j,hj, -,hjl⟩ <;>
    rw [hj] at h
  · cases h
  · have := finalLength_lt h
    omega

/-- The check of a payload ends, reads no octet outside the payload, computes no position
that an `int` could not hold, and accepts what the grammar describes. -/
theorem isEncryptedOpenPGPPayload_grammar (payload : List UInt8) :
    (∃ accepted, isEncryptedOpenPGPPayload payload = .returned accepted ∧
      (accepted = true ↔ Encrypted payload)) ∧
    ∀ i e, packetEnd payload i = .ok e → e < payload.length + 5 + 2 ^ 32 := by
  refine ⟨?_,fun i e h => packetEnd_lt h⟩
  rcases isEncryptedOpenPGPPayload_returns with ⟨h,henc⟩ | ⟨h,henc⟩
  · exact ⟨true,h,iff_of_true rfl henc⟩
  · exact ⟨false,h,iff_of_false (by simp) henc⟩

end Madmail.Proofs.PacketGrammar
