import Madmail.Endpoint.Session

namespace Madmail.Proofs.AsciiChecks
open Exterrors Madmail.Module Address Smtp

variable {s : String}

def Ascii (s : String) : Prop := ∀ ch ∈ s.toList, ch.toNat < 128

/-- U+0080 is in the string and nothing above it. -/
def Boundary (s : String) : Prop :=
  (∃ ch ∈ s.toList, ch.toNat = 128) ∧ ∀ ch ∈ s.toList, ch.toNat ≤ 128

/-- The four checks of a string: `IsASCII`, what `ToASCII` makes of it, and without SMTPUTF8 the
string as a sender and as a recipient. -/
structure Guarded (s : String) : Prop where
  isASCII : isASCII s = true ↔ Ascii s
  toASCII : ∀ idnaToASCII, (∀ domain ace, idnaToASCII domain = .ok ace → Ascii ace) →
    ∀ ace, toASCII idnaToASCII s = .ok ace → Ascii ace
  sender : ¬ Ascii s → ∀ endp env session opts, opts.utf8 = false →
    (startDelivery endp env session s opts).2 ≠ none
  rcpt : ¬ Ascii s → ∀ endp env session delivery, session.opts.utf8 = false →
    (addRcpt endp env session delivery s).2 ≠ none

theorem isASCII_iff : isASCII s = true ↔ ∀ ch ∈ s.toList, ch.toNat ≤ 128 := by
  simp [isASCII]

theorem isASCII_exact_iff : (isASCII s = true ↔ Ascii s) ↔ ¬ Boundary s := by
  rw [isASCII_iff]
  constructor
  · rintro h ⟨⟨ch,hch,heq⟩,hle⟩
    have hlt := h.mp hle ch hch
    omega
  · intro hb
    refine ⟨fun hle ch hch => ?_,fun h ch hch => Nat.le_of_lt (h ch hch)⟩
    exact Nat.lt_of_le_of_ne (hle ch hch) fun heq => hb ⟨⟨ch,hch,heq⟩,hle⟩

theorem exists_above (hb : ¬ Boundary s) (h : ¬ Ascii s) : isASCII s = false := by
  rw [← isASCII_exact_iff.mpr hb] at h
  simpa using h

theorem toASCII_clean (hb : ∀ mbox domain, split s = .ok (mbox,domain) → ¬ Boundary mbox)
    (hidna : ∀ domain ace, idnaToASCII domain = .ok ace → Ascii ace)
    (h : toASCII idnaToASCII s = .ok ace) : Ascii ace := by
  unfold toASCII at h
  cases hs : split s with
  | error e => simp [hs] at h
  | ok parts =>
    obtain ⟨mbox,domain⟩ := parts
    simp only [hs] at h
    split at h
    · cases h
    next hmbox =>
      have hascii : Ascii mbox := (isASCII_exact_iff.mpr (hb mbox domain hs)).mp (by simpa using hmbox)
      split at h
      · cases h
        exact hascii
      · cases ha : idnaToASCII domain with
        | error e => simp [ha] at h
        | ok aDomain =>
          simp only [ha] at h
          cases h
          have hdomain := hidna domain aDomain ha
          intro ch hch
          simp only [String.toList_append,List.mem_append] at hch
          rcases hch with (hch | hch) | hch
          · exact hascii ch hch
          · cases List.mem_singleton.mp hch
            decide
          · exact hdomain ch hch

/-- The checks of a string are right exactly if U+0080 is not the highest code point in it, and
not the highest one in its local-part. -/
theorem guarded_iff (s : String) : Guarded s ↔
    ¬ Boundary s ∧ ∀ mbox domain, split s = .ok (mbox,domain) → ¬ Boundary mbox := by
  constructor
  · intro h
    refine ⟨isASCII_exact_iff.mp h.isASCII,fun mbox domain hs hb => ?_⟩
    -- a function that makes the empty name of every domain
    have hace := h.toASCII (fun _ => .ok "") (fun _ _ he => by cases he; nofun)
      (if domain = "" then mbox else mbox ++ "@" ++ "")
    have hmbox : isASCII mbox = true := isASCII_iff.mpr hb.2
    obtain ⟨⟨ch,hch,heq⟩,-⟩ := hb
    have hlt : ch.toNat < 128 := by
      refine hace ?_ ch ?_
      · by_cases hd : domain = "" <;> simp [Address.toASCII,hs,hmbox,hd]
      · split <;> simp [hch]
    omega
  · rintro ⟨hs,hmbox⟩
    refine ⟨isASCII_exact_iff.mpr hs,fun _ hidna _ => toASCII_clean hmbox hidna,?_,?_⟩
    · intro hne endp env session opts hutf8
      have hany : s.toList.any (fun ch => ch.toNat > 128) = true := by
        simpa [isASCII] using exists_above hs hne
      unfold startDelivery checkSender
      cases env.msgID with
      | error e => simp
      | ok msgID => simp [hutf8,hany]
    · intro hne endp env session delivery hutf8
      simp [addRcpt,hutf8,exists_above hs hne]

theorem control_passes_as_ascii :
    isASCII (String.singleton (Char.ofNat 128)) = true ∧
      ¬ Ascii (String.singleton (Char.ofNat 128)) := by
  refine ⟨by decide,fun h => ?_⟩
  have hlt := h (Char.ofNat 128) (by decide)
  revert hlt
  decide

end Madmail.Proofs.AsciiChecks
