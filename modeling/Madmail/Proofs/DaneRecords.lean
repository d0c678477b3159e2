import Madmail.Remote.Dane

namespace Madmail.Proofs.DaneRecords
open Exterrors Lib Remote.Security

variable {x : X509} {recs recs' : List TLSA} {connState : ConnectionState} {leaf : Certificate}
  {chain : List Certificate}

def Usable (rec : TLSA) : Prop :=
  (rec.usage = 2 ∨ rec.usage = 3) ∧ (rec.selector = 0 ∨ rec.selector = 1) ∧
    (rec.matchingType = 0 ∨ rec.matchingType = 1 ∨ rec.matchingType = 2)

def MatchesLeaf (x : X509) (recs : List TLSA) (leaf : Certificate) : Prop :=
  ∃ rec ∈ recs, Usable rec ∧ rec.usage = 3 ∧ x.matchesCert rec leaf = true

def Anchored (x : X509) (recs : List TLSA) (cert : Certificate) : Prop :=
  cert.isCA = true ∧ ∃ rec ∈ recs, Usable rec ∧ rec.usage = 2 ∧ x.matchesCert rec cert = true

/-- The certificate of the server has a path to the anchored certificates of its
chain, however they and the others are listed. -/
def Validates (x : X509) (recs : List TLSA) (connState : ConnectionState) (leaf : Certificate) :
    Prop :=
  ∀ roots intermediates,
    (∀ cert, cert ∈ roots ↔ cert ∈ connState.peerCertificates ∧ Anchored x recs cert) →
    (∀ cert, cert ∈ intermediates ↔ cert ∈ connState.peerCertificates ∧ ¬Anchored x recs cert) →
    x.verify connState.serverName roots intermediates leaf = true

theorem wellFormed_iff {rec : TLSA} :
    rec.wellFormed = true ↔ (rec.matchingType = 0 ∨ rec.matchingType = 1 ∨ rec.matchingType = 2) ∧
      (rec.selector = 0 ∨ rec.selector = 1) := by
  simp [TLSA.wellFormed,or_assoc]

theorem mem_withUsage (hu : usage = 2 ∨ usage = 3) :
    rec ∈ withUsage usage recs ↔ rec ∈ recs ∧ Usable rec ∧ rec.usage = usage := by
  rw [withUsage,List.mem_filter,Bool.and_eq_true,beq_iff_eq,wellFormed_iff]
  unfold Usable
  constructor
  · intro h
    obtain ⟨hmem,⟨htype,hsel⟩,husage⟩ := h
    rw [← husage] at hu
    exact ⟨hmem,⟨hu,hsel,htype⟩,husage⟩
  · intro h
    obtain ⟨hmem,⟨-,hsel,htype⟩,husage⟩ := h
    exact ⟨hmem,⟨htype,hsel⟩,husage⟩

theorem none_usable_iff :
    (withUsage 3 recs = [] ∧ withUsage 2 recs = []) ↔ ∀ rec ∈ recs, ¬Usable rec := by
  simp only [List.eq_nil_iff_forall_not_mem]
  constructor
  · intro h rec hmem husable
    obtain hu | hu := husable.1
    · exact h.2 rec ((mem_withUsage (.inl rfl)).mpr ⟨hmem,husable,hu⟩)
    · exact h.1 rec ((mem_withUsage (.inr rfl)).mpr ⟨hmem,husable,hu⟩)
  · intro h
    constructor
    · intro rec hmem
      obtain ⟨hmem,husable, -⟩ := (mem_withUsage (.inr rfl)).mp hmem
      exact h rec hmem husable
    · intro rec hmem
      obtain ⟨hmem,husable, -⟩ := (mem_withUsage (.inl rfl)).mp hmem
      exact h rec hmem husable

theorem matchesLeaf_iff :
    (withUsage 3 recs).any (fun rec => x.matchesCert rec leaf) = true ↔ MatchesLeaf x recs leaf := by
  simp only [List.any_eq_true,mem_withUsage (.inr rfl),MatchesLeaf,and_assoc]

theorem isRoot_iff : isRoot x (withUsage 2 recs) cert = true ↔ Anchored x recs cert := by
  simp only [isRoot,List.any_eq_true,mem_withUsage (.inl rfl),Bool.and_eq_true,Anchored]
  constructor
  · intro h
    obtain ⟨rec,⟨hmem,husable,hu⟩,hca,hmatch⟩ := h
    exact ⟨hca,rec,hmem,husable,hu,hmatch⟩
  · intro h
    obtain ⟨hca,rec,hmem,husable,hu,hmatch⟩ := h
    exact ⟨rec,⟨hmem,husable,hu⟩,hca,hmatch⟩

theorem validates_iff (hchain : connState.peerCertificates = leaf :: chain) :
    x.verify connState.serverName ((leaf :: chain).filter (isRoot x (withUsage 2 recs)))
        ((leaf :: chain).filter (fun cert => !isRoot x (withUsage 2 recs) cert)) leaf = true ↔
      Validates x recs connState leaf := by
  have hroots (cert : Certificate) :
      cert ∈ (leaf :: chain).filter (isRoot x (withUsage 2 recs)) ↔
        cert ∈ connState.peerCertificates ∧ Anchored x recs cert := by
    rw [List.mem_filter,isRoot_iff,hchain]
  have hothers (cert : Certificate) :
      cert ∈ (leaf :: chain).filter (fun cert => !isRoot x (withUsage 2 recs) cert) ↔
        cert ∈ connState.peerCertificates ∧ ¬Anchored x recs cert := by
    rw [List.mem_filter,Bool.not_eq_true',← Bool.not_eq_true,isRoot_iff,hchain]
  constructor
  · intro h roots intermediates hr hi
    rw [← h]
    apply x.verify_congr
    · exact fun cert => (hr cert).trans (hroots cert).symm
    · exact fun cert => (hi cert).trans (hothers cert).symm
  · intro h
    exact h _ _ hroots hothers

theorem not_validates (hchain : connState.peerCertificates = leaf :: chain)
    (hnone : withUsage 2 recs = []) : ¬Validates x recs connState leaf := by
  rw [← validates_iff hchain,hnone]
  have hempty : (leaf :: chain).filter (isRoot x []) = [] := by
    simp [isRoot]
  rw [hempty,x.verify_noRoots]
  exact Bool.false_ne_true

variable (x : X509) (recs : List TLSA) (connState : ConnectionState) (leaf : Certificate) in
inductive Decides : Bool × Option Err → Prop where
  | noRecords (h : recs = []) : Decides (false,none)
  | noHandshake (h : recs ≠ []) (hs : connState.handshakeComplete = false) :
      Decides (false,some (tlsRequired connState))
  | noneUsable (h : recs ≠ []) (hs : connState.handshakeComplete = true)
      (hu : ∀ rec ∈ recs, ¬Usable rec) : Decides (false,none)
  | authenticated (h : recs ≠ []) (hs : connState.handshakeComplete = true)
      (husable : ∃ rec ∈ recs, Usable rec)
      (hu : MatchesLeaf x recs leaf ∨ Validates x recs connState leaf) :
      Decides (true,none)
  | unmatched (overridePKIX : Bool) (h : recs ≠ []) (hs : connState.handshakeComplete = true)
      (husable : ∃ rec ∈ recs, Usable rec)
      (hpkix : overridePKIX = true ↔ ∀ rec ∈ recs, Usable rec → rec.usage = 3)
      (hno : ¬MatchesLeaf x recs leaf ∧ ¬Validates x recs connState leaf) :
      Decides (overridePKIX,some (noMatchingRecords connState))

theorem verifyDANE_decides (recs : List TLSA) (hchain : connState.peerCertificates = leaf :: chain) :
    ∃ r, verifyDANE x recs connState = some r ∧ Decides x recs connState leaf r := by
  unfold verifyDANE
  by_cases h : recs = []
  · rw [if_pos h]
    exact ⟨_,rfl,.noRecords h⟩
  rw [if_neg h]
  cases hs : connState.handshakeComplete with
  | false => exact ⟨_,rfl,.noHandshake h hs⟩
  | true =>
    simp only [Bool.not_true,Bool.false_eq_true,↓reduceIte,hchain]
    by_cases hu : withUsage 3 recs = [] ∧ withUsage 2 recs = []
    · rw [if_pos hu]
      exact ⟨_,rfl,.noneUsable h hs (none_usable_iff.mp hu)⟩
    rw [if_neg hu]
    have husable : ∃ rec ∈ recs, Usable rec := by
      rw [none_usable_iff] at hu
      push Not at hu
      exact hu
    by_cases hleaf : (withUsage 3 recs).any (fun rec => x.matchesCert rec leaf) = true
    · rw [if_pos hleaf]
      exact ⟨_,rfl,.authenticated h hs husable (.inl (matchesLeaf_iff.mp hleaf))⟩
    rw [if_neg hleaf]
    rw [matchesLeaf_iff] at hleaf
    by_cases hta : withUsage 2 recs = []
    · rw [if_pos hta]
      refine ⟨_,rfl,.unmatched true h hs husable (iff_of_true rfl ?_)
        ⟨hleaf,not_validates hchain hta⟩⟩
      intro rec hmem hr
      obtain h2 | h3 := hr.1
      · have hin := (mem_withUsage (.inl rfl)).mpr ⟨hmem,hr,h2⟩
        rw [hta] at hin
        cases hin
      · exact h3
    rw [if_neg hta]
    split
    · rename_i hv
      exact ⟨_,rfl,.authenticated h hs husable (.inr ((validates_iff hchain).mp hv))⟩
    · rename_i hv
      refine ⟨_,rfl,.unmatched false h hs husable (iff_of_false Bool.false_ne_true fun hall => ?_)
        ⟨hleaf,fun hval => hv ((validates_iff hchain).mpr hval)⟩⟩
      obtain ⟨rec,hin⟩ := List.exists_mem_of_ne_nil _ hta
      obtain ⟨hmem,hr,h2⟩ := (mem_withUsage (.inl rfl)).mp hin
      exact absurd (hall rec hmem hr) (by simp [h2])

theorem Decides.congr (hmem : ∀ rec, rec ∈ recs ↔ rec ∈ recs')
    (h : Decides x recs connState leaf r) : Decides x recs' connState leaf r := by
  have hnil : recs ≠ [] → recs' ≠ [] := by
    intro hne heq
    obtain ⟨rec,hin⟩ := List.exists_mem_of_ne_nil _ hne
    rw [hmem,heq] at hin
    cases hin
  have hleaf : MatchesLeaf x recs leaf ↔ MatchesLeaf x recs' leaf := by
    simp only [MatchesLeaf,hmem]
  have hval : Validates x recs connState leaf ↔ Validates x recs' connState leaf := by
    simp only [Validates,Anchored,hmem]
  cases h with
  | noRecords h =>
    apply Decides.noRecords
    rw [h] at hmem
    exact List.eq_nil_iff_forall_not_mem.mpr fun rec hin => by cases (hmem rec).mpr hin
  | noHandshake h hs => exact .noHandshake (hnil h) hs
  | noneUsable h hs hu => exact .noneUsable (hnil h) hs fun rec hin => hu rec ((hmem rec).mpr hin)
  | authenticated h hs husable hu =>
    simp only [hmem] at husable
    rw [hleaf,hval] at hu
    exact .authenticated (hnil h) hs husable hu
  | unmatched overridePKIX h hs husable hpkix hno =>
    simp only [hmem] at husable hpkix
    rw [hleaf,hval] at hno
    exact .unmatched overridePKIX (hnil h) hs husable hpkix hno

theorem not_usable_both (h : ∃ rec ∈ recs, Usable rec) (hno : ∀ rec ∈ recs, ¬Usable rec) : False := by
  obtain ⟨rec,hin,hu⟩ := h
  exact hno rec hin hu

theorem Decides.unique (h : Decides x recs connState leaf r)
    (h' : Decides x recs connState leaf r') : r = r' := by
  cases h with
  | noRecords h =>
    cases h' with
    | noRecords => rfl
    | noHandshake h' | noneUsable h' | authenticated h' | unmatched _ h' => exact absurd h h'
  | noHandshake h hs =>
    cases h' with
    | noRecords h' => exact absurd h' h
    | noHandshake => rfl
    | noneUsable _ hs' | authenticated _ hs' | unmatched _ _ hs' => simp [hs] at hs'
  | noneUsable h hs hu =>
    cases h' with
    | noRecords => rfl
    | noHandshake _ hs' => simp [hs] at hs'
    | noneUsable => rfl
    | authenticated _ _ husable | unmatched _ _ _ husable => exact (not_usable_both husable hu).elim
  | authenticated h hs husable hu =>
    cases h' with
    | noRecords h' => exact absurd h' h
    | noHandshake _ hs' => simp [hs] at hs'
    | noneUsable _ _ hno => exact (not_usable_both husable hno).elim
    | authenticated => rfl
    | unmatched _ _ _ _ _ hno => exact (hu.elim hno.1 hno.2).elim
  | unmatched overridePKIX h hs husable hpkix hno =>
    cases h' with
    | noRecords h' => exact absurd h' h
    | noHandshake _ hs' => simp [hs] at hs'
    | noneUsable _ _ hnone => exact (not_usable_both husable hnone).elim
    | authenticated _ _ _ hu => exact (hu.elim hno.1 hno.2).elim
    | unmatched overridePKIX' _ _ _ hpkix' =>
      have heq : overridePKIX = overridePKIX' := Bool.eq_iff_iff.mpr (hpkix.trans hpkix'.symm)
      rw [heq]

/-- Exactly when `verifyDANE` returns no error, when it overrides the verification of
X.509 without one, and that the order of the records does not matter. -/
theorem verifyDANE_fail_closed (x : X509) (recs : List TLSA) (connState : ConnectionState)
    (leaf : Certificate) (chain : List Certificate)
    (hchain : connState.peerCertificates = leaf :: chain) :
    (∃ overridePKIX err, verifyDANE x recs connState = some (overridePKIX,err) ∧
      (err = none ↔ recs = [] ∨ (connState.handshakeComplete = true ∧
        ((∀ rec ∈ recs, ¬Usable rec) ∨ MatchesLeaf x recs leaf ∨
          Validates x recs connState leaf))) ∧
      (err = none → overridePKIX = true → connState.handshakeComplete = true ∧
        (MatchesLeaf x recs leaf ∨ Validates x recs connState leaf))) ∧
    ∀ recs', recs'.Perm recs → verifyDANE x recs' connState = verifyDANE x recs connState := by
  obtain ⟨⟨overridePKIX,err⟩,hr,hd⟩ := verifyDANE_decides (x := x) recs hchain
  constructor
  · refine ⟨overridePKIX,err,hr,?_⟩
    cases hd with
    | noRecords h => exact ⟨iff_of_true rfl (.inl h),nofun⟩
    | noHandshake h hs => exact ⟨by simp [h,hs],nofun⟩
    | noneUsable h hs hu => exact ⟨iff_of_true rfl (.inr ⟨hs,.inl hu⟩),nofun⟩
    | authenticated h hs husable hu =>
      exact ⟨iff_of_true rfl (.inr ⟨hs,.inr hu⟩),fun _ _ => ⟨hs,hu⟩⟩
    | unmatched _ h hs husable hpkix hno =>
      refine ⟨iff_of_false (by simp) fun hcase => ?_,nofun⟩
      obtain hnil | ⟨-,hnone | hu⟩ := hcase
      · exact h hnil
      · exact not_usable_both husable hnone
      · exact hu.elim hno.1 hno.2
  · intro recs' hperm
    obtain ⟨r',hr',hd'⟩ := verifyDANE_decides (x := x) recs' hchain
    rw [hr,hr',(hd'.congr fun rec => hperm.mem_iff).unique hd]

def chained : ConnectionState :=
  { handshakeComplete := true
    serverName := "mx.example.org"
    peerCertificates := [⟨"leaf",false⟩,⟨"root",true⟩] }

/-- A record for the authority of the chain, after one that is not usable. -/
theorem anchored_chain_passes :
    verifyDANE .plain [⟨0,0,1,"leaf"⟩,⟨2,0,1,"root"⟩] chained = some (true,none) ∧
      (MatchesLeaf .plain [⟨0,0,1,"leaf"⟩,⟨2,0,1,"root"⟩] ⟨"leaf",false⟩ ∨
        Validates .plain [⟨0,0,1,"leaf"⟩,⟨2,0,1,"root"⟩] chained ⟨"leaf",false⟩) := by
  obtain ⟨⟨overridePKIX,err,hr, -,hpkix⟩, -⟩ := verifyDANE_fail_closed .plain
    [⟨0,0,1,"leaf"⟩,⟨2,0,1,"root"⟩] chained ⟨"leaf",false⟩ [⟨"root",true⟩] rfl
  have hpass : verifyDANE .plain [⟨0,0,1,"leaf"⟩,⟨2,0,1,"root"⟩] chained =
      some (true,none) := by decide
  rw [hpass] at hr
  cases hr
  exact ⟨hpass,(hpkix rfl rfl).2⟩

end Madmail.Proofs.DaneRecords
