import Madmail.Proofs.FirstLogin

namespace Madmail.Proofs.StoredHashes
open Exterrors Lib.Strings Madmail.PassTable Madmail.Proofs.PassTable Madmail.Proofs.LoginSteps
open Madmail.Proofs.FirstLogin

section Numbers

theorem digits_of_toString (n : Nat) :
    (toString n).toList ≠ [] ∧ (toString n).toList.all Char.isDigit = true := by
  rw [Nat.toString_eq_ofList_toDigits,String.toList_ofList]
  refine ⟨Nat.toDigits_ne_nil,List.all_eq_true.mpr fun x hx => ?_⟩
  exact Nat.isDigit_of_mem_toDigits (by decide) (by decide) hx

theorem no_colon_toString (n : Nat) : ':' ∉ (toString n).toList := by
  intro hcolon
  have hdigit := List.all_eq_true.mp (digits_of_toString n).2 ':' hcolon
  exact absurd hdigit (by decide)

theorem parseUint_toString (h : n < 2 ^ bitSize) : parseUint (toString n) bitSize = .ok n := by
  have hvalue : (toString n).toList.foldl (fun n c => 10 * n + (c.toNat - '0'.toNat)) 0 = n := by
    rw [Nat.toString_eq_ofList_toDigits,String.toList_ofList]
    have hback := Nat.ofDigitChars_ten_toDigits (n := n)
    rwa [Nat.ofDigitChars_eq_foldl] at hback
  unfold parseUint
  rw [if_pos (digits_of_toString n)]
  simp only [hvalue]
  rw [if_pos h]

end Numbers

section Argon2
variable {c : Crypto} {pass hashSalt : String}

def Readable (c : Crypto) : Nat → String → Prop
  | 0, part => ∃ time, parseUint part 32 = .ok time
  | 1, part => ∃ memory, parseUint part 32 = .ok memory
  | 2, part => ∃ threads, parseUint part 8 = .ok threads
  | _, part => ∃ bs, c.base64Decode part = .ok bs

def Reads (c : Crypto) (hashSalt : String) (n : Nat) : Prop :=
  ∀ i < n, ∃ part, (splitN hashSalt ':' 5)[i]? = some part ∧ Readable c i part

/-- The stored text after the tag `argon2` brings the process down: it is cut
off after readable parts, or its parameters are ones the key function does not
take. -/
inductive Breaks (c : Crypto) (pass hashSalt : String) : Prop where
  | short (hlen : (splitN hashSalt ':' 5).length < 5)
      (hread : Reads c hashSalt (splitN hashSalt ':' 5).length)
  | key (hparts : splitN hashSalt ':' 5 = [t,m,p,s,h])
      (ht : parseUint t 32 = .ok time) (hm : parseUint m 32 = .ok memory)
      (hp : parseUint p 8 = .ok threads) (hs : c.base64Decode s = .ok salt)
      (hh : c.base64Decode h = .ok sum)
      (hkey : c.argon2IDKey (bytes pass) salt time memory threads = none)

theorem reads_succ (hreads : Reads c hashSalt n) (hpart : (splitN hashSalt ':' 5)[n]? = some part)
    (hread : Readable c n part) : Reads c hashSalt (n + 1) := by
  intro i hi
  rcases Nat.lt_succ_iff_lt_or_eq.mp hi with hlt | rfl
  · exact hreads i hlt
  · exact ⟨part,hpart,hread⟩

theorem breaks_of_cut (hn : n < 5) (hreads : Reads c hashSalt n)
    (hcut : (splitN hashSalt ':' 5)[n]? = none) : Breaks c pass hashSalt := by
  have hlen : (splitN hashSalt ':' 5).length ≤ n := List.getElem?_eq_none_iff.mp hcut
  exact .short (by omega) fun i hi => hreads i (by omega)

theorem five_parts (h0 : (splitN hashSalt ':' 5)[0]? = some t)
    (h1 : (splitN hashSalt ':' 5)[1]? = some m) (h2 : (splitN hashSalt ':' 5)[2]? = some p)
    (h3 : (splitN hashSalt ':' 5)[3]? = some s) (h4 : (splitN hashSalt ':' 5)[4]? = some h) :
    splitN hashSalt ':' 5 = [t,m,p,s,h] := by
  have hmax : (splitN hashSalt ':' 5).length ≤ 5 := (length_splitN hashSalt ':' 4).2
  apply List.ext_getElem?
  intro i
  match i with
  | 0 | 1 | 2 | 3 | 4 => assumption
  | i + 5 =>
    rw [List.getElem?_eq_none (by omega)]
    rfl

theorem breaks_of_panicked (h : verifyArgon2 c pass hashSalt = .panicked) :
    Breaks c pass hashSalt := by
  have hreads₀ : Reads c hashSalt 0 := fun i hi => absurd hi (Nat.not_lt_zero i)
  unfold verifyArgon2 at h
  simp only at h
  split at h
  · exact breaks_of_cut (by decide) hreads₀ ‹_›
  rename_i t h0
  split at h
  · cases h
  rename_i time ht
  have hreads₁ := reads_succ hreads₀ h0 ⟨time,ht⟩
  split at h
  · exact breaks_of_cut (by decide) hreads₁ ‹_›
  rename_i m h1
  split at h
  · cases h
  rename_i memory hm
  have hreads₂ := reads_succ hreads₁ h1 ⟨memory,hm⟩
  split at h
  · exact breaks_of_cut (by decide) hreads₂ ‹_›
  rename_i p h2
  split at h
  · cases h
  rename_i threads hp
  have hreads₃ := reads_succ hreads₂ h2 ⟨threads,hp⟩
  split at h
  · exact breaks_of_cut (by decide) hreads₃ ‹_›
  rename_i s h3
  split at h
  · cases h
  rename_i salt hs
  have hreads₄ := reads_succ hreads₃ h3 ⟨salt,hs⟩
  split at h
  · exact breaks_of_cut (by decide) hreads₄ ‹_›
  rename_i hash h4
  split at h
  · cases h
  rename_i sum hh
  split at h
  · exact .key (five_parts h0 h1 h2 h3 h4) ht hm hp hs hh ‹_›
  · split at h <;> cases h

theorem verifyArgon2_parts (hparts : splitN hashSalt ':' 5 = [t,m,p,s,h])
    (ht : parseUint t 32 = .ok time) (hm : parseUint m 32 = .ok memory)
    (hp : parseUint p 8 = .ok threads) (hs : c.base64Decode s = .ok salt)
    (hh : c.base64Decode h = .ok sum) :
    verifyArgon2 c pass hashSalt =
      (c.argon2IDKey (bytes pass) salt time memory threads).elim .panicked fun passHash =>
        if passHash = sum then .ok () else .err hashMismatch := by
  simp only [verifyArgon2,hparts,List.getElem?_cons_zero,List.getElem?_cons_succ,ht,hm,hp,hs,
    hh]
  cases c.argon2IDKey (bytes pass) salt time memory threads with
  | none => rfl
  | some passHash => rfl

theorem panicked_of_breaks (h : Breaks c pass hashSalt) :
    verifyArgon2 c pass hashSalt = .panicked := by
  cases h with
  | key hparts ht hm hp hs hh hkey =>
    rw [verifyArgon2_parts hparts ht hm hp hs hh,hkey,Option.elim_none]
  | short hlen hread =>
    -- The index expression that panics is the first one past the end.
    have hpos : 0 < (splitN hashSalt ':' 5).length := (length_splitN hashSalt ':' 4).1
    obtain ⟨t,h0,time,ht⟩ := hread 0 hpos
    by_cases hl1 : (splitN hashSalt ':' 5).length ≤ 1
    · simp [verifyArgon2,h0,ht,List.getElem?_eq_none hl1]
    obtain ⟨m,h1,memory,hm⟩ := hread 1 (by omega)
    by_cases hl2 : (splitN hashSalt ':' 5).length ≤ 2
    · simp [verifyArgon2,h0,ht,h1,hm,List.getElem?_eq_none hl2]
    obtain ⟨p,h2,threads,hp⟩ := hread 2 (by omega)
    by_cases hl3 : (splitN hashSalt ':' 5).length ≤ 3
    · simp [verifyArgon2,h0,ht,h1,hm,h2,hp,List.getElem?_eq_none hl3]
    obtain ⟨s,h3,salt,hs⟩ := hread 3 (by omega)
    simp [verifyArgon2,h0,ht,h1,hm,h2,hp,h3,hs,List.getElem?_eq_none (Nat.le_of_lt_succ hlen)]

end Argon2

section Login
variable {txt : Text} {c : Crypto} {a : Auth} {env : Env}
variable {modName key entry username password : String}

theorem hashVerify_panicked (h : hashVerify c algo password hashSalt = .panicked) :
    algo = .argon2 ∧ Breaks c password hashSalt := by
  cases algo with
  | sha256 =>
    simp only [hashVerify,verifySHA256] at h
    split at h
    · split at h
      · cases h
      · split at h
        · cases h
        · split at h <;> cases h
    · cases h
  | bcrypt =>
    simp only [hashVerify,verifyBcrypt] at h
    split at h <;> cases h
  | argon2 => exact ⟨rfl,breaks_of_panicked h⟩

theorem algoOf_name (algo : Algo) : algoOf algo.name = some algo := by
  cases algo <;> decide

theorem algoOf_some (h : algoOf tag = some algo) : algo.name = tag := by
  simpa using List.find?_some h

def BadEntry (c : Crypto) (entry password : String) : Prop :=
  ∃ hashSalt, splitN entry ':' 2 = [Algo.argon2.name,hashSalt] ∧ Breaks c password hashSalt

theorem verifyEntry_panicked_iff :
    verifyEntry c modName key entry password = .panicked ↔ BadEntry c entry password := by
  refine ⟨fun h => ?_,fun ⟨hashSalt,hsplit,hbreaks⟩ => ?_⟩
  · unfold verifyEntry at h
    split at h
    · rename_i tag hashSalt hsplit
      split at h
      · cases h
      · rename_i algo htag
        split at h
        · cases h
        · cases h
        · rename_i hverify
          obtain ⟨rfl,hbreaks⟩ := hashVerify_panicked hverify
          refine ⟨hashSalt,?_,hbreaks⟩
          rw [hsplit,algoOf_some htag]
    · cases h
  · have hverify : hashVerify c .argon2 password hashSalt = .panicked := panicked_of_breaks hbreaks
    simp only [verifyEntry,hsplit,algoOf_name,hverify]

theorem authPlain_absent (hk : txt.compareKey (normalizeUsername txt username) = .ok key)
    (hl : a.table.lookup (env.fault .lookup) key = ("",false,e)) :
    (authPlain txt c a env username password).2 ≠ .panicked := by
  simp only [authPlain,hk,hl]
  split
  · simp
  · simp
  · split
    · simp
    · split <;> simp

theorem authPlain_found (hk : txt.compareKey (normalizeUsername txt username) = .ok key)
    (hf : env.fault .lookup = none) (he : a.table.entries key = some entry) :
    (authPlain txt c a env username password).2 = .panicked ↔ BadEntry c entry password := by
  rw [← @verifyEntry_panicked_iff c a.modName key]
  simp only [authPlain,hk,hf,Table.lookup,he]
  cases verifyEntry c a.modName key entry password with
  | ok outdated => cases outdated <;> simp
  | err e => simp
  | panicked => simp

theorem authPlain_panicked_iff :
    (authPlain txt c a env username password).2 = .panicked ↔
      ∃ key entry, txt.compareKey (normalizeUsername txt username) = .ok key ∧
        env.fault .lookup = none ∧ a.table.entries key = some entry ∧
        BadEntry c entry password := by
  cases hk : txt.compareKey (normalizeUsername txt username) with
  | error e => simp [authPlain,hk]
  | ok key =>
    cases hf : env.fault .lookup with
    | some e =>
      have hl : a.table.lookup (env.fault .lookup) key = ("",false,some e) := by
        rw [hf,Table.lookup]
      simpa using authPlain_absent hk hl
    | none =>
      cases he : a.table.entries key with
      | none =>
        have hl : a.table.lookup (env.fault .lookup) key = ("",false,none) := by
          rw [hf,Table.lookup,he]
        simpa [he] using authPlain_absent hk hl
      | some entry => simp [authPlain_found hk hf he,he]

end Login

section Formats
variable {c : Crypto} {opts : HashOpts} {salt : Bytes} {modName key p q s : String}

/-- The options are values of their types. -/
structure InRange (opts : HashOpts) : Prop where
  time : opts.argon2Time < 2 ^ 32
  memory : opts.argon2Memory < 2 ^ 32
  threads : opts.argon2Threads < 2 ^ 8

/-- A password that bcrypt has hashed compares equal to its hash. -/
def Compares (c : Crypto) : Prop :=
  ∀ pass cost hash, c.bcryptGenerate pass cost = .ok hash → c.bcryptCompare hash pass = none

theorem computeArgon2_ok (h : hashCompute c (.ok salt) opts .argon2 p = .ok s) :
    ∃ sum, c.argon2IDKey (bytes p) salt opts.argon2Time opts.argon2Memory opts.argon2Threads =
        some sum ∧
      s = toString opts.argon2Time ++ ":" ++ (toString opts.argon2Memory ++ ":" ++
        (toString opts.argon2Threads ++ ":" ++ (c.base64Encode salt ++ ":" ++
          c.base64Encode sum))) := by
  simp only [hashCompute,computeArgon2] at h
  split at h
  · cases h
  · rename_i sum hsum
    cases h
    exact ⟨sum,hsum,by simp [String.append_assoc]⟩

theorem splitN_argon2 (hc : Encodes c) (n₁ n₂ n₃ : Nat) (salt sum : Bytes) :
    splitN (toString n₁ ++ ":" ++ (toString n₂ ++ ":" ++ (toString n₃ ++ ":" ++
        (c.base64Encode salt ++ ":" ++ c.base64Encode sum)))) ':' 5 =
      [toString n₁,toString n₂,toString n₃,c.base64Encode salt,c.base64Encode sum] := by
  have hcons (n : Nat) {s : String} (t : String) (hs : ':' ∉ s.toList) :
      splitN (s ++ ":" ++ t) ':' (n + 2) = s :: splitN t ':' (n + 1) := splitN_cons hs
  rw [hcons 3 _ (no_colon_toString n₁),hcons 2 _ (no_colon_toString n₂),
    hcons 1 _ (no_colon_toString n₃),hcons 0 _ (hc.no_colon salt),splitN_one]

theorem verifyArgon2_computed (hc : Encodes c) (hr : InRange opts)
    (h : hashCompute c (.ok salt) opts .argon2 p = .ok s) :
    hashVerify c .argon2 q s = .ok () ↔
      c.argon2IDKey (bytes q) salt opts.argon2Time opts.argon2Memory opts.argon2Threads =
        c.argon2IDKey (bytes p) salt opts.argon2Time opts.argon2Memory opts.argon2Threads := by
  obtain ⟨sum,hsum,rfl⟩ := computeArgon2_ok h
  have hparts := splitN_argon2 hc opts.argon2Time opts.argon2Memory opts.argon2Threads salt sum
  rw [hashVerify,verifyArgon2_parts hparts (parseUint_toString hr.time)
    (parseUint_toString hr.memory) (parseUint_toString hr.threads) (hc.decode_encode salt)
    (hc.decode_encode sum),hsum]
  cases c.argon2IDKey (bytes q) salt opts.argon2Time opts.argon2Memory opts.argon2Threads with
  | none => simp
  | some sum' => simp

theorem hashVerify_computed (hc : Encodes c) (hb : Compares c) (hr : InRange opts)
    (h : hashCompute c (.ok salt) opts algo p = .ok s) : hashVerify c algo p s = .ok () := by
  cases algo with
  | sha256 => rw [verifySHA256_computed hc h,if_pos rfl]
  | argon2 => exact (verifyArgon2_computed hc hr h).mpr rfl
  | bcrypt =>
    simp only [hashCompute,computeBcrypt] at h
    cases hg : c.bcryptGenerate (bytes p) opts.bcryptCost with
    | error e =>
      rw [hg] at h
      cases h
    | ok hash =>
      rw [hg] at h
      cases h
      simp only [hashVerify,verifyBcrypt,hb _ _ _ hg]

theorem verifyEntry_tagged (algo : Algo) (s : String) (h : hashVerify c algo p s = .ok ()) :
    verifyEntry c modName key (algo.name ++ ":" ++ s) p = .ok (algo ≠ defaultHash) := by
  have hno : ':' ∉ algo.name.toList := by cases algo <;> decide
  have hsplit : splitN (algo.name ++ ":" ++ s) ':' 2 = [algo.name,s] := splitN_two ':' hno
  simp only [verifyEntry,hsplit,algoOf_name,h]

end Formats

/-- A login panics exactly on an entry of argon2 that is cut off after readable
parts, or whose parameters the key function refuses. What `HashCompute` makes is
always accepted, and by sha256 and argon2 for no password with another digest. -/
theorem stored_credentials_iff (txt : Text) (c : Crypto) (a : Auth) (env : Env)
    (username password : String) (hc : Encodes c) (hb : Compares c) :
    ((authPlain txt c a env username password).2 ≠ .panicked ↔
      ∀ key entry, txt.compareKey (normalizeUsername txt username) = .ok key →
        env.fault .lookup = none → a.table.entries key = some entry →
        ¬ BadEntry c entry password) ∧
    ∀ (opts : HashOpts) (salt : Bytes) (p s : String), InRange opts →
      (∀ algo, hashCompute c (.ok salt) opts algo p = .ok s →
        hashVerify c algo p s = .ok () ∧
        ∀ key, verifyEntry c a.modName key (algo.name ++ ":" ++ s) p = .ok (algo ≠ defaultHash)) ∧
      (hashCompute c (.ok salt) opts .sha256 p = .ok s →
        ∀ q, hashVerify c .sha256 q s = .ok () ↔
          c.sha256 (salt ++ bytes q) = c.sha256 (salt ++ bytes p)) ∧
      (hashCompute c (.ok salt) opts .argon2 p = .ok s →
        ∀ q, hashVerify c .argon2 q s = .ok () ↔
          c.argon2IDKey (bytes q) salt opts.argon2Time opts.argon2Memory opts.argon2Threads =
            c.argon2IDKey (bytes p) salt opts.argon2Time opts.argon2Memory opts.argon2Threads) := by
  refine ⟨?_,fun opts salt p s hr => ⟨fun algo h => ?_,fun h q => ?_,fun h q => ?_⟩⟩
  · rw [ne_eq,authPlain_panicked_iff]
    constructor
    · intro hno key entry hk hf he hbad
      exact hno ⟨key,entry,hk,hf,he,hbad⟩
    · rintro hall ⟨key,entry,hk,hf,he,hbad⟩
      exact hall key entry hk hf he hbad
  · have hverify := hashVerify_computed hc hb hr h
    exact ⟨hverify,fun key => verifyEntry_tagged algo s hverify⟩
  · rw [verifySHA256_computed hc h]
    simp
  · exact verifyArgon2_computed hc hr h

def keyedCrypto : Crypto :=
  { letterCrypto with
    argon2IDKey := fun pass salt time _ threads =>
      if time = 0 ∨ threads = 0 then none else some (pass ++ salt) }

theorem keyedCrypto_encodes : Encodes keyedCrypto :=
  ⟨letterCrypto_encodes.decode_encode,letterCrypto_encodes.no_colon⟩

theorem keyedCrypto_compares : Compares keyedCrypto := fun _ _ _ _ => rfl

def storing (entry : String) : Auth :=
  { openServer with
    table := { openServer.table with
      entries := fun key => if key = "ann@mail.example" then some entry else none } }

def calm : Env := { lockedOnce with fault := fun _ => none }

theorem other_tag_returns :
    (authPlain plainText keyedCrypto (storing "sha256:1") calm "ann@mail.example" "pw").2 ≠
        .panicked ∧
      ∃ s, hashCompute keyedCrypto (.ok [7]) ⟨10,1,8,2⟩ .argon2 "pw" = .ok s ∧
        hashVerify keyedCrypto .argon2 "pw" s = .ok () := by
  have htheorem := stored_credentials_iff plainText keyedCrypto (storing "sha256:1") calm
    "ann@mail.example" "pw" keyedCrypto_encodes keyedCrypto_compares
  refine ⟨htheorem.1.mpr ?_,_,rfl,?_⟩
  · rintro key entry ⟨⟩ - hentry ⟨hashSalt,hsplit, -⟩
    have hrow : (storing "sha256:1").table.entries "ann@mail.example" = some "sha256:1" := by decide
    obtain rfl : "sha256:1" = entry := Option.some.inj (hrow.symm.trans hentry)
    have hparts : splitN "sha256:1" ':' 2 = ["sha256","1"] := by decide
    rw [hparts] at hsplit
    exact absurd (List.cons.inj hsplit).1 (by decide)
  · exact ((htheorem.2 ⟨10,1,8,2⟩ [7] "pw" _ ⟨by decide,by decide,by decide⟩).1 .argon2 rfl).1

theorem cut_off_entry_panics :
    ¬ ∀ (txt : Text) (c : Crypto) (a : Auth) (env : Env) (username password : String),
      Encodes c → Compares c → (authPlain txt c a env username password).2 ≠ .panicked := by
  intro h
  have hreturns := h plainText keyedCrypto (storing "argon2:1") calm "ann@mail.example" "pw"
    keyedCrypto_encodes keyedCrypto_compares
  exact hreturns (by decide)

end Madmail.Proofs.StoredHashes
