import Madmail.Auth.PassTable

namespace Madmail.Proofs.PassTable
open Exterrors Lib.Strings Madmail.PassTable List

section Usernames
variable (txt : Text)

theorem wrapIP_wrapIP : wrapIP txt (wrapIP txt domain) = wrapIP txt domain := by
  have htrim : trim ("[" ++ trim domain ['[',']'] ++ "]") ['[',']'] = trim domain ['[',']'] :=
    trim_wrap (by simp) (by simp) domain
  by_cases h : txt.isIP (trim domain ['[',']']) = true
  · simp [wrapIP,h,htrim]
  · simp [wrapIP,h]

theorem wrapIP_count : (wrapIP txt domain).toList.count '@' = domain.toList.count '@' := by
  unfold wrapIP
  simp only
  split
  · simp [count_append,count_trim]
  · rfl

theorem normalizeUsername_idem :
    normalizeUsername txt (normalizeUsername txt username) = normalizeUsername txt username := by
  by_cases h : ∃ localpart domain, split username '@' = [localpart,domain]
  · obtain ⟨localpart,domain,hs⟩ := h
    obtain ⟨_,hl,hd⟩ := split_pair hs
    have hw : '@' ∉ (wrapIP txt domain).toList := by
      rw [← count_eq_zero,wrapIP_count,count_eq_zero]
      exact hd
    have hs' : split (localpart ++ "@" ++ wrapIP txt domain) '@' = [localpart,wrapIP txt domain] :=
      split_join '@' hl hw
    simp only [normalizeUsername,hs,hs',wrapIP_wrapIP]
  · -- Wrapping leaves the number of separators alone.
    have hone (name : String) (hn : ¬ ∃ a b, split name '@' = [a,b]) :
        normalizeUsername txt name = wrapIP txt name := by
      unfold normalizeUsername
      split
      · rename_i a b hab
        exact absurd ⟨a,b,hab⟩ hn
      · rfl
    have hw : ¬ ∃ a b, split (wrapIP txt username) '@' = [a,b] := by
      intro ⟨a,b,hab⟩
      have hlen : (split username '@').length = 2 := by
        rw [length_split,← wrapIP_count txt,← length_split,hab]
        rfl
      obtain ⟨x,y,hxy⟩ := length_eq_two.mp hlen
      exact h ⟨x,y,hxy⟩
    rw [hone username h,hone _ hw,wrapIP_wrapIP]

end Usernames

def Writable (t : Table) (lookupFault execFault : Option Err) : Prop :=
  execFault = none ∧
    (t.upsertQuery = true ∨ (t.setQuery = true ∧ t.addQuery = true ∧ lookupFault = none))

theorem setKey_written (h : Writable t lf ef) :
    t.setKey lf ef key value = (t.put key value,none) := by
  obtain ⟨rfl,hu | ⟨hs,ha,rfl⟩⟩ := h
  · simp [Table.setKey,hu]
  · have hl : (t.lookup none key).2.2 = none := by
      unfold Table.lookup
      cases t.entries key <;> rfl
    cases hu : t.upsertQuery <;> simp [Table.setKey,hu,hs,ha,hl]

theorem setKey_refused (h : ¬ Writable t lf ef) : ∃ e, t.setKey lf ef key value = (t,some e) := by
  unfold Writable at h
  unfold Table.setKey
  cases ef with
  | some e =>
    split
    · exact ⟨_,rfl⟩
    · split
      · exact ⟨_,rfl⟩
      · split
        · exact ⟨_,rfl⟩
        · split <;> exact ⟨_,rfl⟩
  | none =>
    cases lf with
    | some e =>
      simp only [true_and,reduceCtorEq,and_false,or_false,Bool.not_eq_true] at h
      simp only [h,Bool.false_eq_true,↓reduceIte,Table.lookup]
      split
      · exact ⟨_,rfl⟩
      · split <;> exact ⟨_,rfl⟩
    | none =>
      simp only [true_and,and_true,not_or,not_and,Bool.not_eq_true] at h
      obtain ⟨hu,hsa⟩ := h
      cases hs : t.setQuery with
      | false => simp [hu]
      | true => simp [hu,hsa hs]

section Login
variable {txt : Text} {c : Crypto} {a : Auth} {env : Env} {username password key entry : String}

/-- Everything that has to go one way for a login to write the entry of a user
whose lookup has failed. -/
structure Overwrites (txt : Text) (a : Auth) (env : Env) (username : String) : Prop where
  lookup_fails : env.fault .lookup ≠ none
  jit_enabled : isJitRegistrationEnabled a env = .ok true
  domain_valid : validateLoginDomain txt (normalizeUsername txt username) a.jitDomain = true
  is_mutable : a.table.isMutable = true
  salt_drawn : ∃ salt, env.salt = .ok salt
  writable : Writable a.table (env.fault .setLookup) (env.fault .setExec)

def Verifies (c : Crypto) (modName key entry password : String) : Prop :=
  ∃ outdated, verifyEntry c modName key entry password = .ok outdated

theorem newEntry_salt (h : newEntry c salt password = .ok entry) : ∃ bs, salt = .ok bs := by
  cases salt with
  | error e => cases h
  | ok bs => exact ⟨bs,rfl⟩

section Writes
variable {doing : String} {lf ef : Option Err} {err : Option Err}

theorem storePassword_cases
    (h : storePassword doing txt c a salt lf ef username password = (a',err)) :
    (a' = a ∧ err.isSome = true) ∨ (err = none ∧ ∃ key value,
      txt.compareKey (normalizeUsername txt username) = .ok key ∧
      newEntry c salt password = .ok value ∧ a.table.isMutable = true ∧ Writable a.table lf ef ∧
      a' = { a with table := a.table.put key value }) := by
  revert h
  fun_cases storePassword doing txt c a salt lf ef username password <;> intro h <;> cases h
  all_goals try exact .inl ⟨rfl,rfl⟩
  rename_i hm _ key hk value hv table hset
  by_cases hw : Writable a.table lf ef
  · rw [setKey_written hw] at hset
    cases hset
    exact .inr ⟨rfl,key,value,hk,hv,by simpa using hm,hw,rfl⟩
  · obtain ⟨e,he⟩ := setKey_refused hw
    cases he.symm.trans hset

theorem storePassword_writes (hk : txt.compareKey (normalizeUsername txt username) = .ok key)
    (hm : a.table.isMutable = true) (hv : newEntry c salt password = .ok entry)
    (hw : Writable a.table lf ef) :
    storePassword doing txt c a salt lf ef username password =
      ({ a with table := a.table.put key entry },none) := by
  simp [storePassword,hm,hk,hv,setKey_written hw]

end Writes

theorem createUser_refused
    (h : ¬ (a.table.isMutable = true ∧ (∃ salt, env.salt = .ok salt) ∧ Writable a.table lf ef)) :
    (createUserIfNotExists txt c a env.salt lf ef (normalizeUsername txt username) password).1 =
      a := by
  rcases hx : createUserIfNotExists txt c a env.salt lf ef (normalizeUsername txt username)
    password with ⟨a',err⟩
  rcases storePassword_cases hx with ⟨hsame, -⟩ | ⟨-,_,_, -,hv,hm,hw, -⟩
  · exact hsame
  · exact absurd ⟨hm,newEntry_salt hv,hw⟩ h

section Named
variable (hk : txt.compareKey (normalizeUsername txt username) = .ok key)
include hk

theorem authPlain_unknown (hf : env.fault .lookup = some e) :
    (authPlain txt c a env username password).1 =
      match isJitRegistrationEnabled a env with
      | .ok true =>
        if validateLoginDomain txt (normalizeUsername txt username) a.jitDomain then
          (createUserIfNotExists txt c a env.salt (env.fault .setLookup) (env.fault .setExec)
            (normalizeUsername txt username) password).1
        else a
      | _ => a := by
  simp only [authPlain,hk,hf,Table.lookup]
  cases isJitRegistrationEnabled a env with
  | error e => rfl
  | ok enabled =>
    cases enabled with
    | false => rfl
    | true =>
      cases validateLoginDomain txt (normalizeUsername txt username) a.jitDomain with
      | false => rfl
      | true =>
        simp only [Bool.not_true,Bool.false_eq_true,↓reduceIte]
        split <;> simp_all

theorem authPlain_known (hf : env.fault .lookup = none) (he : a.table.entries key = some entry)
    (hv : ¬ Verifies c a.modName key entry password) :
    (authPlain txt c a env username password).1 = a := by
  simp only [authPlain,hk,hf,Table.lookup,he]
  cases hr : verifyEntry c a.modName key entry password with
  | ok outdated => exact absurd ⟨outdated,hr⟩ hv
  | err e => rfl
  | panicked => rfl

theorem login_overwrites (h : Overwrites txt a env username) :
    ∃ value, newEntry c env.salt password = .ok value ∧
      (authPlain txt c a env username password).1.table = a.table.put key value := by
  obtain ⟨e,hf⟩ := Option.ne_none_iff_exists'.mp h.lookup_fails
  obtain ⟨salt,hs⟩ := h.salt_drawn
  obtain ⟨value,hv⟩ : ∃ value, newEntry c env.salt password = .ok value := by
    rw [hs]
    exact ⟨_,rfl⟩
  refine ⟨value,hv,?_⟩
  rw [authPlain_unknown hk hf,h.jit_enabled]
  simp [h.domain_valid,createUserIfNotExists,
    storePassword_writes (by rw [normalizeUsername_idem,hk]) h.is_mutable hv h.writable]

theorem login_keeps (he : a.table.entries key = some entry) (hv : ¬ Verifies c a.modName key entry password)
    (h : ¬ Overwrites txt a env username) :
    (authPlain txt c a env username password).1 = a := by
  cases hf : env.fault .lookup with
  | none => exact authPlain_known hk hf he hv
  | some e =>
    rw [authPlain_unknown hk hf]
    split
    · rename_i hjit
      split
      · rename_i hdomain
        apply createUser_refused
        intro ⟨hm,hs,hw⟩
        exact h ⟨by simp [hf],hjit,hdomain,hm,hs,hw⟩
      · rfl
    · rfl

end Named

/-- A login with a password that does not verify leaves the entry of the user as
it was, except when all of `Overwrites` comes together. -/
theorem failed_login_keeps_entry_iff (txt : Text) (c : Crypto) (a : Auth) (env : Env)
    (username password key entry : String)
    (hk : txt.compareKey (normalizeUsername txt username) = .ok key)
    (he : a.table.entries key = some entry)
    (hv : ¬ Verifies c a.modName key entry password) :
    (authPlain txt c a env username password).1.table.entries key = some entry ↔
      ¬ Overwrites txt a env username ∨ newEntry c env.salt password = .ok entry := by
  by_cases h : Overwrites txt a env username
  · obtain ⟨value,hvalue,htable⟩ := login_overwrites hk h
    rw [htable,hvalue]
    simp [Table.put,h]
  · rw [login_keeps hk he hv h]
    simp [he,h]

end Login

def plainText : Text := ⟨fun _ => false,fun s t => s = t,.ok⟩

def plainCrypto : Crypto where
  base64Encode bs := toString bs.length
  base64Decode _ := .ok []
  sha256 bs := bs
  argon2IDKey _ _ _ _ _ := none
  bcryptGenerate _ _ := .ok ""
  bcryptCompare _ _ := none

def openServer : Auth where
  modName := "pass_table"
  table := ⟨"sql_table",fun key => if key = "ann@mail.example" then some "sha256:salt:sum" else
    if key = "__JIT_REGISTRATION_ENABLED__" then some "true" else none,true,true,true,true⟩
  settingsTable := none
  autoCreate := false
  jitDomain := ""

def lockedOnce : Env where
  fault q := if q = .lookup then some (.leaf "database is locked" none) else none
  salt := .ok [1,2,3]
  rehashSalt := .ok []

theorem guess_refused :
    ¬ Verifies plainCrypto openServer.modName "ann@mail.example" "sha256:salt:sum" "guess" := by
  have hno : verifyEntry plainCrypto openServer.modName "ann@mail.example" "sha256:salt:sum"
    "guess" = .err hashMismatch := by decide +kernel
  intro ⟨outdated,hv⟩
  rw [hno] at hv
  cases hv

theorem wrong_password_keeps_entry :
    (authPlain plainText plainCrypto openServer { lockedOnce with fault := fun _ => none }
      "ann@mail.example" "guess").1.table.entries "ann@mail.example" = some "sha256:salt:sum" :=
  (failed_login_keeps_entry_iff plainText plainCrypto openServer _ "ann@mail.example" "guess"
    "ann@mail.example" "sha256:salt:sum" (by decide) (by decide) guess_refused).mpr
    (Or.inl (fun h => h.lookup_fails rfl))

theorem failed_login_overwrites_entry :
    ¬ ∀ (txt : Text) (c : Crypto) (a : Auth) (env : Env) (username password key entry : String),
      txt.compareKey (normalizeUsername txt username) = .ok key →
      a.table.entries key = some entry → ¬ Verifies c a.modName key entry password →
      (authPlain txt c a env username password).1.table.entries key = some entry := by
  intro h
  have hkept := h plainText plainCrypto openServer lockedOnce "ann@mail.example" "guess"
    "ann@mail.example" "sha256:salt:sum" (by decide) (by decide) guess_refused
  exact absurd hkept (by decide)

end Madmail.Proofs.PassTable
