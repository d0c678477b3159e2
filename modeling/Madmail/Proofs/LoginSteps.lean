import Madmail.Auth.Logins
import Madmail.Proofs.PassTable

namespace Madmail.Proofs.LoginSteps
open Exterrors Lib Lib.Strings Madmail.PassTable PassTable

variable {txt : Text} {c : Crypto} {a a' : Auth} {env : Env} {l : Login} {place : Place}
  {started : List Rehash} {key username password entry : String} {salt : Except Err Bytes}

section Entries

/-- What is assumed of base64: the decoder undoes the encoder, which writes no
colons. -/
structure Encodes (c : Crypto) : Prop where
  decode_encode : ∀ bs, c.base64Decode (c.base64Encode bs) = .ok bs
  no_colon : ∀ bs, ':' ∉ (c.base64Encode bs).toList

/-- Two passwords that no salted hash tells apart. -/
def Agree (c : Crypto) (p q : String) : Prop :=
  ∀ salt, c.sha256 (salt ++ bytes p) = c.sha256 (salt ++ bytes q)

theorem splitN_two (sep : Char) {s t : String} (hs : sep ∉ s.toList) :
    splitN (s ++ String.singleton sep ++ t) sep 2 = [s,t] := by
  rw [splitN_cons hs,splitN_one]

theorem verifySHA256_computed (hc : Encodes c) {opts : HashOpts} {bs : Bytes} {p q s : String}
    (h : hashCompute c (.ok bs) opts .sha256 p = .ok s) :
    hashVerify c .sha256 q s =
      if c.sha256 (bs ++ bytes q) = c.sha256 (bs ++ bytes p) then .ok ()
      else .err hashMismatch := by
  cases h
  have hs : split (c.base64Encode bs ++ ":" ++ c.base64Encode (c.sha256 (bs ++ bytes p))) ':' =
      [c.base64Encode bs,c.base64Encode (c.sha256 (bs ++ bytes p))] :=
    split_join ':' (hc.no_colon bs) (hc.no_colon (c.sha256 (bs ++ bytes p)))
  simp only [hashVerify,verifySHA256,hs,hc.decode_encode]

theorem verify_newEntry (hc : Encodes c) (h : newEntry c (.ok bs) p = .ok entry) :
    verifyEntry c modName key entry q =
      if c.sha256 (bs ++ bytes q) = c.sha256 (bs ++ bytes p) then .ok false
      else .err hashMismatch := by
  cases h
  have hentry : splitN (defaultHash.name ++ ":" ++ (c.base64Encode bs ++ ":" ++
      c.base64Encode (c.sha256 (bs ++ bytes p)))) ':' 2 = [defaultHash.name,
        c.base64Encode bs ++ ":" ++ c.base64Encode (c.sha256 (bs ++ bytes p))] :=
    splitN_two ':' (by decide)
  have halgo : algoOf defaultHash.name = some defaultHash := by decide
  have hverify : hashVerify c defaultHash q _ = _ := @verifySHA256_computed c hc {} bs p q _ rfl
  unfold verifyEntry
  rw [hentry]
  simp only [halgo,hverify]
  by_cases heq : c.sha256 (bs ++ bytes q) = c.sha256 (bs ++ bytes p) <;> simp [heq]

end Entries

section Steps

variable (txt : Text) (c : Crypto) (a : Auth) (env : Env) (l : Login) in
inductive Nexts : Auth → Place → List Rehash → Prop where
  | fails (res : Outcome Unit) (h : res ≠ .ok ()) : Nexts a (.done res) []
  | verified (key hash : String) (outdated : Bool) (hplace : l.place = .lookup)
      (hk : txt.compareKey (normalizeUsername txt l.username) = .ok key)
      (hfound : a.table.entries key = some hash)
      (hv : verifyEntry c a.modName key hash l.password = .ok outdated) :
      Nexts a (.done (.ok ()))
        (if outdated then [⟨normalizeUsername txt l.username,l.password⟩] else [])
  | unknown (key : String) (hplace : l.place = .lookup)
      (hk : txt.compareKey (normalizeUsername txt l.username) = .ok key)
      (hnone : env.fault .lookup = none → a.table.entries key = none) :
      Nexts a .askJit []
  | allowed (hplace : l.place = .askJit) (hjit : isJitRegistrationEnabled a env = .ok true)
      (hdomain : validateLoginDomain txt (normalizeUsername txt l.username) a.jitDomain = true) :
      Nexts a .create []
  | created (key value : String) (hplace : l.place = .create)
      (hk : txt.compareKey (normalizeUsername txt l.username) = .ok key)
      (hv : newEntry c env.salt l.password = .ok value) (hm : a.table.isMutable = true)
      (hw : Writable a.table (env.fault .setLookup) (env.fault .setExec)) :
      Nexts { a with table := a.table.put key value } (.done (.ok ())) []

theorem lookup_missing {table : Table} (h : table.lookup none key = (value,false,err)) :
    table.entries key = none := by
  unfold Table.lookup at h
  cases he : table.entries key <;> simp_all

theorem lookup_found {table : Table} (h : table.lookup fault key = (value,true,err)) :
    table.entries key = some value := by
  revert h
  fun_cases Table.lookup table fault key <;> simp_all

theorem nexts_of_next (h : l.next txt c a env = some (a',place,started)) :
    Nexts txt c a env l a' place started := by
  revert h
  -- the cases of the definition, less those in which there is no step
  fun_cases Login.next txt c a env l <;> intro h <;> cases h
  case case3.refl hk hp _ _ hl =>
    exact .unknown _ hp hk fun hf => lookup_missing (hf ▸ hl)
  case case7.refl hk hp _ hl hv => exact .verified _ _ false hp hk (lookup_found hl) hv
  case case8.refl hk hp _ hl hv => exact .verified _ _ true hp hk (lookup_found hl) hv
  case case12.refl hp hj hdomain => exact .allowed hp hj (by simpa using hdomain)
  case case13.refl hs =>
    rcases storePassword_cases hs with ⟨rfl, -⟩ | ⟨hnone, -⟩
    · exact .fails _ nofun
    · cases hnone
  case case14.refl hp hs =>
    rcases storePassword_cases hs with ⟨-,hsome⟩ | ⟨-,key,value,hk,hv,hm,hw,rfl⟩
    · cases hsome
    · rw [normalizeUsername_idem] at hk
      exact .created key value hp hk hv hm hw
  all_goals exact .fails _ nofun

theorem step_login {s : Server} (hl : s.logins[i]? = some l)
    (h : l.next txt c s.auth env = some (a',place,started)) :
    s.step txt c (.login i env) = some
      { s with
        auth := a'
        logins := s.logins.set i { l with place := place }
        rehashes := s.rehashes ++ started } := by
  simp [Server.step,hl,h]

end Steps

end Madmail.Proofs.LoginSteps
