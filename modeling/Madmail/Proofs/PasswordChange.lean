import Madmail.Proofs.FirstLogin

namespace Madmail.Proofs.PasswordChange
open Exterrors Lib Lib.Strings Madmail.PassTable PassTable LoginSteps FirstLogin List Function

variable {txt : Text} {c : Crypto} {a : Auth} {u key new : String} {s s' t : Server} {b : Action}
  {env : Env} {i : Nat}

def Names (txt : Text) (key username : String) : Prop :=
  txt.compareKey (normalizeUsername txt username) = .ok key

/-- What may come after a change: calls of `AuthPlain` whose lookups work, and their
goroutines. -/
def Later : Action → Prop
  | .authPlain _ _ | .rehash _ _ => True
  | .login _ env => env.fault .lookup = none
  | .setUserPassword _ _ _ | .deleteUser _ _ => False

def Creates (txt : Text) (c : Crypto) (key : String) (s : Server) : Action → Prop
  | .login i env => ∃ l a' started, s.logins[i]? = some l ∧ l.place = .create ∧
      Names txt key l.username ∧ l.next txt c s.auth env = some (a',.done (.ok ()),started)
  | _ => False

def Changed (txt : Text) (c : Crypto) (s : Server) (u new : String) (s' : Server) : Prop :=
  ∃ env, (s.setPassword txt c env u new).2 = none ∧
    s.step txt c (.setUserPassword u new env) = some s'

def Deleted (txt : Text) (c : Crypto) (s : Server) (u : String) (s' : Server) : Prop :=
  ∃ fault, (deleteUser txt s.auth s.removeQuery fault u).2 = none ∧
    s.step txt c (.deleteUser u fault) = some s'

/-- A change of the password made now is never undone. -/
def PasswordKept (txt : Text) (c : Crypto) (s : Server) (u key new : String) : Prop :=
  ∀ s' after t, Changed txt c s u new s' → (∀ b ∈ after, Later b) →
    run (Server.step txt c) s' after = some t →
    ∃ entry, t.auth.table.entries key = some entry ∧ Verifies c t.auth.modName key entry new

/-- A user deleted now stays away until the account is created again. -/
def DeletionKept (txt : Text) (c : Crypto) (s : Server) (u key : String) : Prop :=
  ∀ s' after t, Deleted txt c s u s' →
    Meets (Server.step txt c) (fun s b => Later b ∧ ¬ Creates txt c key s b) s' after →
    run (Server.step txt c) s' after = some t → t.auth.table.entries key = none

def Settable (a : Auth) : Prop :=
  a.table.isMutable = true ∧
    (a.table.upsertQuery = true ∨ (a.table.setQuery = true ∧ a.table.addQuery = true))

/-- The writes that calls of `AuthPlain` are still going to make for the user are of
passwords that cannot be told from the new one. -/
structure NoConflict (txt : Text) (c : Crypto) (s : Server) (u key new : String) : Prop where
  rehash : ∀ r ∈ s.rehashes, Names txt key r.username → Agree c r.password new
  create : ∀ l ∈ s.logins, l.place = .create → Names txt key l.username → Agree c l.password new
  -- calls that have found no user, if registration is on after the change
  askJit : ∀ l ∈ s.logins, l.place = .askJit → Names txt key l.username →
    (∃ s' env, Changed txt c s u new s' ∧ isJitRegistrationEnabled s'.auth env = .ok true ∧
      validateLoginDomain txt (normalizeUsername txt l.username) s'.auth.jitDomain = true) →
    Agree c l.password new

section Changes

theorem names_normalized (h : Names txt key (normalizeUsername txt username)) :
    Names txt key username := by
  unfold Names at h
  rwa [normalizeUsername_idem] at h

theorem writable_of_settable (h : Settable a) : Writable a.table none none := by
  refine ⟨rfl,?_⟩
  rcases h.2 with hup | ⟨hset,hadd⟩
  · exact .inl hup
  · exact .inr ⟨hset,hadd,rfl⟩

theorem settable_of_writable (hm : a.table.isMutable = true) (hw : Writable a.table lf ef) : Settable a := by
  refine ⟨hm,?_⟩
  rcases hw.2 with hup | ⟨hset,hadd, -⟩
  · exact .inl hup
  · exact .inr ⟨hset,hadd⟩

theorem Changed.entry (hk : Names txt key u) (h : Changed txt c s u new s') :
    Settable s.auth ∧ ∃ bs entry, newEntry c (.ok bs) new = .ok entry ∧
      s' = { s with auth := { s.auth with table := s.auth.table.put key entry } } := by
  obtain ⟨env,hnone,hstep⟩ := h
  rcases hs : s.setPassword txt c env u new with ⟨a',err⟩
  rw [hs] at hnone
  dsimp only at hnone
  rcases storePassword_cases hs with ⟨-,hsome⟩ | ⟨-,key',entry,hk',hv,hm,hw,rfl⟩
  · rw [hnone] at hsome
    cases hsome
  · cases hk.symm.trans hk'
    obtain ⟨bs,hbs⟩ := newEntry_salt hv
    rw [hbs] at hv
    refine ⟨settable_of_writable hm hw,bs,entry,hv,?_⟩
    simp only [Server.step,hs] at hstep
    exact (Option.some.inj hstep).symm

theorem change_made (hk : Names txt key u) (hset : Settable s.auth)
    (hv : newEntry c (.ok bs) new = .ok entry) :
    Changed txt c s u new { s with auth := { s.auth with table := s.auth.table.put key entry } } := by
  have hstore : s.setPassword txt c (drawn bs) u new =
      ({ s.auth with table := s.auth.table.put key entry },none) :=
    storePassword_writes hk hset.1 hv (writable_of_settable hset)
  refine ⟨drawn bs,by rw [hstore],?_⟩
  simp only [Server.step,hstore]

theorem newEntry_ne_true (h : newEntry c (.ok bs) p = .ok entry) : entry ≠ "true" := by
  cases h
  intro heq
  have hchars := congrArg (fun text : String => text.toList.head?) heq
  simp [defaultHash,Algo.name,String.toList_append] at hchars

section Settings
variable {entry key' : String}

theorem settings_put :
    ({ a with table := a.table.put key' entry } : Auth).settings.entries k = a.settings.entries k ∨
      ({ a with table := a.table.put key' entry } : Auth).settings.entries k = some entry := by
  unfold Auth.settings
  cases a.settingsTable with
  | some table => exact .inl rfl
  | none =>
    by_cases hk : k = key'
    · subst hk
      exact .inr (update_self _ _ _)
    · exact .inl (update_of_ne hk _ _)

theorem open_of_put (hne : entry ≠ "true")
    (h : isRegistrationOpen { a with table := a.table.put key' entry } env = .ok true) :
    isRegistrationOpen a env = .ok true := by
  unfold isRegistrationOpen Table.lookup at h ⊢
  cases hf : env.fault .registrationOpen with
  | some e =>
    rw [hf] at h
    cases h
  | none =>
    rw [hf] at h
    rcases settings_put with hsame | hput
    · rw [hsame] at h
      exact h
    · rw [hput] at h
      exact absurd (of_decide_eq_true (Except.ok.inj h)) hne

theorem jit_of_put (hne : entry ≠ "true")
    (h : isJitRegistrationEnabled { a with table := a.table.put key' entry } env = .ok true) :
    isJitRegistrationEnabled a env = .ok true := by
  unfold isJitRegistrationEnabled at h ⊢
  unfold Table.lookup at h ⊢
  cases hf : env.fault .jitEnabled with
  | some e =>
    rw [hf] at h
    cases h
  | none =>
    rw [hf] at h
    rcases settings_put with hsame | hput
    · rw [hsame] at h
      cases he : a.settings.entries "__JIT_REGISTRATION_ENABLED__" with
      | none =>
        rw [he] at h
        exact open_of_put hne h
      | some value =>
        rw [he] at h
        exact h
    · rw [hput] at h
      exact absurd (of_decide_eq_true (Except.ok.inj h)) hne

end Settings

end Changes

section Password
variable {l : Login}

/-- A call that has found no user can still create one. -/
def May (txt : Text) (a : Auth) (username : String) : Prop :=
  ∃ env, isJitRegistrationEnabled a env = .ok true ∧
    validateLoginDomain txt (normalizeUsername txt username) a.jitDomain = true

def Harmless (txt : Text) (c : Crypto) (a : Auth) (key new : String) (l : Login) : Prop :=
  Names txt key l.username →
    (l.place = .create → Agree c l.password new) ∧
    (l.place = .askJit → May txt a l.username → Agree c l.password new)

/-- What holds of the table from the change on: the entry is of the new password, and
registration is on only if it was. -/
structure Holds (c : Crypto) (a : Auth) (key new : String) (a' : Auth) : Prop where
  entry : ∃ q bs e, newEntry c (.ok bs) q = .ok e ∧ a'.table.entries key = some e ∧ Agree c q new
  jit : ∀ env, isJitRegistrationEnabled a' env = .ok true → isJitRegistrationEnabled a env = .ok true
  domain : a'.jitDomain = a.jitDomain

structure Kept (txt : Text) (c : Crypto) (a : Auth) (key new : String) (s : Server) : Prop where
  holds : Holds c a key new s.auth
  logins : ∀ l ∈ s.logins, Harmless txt c a key new l
  rehashes : ∀ r ∈ s.rehashes, Names txt key r.username → Agree c r.password new

theorem Holds.put (h : Holds c a key new a') (hv : newEntry c (.ok bs) q = .ok v)
    (hq : key' = key → Agree c q new) :
    Holds c a key new { a' with table := a'.table.put key' v } := by
  refine ⟨?_,fun env hjit => h.jit env (jit_of_put (newEntry_ne_true hv) hjit),h.domain⟩
  by_cases hkey : key' = key
  · refine ⟨q,bs,v,hv,?_,hq hkey⟩
    subst hkey
    exact update_self _ _ _
  · obtain ⟨q',bs',e,he,hfound,hagree⟩ := h.entry
    exact ⟨q',bs',e,he,(update_of_ne (Ne.symm hkey) _ _).trans hfound,hagree⟩

theorem Holds.verified (hc : Encodes c) (h : Holds c a key new a') {hash : String}
    (hfound : a'.table.entries key = some hash)
    (hv : verifyEntry c a'.modName key hash p = .ok outdated) : outdated = false := by
  obtain ⟨q,bs,e,he,hentry, -⟩ := h.entry
  rw [hentry] at hfound
  obtain rfl : e = hash := Option.some.inj hfound
  rw [verify_newEntry hc he] at hv
  split at hv
  · cases hv
    rfl
  · cases hv

theorem login_kept (hc : Encodes c) (h : Kept txt c a key new s) (hb : Later (.login i env))
    (hstep : s.step txt c (.login i env) = some t) : Kept txt c a key new t := by
  simp only [Server.step,Option.bind_eq_bind,Option.bind_eq_some_iff] at hstep
  obtain ⟨l,hl,⟨a',place,started⟩,hnext,hstep⟩ := hstep
  cases hstep
  have hold := h.logins l (mem_of_getElem? hl)
  -- of the calls and goroutines only those of this step are new
  have hlogins : Harmless txt c a key new { l with place := place } →
      ∀ l' ∈ s.logins.set i { l with place := place }, Harmless txt c a key new l' := by
    intro hthis l' hl'
    rcases mem_set_logins hl hl' with hl' | ⟨-,rfl⟩
    · exact h.logins l' hl'
    · exact hthis
  have hdone : ∀ res, Harmless txt c a key new { l with place := .done res } :=
    fun res _ => ⟨(fun h => by cases h),fun h => by cases h⟩
  have hnone : ∀ r ∈ s.rehashes ++ [], Names txt key r.username → Agree c r.password new := by
    simpa using h.rehashes
  cases nexts_of_next hnext with
  | fails res hres => exact ⟨h.holds,hlogins (hdone res),hnone⟩
  | verified key' hash outdated hplace hk' hfound hv =>
    refine ⟨h.holds,hlogins (hdone _),fun r hr hname => ?_⟩
    rcases mem_append.mp hr with hr | hr
    · exact h.rehashes r hr hname
    · cases outdated with
      | false => cases hr
      | true =>
        rw [mem_singleton.mp hr] at hname
        cases (names_normalized hname).symm.trans hk'
        cases h.holds.verified hc hfound hv
  | unknown key' hplace hk' habsent =>
    refine ⟨h.holds,hlogins fun hname => ⟨(fun h => by cases h),fun _ _ => ?_⟩,hnone⟩
    cases hname.symm.trans hk'
    obtain ⟨q,bs,e, -,hentry, -⟩ := h.holds.entry
    rw [habsent hb] at hentry
    cases hentry
  | allowed hplace hjit hdomain =>
    refine ⟨h.holds,hlogins fun hname => ⟨fun _ => ?_,fun h => by cases h⟩,hnone⟩
    rw [h.holds.domain] at hdomain
    exact (hold hname).2 hplace ⟨env,h.holds.jit env hjit,hdomain⟩
  | created key' value hplace hk' hv hm hw =>
    obtain ⟨bs,hbs⟩ := newEntry_salt hv
    rw [hbs] at hv
    refine ⟨h.holds.put hv fun heq => ?_,hlogins (hdone _),hnone⟩
    subst heq
    exact (hold hk').1 hplace

theorem rehash_kept (h : Kept txt c a key new s) (hstep : s.step txt c (.rehash i env) = some t) :
    Kept txt c a key new t := by
  simp only [Server.step,Option.bind_eq_bind,Option.bind_eq_some_iff] at hstep
  obtain ⟨r,hr,hstep⟩ := hstep
  have hrest : ∀ r' ∈ s.rehashes.eraseIdx i, Names txt key r'.username → Agree c r'.password new :=
    fun r' hr' => h.rehashes r' (mem_of_mem_eraseIdx hr')
  rcases hs : s.setPassword txt c env r.username r.password with ⟨a',err⟩
  rw [hs] at hstep
  cases hstep
  rcases storePassword_cases hs with ⟨rfl, -⟩ | ⟨-,key',value,hk',hv, -, -,rfl⟩
  · exact ⟨h.holds,h.logins,hrest⟩
  · obtain ⟨bs,hbs⟩ := newEntry_salt hv
    rw [hbs] at hv
    refine ⟨h.holds.put hv fun heq => ?_,h.logins,hrest⟩
    subst heq
    exact h.rehashes r (mem_of_getElem? hr) hk'

theorem step_kept (hc : Encodes c) (h : Kept txt c a key new s) (hb : Later b)
    (hstep : s.step txt c b = some t) : Kept txt c a key new t := by
  cases b with
  | authPlain username password =>
    cases hstep
    refine ⟨h.holds,fun l hl => ?_,h.rehashes⟩
    rcases mem_append.mp hl with hl | hl
    · exact h.logins l hl
    · rw [mem_singleton.mp hl]
      exact fun _ => ⟨nofun,nofun⟩
  | login i env => exact login_kept hc h hb hstep
  | rehash i env => exact rehash_kept h hstep
  | setUserPassword username password env => cases hb
  | deleteUser username fault => cases hb

theorem password_kept (hc : Encodes c) (hk : Names txt key u)
    (hno : Settable s.auth → NoConflict txt c s u key new) : PasswordKept txt c s u key new := by
  intro s' after t hchanged hlater hrun
  obtain ⟨hset,bs,entry,hv,hs'⟩ := hchanged.entry hk
  have hno := hno hset
  have hstart : Kept txt c s'.auth key new s' := by
    have hentry : s'.auth.table.entries key = some entry := by
      rw [hs']
      exact update_self _ _ _
    have hlogins : s'.logins = s.logins := by rw [hs']
    have hrehashes : s'.rehashes = s.rehashes := by rw [hs']
    refine ⟨⟨⟨new,bs,entry,hv,hentry,fun _ => rfl⟩,fun _ h => h,rfl⟩,fun l hl hname => ?_,?_⟩
    · rw [hlogins] at hl
      refine ⟨fun hplace => hno.create l hl hplace hname,fun hplace hmay => ?_⟩
      obtain ⟨env,hjit,hdomain⟩ := hmay
      exact hno.askJit l hl hplace hname ⟨s',env,hchanged,hjit,hdomain⟩
    · rw [hrehashes]
      exact hno.rehash
  have hkept := run_invariant (fun _ _ _ h hb hstep => step_kept hc h hb hstep) hstart hlater hrun
  obtain ⟨q,bs',e,he,hfound,hagree⟩ := hkept.holds.entry
  refine ⟨e,hfound,false,?_⟩
  rw [verify_newEntry hc he,if_pos (hagree bs').symm]

theorem agree_of_entry (hc : Encodes c) (hv : newEntry c (.ok bs) p = .ok v)
    (hfound : t.auth.table.entries key = some v)
    (h : ∃ entry, t.auth.table.entries key = some entry ∧ Verifies c t.auth.modName key entry new) :
    c.sha256 (bs ++ bytes p) = c.sha256 (bs ++ bytes new) := by
  obtain ⟨entry,hentry,outdated,hver⟩ := h
  rw [hfound] at hentry
  cases hentry
  rw [verify_newEntry hc hv] at hver
  split at hver
  · rename_i heq
    exact heq.symm
  · cases hver

theorem step_rehash (hk : Names txt key r.username) (hset : Settable s.auth)
    (hr : s.rehashes[i]? = some r) (hv : newEntry c (.ok bs) r.password = .ok v) :
    s.step txt c (.rehash i (drawn bs)) = some
      { s with
        auth := { s.auth with table := s.auth.table.put key v }
        rehashes := s.rehashes.eraseIdx i } := by
  have hstore : s.setPassword txt c (drawn bs) r.username r.password =
      ({ s.auth with table := s.auth.table.put key v },none) :=
    storePassword_writes hk hset.1 hv (writable_of_settable hset)
  simp [Server.step,hr,hstore]

def looking (env : Env) : Env := { env with fault := fun q => if q = .lookup then none else env.fault q }

theorem jit_looking :
    isJitRegistrationEnabled a (looking env) = isJitRegistrationEnabled a env := rfl

theorem no_conflict_of_kept (hc : Encodes c) (hk : Names txt key u) (hset : Settable s.auth)
    (hkept : PasswordKept txt c s u key new) : NoConflict txt c s u key new := by
  obtain ⟨entry,hentry⟩ : ∃ entry, newEntry c (.ok []) new = .ok entry := ⟨_,rfl⟩
  have hchanged := change_made hk hset hentry
  refine ⟨fun r hr hname bs => ?_,fun l hl hplace hname bs => ?_,fun l hl hplace hname hmay bs => ?_⟩
  · obtain ⟨i,hi⟩ := mem_iff_getElem?.mp hr
    obtain ⟨v,hv⟩ : ∃ v, newEntry c (.ok bs) r.password = .ok v := ⟨_,rfl⟩
    have hstep := step_rehash (s := { s with auth := { s.auth with table := s.auth.table.put key entry } })
      hname hset hi hv
    refine agree_of_entry hc hv ?_ (hkept _ [.rehash i (drawn bs)] _ hchanged (by simp [Later]) (by
      rw [run,hstep]
      rfl))
    exact update_self _ _ _
  · obtain ⟨i,hi⟩ := mem_iff_getElem?.mp hl
    obtain ⟨username,p,place⟩ := l
    subst hplace
    obtain ⟨v,hv⟩ : ∃ v, newEntry c (.ok bs) p = .ok v := ⟨_,rfl⟩
    have hstep := do_create (s := { s with auth := { s.auth with table := s.auth.table.put key entry } })
      hname hset.1 hset.2 hv hi
    refine agree_of_entry hc hv ?_ (hkept _ [.login i (drawn bs)] _ hchanged (by simp [Later,drawn]) (by
      rw [run,hstep]
      rfl))
    exact update_self _ _ _
  · obtain ⟨i,hi⟩ := mem_iff_getElem?.mp hl
    obtain ⟨username,p,place⟩ := l
    subst hplace
    obtain ⟨v,hv⟩ : ∃ v, newEntry c (.ok bs) p = .ok v := ⟨_,rfl⟩
    obtain ⟨s',env,hchanged',hjit,hdomain⟩ := hmay
    obtain ⟨-,bs',e',he',rfl⟩ := hchanged'.entry hk
    have hilt : i < s.logins.length := (List.getElem?_eq_some_iff.mp hi).1
    have hallow := step_login
      (s := { s with auth := { s.auth with table := s.auth.table.put key e' } }) hi
      (next_allowed (c := c) hname (jit_looking.trans hjit) hdomain)
    have hstep := do_create (i := i) (p := p)
      (s := { s with
        auth := { s.auth with table := s.auth.table.put key e' }
        logins := s.logins.set i ⟨username,p,.create⟩
        rehashes := s.rehashes ++ [] }) hname hset.1 hset.2 hv (by simp [hilt])
    refine agree_of_entry hc hv ?_ (hkept _ [.login i (looking env),.login i (drawn bs)] _ hchanged'
      (by simp [Later,looking,drawn]) (by
        rw [run,hallow,Option.bind_some,run,hstep]
        rfl))
    exact update_self _ _ _

end Password

section Deletion

theorem Deleted.entry (hk : Names txt key u) (h : Deleted txt c s u s') :
    s.auth.table.isMutable = true ∧ s.removeQuery = true ∧ s' = { s with auth := { s.auth with
      table := { s.auth.table with entries := update s.auth.table.entries key none } } } := by
  obtain ⟨fault,hnone,hstep⟩ := h
  simp only [Server.step,Option.some.injEq] at hstep
  unfold deleteUser at hnone hstep
  split at hnone
  · cases hnone
  rename_i hm
  rw [if_neg hm] at hstep
  unfold Names at hk
  simp only [hk,Table.removeKey] at hnone hstep
  cases hq : s.removeQuery with
  | false =>
    rw [hq] at hnone
    cases hnone
  | true =>
    rw [hq] at hnone hstep
    cases fault with
    | some e => cases hnone
    | none => exact ⟨by simpa using hm,rfl,hstep.symm⟩

theorem deletion_made (hk : Names txt key u) (hm : s.auth.table.isMutable = true)
    (hq : s.removeQuery = true) :
    Deleted txt c s u { s with auth := { s.auth with
      table := { s.auth.table with entries := update s.auth.table.entries key none } } } := by
  unfold Names at hk
  refine ⟨none,?_,?_⟩
  · simp [deleteUser,Table.removeKey,hm,hq,hk]
  · simp [Server.step,deleteUser,Table.removeKey,hm,hq,hk]

structure Gone (txt : Text) (key : String) (s : Server) : Prop where
  entry : s.auth.table.entries key = none
  rehashes : Settable s.auth → ∀ r ∈ s.rehashes, ¬ Names txt key r.username

theorem step_gone (h : Gone txt key s) (hb : Later b) (hno : ¬ Creates txt c key s b)
    (hstep : s.step txt c b = some t) : Gone txt key t := by
  cases b with
  | authPlain username password =>
    cases hstep
    exact ⟨h.entry,h.rehashes⟩
  | login i env =>
    simp only [Server.step,Option.bind_eq_bind,Option.bind_eq_some_iff] at hstep
    obtain ⟨l,hl,⟨a',place,started⟩,hnext,hstep⟩ := hstep
    cases hstep
    have hsame : Settable s.auth → ∀ r ∈ s.rehashes ++ [], ¬ Names txt key r.username := by
      simpa using h.rehashes
    cases nexts_of_next hnext with
    | fails res hres | unknown key' hplace hk' habsent | allowed hplace hjit hdomain =>
      exact ⟨h.entry,hsame⟩
    | verified key' hash outdated hplace hk' hfound hv =>
      refine ⟨h.entry,fun hset r hr hname => ?_⟩
      rcases mem_append.mp hr with hr | hr
      · exact h.rehashes hset r hr hname
      · cases outdated with
        | false => cases hr
        | true =>
          rw [mem_singleton.mp hr] at hname
          cases (names_normalized hname).symm.trans hk'
          rw [h.entry] at hfound
          cases hfound
    | created key' value hplace hk' hv hm hw =>
      refine ⟨?_,hsame⟩
      by_cases hkey : key = key'
      · subst hkey
        exact absurd ⟨l,_,_,hl,hplace,hk',hnext⟩ hno
      · exact (update_of_ne hkey _ _).trans h.entry
  | rehash i env =>
    simp only [Server.step,Option.bind_eq_bind,Option.bind_eq_some_iff] at hstep
    obtain ⟨r,hr,hstep⟩ := hstep
    rcases hs : s.setPassword txt c env r.username r.password with ⟨a',err⟩
    rw [hs] at hstep
    cases hstep
    have hrest : Settable s.auth → ∀ r' ∈ s.rehashes.eraseIdx i, ¬ Names txt key r'.username :=
      fun hset r' hr' => h.rehashes hset r' (mem_of_mem_eraseIdx hr')
    rcases storePassword_cases hs with ⟨rfl, -⟩ | ⟨-,key',value,hk',hv,hm,hw,rfl⟩
    · exact ⟨h.entry,hrest⟩
    · refine ⟨?_,hrest⟩
      have hset := settable_of_writable hm hw
      by_cases hkey : key = key'
      · subst hkey
        exact absurd hk' (h.rehashes hset r (mem_of_getElem? hr))
      · exact (update_of_ne hkey _ _).trans h.entry
  | setUserPassword username password env => cases hb
  | deleteUser username fault => cases hb

theorem deletion_kept (hk : Names txt key u)
    (hno : Settable s.auth → s.removeQuery = true → ∀ r ∈ s.rehashes, ¬ Names txt key r.username) :
    DeletionKept txt c s u key := by
  intro s' after t hdeleted hmeets hrun
  obtain ⟨hm,hq,rfl⟩ := hdeleted.entry hk
  have hstart : Gone txt key { s with auth := { s.auth with
      table := { s.auth.table with entries := update s.auth.table.entries key none } } } :=
    ⟨update_self _ _ _,fun hset => hno hset hq⟩
  exact (run_invariant_of_meets (fun _ _ _ h hb hstep => step_gone h hb.1 hb.2 hstep) hstart hmeets
    hrun).entry

theorem no_rehash_of_kept (hk : Names txt key u) (hset : Settable s.auth) (hq : s.removeQuery = true)
    (hkept : DeletionKept txt c s u key) : ∀ r ∈ s.rehashes, ¬ Names txt key r.username := by
  intro r hr hname
  obtain ⟨i,hi⟩ := mem_iff_getElem?.mp hr
  obtain ⟨v,hv⟩ : ∃ v, newEntry c (.ok []) r.password = .ok v := ⟨_,rfl⟩
  have hstep := step_rehash (s := { s with auth := { s.auth with
      table := { s.auth.table with entries := update s.auth.table.entries key none } } })
    hname hset hi hv
  have hnone := hkept _ [.rehash i (drawn [])] _ (deletion_made hk hset.1 hq)
    (meets_of_free fun b hb s => by
      rw [mem_singleton.mp hb]
      exact ⟨trivial,fun h => h⟩)
    (by
      rw [run,hstep]
      rfl)
  simp [Table.put] at hnone

end Deletion

/-- A change of the password and a deletion that are made now are never undone
exactly if calls of `AuthPlain` have no other write for the user to make. -/
theorem change_kept_iff (txt : Text) (c : Crypto) (s : Server) (u key new : String)
    (hc : Encodes c) (hk : Names txt key u) :
    (PasswordKept txt c s u key new ∧ DeletionKept txt c s u key) ↔
      (Settable s.auth → NoConflict txt c s u key new ∧
        (s.removeQuery = true → ∀ r ∈ s.rehashes, ¬ Names txt key r.username)) := by
  constructor
  · intro ⟨hpassword,hdeletion⟩ hset
    exact ⟨no_conflict_of_kept hc hk hset hpassword,
      fun hq => no_rehash_of_kept hk hset hq hdeletion⟩
  · intro h
    exact ⟨password_kept hc hk fun hset => (h hset).1,deletion_kept hk fun hset => (h hset).2⟩

def legacyServer : Server where
  auth := { openServer with
    table := { openServer.table with entries := fun key =>
      if key = "ann@mail.example" then some "bcrypt:old" else none } }
  removeQuery := true

def legacyCrypto : Crypto :=
  { letterCrypto with
    bcryptCompare := fun hash pass => if bytes hash = pass then none else some hashMismatch }

theorem legacyCrypto_encodes : Encodes legacyCrypto :=
  ⟨letterCrypto_encodes.decode_encode,letterCrypto_encodes.no_colon⟩

theorem ann_named : Names plainText "ann@mail.example" "ann@mail.example" := by
  unfold Names
  decide

theorem idle_change_kept :
    PasswordKept plainText legacyCrypto
      { legacyServer with logins := [⟨"ann@mail.example","old",.lookup⟩] } "ann@mail.example"
      "ann@mail.example" "new" ∧
    DeletionKept plainText legacyCrypto
      { legacyServer with logins := [⟨"ann@mail.example","old",.lookup⟩] } "ann@mail.example"
      "ann@mail.example" := by
  refine (change_kept_iff plainText legacyCrypto _ _ _ "new" legacyCrypto_encodes ann_named).mpr
    fun _ => ⟨⟨nofun,fun l hl hplace => ?_,fun l hl hplace => ?_⟩,
      nofun⟩
  all_goals
    rw [mem_singleton.mp hl] at hplace
    cases hplace

/-- A login with the old password has come back, and its goroutine has not run yet. -/
theorem rehash_pending : ∃ s, run (Server.step plainText legacyCrypto) legacyServer
      [.authPlain "ann@mail.example" "old",.login 0 (drawn [])] = some s ∧
    s.rehashes = [⟨"ann@mail.example","old"⟩] ∧ Settable s.auth ∧ s.removeQuery = true :=
  ⟨_,rfl,by decide,⟨rfl,.inl rfl⟩,rfl⟩

/-- The goroutine puts the old password back, and a deleted user too. -/
theorem rehash_undoes_change :
    (¬ ∀ (txt : Text) (c : Crypto) (s₀ s : Server) (before : List Action) (u key new : String),
      Encodes c → Names txt key u → s₀.logins = [] → s₀.rehashes = [] →
      run (Server.step txt c) s₀ before = some s → PasswordKept txt c s u key new) ∧
    ¬ ∀ (txt : Text) (c : Crypto) (s₀ s : Server) (before : List Action) (u key : String),
      Encodes c → Names txt key u → s₀.logins = [] → s₀.rehashes = [] →
      run (Server.step txt c) s₀ before = some s → DeletionKept txt c s u key := by
  obtain ⟨s,hrun,hpending,hset,hq⟩ := rehash_pending
  have hmem : (⟨"ann@mail.example","old"⟩ : Rehash) ∈ s.rehashes := by simp [hpending]
  constructor
  · intro h
    have hkept := h plainText legacyCrypto legacyServer s _ _ _ "new" legacyCrypto_encodes ann_named rfl
      rfl hrun
    have hagree := (no_conflict_of_kept legacyCrypto_encodes ann_named hset hkept).rehash _ hmem
      ann_named []
    exact absurd hagree (by decide)
  · intro h
    have hkept := h plainText legacyCrypto legacyServer s _ _ _ legacyCrypto_encodes ann_named rfl rfl hrun
    exact no_rehash_of_kept ann_named hset hq hkept _ hmem ann_named

end Madmail.Proofs.PasswordChange
