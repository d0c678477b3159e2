import Madmail.Proofs.LoginSteps

namespace Madmail.Proofs.FirstLogin
open Exterrors Lib Madmail.PassTable PassTable LoginSteps List

variable {txt : Text} {c : Crypto} {a : Auth} {u key : String} {ps : List String} {s t : Server}
  {b : Action} {env : Env} {i : Nat}

structure Creatable (txt : Text) (a : Auth) (u : String) : Prop where
  jit : ∃ env, isJitRegistrationEnabled a env = .ok true
  domain : validateLoginDomain txt (normalizeUsername txt u) a.jitDomain = true
  is_mutable : a.table.isMutable = true
  queries : a.table.upsertQuery = true ∨ (a.table.setQuery = true ∧ a.table.addQuery = true)

def calls (a : Auth) (u : String) (ps : List String) : Server where
  auth := a
  removeQuery := true
  logins := ps.map (fun p => { username := u, password := p })

def IsLogin : Action → Prop
  | .login _ _ | .rehash _ _ => True
  | _ => False

/-- When all calls are back, the password of each that has succeeded is the one that
is stored. -/
def FirstLoginKept (txt : Text) (c : Crypto) (a : Auth) (u key : String) (ps : List String) : Prop :=
  ∀ acts s, (∀ b ∈ acts, IsLogin b) → run (Server.step txt c) (calls a u ps) acts = some s →
    (∀ l ∈ s.logins, ∃ res, l.place = .done res) →
    ∀ l ∈ s.logins, l.place = .done (.ok ()) →
      ∃ entry, s.auth.table.entries key = some entry ∧
        Verifies c s.auth.modName key entry l.password

section Safe

def Made (c : Crypto) (ps : List String) (entry : String) : Prop :=
  ∃ p ∈ ps, ∃ bs, newEntry c (.ok bs) p = .ok entry

/-- What the calls keep: nothing has been written and no call has succeeded, or an
account can be created and its entry is of one of the calls. -/
structure Inv (txt : Text) (c : Crypto) (a : Auth) (u key : String) (ps : List String) (s : Server) :
    Prop where
  rehashes : s.rehashes = []
  calls : ∀ l ∈ s.logins, l.username = u ∧ l.password ∈ ps
  table :
    (s.auth = a ∧ ∀ l ∈ s.logins, l.place ≠ .done (.ok ()) ∧
      (l.place = .create → (∃ env, isJitRegistrationEnabled a env = .ok true) ∧
        validateLoginDomain txt (normalizeUsername txt u) a.jitDomain = true)) ∨
    (Creatable txt a u ∧ ∃ entry, Made c ps entry ∧ s.auth.table.entries key = some entry)

theorem calls_inv : Inv txt c a u key ps (calls a u ps) := by
  have hmem : ∀ l ∈ (FirstLogin.calls a u ps).logins, ∃ p ∈ ps, l = { username := u, password := p } := by
    intro l hl
    obtain ⟨p,hp,rfl⟩ := mem_map.mp hl
    exact ⟨p,hp,rfl⟩
  refine ⟨rfl,fun l hl => ?_,.inl ⟨rfl,fun l hl => ?_⟩⟩
  · obtain ⟨p,hp,rfl⟩ := hmem l hl
    exact ⟨rfl,hp⟩
  · obtain ⟨p,hp,rfl⟩ := hmem l hl
    exact ⟨nofun,nofun⟩

theorem Made.verify (hc : Encodes c) (hm : Made c ps entry)
    (hv : verifyEntry c modName key entry q = .ok outdated) : outdated = false := by
  obtain ⟨p, -,bs,hnew⟩ := hm
  rw [verify_newEntry hc hnew] at hv
  split at hv
  · cases hv
    rfl
  · cases hv

theorem mem_set_logins (hl : s.logins[i]? = some l)
    (h : l' ∈ s.logins.set i { l with place := place }) :
    l' ∈ s.logins ∨ (l ∈ s.logins ∧ l' = { l with place := place }) := by
  rcases mem_or_eq_of_mem_set h with h | h
  · exact .inl h
  · exact .inr ⟨mem_of_getElem? hl,h⟩

theorem Inv.logins (h : Inv txt c a u key ps s) (hl : s.logins[i]? = some l) :
    ∀ l' ∈ s.logins.set i { l with place := place }, l'.username = u ∧ l'.password ∈ ps := by
  intro l' hl'
  rcases mem_set_logins hl hl' with hold | ⟨hmem,rfl⟩
  · exact h.calls l' hold
  · exact h.calls l hmem

theorem Inv.passed (h : Inv txt c a u key ps s) (hl : s.logins[i]? = some l)
    (hplace : place ≠ .done (.ok ()))
    (hcreate : place = .create → s.auth = a → (∃ env, isJitRegistrationEnabled a env = .ok true) ∧
      validateLoginDomain txt (normalizeUsername txt u) a.jitDomain = true) :
    Inv txt c a u key ps
      { s with logins := s.logins.set i { l with place := place }, rehashes := s.rehashes ++ [] } := by
  refine ⟨by simp [h.rehashes],h.logins hl,?_⟩
  rcases h.table with ⟨hauth,hplaces⟩ | hmade
  · refine .inl ⟨hauth,fun l' hl' => ?_⟩
    rcases mem_set_logins hl hl' with hold | ⟨-,rfl⟩
    · exact hplaces l' hold
    · exact ⟨hplace,fun hc => hcreate hc hauth⟩
  · exact .inr hmade

theorem step_inv (hc : Encodes c) (hk : txt.compareKey (normalizeUsername txt u) = .ok key)
    (hnew : a.table.entries key = none) (h : Inv txt c a u key ps s) (hb : IsLogin b)
    (hstep : s.step txt c b = some t) : Inv txt c a u key ps t := by
  cases b with
  | login i env =>
    simp only [Server.step,Option.bind_eq_bind,Option.bind_eq_some_iff] at hstep
    obtain ⟨l,hl,⟨a',place,started⟩,hnext,hstep⟩ := hstep
    cases hstep
    have hmem := mem_of_getElem? hl
    obtain ⟨hu,hp⟩ := h.calls l hmem
    cases nexts_of_next hnext with
    | fails res hres =>
      exact h.passed hl (fun hdone => hres (by cases hdone; rfl)) (fun h => by cases h)
    | verified key' hash outdated hplace hk' hfound hv =>
      rw [hu,hk] at hk'
      cases hk'
      rcases h.table with ⟨hauth, -⟩ | ⟨hcan,entry,hmade,hentry⟩
      · rw [hauth,hnew] at hfound
        cases hfound
      · rw [hentry] at hfound
        obtain rfl : entry = hash := Option.some.inj hfound
        cases hmade.verify hc hv
        exact ⟨by simp [h.rehashes],h.logins hl,.inr ⟨hcan,entry,hmade,hentry⟩⟩
    | unknown key' hplace hk' hnone => exact h.passed hl (fun h => by cases h) (fun h => by cases h)
    | allowed hplace hjit hdomain =>
      refine h.passed hl (fun h => by cases h) (fun _ hauth => ?_)
      rw [hauth] at hjit hdomain
      rw [hu] at hdomain
      exact ⟨⟨env,hjit⟩,hdomain⟩
    | created key' value hplace hk' hv hm hw =>
      rw [hu,hk] at hk'
      cases hk'
      obtain ⟨bs,hbs⟩ := newEntry_salt hv
      rw [hbs] at hv
      have hcan : Creatable txt a u := by
        rcases h.table with ⟨hauth,hplaces⟩ | ⟨hcan, -⟩
        · rw [hauth] at hm hw
          obtain ⟨hjit,hdomain⟩ := (hplaces l hmem).2 hplace
          refine ⟨hjit,hdomain,hm,?_⟩
          rcases hw.2 with hup | ⟨hset,hadd, -⟩
          · exact .inl hup
          · exact .inr ⟨hset,hadd⟩
        · exact hcan
      refine ⟨by simp [h.rehashes],h.logins hl,.inr ⟨hcan,value,⟨l.password,hp,bs,hv⟩,?_⟩⟩
      simp [Table.put]
  | rehash i env =>
    simp only [Server.step,h.rehashes,Option.bind_eq_bind,Option.bind_eq_some_iff] at hstep
    obtain ⟨r,hr, -⟩ := hstep
    cases hr
  | authPlain username password => cases hb
  | setUserPassword username password env => cases hb
  | deleteUser username fault => cases hb

theorem kept_of_agree (hc : Encodes c) (hk : txt.compareKey (normalizeUsername txt u) = .ok key)
    (hnew : a.table.entries key = none)
    (hagree : Creatable txt a u → ∀ p ∈ ps, ∀ q ∈ ps, Agree c p q) :
    FirstLoginKept txt c a u key ps := by
  intro acts s hacts hrun _ l hl hok
  have hinv : Inv txt c a u key ps s :=
    run_invariant (fun _ _ _ h hb hstep => step_inv hc hk hnew h hb hstep) calls_inv
      hacts hrun
  rcases hinv.table with ⟨-,hplaces⟩ | ⟨hcan,entry,⟨q,hq,bs,hentry⟩,hfound⟩
  · exact absurd hok (hplaces l hl).1
  · refine ⟨entry,hfound,false,?_⟩
    rw [verify_newEntry hc hentry,if_pos (hagree hcan l.password (hinv.calls l hl).2 q hq bs)]

end Safe

section Race

def drawn (bs : Bytes) : Env where
  fault _ := none
  salt := .ok bs
  rehashSalt := .ok bs

variable (hk : txt.compareKey (normalizeUsername txt u) = .ok key)
include hk

theorem next_found (hfound : a.table.entries key = some entry) :
    ∃ res started, Login.next txt c a (drawn bs) ⟨u,p,.lookup⟩ = some (a,.done res,started) := by
  simp only [Login.next,hk,Table.lookup,drawn,hfound]
  rcases verifyEntry c a.modName key entry p with (_ | _) | e | _
  all_goals exact ⟨_,_,rfl⟩

theorem finish (done rest : List Login)
    (hfound : s.auth.table.entries key = some entry) (hlogins : s.logins = done ++ rest)
    (hplaces : ∀ l ∈ rest, l.username = u ∧ (l.place = .lookup ∨ ∃ res, l.place = .done res)) :
    ∃ acts t rest', (∀ b ∈ acts, IsLogin b) ∧ run (Server.step txt c) s acts = some t ∧
      t.auth = s.auth ∧ t.logins = done ++ rest' ∧ (∀ l ∈ rest', ∃ res, l.place = .done res) ∧
      ∀ l ∈ rest, (∃ res, l.place = .done res) → l ∈ rest' := by
  induction rest generalizing s done with
  | nil => exact ⟨[],s,[],nofun,rfl,rfl,hlogins,nofun,
      nofun⟩
  | cons l rest ih =>
    obtain ⟨⟨hu,hplace⟩,hrest⟩ := forall_mem_cons.mp hplaces
    rcases hplace with hplace | hdone
    · obtain ⟨username,p,place⟩ := l
      subst hu hplace
      obtain ⟨res,started,hnext⟩ := next_found (c := c) (p := p) hk hfound
      have hl : s.logins[done.length]? = some ⟨username,p,.lookup⟩ := by simp [hlogins]
      have hstep := step_login hl hnext
      have hset : s.logins.set done.length ⟨username,p,.done res⟩ =
          (done ++ [⟨username,p,.done res⟩]) ++ rest := by simp [hlogins]
      obtain ⟨acts,t,rest',hacts,hrun,hauth,hlogins',hall,hkeep⟩ :=
        ih (s := { s with logins := s.logins.set done.length ⟨username,p,.done res⟩,
                          rehashes := s.rehashes ++ started })
          (done ++ [⟨username,p,.done res⟩]) hfound hset hrest
      refine ⟨.login done.length (drawn []) :: acts,t,⟨username,p,.done res⟩ :: rest',?_,?_,hauth,
        ?_,?_,?_⟩
      · exact forall_mem_cons.mpr ⟨trivial,hacts⟩
      · rw [run,hstep]
        exact hrun
      · simp [hlogins']
      · exact forall_mem_cons.mpr ⟨⟨res,rfl⟩,hall⟩
      · intro l hl hdone
        rcases mem_cons.mp hl with rfl | hl
        · obtain ⟨res',hres⟩ := hdone
          cases hres
        · exact mem_cons_of_mem _ (hkeep l hl hdone)
    · obtain ⟨acts,t,rest',hacts,hrun,hauth,hlogins',hall,hkeep⟩ :=
        ih (done ++ [l]) hfound (by simp [hlogins]) hrest
      refine ⟨acts,t,l :: rest',hacts,hrun,hauth,by simp [hlogins'],?_,?_⟩
      · exact forall_mem_cons.mpr ⟨hdone,hall⟩
      · intro l' hl' hd
        rcases mem_cons.mp hl' with rfl | hl'
        · exact mem_cons_self
        · exact mem_cons_of_mem _ (hkeep l' hl' hd)

theorem next_allowed (hjit : isJitRegistrationEnabled a env = .ok true)
    (hdomain : validateLoginDomain txt (normalizeUsername txt u) a.jitDomain = true) :
    Login.next txt c a env ⟨u,p,.askJit⟩ = some (a,.create,[]) := by
  simp [Login.next,hk,hjit,hdomain]

theorem to_create (hnew : s.auth.table.entries key = none)
    (hjit : isJitRegistrationEnabled s.auth env = .ok true)
    (hdomain : validateLoginDomain txt (normalizeUsername txt u) s.auth.jitDomain = true)
    (hl : s.logins[i]? = some ⟨u,p,.lookup⟩) :
    run (Server.step txt c) s [.login i (drawn []),.login i env] =
      some { s with logins := s.logins.set i ⟨u,p,.create⟩ } := by
  have hfirst : Login.next txt c s.auth (drawn []) ⟨u,p,.lookup⟩ = some (s.auth,.askJit,[]) := by
    simp only [Login.next,hk,Table.lookup,drawn,hnew]
  have hsecond : Login.next txt c s.auth env ⟨u,p,.askJit⟩ = some (s.auth,.create,[]) :=
    next_allowed hk hjit hdomain
  have hi : i < s.logins.length := (List.getElem?_eq_some_iff.mp hl).1
  have hl' : (s.logins.set i ⟨u,p,.askJit⟩)[i]? = some ⟨u,p,.askJit⟩ := by
    simp [hi]
  rw [run,step_login hl hfirst,Option.bind_some,run,
    step_login (s := { s with logins := s.logins.set i ⟨u,p,.askJit⟩, rehashes := s.rehashes ++ [] })
      hl' hsecond]
  simp [run]

theorem do_create (hm : s.auth.table.isMutable = true) (hq : s.auth.table.upsertQuery = true ∨
      (s.auth.table.setQuery = true ∧ s.auth.table.addQuery = true))
    (hv : newEntry c (.ok bs) p = .ok value) (hl : s.logins[i]? = some ⟨u,p,.create⟩) :
    s.step txt c (.login i (drawn bs)) = some
      { s with
        auth := { s.auth with table := s.auth.table.put key value }
        logins := s.logins.set i ⟨u,p,.done (.ok ())⟩ } := by
  have hw : Writable s.auth.table none none := by
    refine ⟨rfl,?_⟩
    rcases hq with hup | ⟨hset,hadd⟩
    · exact .inl hup
    · exact .inr ⟨hset,hadd,rfl⟩
  have hstore : createUserIfNotExists txt c s.auth (.ok bs) none none (normalizeUsername txt u) p =
      ({ s.auth with table := s.auth.table.put key value },none) :=
    storePassword_writes (by rw [normalizeUsername_idem,hk]) hm hv hw
  have hnext : Login.next txt c s.auth (drawn bs) ⟨u,p,.create⟩ =
      some ({ s.auth with table := s.auth.table.put key value },.done (.ok ()),[]) := by
    simp only [Login.next,hk,drawn,hstore]
  rw [step_login hl hnext]
  simp

/-- Two calls that both look the user up before one of them creates it. -/
theorem both_create (hnew : s.auth.table.entries key = none) (hcan : Creatable txt s.auth u) (hij : i ≠ j)
    (hv : newEntry c (.ok bs) q = .ok value) (hi : s.logins[i]? = some ⟨u,p,.lookup⟩)
    (hj : s.logins[j]? = some ⟨u,q,.lookup⟩) :
    ∃ acts t, (∀ b ∈ acts, IsLogin b) ∧ run (Server.step txt c) s acts = some t ∧
      t.logins = (s.logins.set i ⟨u,p,.done (.ok ())⟩).set j ⟨u,q,.done (.ok ())⟩ ∧
      t.auth.table.entries key = some value := by
  obtain ⟨env,hjit⟩ := hcan.jit
  obtain ⟨first,hfirst⟩ : ∃ value, newEntry c (.ok bs) p = .ok value := ⟨_,rfl⟩
  have hilt : i < s.logins.length := (List.getElem?_eq_some_iff.mp hi).1
  have hjlt : j < s.logins.length := (List.getElem?_eq_some_iff.mp hj).1
  have hlook := to_create (c := c) hk hnew hjit hcan.domain hj
  have hlook' := to_create (c := c)
    (s := { s with logins := s.logins.set j ⟨u,q,.create⟩ }) hk hnew hjit hcan.domain
    (p := p) (i := i) (by simp [Ne.symm hij,hi])
  have hset := do_create (i := i) (p := p)
    (s := { s with logins := (s.logins.set j ⟨u,q,.create⟩).set i ⟨u,p,.create⟩ })
    hk hcan.is_mutable hcan.queries hfirst (by simp [hilt])
  have hset' := do_create (i := j) (p := q)
    (s := { s with
      auth := { s.auth with table := s.auth.table.put key first }
      logins := (s.logins.set j ⟨u,q,.create⟩).set i ⟨u,p,.done (.ok ())⟩ })
    hk hcan.is_mutable hcan.queries hv (by simp [hij,hjlt])
  have hlogins : ((s.logins.set j ⟨u,q,.create⟩).set i ⟨u,p,.done (.ok ())⟩).set j
      ⟨u,q,.done (.ok ())⟩ =
        (s.logins.set i ⟨u,p,.done (.ok ())⟩).set j ⟨u,q,.done (.ok ())⟩ := by
    rw [set_comm _ _ hij,set_set,set_comm _ _ hij.symm]
  have hrun := (run_append hlook : _ = run _ _ ([.login i (drawn []),.login i env] ++
    [.login i (drawn bs),.login j (drawn bs)])).trans (run_append hlook')
  rw [run,hset,Option.bind_some,set_set,run,hset',Option.bind_some,run] at hrun
  refine ⟨_,_,?_,hrun,hlogins,?_⟩
  · simp [IsLogin]
  · simp [Table.put]

theorem agree_of_kept (hc : Encodes c) (hnew : a.table.entries key = none)
    (hkept : FirstLoginKept txt c a u key ps) (hcan : Creatable txt a u) :
    ∀ p ∈ ps, ∀ q ∈ ps, Agree c p q := by
  intro p hp q hq bs
  obtain ⟨i,hi⟩ := mem_iff_getElem?.mp hp
  obtain ⟨j,hj⟩ := mem_iff_getElem?.mp hq
  by_cases hij : i = j
  · subst hij
    rw [Option.some.inj (hi.symm.trans hj)]
  obtain ⟨value,hv⟩ : ∃ value, newEntry c (.ok bs) q = .ok value := ⟨_,rfl⟩
  have hcall : ∀ (k : Nat) (r : String), ps[k]? = some r →
      (calls a u ps).logins[k]? = some ⟨u,r,.lookup⟩ := by
    intro k r hr
    simp [calls,hr]
  obtain ⟨acts,s,hacts,hrun,hlogins,hfound⟩ :=
    both_create (s := calls a u ps) hk hnew hcan hij hv (hcall i p hi) (hcall j q hj)
  have hplaces : ∀ l ∈ s.logins, l.username = u ∧ (l.place = .lookup ∨ ∃ res, l.place = .done res) := by
    intro l hl
    rw [hlogins] at hl
    rcases mem_or_eq_of_mem_set hl with hl | rfl
    · rcases mem_or_eq_of_mem_set hl with hl | rfl
      · obtain ⟨r, -,rfl⟩ := mem_map.mp hl
        exact ⟨rfl,.inl rfl⟩
      · exact ⟨rfl,.inr ⟨_,rfl⟩⟩
    · exact ⟨rfl,.inr ⟨_,rfl⟩⟩
  obtain ⟨acts',t,logins,hacts',hrun',hauth,hlogins',hall,hkeep⟩ :=
    finish hk [] s.logins hfound rfl hplaces
  rw [nil_append] at hlogins'
  have hmem : ⟨u,p,.done (.ok ())⟩ ∈ s.logins := by
    have hilt : i < (calls a u ps).logins.length := (List.getElem?_eq_some_iff.mp (hcall i p hi)).1
    have hat : s.logins[i]? = some ⟨u,p,.done (.ok ())⟩ := by
      rw [hlogins]
      simp [Ne.symm hij,hilt]
    exact mem_of_getElem? hat
  obtain ⟨entry,hentry,outdated,hver⟩ := hkept (acts ++ acts') t
    (fun b hb => (mem_append.mp hb).elim (hacts b) (hacts' b)) ((run_append hrun).trans hrun')
    (by rwa [hlogins']) ⟨u,p,.done (.ok ())⟩ (by rw [hlogins']; exact hkeep _ hmem ⟨_,rfl⟩) rfl
  rw [hauth,hfound] at hentry
  cases hentry
  rw [verify_newEntry hc hv] at hver
  split at hver
  · assumption
  · cases hver

end Race

/-- The password of a first login that has succeeded is kept, however the calls are
interleaved, exactly if no account can be created or all calls have one password. -/
theorem first_login_kept_iff (txt : Text) (c : Crypto) (a : Auth) (u key : String)
    (ps : List String) (hc : Encodes c) (hk : txt.compareKey (normalizeUsername txt u) = .ok key)
    (hnew : a.table.entries key = none) :
    FirstLoginKept txt c a u key ps ↔
      (Creatable txt a u → ∀ p ∈ ps, ∀ q ∈ ps, Agree c p q) :=
  ⟨agree_of_kept hk hc hnew,kept_of_agree hc hk hnew⟩

def letterCrypto : Crypto :=
  { plainCrypto with
    base64Encode := fun bs => String.ofList (bs.map (fun b => Char.ofNat (b.toNat + 256)))
    base64Decode := fun text => .ok (text.toList.map (fun x => UInt8.ofNat (x.toNat - 256))) }

theorem letterCrypto_encodes : Encodes letterCrypto := by
  have hletter : ∀ b : UInt8, UInt8.ofNat ((Char.ofNat (b.toNat + 256)).toNat - 256) = b ∧
      Char.ofNat (b.toNat + 256) ≠ ':' := by
    intro b
    have hlt := b.toNat_lt
    have hvalid : (b.toNat + 256).isValidChar := .inl (by omega)
    have hchar : (Char.ofNat (b.toNat + 256)).toNat = b.toNat + 256 := by
      rw [Char.ofNat,dif_pos hvalid]
      rfl
    refine ⟨?_,fun h => ?_⟩
    · rw [hchar,Nat.add_sub_cancel]
      exact UInt8.ofNat_toNat
    · rw [h] at hchar
      have hcolon : ':'.toNat = 58 := rfl
      omega
  refine ⟨fun bs => ?_,fun bs => ?_⟩
  · simp only [letterCrypto,String.toList_ofList,map_map]
    refine congrArg Except.ok ((map_congr_left fun b _ => ?_).trans (map_id bs))
    exact (hletter b).1
  · simp only [letterCrypto,String.toList_ofList,mem_map,not_exists,not_and]
    exact fun b _ => (hletter b).2

theorem bob_creatable : Creatable plainText openServer "bob@mail.example" :=
  ⟨⟨drawn [],by decide⟩,by decide,rfl,.inl rfl⟩

theorem one_password_kept : Creatable plainText openServer "bob@mail.example" ∧
    FirstLoginKept plainText letterCrypto openServer "bob@mail.example" "bob@mail.example"
      ["secret","secret"] := by
  refine ⟨bob_creatable,?_⟩
  refine (first_login_kept_iff plainText letterCrypto openServer "bob@mail.example"
    "bob@mail.example" _ letterCrypto_encodes (by decide) (by decide)).mpr fun _ p hp q hq => ?_
  have hsame : p = q := by simp_all
  intro bs
  rw [hsame]

/-- Of two concurrent first logins with different passwords both succeed, and one of
them has the password that is not stored. -/
theorem first_password_overwritten :
    ¬ ∀ (txt : Text) (c : Crypto) (a : Auth) (u key : String) (ps : List String),
      Encodes c → txt.compareKey (normalizeUsername txt u) = .ok key →
      a.table.entries key = none → (∃ env, isJitRegistrationEnabled a env = .ok true) →
      FirstLoginKept txt c a u key ps := by
  intro h
  have hkept := h plainText letterCrypto openServer "bob@mail.example" "bob@mail.example"
    ["secret","guess"] letterCrypto_encodes (by decide) (by decide) bob_creatable.jit
  have hagree := agree_of_kept (by decide) letterCrypto_encodes (by decide) hkept bob_creatable
    "secret" (by simp) "guess" (by simp) []
  exact absurd hagree (by decide)

end Madmail.Proofs.FirstLogin
