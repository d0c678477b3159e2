import Madmail.Auth.Sasl

namespace Madmail.Proofs.SaslMechanisms
open Exterrors Sasl

variable {s : SASLAuth} {username password : String} {α : Type}

def accepts (s : SASLAuth) (name password : String) : Bool :=
  s.plain.any (fun p => (p name password).isNone)

section AuthPlain

theorem tryProviders_ok_iff (providers : List PlainAuth) (lastErr : Option Err) :
    s.tryProviders username password providers lastErr = .ok () ↔
      ∃ name, s.usernameForAuth username = .ok name ∧
        providers.any (fun p => (p name password).isNone) = true := by
  induction providers generalizing lastErr with
  | nil => cases lastErr <;> simp [SASLAuth.tryProviders]
  | cons p rest ih =>
    rw [SASLAuth.tryProviders]
    cases hname : s.usernameForAuth username with
    | error e => simp [bind,Except.bind]
    | ok name =>
      cases h : p name password with
      | none => simp [bind,Except.bind,h]
      | some e =>
        have hrest := ih (some e)
        rw [hname] at hrest
        simp only [bind,Except.bind,h]
        rw [hrest]
        simp [h]

theorem authPlain_ok_iff : s.authPlain username password = .ok () ↔
    ∃ name, s.usernameForAuth username = .ok name ∧ accepts s name password = true := by
  unfold SASLAuth.authPlain accepts
  split
  · rename_i hplain
    simp [List.isEmpty_iff.mp hplain]
  · exact tryProviders_ok_iff s.plain none

theorem authPlain_of_name (password : String) (h : s.usernameForAuth username = .ok name) :
    (∃ e, s.authPlain username password = .error e ∧ accepts s name password = false) ∨
      (s.authPlain username password = .ok () ∧ accepts s name password = true) := by
  cases hplain : s.authPlain username password with
  | error e =>
    refine .inl ⟨e,rfl,Bool.eq_false_iff.mpr fun haccepts => ?_⟩
    rw [authPlain_ok_iff.mpr ⟨name,h,haccepts⟩] at hplain
    cases hplain
  | ok =>
    obtain ⟨name',hname',haccepts⟩ := authPlain_ok_iff.mp hplain
    cases h.symm.trans hname'
    exact .inr ⟨rfl,haccepts⟩

theorem authPlain_of_error (password : String) (h : s.usernameForAuth username = .error e) :
    ∃ e', s.authPlain username password = .error e' := by
  cases hplain : s.authPlain username password with
  | error e' => exact ⟨e',rfl⟩
  | ok =>
    obtain ⟨name,hname, -⟩ := authPlain_ok_iff.mp hplain
    cases h.symm.trans hname

end AuthPlain

section Exchanges

theorem plain_exchange :
    (s.createSASL .plain successCb).exchange initial "" username password =
      some (match s.authPlain username password with
        | .error _ => .error errInvalidAuthCred
        | .ok () => successCb username ⟨username,password⟩) := by
  cases h : s.authPlain username password with
  | error e | ok => simp [SASLAuth.createSASL,Server.exchange,h]

theorem login_exchange :
    (Server.login { authenticate }).exchange initial identity username password =
      some (authenticate username password) := by
  cases initial <;> rfl

end Exchanges

def tell (identity : String) (_ : ContextData) : Except Err String := .ok identity

def identityFor (s : SASLAuth) (mech : Mech) (initial : Bool) (username password : String) :
    Option (Except Err String) :=
  (s.createSASL mech tell).exchange initial "" username password

/-- Both exchanges fail, or both succeed with one identity. -/
def Agree : Option (Except Err String) → Option (Except Err String) → Prop
  | some (.ok identity), some (.ok identity') => identity = identity'
  | some (.error _), some (.error _) => True
  | _, _ => False

/-- The translation leaves the name as it is, or no provider takes the password for
the translated name or for its own translation. -/
def Translates (s : SASLAuth) (username password : String) : Prop :=
  ∀ name, s.usernameForAuth username = .ok name →
    (s.enableLogin = true ∧ name = username) ∨
      (accepts s name password = false ∧
        (s.enableLogin = true → ∀ name', s.usernameForAuth name = .ok name' →
          accepts s name' password = false))

theorem identityFor_plain :
    (∃ name, s.usernameForAuth username = .ok name ∧ accepts s name password = true ∧
      identityFor s .plain initial username password = some (.ok username)) ∨
    ((∀ name, s.usernameForAuth username = .ok name → accepts s name password = false) ∧
      ∃ e, identityFor s .plain initial username password = some (.error e)) := by
  unfold identityFor
  rw [plain_exchange]
  cases hname : s.usernameForAuth username with
  | error e =>
    obtain ⟨e',hplain⟩ := authPlain_of_error password hname
    rw [hplain]
    exact .inr ⟨nofun,_,rfl⟩
  | ok name =>
    obtain ⟨e,hplain,haccepts⟩ | ⟨hplain,haccepts⟩ := authPlain_of_name password hname <;>
      rw [hplain]
    · refine .inr ⟨fun name' h => ?_,_,rfl⟩
      cases h
      exact haccepts
    · exact .inl ⟨name,rfl,haccepts,rfl⟩

theorem identityFor_login :
    (∃ name name', s.enableLogin = true ∧ s.usernameForAuth username = .ok name ∧
      s.usernameForAuth name = .ok name' ∧ accepts s name' password = true ∧
      identityFor s .login initial username password = some (.ok name)) ∨
    ((s.enableLogin = true → ∀ name name', s.usernameForAuth username = .ok name →
        s.usernameForAuth name = .ok name' → accepts s name' password = false) ∧
      ∃ e, identityFor s .login initial username password = some (.error e)) := by
  unfold identityFor SASLAuth.createSASL
  cases henabled : s.enableLogin with
  | false => exact .inr ⟨nofun,_,rfl⟩
  | true =>
    simp only [Bool.not_true,Bool.false_eq_true,↓reduceIte,login_exchange]
    cases hname : s.usernameForAuth username with
    | error e => exact .inr ⟨nofun,_,rfl⟩
    | ok name =>
      cases hname' : s.usernameForAuth name with
      | error e =>
        obtain ⟨e',hplain⟩ := authPlain_of_error password hname'
        simp only [bind,Except.bind,hplain]
        refine .inr ⟨fun _ n n' hn hn' => ?_,_,rfl⟩
        cases hn
        cases hname'.symm.trans hn'
      | ok name' =>
        obtain ⟨e,hplain,haccepts⟩ | ⟨hplain,haccepts⟩ := authPlain_of_name password hname' <;>
          simp only [bind,Except.bind,hplain]
        · refine .inr ⟨fun _ n n' hn hn' => ?_,_,rfl⟩
          cases hn
          cases hname'.symm.trans hn'
          exact haccepts
        · exact .inl ⟨name,name',trivial,rfl,hname',haccepts,rfl⟩

/-- The two mechanisms agree on a name and a password exactly if translating the name
does not matter. -/
theorem plain_login_agree_iff (s : SASLAuth) (initial : Bool) (username password : String) :
    Agree (identityFor s .plain initial username password)
      (identityFor s .login initial username password) ↔ Translates s username password := by
  obtain ⟨name,hname,hplain,hid⟩ | ⟨hplain,e,hid⟩ := identityFor_plain <;> rw [hid]
  · obtain ⟨m,m',henabled,hm,hm',hlogin,hid'⟩ | ⟨hlogin,e,hid'⟩ :=
      identityFor_login
    · rw [hid']
      cases hname.symm.trans hm
      constructor
      · intro hsame n hn
        cases hname.symm.trans hn
        exact .inl ⟨henabled,Eq.symm hsame⟩
      · intro h
        obtain ⟨-,hsame⟩ | ⟨hno, -⟩ := h name hname
        · exact hsame.symm
        · rw [hplain] at hno
          cases hno
    · rw [hid']
      refine ⟨fun h => h.elim,fun h => ?_⟩
      obtain ⟨henabled,hsame⟩ | ⟨hno, -⟩ := h name hname
      · subst hsame
        have hno := hlogin henabled name name hname hname
        rw [hplain] at hno
        cases hno
      · rw [hplain] at hno
        cases hno
  · obtain ⟨m,m',henabled,hm,hm',hlogin,hid'⟩ | ⟨hlogin,e',hid'⟩ :=
      identityFor_login
    · rw [hid']
      refine ⟨fun h => h.elim,fun h => ?_⟩
      obtain ⟨-,hsame⟩ | ⟨-,hno⟩ := h m hm
      · subst hsame
        cases hm.symm.trans hm'
        rw [hplain m hm] at hlogin
        cases hlogin
      · rw [hno henabled m' hm'] at hlogin
        cases hlogin
    · rw [hid']
      refine ⟨fun _ n hn => .inr ⟨hplain n hn,fun henabled n' hn' => ?_⟩,fun _ => trivial⟩
      exact hlogin henabled n n' hn hn'

section Localpart

def sharedNames : SASLAuth where
  enableLogin := true
  authMap := some (emailLocalpart false)
  authNormalize := none
  plain := [fun username password =>
    if username = "user" ∧ password = "secret" then none else some (.leaf "invalid creds" none)]

theorem login_refused_plain_accepted :
    ¬ ∀ (s : SASLAuth) (initial : Bool) (username password : String), s.enableLogin = true →
      Agree (identityFor s .plain initial username password)
        (identityFor s .login initial username password) := by
  intro h
  have hagree := h sharedNames true "user@example.org" "secret" rfl
  exact hagree

end Localpart

end Madmail.Proofs.SaslMechanisms
