import Madmail.Framework.Address

namespace Madmail.Sasl
open Exterrors

def errUnsupportedMech : Err := .leaf "Unsupported SASL mechanism" none

def errInvalidAuthCred : Err := .leaf "auth: invalid credentials" none

abbrev Table := String → Except Err (Option String)

/-- `module.PlainAuth`: the error of `AuthPlain` for a username and a password. -/
abbrev PlainAuth := String → String → Option Err

def emailLocalpart (allowNonEmail : Bool) : Table := fun key =>
  match Address.split key with
  | .error _ => .ok (if allowNonEmail then some key else none)
  | .ok (mbox,_) => .ok (some mbox)

structure SASLAuth where
  enableLogin : Bool
  authMap : Option Table
  authNormalize : Option (String → Except Err String)
  plain : List PlainAuth

def SASLAuth.usernameForAuth (s : SASLAuth) (saslUsername : String) : Except Err String := do
  let saslUsername ← match s.authNormalize with
    | none => .ok saslUsername
    | some normalize => normalize saslUsername
  match s.authMap with
  | none => .ok saslUsername
  | some table =>
    match ← table saslUsername with
    | none => .error errInvalidAuthCred
    | some mapped => .ok mapped

/-- The loop of `AuthPlain`, which translates the name for each provider. -/
def SASLAuth.tryProviders (s : SASLAuth) (username password : String) :
    List PlainAuth → Option Err → Except Err Unit
  | [], none => .error (.leaf "no auth. provider accepted creds, last err: %!w(<nil>)" none)
  | [], some lastErr => .error (.errorf "no auth. provider accepted creds, last err: " lastErr)
  | p :: rest, _ => do
    let mappedUsername ← s.usernameForAuth username
    match p mappedUsername password with
    | none => .ok ()
    | some err => s.tryProviders username password rest (some err)

def SASLAuth.authPlain (s : SASLAuth) (username password : String) : Except Err Unit :=
  if s.plain.isEmpty then .error errUnsupportedMech else s.tryProviders username password s.plain none

structure ContextData where
  username : String
  password : String
  deriving DecidableEq, Repr

section Servers
variable {α : Type}

inductive LoginState where
  | notStarted
  | waitingUsername
  | waitingPassword
  | finished
  deriving DecidableEq, Repr

structure LoginServer (α : Type) where
  state : LoginState := .notStarted
  username : String := ""
  password : String := ""
  authenticate : String → String → Except Err α

/-- What `Next` returns: a challenge, the end of the exchange, or
`ErrUnexpectedClientResponse`. -/
inductive Reply (α : Type) where
  | challenge (text : String)
  | done (result : Except Err α)
  | unexpected

def LoginServer.next (a : LoginServer α) (response : Option String) : LoginServer α × Reply α :=
  let takeUsername : LoginServer α × Reply α :=
    ({ a with state := .waitingPassword, username := response.getD "" },.challenge "Password:")
  match a.state with
  | .notStarted =>
    -- without an initial response the name is asked for
    if response.isNone then ({ a with state := .waitingUsername },.challenge "Username:")
    else takeUsername
  | .waitingUsername => takeUsername
  | .waitingPassword =>
    let password := response.getD ""
    ({ a with state := .finished, password },.done (a.authenticate a.username password))
  | .finished => (a,.unexpected)

def LoginServer.converse (a : LoginServer α) : List (Option String) → Option (Except Err α)
  | [] => none
  | response :: rest =>
    match a.next response with
    | (a,.challenge _) => a.converse rest
    | (_,.done result) => some result
    | (_,.unexpected) => none

inductive Mech where
  | plain
  | login
  | other (name : String)
  deriving DecidableEq, Repr

/-- The `sasl.Server` of a mechanism. That of PLAIN calls its function with the three
parts of the response. -/
inductive Server (α : Type) where
  | plain (authenticate : String → String → String → Except Err α)
  | login (srv : LoginServer α)
  | failing (err : Err)

def SASLAuth.createSASL (s : SASLAuth) (mech : Mech)
    (successCb : String → ContextData → Except Err α) : Server α :=
  match mech with
  | .plain =>
    .plain fun identity username password =>
      let identity := if identity = "" then username else identity
      if identity ≠ username then .error errInvalidAuthCred
      else
        match s.authPlain username password with
        | .error _ => .error errInvalidAuthCred
        | .ok () => successCb identity { username, password }
  | .login =>
    if !s.enableLogin then .failing errUnsupportedMech
    else
      .login
        { authenticate := fun username password => do
            let username ← s.usernameForAuth username
            match s.authPlain username password with
            | .error _ => .error errInvalidAuthCred
            | .ok () => successCb username { username, password } }
  | .other _ => .failing errUnsupportedMech

/-- An exchange with the credentials. A LOGIN client may send the name as its initial
response. -/
def Server.exchange (srv : Server α) (initial : Bool) (identity username password : String) :
    Option (Except Err α) :=
  match srv with
  | .plain authenticate => some (authenticate identity username password)
  | .login srv => srv.converse ((if initial then [] else [none]) ++ [some username,some password])
  | .failing err => some (.error err)

end Servers

end Madmail.Sasl
