import Madmail.Auth.PassTable
import Madmail.Lib.Runs

namespace Madmail.PassTable
open Exterrors Lib.Strings

/-- `SQL.RemoveKey`. `removeQuery` is whether the table has a query for it. -/
def Table.removeKey (t : Table) (removeQuery : Bool) (fault : Option Err) (key : String) :
    Table × Option Err :=
  if !removeQuery then (t,some (.leaf (t.modName ++ ": table is not mutable (no 'del' query)") none))
  else
    match fault with
    | some e => (t,some (.errorf (t.modName ++ ": del " ++ key ++ ": ") e))
    | none => ({ t with entries := Function.update t.entries key none },none)

def deleteUser (txt : Text) (a : Auth) (removeQuery : Bool) (fault : Option Err)
    (username : String) : Auth × Option Err :=
  if !a.table.isMutable then
    (a,some (.leaf (a.modName ++ ": table is not mutable, no management functionality available")
      none))
  else
    let username := normalizeUsername txt username
    match txt.compareKey username with
    | .error e => (a,some (.errorf (a.modName ++ ": del user " ++ username ++ " (raw): ") e))
    | .ok key =>
      match a.table.removeKey removeQuery fault key with
      | (_,some e) => (a,some (.errorf (a.modName ++ ": del user " ++ key ++ ": ") e))
      | (table,none) => ({ a with table := table },none)

/-- How far a call of `AuthPlain` is: about to look the user up, about to ask for
just-in-time registration, about to create the user, or back. -/
inductive Place where
  | lookup
  | askJit
  | create
  | done (res : Outcome Unit)
  deriving DecidableEq

structure Login where
  username : String
  password : String
  place : Place := .lookup

structure Rehash where
  username : String
  password : String
  deriving DecidableEq

/-- The next step of a call, up to its next access to a table: the module after it,
the place, and the goroutines it starts. -/
def Login.next (txt : Text) (c : Crypto) (a : Auth) (env : Env) (l : Login) :
    Option (Auth × Place × List Rehash) :=
  let username := normalizeUsername txt l.username
  match l.place, txt.compareKey username with
  | .done _, _ => none
  | _, .error e => some (a,.done (.err e),[])
  | .lookup, .ok key =>
    match a.table.lookup (env.fault .lookup) key with
    -- the error of the lookup is not looked at
    | (_,false,_) => some (a,.askJit,[])
    | (_,true,some e) => some (a,.done (.err e),[])
    | (hash,true,none) =>
      match verifyEntry c a.modName key hash l.password with
      | .err e => some (a,.done (.err e),[])
      | .panicked => some (a,.done .panicked,[])
      | .ok false => some (a,.done (.ok ()),[])
      | .ok true => some (a,.done (.ok ()),[⟨username,l.password⟩])
  | .askJit, .ok _ =>
    match isJitRegistrationEnabled a env with
    | .error e => some (a,.done (.err e),[])
    | .ok false => some (a,.done (.err errUnknownCredentials),[])
    | .ok true =>
      if !validateLoginDomain txt username a.jitDomain then
        some (a,.done (.err errUnknownCredentials),[])
      else some (a,.create,[])
  | .create, .ok key =>
    match createUserIfNotExists txt c a env.salt (env.fault .setLookup) (env.fault .setExec)
      username l.password with
    | (a',some e) =>
      some (a',.done (.err (.errorf (a.modName ++ ": auto-create failed for " ++ key ++ ": ") e)),[])
    | (a',none) => some (a',.done (.ok ()),[])

structure Server where
  auth : Auth
  removeQuery : Bool
  logins : List Login := []
  rehashes : List Rehash := []

inductive Action where
  -- a new call
  | authPlain (username password : String)
  -- the next step of a call, and a goroutine that runs
  | login (i : Nat) (env : Env)
  | rehash (i : Nat) (env : Env)
  | setUserPassword (username password : String) (env : Env)
  | deleteUser (username : String) (fault : Option Err)

def Server.setPassword (txt : Text) (c : Crypto) (s : Server) (env : Env)
    (username password : String) : Auth × Option Err :=
  setUserPassword txt c s.auth env.rehashSalt (env.fault .rehashLookup) (env.fault .rehashExec)
    username password

def Server.step (txt : Text) (c : Crypto) (s : Server) : Action → Option Server
  | .authPlain username password =>
    some { s with logins := s.logins ++ [{ username := username, password := password }] }
  | .login i env => do
    let l ← s.logins[i]?
    let (a,place,started) ← l.next txt c s.auth env
    some
      { s with
        auth := a
        logins := s.logins.set i { l with place := place }
        rehashes := s.rehashes ++ started }
  | .rehash i env => do
    let r ← s.rehashes[i]?
    some
      { s with
        auth := (s.setPassword txt c env r.username r.password).1
        rehashes := s.rehashes.eraseIdx i }
  | .setUserPassword username password env =>
    some { s with auth := (s.setPassword txt c env username password).1 }
  | .deleteUser username fault =>
    some { s with auth := (deleteUser txt s.auth s.removeQuery fault username).1 }

end Madmail.PassTable
