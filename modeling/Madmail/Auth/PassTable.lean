import Madmail.Auth.Hash

namespace Madmail.PassTable
open Exterrors Lib.Strings

/-- The text functions the code is given: whether `net.ParseIP` accepts a
string, `strings.EqualFold`, and `UsernameCaseMapped.CompareKey`. -/
structure Text where
  isIP : String → Bool
  equalFold : String → String → Bool
  compareKey : String → Except Err String

def wrapIP (txt : Text) (domain : String) : String :=
  let trimmed := trim domain ['[',']']
  if txt.isIP trimmed then "[" ++ trimmed ++ "]" else domain

def normalizeUsername (txt : Text) (username : String) : String :=
  match split username '@' with
  | [localpart,domain] => localpart ++ "@" ++ wrapIP txt domain
  | _ => wrapIP txt username

/-- `ValidateLoginDomain`, as whether the error is nil. -/
def validateLoginDomain (txt : Text) (username expectedDomain : String) : Bool :=
  if expectedDomain = "" then true
  else if contains username '%' then false
  else
    match split username '@' with
    | [localpart,domain] => localpart ≠ "" ∧ txt.equalFold (wrapIP txt domain) expectedDomain
    | _ => false

/-- A `module.Table`. `isMutable` says whether it is a `MutableTable`, the other
flags which queries a `table.sql_query` is configured with. -/
structure Table where
  modName : String
  entries : String → Option String
  isMutable : Bool
  upsertQuery : Bool
  setQuery : Bool
  addQuery : Bool

def Table.lookup (t : Table) (fault : Option Err) (key : String) : String × Bool × Option Err :=
  match fault with
  | some e => ("",false,some e)
  | none =>
    match t.entries key with
    | none => ("",false,none)
    | some value => (value,true,none)

def Table.put (t : Table) (key value : String) : Table :=
  { t with entries := Function.update t.entries key (some value) }

/-- `SQL.SetKey`. The query to update and the one to insert have the same
effect, since the lookup tells which of them applies. -/
def Table.setKey (t : Table) (lookupFault execFault : Option Err) (key value : String) :
    Table × Option Err :=
  if t.upsertQuery then
    match execFault with
    | some e => (t,some (.errorf (t.modName ++ ": upsert " ++ key ++ ": ") e))
    | none => (t.put key value,none)
  else if !t.setQuery then (t,some (.leaf (t.modName ++ ": table is not mutable (no 'set' query)") none))
  else if !t.addQuery then (t,some (.leaf (t.modName ++ ": table is not mutable (no 'add' query)") none))
  else
    match (t.lookup lookupFault key).2.2 with
    | some e => (t,some (.errorf (t.modName ++ ": set " ++ key ++ ": ") e))
    | none =>
      match execFault with
      | some e => (t,some (.errorf (t.modName ++ ": set " ++ key ++ ": ") e))
      | none => (t.put key value,none)

structure Auth where
  modName : String
  table : Table
  settingsTable : Option Table
  autoCreate : Bool
  jitDomain : String

inductive Query where
  | lookup | jitEnabled | registrationOpen | setLookup | setExec | rehashLookup | rehashExec
  deriving DecidableEq, Repr

/-- What one login takes from the outside: which queries fail, and the random
salts. -/
structure Env where
  fault : Query → Option Err
  salt : Except Err Bytes
  rehashSalt : Except Err Bytes

def Auth.settings (a : Auth) : Table := a.settingsTable.getD a.table

def isRegistrationOpen (a : Auth) (env : Env) : Except Err Bool :=
  match a.settings.lookup (env.fault .registrationOpen) "__REGISTRATION_OPEN__" with
  | (_,_,some e) => .error e
  | (_,false,none) => .ok a.autoCreate
  | (value,true,none) => .ok (value = "true")

def isJitRegistrationEnabled (a : Auth) (env : Env) : Except Err Bool :=
  match a.settings.lookup (env.fault .jitEnabled) "__JIT_REGISTRATION_ENABLED__" with
  | (_,_,some e) => .error e
  | (_,false,none) => isRegistrationOpen a env
  | (value,true,none) => .ok (value = "true")

def newEntry (c : Crypto) (salt : Except Err Bytes) (password : String) : Except Err String :=
  (computeSHA256 c salt password).map (fun hash => defaultHash.name ++ ":" ++ hash)

/-- `CreateUserIfNotExists` and `SetUserPassword`: the two differ in the texts
of their errors only. `doing` is what those say. -/
def storePassword (doing : String) (txt : Text) (c : Crypto) (a : Auth) (salt : Except Err Bytes)
    (lookupFault execFault : Option Err) (username password : String) : Auth × Option Err :=
  if !a.table.isMutable then
    (a,some (.leaf (a.modName ++ ": table is not mutable, no management functionality available")
      none))
  else
    let username := normalizeUsername txt username
    match txt.compareKey username with
    | .error e => (a,some (.errorf (a.modName ++ ": " ++ doing ++ " " ++ username ++ " (raw): ") e))
    | .ok key =>
      match newEntry c salt password with
      | .error e =>
        (a,some (.errorf (a.modName ++ ": " ++ doing ++ " " ++ key ++ ": hash generation: ") e))
      | .ok value =>
        match a.table.setKey lookupFault execFault key value with
        | (_,some e) => (a,some (.errorf (a.modName ++ ": " ++ doing ++ " " ++ key ++ ": ") e))
        | (table,none) => ({ a with table := table },none)

def createUserIfNotExists := storePassword "create user"

def setUserPassword := storePassword "set password"

def errUnknownCredentials : Err := .leaf "unknown credentials" none

/-- The check of a stored entry, and whether it uses an outdated algorithm. -/
def verifyEntry (c : Crypto) (modName key entry password : String) : Outcome Bool :=
  match splitN entry ':' 2 with
  | [tag,hashSalt] =>
    match algoOf tag with
    | none => .err (.leaf (modName ++ ": auth plain " ++ key ++ ": unknown hash: " ++ tag) none)
    | some algo =>
      match hashVerify c algo password hashSalt with
      | .ok () => .ok (algo ≠ defaultHash)
      | .err e => .err e
      | .panicked => .panicked
  | _ => .err (.leaf (modName ++ ": auth plain " ++ key ++ ": no hash tag") none)

/-- `AuthPlain`, together with the goroutine it may start: the module after both
have returned, and the result. -/
def authPlain (txt : Text) (c : Crypto) (a : Auth) (env : Env) (username password : String) :
    Auth × Outcome Unit :=
  let username := normalizeUsername txt username
  match txt.compareKey username with
  | .error e => (a,.err e)
  | .ok key =>
    match a.table.lookup (env.fault .lookup) key with
    -- The error of the lookup is only looked at below.
    | (_,false,_) =>
      match isJitRegistrationEnabled a env with
      | .error e => (a,.err e)
      | .ok false => (a,.err errUnknownCredentials)
      | .ok true =>
        if !validateLoginDomain txt username a.jitDomain then (a,.err errUnknownCredentials)
        else
          match createUserIfNotExists txt c a env.salt (env.fault .setLookup) (env.fault .setExec)
            username password with
          | (a',some e) =>
            (a',.err (.errorf (a.modName ++ ": auto-create failed for " ++ key ++ ": ") e))
          | (a',none) => (a',.ok ())
    | (_,true,some e) => (a,.err e)
    | (hash,true,none) =>
      match verifyEntry c a.modName key hash password with
      | .err e => (a,.err e)
      | .panicked => (a,.panicked)
      | .ok false => (a,.ok ())
      | .ok true =>
        ((setUserPassword txt c a env.rehashSalt (env.fault .rehashLookup) (env.fault .rehashExec)
          username password).1,.ok ())

end Madmail.PassTable
