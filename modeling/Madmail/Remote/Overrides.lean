import Madmail.Remote.EndpointCache

namespace Madmail.Overrides
open Lib EndpointCache

structure Row where
  targetHost : String
  comment : String
  deriving DecidableEq, Repr

abbrev Table := String → Option Row

/-- What the code is given. Lower-casing goes by characters, and nothing else becomes
one of the marks that a key is trimmed by. -/
structure Env where
  low : Char → Char
  low_mark : ∀ c mark, mark ∈ ['.','[',']'] → (low c = mark ↔ c = mark)
  isIP : String → Bool
  -- the text of the database's error for a key that is there already
  duplicate : String

/-- `Save` of the database, which updates the row of the key or makes it. With an
empty key it only ever makes one. -/
def save (env : Env) (table : Table) (key : String) (row : Row) : Except String Table :=
  if key = "" ∧ (table key).isSome then .error env.duplicate
  else .ok (Function.update table key (some row))

def remove (table : Table) (key : String) : Table := Function.update table key none

section Cache
variable (env : Env)

def toLower (s : String) : String := String.ofList (s.toList.map env.low)

def cacheOf (table : Table) : Cache :=
  { find := fun key => .ok ((table key).map Row.targetHost)
    toLower := toLower env
    isIP := env.isIP }

def storedKey (lookupKey : String) : String := Strings.trimSuffix (toLower env lookupKey) "."

def set (table : Table) (lookupKey targetHost comment : String) : Except String Table :=
  save env table (storedKey env lookupKey) ⟨targetHost,comment⟩

def get (table : Table) (lookupKey : String) : Option Row := table (storedKey env lookupKey)

def delete (table : Table) (lookupKey : String) : Table := remove table (storedKey env lookupKey)

/-- `EndpointCacheHandler` for a decoded `POST`: the status, the text of the error,
and the table. -/
def handlePost (table : Table) (lookupKey targetHost comment : String) :
    Nat × Option String × Table :=
  if lookupKey = "" ∨ targetHost = "" then
    (400,some "lookup_key and target_host are required",table)
  else
    match save env table lookupKey ⟨targetHost,comment⟩ with
    | .error err => (500,some ("failed to save endpoint override: " ++ err),table)
    | .ok table => (201,none,table)

def endpointCacheSet (table : Table) (lookupKey targetHost comment : String) :
    Except String Table :=
  match save env table lookupKey ⟨targetHost,comment⟩ with
  | .error err => .error ("failed to set endpoint override: " ++ err)
  | .ok table => .ok table

end Cache

inductive Writer where
  | cache | admin | cli
  deriving DecidableEq, Repr

def Writer.store (env : Env) (table : Table) (lookupKey targetHost comment : String) :
    Writer → Option Table
  | .cache => (set env table lookupKey targetHost comment).toOption
  | .admin =>
    match handlePost env table lookupKey targetHost comment with
    | (201,_,table) => some table
    | _ => none
  | .cli => (endpointCacheSet env table lookupKey targetHost comment).toOption

end Madmail.Overrides
