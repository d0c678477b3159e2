import Madmail.Limits.Limiters
import Madmail.Msgpipeline.Config

namespace Madmail.Limits
open Exterrors Msgpipeline.Config

/-- The functions of the standard library that read the arguments. -/
structure Readers where
  atoi : String → Except Err Int
  parseDuration : String → Except Err Int

def readArg (node : Node) (read : Except Err Int) : Except Err Int :=
  match read with
  | .error e => .error (nodeErr node (errorText e))
  | .ok n => .ok n

def rateCtor (readers : Readers) (node : Node) (args : List String) : Except Err Ctor :=
  match args with
  | [] => .error (nodeErr node "at least burst size is needed")
  | [burst] => do
    let burst ← readArg node (readers.atoi burst)
    -- one second
    return .rate burst 1000000000
  | [burst,period] => do
    let period ← readArg node (readers.parseDuration period)
    let burst ← readArg node (readers.atoi burst)
    return .rate burst period
  | _ => .error (nodeErr node "too many arguments")

def concurrencyCtor (readers : Readers) (node : Node) (args : List String) : Except Err Ctor :=
  match args with
  | [size] => do
    let size ← readArg node (readers.atoi size)
    return .concurrency size
  | _ => .error (nodeErr node "max concurrency value is needed")

/-- The limiters of each scope that `Init` has read so far. Those of the `all`
scope are made at once. -/
structure Scopes where
  globalL : List Limiter := []
  ipL : List Ctor := []
  sourceL : List Ctor := []
  destL : List Ctor := []

inductive InitErr where
  | err (e : Err)
  | panic
  deriving DecidableEq, Repr

def kindCtor (readers : Readers) (child : Node) : Except Err Ctor :=
  match child.args with
  | [] => .error (nodeErr child "at least two arguments are required")
  | "rate" :: args => rateCtor readers child args
  | "concurrency" :: args => concurrencyCtor readers child args
  | kind :: _ => .error (nodeErr child ("unknown limit kind: " ++ kind))

def addScope (scopes : Scopes) (child : Node) (ctor : Ctor) : Except InitErr Scopes :=
  match child.name with
  | "all" =>
    match ctor.make with
    | none => .error .panic
    | some l => .ok { scopes with globalL := scopes.globalL ++ [l] }
  | "ip" => .ok { scopes with ipL := scopes.ipL ++ [ctor] }
  | "source" => .ok { scopes with sourceL := scopes.sourceL ++ [ctor] }
  | "destination" => .ok { scopes with destL := scopes.destL ++ [ctor] }
  | scope => .error (.err (nodeErr child ("unknown limit scope: " ++ scope)))

def addChild (readers : Readers) (scopes : Scopes) (child : Node) : Except InitErr Scopes :=
  match kindCtor readers child with
  | .error e => .error (.err e)
  | .ok ctor => addScope scopes child ctor

def newLimit (ctors : List Ctor) : Option (List Limiter) := ctors.mapM Ctor.make

theorem newLimit_isSome_iff (ctors : List Ctor) :
    (newLimit ctors).isSome ↔ ∀ ctor ∈ ctors, 0 ≤ ctor.size := by
  induction ctors with
  | nil => simp [newLimit]
  | cons ctor rest ih =>
    rw [List.forall_mem_cons,← ih,← ctor.make_isSome_iff]
    simp only [newLimit,List.mapM_cons]
    cases ctor.make with
    | none => simp
    | some l => cases List.mapM Ctor.make rest <;> simp

def bucketSet (given made : List Ctor) : Option (BucketSet (List Limiter)) :=
  if given = [] then none
  else some { new := newLimit made, reapInterval := 60000000000, maxBuckets := 20010 }

structure Group where
  global : List Limiter
  ip : Option (BucketSet (List Limiter))
  source : Option (BucketSet (List Limiter))
  dest : Option (BucketSet (List Limiter))

def readScopes (readers : Readers) (children : List Node) : Except InitErr Scopes :=
  children.foldlM (addChild readers) {}

def Scopes.group (scopes : Scopes) : Group :=
  { global := scopes.globalL
    ip := bucketSet scopes.ipL scopes.ipL
    source := bucketSet scopes.sourceL scopes.sourceL
    -- the limits of the source scope, once more
    dest := bucketSet scopes.destL scopes.sourceL }

def Group.init (readers : Readers) (children : List Node) : Except InitErr Group := do
  let scopes ← readScopes readers children
  return scopes.group

inductive Scope where
  | all | ip | source
  deriving DecidableEq, Repr

def multiOps : L (List Limiter) (Nat → Choice) := MultiLimit.ops Limiter.ops

def takeIn (set : Option (BucketSet (List Limiter))) (key : String) (now : Int)
    (choice : Nat → Choice) : Option (BucketSet (List Limiter)) × Outcome :=
  match set with
  | none => (none,.nil)
  | some s =>
    let (s,outcome) := s.takeContext multiOps key now choice
    (some s,outcome)

def releaseIn (set : Option (BucketSet (List Limiter))) (key : String) :
    Option (BucketSet (List Limiter)) × Bool :=
  match set with
  | none => (none,false)
  | some s =>
    let (s,panics) := s.release multiOps key
    (some s,panics)

namespace Group

def releaseGlobal (g : Group) : Group × Bool :=
  let (global,panics) := multiOps.release g.global
  ({ g with global := global },panics)

def releaseIP (g : Group) (addr : String) : Group × Bool :=
  let (ip,panics) := releaseIn g.ip addr
  ({ g with ip := ip },panics)

def releaseSource (g : Group) (domain : String) : Group × Bool :=
  let (source,panics) := releaseIn g.source domain
  ({ g with source := source },panics)

def undoGlobal (g : Group) (e : Err) : Group × Outcome :=
  match g.releaseGlobal with
  | (g,true) => (g,.panic)
  | (g,false) => (g,.err e)

def undoBoth (g : Group) (addr : String) (e : Err) : Group × Outcome :=
  match g.releaseGlobal with
  | (g,true) => (g,.panic)
  | (g,false) =>
    -- `g.ip.Release` is called on a nil pointer if the `ip` scope has no limits.
    if g.ip.isNone then (g,.panic)
    else
      match g.releaseIP addr with
      | (g,true) => (g,.panic)
      | (g,false) => (g,.err e)

/-- `TakeMsg`. The address is given as the text that `addr.String()` makes of
it. -/
def takeMsg (g : Group) (addr domain : String) (now : Int) (choice : Scope → Nat → Choice) :
    Group × Outcome :=
  match multiOps.takeContext g.global (choice .all) with
  | (global,.nil) =>
    let g := { g with global := global }
    match takeIn g.ip addr now (choice .ip) with
    | (ip,.nil) =>
      let g := { g with ip := ip }
      match takeIn g.source domain now (choice .source) with
      | (source,.err e) => undoBoth { g with source := source } addr e
      | (source,outcome) => ({ g with source := source },outcome)
    | (ip,.err e) => undoGlobal { g with ip := ip } e
    | (ip,.panic) => ({ g with ip := ip },.panic)
  | (global,outcome) => ({ g with global := global },outcome)

def releaseMsg (g : Group) (addr domain : String) : Group × Bool :=
  match g.releaseGlobal with
  | (g,true) => (g,true)
  | (g,false) =>
    match g.releaseIP addr with
    | (g,true) => (g,true)
    | (g,false) => g.releaseSource domain

def takeDest (g : Group) (domain : String) (now : Int) (choice : Nat → Choice) : Group × Outcome :=
  let (dest,outcome) := takeIn g.dest domain now choice
  ({ g with dest := dest },outcome)

def releaseDest (g : Group) (domain : String) : Group × Bool :=
  let (dest,panics) := releaseIn g.dest domain
  ({ g with dest := dest },panics)

end Group

/-- A group, and the calls of `TakeMsg` that have succeeded and are not yet
released, by their arguments. -/
structure World where
  group : Group
  taken : List (String × String) := []

inductive Call where
  | takeMsg (addr domain : String) (now : Int) (choice : Scope → Nat → Choice)
  -- the release of a call that has succeeded
  | releaseMsg (addr domain : String)

def World.step (w : World) : Call → Option World
  | .takeMsg addr domain now choice =>
    match w.group.takeMsg addr domain now choice with
    | (g,.nil) => some ⟨g,(addr,domain) :: w.taken⟩
    | (g,_) => some { w with group := g }
  | .releaseMsg addr domain =>
    if (addr,domain) ∈ w.taken then
      some ⟨(w.group.releaseMsg addr domain).1,w.taken.erase (addr,domain)⟩
    else none

end Madmail.Limits
