import Madmail.Framework.Future
import Madmail.Lib.Runs
import Madmail.Remote.Connect

namespace Madmail.Remote.Security
open Exterrors Lib Smtpconn Function

inductive Mode where
  | enforce | testing | none
  deriving DecidableEq, Repr

structure StsPolicy where
  mode : Mode
  mx : List String
  deriving DecidableEq, Repr

structure TLSA where
  usage : Nat
  selector : Nat
  matchingType : Nat
  certificate : String
  deriving DecidableEq, Repr

/-- What the policies are given: the MTA-STS cache, the resolver, and the functions
of libraries. Lookups of TLSA records may return both records and an error. -/
structure Env where
  mtastsGet : String → Except Err StsPolicy
  matchMX : StsPolicy → String → Bool
  checkCNAMEAD : String → Except Err (Bool × String)
  authLookupCNAME : String → Except Err (Bool × String)
  authLookupTLSA : String → Bool × List TLSA × Option Err
  isNotFound : Err → Bool
  verifyDANE : List TLSA → TLSState → Except Err Bool

section Checks
variable (env : Env)

/-- The rest of `CheckMX` of `mtastsDelivery` after it has a result. -/
def mtastsCheckMX (found : Except Err StsPolicy) (mx : String) : Except Err MXLevel :=
  match found with
  | .error _ => .ok .none
  | .ok policy =>
    if !env.matchMX policy mx then
      if policy.mode = .enforce then
        .error (.smtp
          { code := 550
            enhancedCode := ⟨5,7,0⟩
            message := "Failed to establish the MX record authenticity (MTA-STS)" })
      else .ok .none
    else .ok .mtasts

def mtastsCheckConn (found : Except Err StsPolicy) (tlsLevel : TLSLevel) (tlsState : TLSState) :
    Except Err TLSLevel :=
  match found with
  | .error _ => .ok .none
  | .ok policy =>
    if policy.mode ≠ .enforce then .ok .none
    else if !tlsState.handshakeComplete then
      .error (.smtp
        { code := 451
          enhancedCode := ⟨4,7,1⟩
          message := "TLS is required but unavailable or failed (MTA-STS)" })
    else if !tlsState.verifiedChains then
      .error (.smtp
        { code := 451
          enhancedCode := ⟨4,7,1⟩
          message := "Recipient server TLS certificate is not trusted but " ++
            "authentication is required by MTA-STS"
          misc := [("tls_level",.int tlsLevel.rank)] })
    else .ok .none

def tlsaAt (name : String) : Except Err (Option (List TLSA)) :=
  let (ad,recs,err) := env.authLookupTLSA name
  match err.filter (fun e => !env.isNotFound e) with
  | some e => .error e
  | none => .ok (if ad then some recs else none)

def discoverSigned (mx rname : String) : Except Err (List TLSA) :=
  let original := (tlsaAt env mx).map (fun recs => recs.getD [])
  if rname ≠ mx then
    match tlsaAt env rname with
    | .error e => .error e
    | .ok (some (rec :: recs)) => .ok (rec :: recs)
    | .ok _ => original
  else original

def discoverTLSA (mx : String) : Except Err (List TLSA) :=
  match env.checkCNAMEAD mx with
  | .error e => .error e
  | .ok (adA,rname) =>
    if rname = "" then .error (.leaf "no address associated with the host" none)
    else if !adA then
      if rname = mx then .ok []
      else
        match env.authLookupCNAME mx with
        | .error e => .error e
        | .ok (cnameAD,_) => if !cnameAD then .ok [] else discoverSigned env mx rname
    else discoverSigned env mx rname

/-- The rest of `CheckConn` of `daneDelivery` after it has a result. -/
def daneCheckConn (found : Except Err (List TLSA)) (tlsState : TLSState) : Except Err TLSLevel :=
  match found with
  | .error e => if env.isNotFound e then .ok .none else .error (.temporaryErr e true)
  | .ok recs =>
    match env.verifyDANE recs tlsState with
    | .error e => .error e
    | .ok overridePKIX => .ok (if overridePKIX then .authenticated else .none)

end Checks

/-- The field of a policy with a future, which all goroutines of a delivery share:
the futures that were made, each with what it was made for, the one that the field
holds, and the fetches under way. -/
structure Shared (ρ : Type) where
  futures : List (String × Future ρ) := []
  field : Option Nat := none
  fetches : List String := []

namespace Shared
variable {ρ : Type}

/-- `PrepareDomain` or `PrepareConn`: a new future, and a goroutine that fetches. -/
def prepare (s : Shared ρ) (key : String) : Shared ρ :=
  { futures := s.futures ++ [(key,{})]
    field := some s.futures.length
    fetches := s.fetches ++ [key] }

/-- The end of a fetch. The goroutine sets the future that it finds in the field by
then, which may not be the one it was started for. -/
def complete (s : Shared ρ) (key : String) (result : ρ) : Shared ρ :=
  { s with
    fetches := s.fetches.erase key
    futures := match s.field with
      | none => s.futures
      | some i => s.futures.modify i (fun f => (f.1,f.2.set result)) }

/-- The future in the field, with what it was made for. -/
def current (s : Shared ρ) : Option (String × Future ρ) := s.field.bind (fun i => s.futures[i]?)

end Shared

inductive Kind where
  | mtasts (env : Env)
  -- without a resolver it does nothing
  | dane (env : Env) (extResolver : Bool)
  | other (policy : Policy)

/-- A goroutine in `newConn`. The policies that a loop has still to call are given
by their numbers, and a call that waits for a future by that future. -/
inductive Pos where
  | prepareDomain (left : List Nat)
  | lookupMX
  | records (mxs : List String)
  | checkMX (left : List Nat) (mx : String) (mxs : List String) (mxLevel : MXLevel)
  -- `CheckMX` of MTA-STS
  | waitMX (p future : Nat) (left : List Nat) (mx : String) (mxs : List String)
      (mxLevel : MXLevel)
  | prepareConn (p : Nat) (left : List Nat) (mx : String) (mxs : List String) (mxLevel : MXLevel)
  | connect (mx : String) (mxs : List String) (mxLevel : MXLevel)
  | checkConn (left : List Nat) (mx : String) (mxs : List String) (mxLevel : MXLevel)
      (tlsLevel : TLSLevel) (tlsState : TLSState)
  -- `CheckConn` of MTA-STS and of DANE
  | waitConn (p future : Nat) (left : List Nat) (mx : String) (mxs : List String)
      (mxLevel : MXLevel) (tlsLevel : TLSLevel) (tlsState : TLSState)
  | waitTLSA (p future : Nat) (left : List Nat) (mx : String) (mxs : List String)
      (mxLevel : MXLevel) (tlsLevel : TLSLevel) (tlsState : TLSState)
  | done

structure Routine where
  pos : Pos
  dnssecOk : Bool := false
  cacheOverride : Bool := false

inductive Consult where
  | sts (p : Nat) (domain : String) (found : Except Err StsPolicy)
  | tlsa (p : Nat) (host : String) (found : Except Err (List TLSA))

structure World where
  sts : Nat → Shared (Except Err StsPolicy) := fun _ => {}
  tlsa : Nat → Shared (Except Err (List TLSA)) := fun _ => {}
  routines : String → Option Routine
  consults : List Consult := []

def init (policies : List Nat) (domains : List String) : World :=
  { routines := fun domain =>
      if domain ∈ domains then some { pos := .prepareDomain policies } else none }

/-- The steps of a goroutine, each with what it meets. A call of a policy that reads
a future is two steps: it takes the future from the field, and gets its result. -/
inductive Step where
  | prepareDomain
  | lookupMX (res : Except Err (Bool × List String × Bool))
  | record
  | checkMX
  | prepareConn
  | connect (res : Except Err (TLSLevel × TLSState))
  | checkConn
  | get (ctxErr : Option Err)

inductive Action where
  | go (domain : String) (step : Step)
  | fetchedPolicy (p : Nat) (domain : String)
  | fetchedTLSA (p : Nat) (host : String)

/-- What a step of a goroutine does: where it is then, what it has got from a
future, and what it has made a new future for. -/
structure Move where
  pos : Pos
  consult : Option Consult := none
  preparesSts : Option Nat := none
  preparesTLSA : Option (Nat × String) := none

section Machine
variable (kind : Nat → Kind) (policies : List Nat)

def mxChecked (p : Nat) (left : List Nat) (mx : String) (mxs : List String) (mxLevel : MXLevel) :
    Except Err MXLevel → Pos
  | .error _ => .records mxs
  | .ok policyLevel => .prepareConn p left mx mxs (mxLevel.raise policyLevel)

def connChecked (left : List Nat) (mx : String) (mxs : List String) (mxLevel : MXLevel)
    (tlsLevel : TLSLevel) (tlsState : TLSState) : Except Err TLSLevel → Pos
  | .error _ => .records mxs
  | .ok policyLevel => .checkConn left mx mxs mxLevel (tlsLevel.raise policyLevel) tlsState

def prepareDomain (p : Nat) (left : List Nat) : Move :=
  match kind p with
  | .mtasts _ => { pos := .prepareDomain left, preparesSts := some p }
  | _ => { pos := .prepareDomain left }

def prepareConn (p : Nat) (left : List Nat) (mx : String) (mxs : List String)
    (mxLevel : MXLevel) : Move :=
  match kind p with
  | .dane _ true => { pos := .checkMX left mx mxs mxLevel, preparesTLSA := some (p,mx) }
  | _ => { pos := .checkMX left mx mxs mxLevel }

/-- `CheckMX` of one policy, up to where it waits. A nil future makes the source
panic. -/
def checkMX (w : World) (domain : String) (dnssecOk : Bool) (p : Nat) (left : List Nat)
    (mx : String) (mxs : List String) (mxLevel : MXLevel) : Option Pos :=
  match kind p with
  | .mtasts _ => (w.sts p).field.map (fun future => .waitMX p future left mx mxs mxLevel)
  | .dane _ _ => some (mxChecked p left mx mxs mxLevel (.ok .none))
  | .other policy =>
    some (mxChecked p left mx mxs mxLevel (policy.checkMX mxLevel domain mx dnssecOk))

/-- `CheckConn` of one policy, up to where it waits. -/
def checkConn (w : World) (domain : String) (p : Nat) (left : List Nat) (mx : String)
    (mxs : List String) (mxLevel : MXLevel) (tlsLevel : TLSLevel) (tlsState : TLSState) :
    Option Pos :=
  match kind p with
  | .mtasts _ =>
    (w.sts p).field.map (fun future =>
      .waitConn p future left mx mxs mxLevel tlsLevel tlsState)
  | .dane _ true =>
    (w.tlsa p).field.map (fun future =>
      .waitTLSA p future left mx mxs mxLevel tlsLevel tlsState)
  | .dane _ false => some (connChecked left mx mxs mxLevel tlsLevel tlsState (.ok .none))
  | .other policy =>
    some (connChecked left mx mxs mxLevel tlsLevel tlsState
      (policy.checkConn mxLevel tlsLevel domain mx tlsState))

def resume (w : World) (domain : String) (ctxErr : Option Err) : Pos → Option Move
  | .waitMX p future left mx mxs mxLevel => do
    let (_,f) ← (w.sts p).futures[future]?
    let found ← f.getContext ctxErr
    match kind p with
    | .mtasts env =>
      some
        { pos := mxChecked p left mx mxs mxLevel (mtastsCheckMX env found mx)
          consult := f.result.map (.sts p domain) }
    | _ => none
  | .waitConn p future left mx mxs mxLevel tlsLevel tlsState => do
    let (_,f) ← (w.sts p).futures[future]?
    let found ← f.getContext ctxErr
    some
      { pos := connChecked left mx mxs mxLevel tlsLevel tlsState
          (mtastsCheckConn found tlsLevel tlsState)
        consult := f.result.map (.sts p domain) }
  | .waitTLSA p future left mx mxs mxLevel tlsLevel tlsState => do
    let (_,f) ← (w.tlsa p).futures[future]?
    let found ← f.getContext ctxErr
    match kind p with
    | .dane env _ =>
      some
        { pos := connChecked left mx mxs mxLevel tlsLevel tlsState
            (daneCheckConn env found tlsState)
          consult := f.result.map (.tlsa p mx) }
    | _ => none
  | _ => none

def move (w : World) (domain : String) (r : Routine) : Step → Option Move
  | .prepareDomain =>
    match r.pos with
    | .prepareDomain [] => some { pos := .lookupMX }
    | .prepareDomain (p :: left) => some (prepareDomain kind p left)
    | _ => none
  | .lookupMX res =>
    match r.pos, res with
    | .lookupMX, .error _ => some { pos := .done }
    | .lookupMX, .ok (_,mxs,_) => some { pos := .records mxs }
    | _, _ => none
  | .record =>
    match r.pos with
    | .records [] => some { pos := .done }
    | .records (mx :: mxs) =>
      if mx = "." then some { pos := .done }
      else
        let left := if r.cacheOverride then [] else policies
        some { pos := .checkMX left mx mxs .none }
    | _ => none
  | .checkMX =>
    match r.pos with
    | .checkMX [] mx mxs mxLevel => some { pos := .connect mx mxs mxLevel }
    | .checkMX (p :: left) mx mxs mxLevel =>
      (checkMX kind w domain r.dnssecOk p left mx mxs mxLevel).map (fun pos => { pos := pos })
    | _ => none
  | .prepareConn =>
    match r.pos with
    | .prepareConn p left mx mxs mxLevel => some (prepareConn kind p left mx mxs mxLevel)
    | _ => none
  | .connect res =>
    match r.pos, res with
    | .connect _ mxs _, .error _ => some { pos := .records mxs }
    | .connect mx mxs mxLevel, .ok (tlsLevel,tlsState) =>
      let left := if r.cacheOverride then [] else policies
      some { pos := .checkConn left mx mxs mxLevel tlsLevel tlsState }
    | _, _ => none
  | .checkConn =>
    match r.pos with
    | .checkConn [] _ _ _ _ _ => some { pos := .done }
    | .checkConn (p :: left) mx mxs mxLevel tlsLevel tlsState =>
      (checkConn kind w domain p left mx mxs mxLevel tlsLevel tlsState).map
        (fun pos => { pos := pos })
    | _ => none
  | .get ctxErr => resume kind w domain ctxErr r.pos

def Routine.moved (r : Routine) (st : Step) (pos : Pos) : Routine :=
  match st with
  | .lookupMX (.ok (dnssecOk,_,cacheOverride)) => ⟨pos,dnssecOk,cacheOverride⟩
  | _ => { r with pos := pos }

def World.moved (w : World) (domain : String) (r : Routine) (m : Move) : World :=
  { sts := match m.preparesSts with
      | none => w.sts
      | some p => update w.sts p ((w.sts p).prepare domain)
    tlsa := match m.preparesTLSA with
      | none => w.tlsa
      | some (p,mx) => update w.tlsa p ((w.tlsa p).prepare (fqdn mx))
    routines := update w.routines domain (some r)
    consults := w.consults ++ m.consult.toList }

def step (w : World) : Action → Option World
  | .go domain st => do
    let r ← w.routines domain
    let m ← move kind policies w domain r st
    some (w.moved domain (r.moved st m.pos) m)
  | .fetchedPolicy p domain =>
    match kind p with
    | .mtasts env =>
      if domain ∈ (w.sts p).fetches then
        some { w with
          sts := update w.sts p ((w.sts p).complete domain (env.mtastsGet domain)) }
      else none
    | _ => none
  | .fetchedTLSA p host =>
    match kind p with
    | .dane env _ =>
      if host ∈ (w.tlsa p).fetches then
        some { w with
          tlsa := update w.tlsa p ((w.tlsa p).complete host (discoverTLSA env host)) }
      else none
    | _ => none

end Machine

end Madmail.Remote.Security
