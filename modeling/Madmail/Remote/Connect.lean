import Madmail.Remote.EndpointCache
import Madmail.Smtpconn.Conn
import Madmail.Smtpconn.Pool

namespace Madmail.Remote
open Exterrors Madmail.Module Lib EndpointCache Smtpconn

inductive TLSLevel where
  | none | encrypted | authenticated
  deriving DecidableEq, Repr

inductive MXLevel where
  | none | mtasts | dnssec
  deriving DecidableEq, Repr

def TLSLevel.rank : TLSLevel → Nat
  | none => 0
  | encrypted => 1
  | authenticated => 2

def MXLevel.rank : MXLevel → Nat
  | none => 0
  | mtasts => 1
  | dnssec => 2

def TLSLevel.raise (level policyLevel : TLSLevel) : TLSLevel :=
  if level.rank < policyLevel.rank then policyLevel else level

def MXLevel.raise (level policyLevel : MXLevel) : MXLevel :=
  if level.rank < policyLevel.rank then policyLevel else level

structure Policy where
  checkMX : MXLevel → String → String → Bool → Except Err MXLevel
  checkConn : MXLevel → TLSLevel → String → String → TLSState → Except Err TLSLevel

inductive CheckKind where
  | mx | conn
  deriving DecidableEq, Repr

structure PolicyCheck where
  policy : Nat
  kind : CheckKind
  passed : Bool
  deriving DecidableEq, Repr

structure TLSConfig where
  insecureSkipVerify : Bool := false
  deriving DecidableEq, Repr

structure MX where
  host : String
  pref : Nat
  deriving DecidableEq, Repr

/-- `remote.Target`: its settings, the numbers of its policies, and the functions
on text that the code is given. -/
structure Target where
  hostname : String
  ipv4 : Bool := false
  tlsConfig : Option TLSConfig := some {}
  extResolver : Bool := true
  endpointRewrite : String := ""
  policies : List Nat := []
  allowSecOverride : Bool := true
  relaxedREQUIRETLS : Bool := true
  connReuseLimit : Nat := 10
  pool : Pool.Config
  smtp : Smtpconn.Env
  toLower : String → String
  isIP : String → Bool
  isIPv4 : String → Bool

/-- What one call of `newConn` meets. Policies and servers may answer differently
for each MX record, and servers for each attempt at one. -/
structure Net where
  policy : Nat → Nat → Policy
  dial : Nat → Nat → String → Except Err Server
  authLookupMX : String → Except Err (Bool × List MX)
  lookupMX : String → Except Err (List MX)
  -- `sort.Slice`, which may order records of one preference in any way
  sortMX : List MX → List MX
  sortMX_perm : ∀ records, (sortMX records).Perm records
  sortMX_sorted : ∀ records, (sortMX records).Pairwise (fun a b => a.pref ≤ b.pref)
  lookupIP4 : String → Except Err (List String)
  isVerifyError : Err → Bool
  -- the text of a `net.DNSError`
  dnsReason : Err → String

structure MxConn where
  c : C
  domain : String
  dnssecOk : Bool := false
  errored : Bool := false
  reuseLimit : Nat
  transactions : Nat := 0
  lastUseAt : Int
  mxLevel : MXLevel := .none
  tlsLevel : TLSLevel := .none
  checks : List PolicyCheck := []

namespace MxConn

def usable (conn : MxConn) : MxConn × Bool :=
  if conn.transactions > conn.reuseLimit ∨ conn.c.cl.isNone ∨ conn.errored then (conn,false)
  else
    let (c,err) := conn.c.ask .reset
    ({ conn with c := c },err.isNone)

def close (conn : MxConn) : MxConn := { conn with c := conn.c.close }

def pooled : Pool.Conn MxConn := { usable := usable, lastUseAt := lastUseAt }

end MxConn

def fqdn (domain : String) : String :=
  if Strings.hasSuffix domain "." then domain else domain ++ "."

section Opening
variable (rt : Target) (net : Net) (cache : Option Cache)

/-- The record for an address, and whether it comes from an override. -/
def addressMX (host : String) : Bool × List MX × Bool :=
  match cache with
  | none => (false,[⟨host,0⟩],false)
  | some cache =>
    let resolved := cache.resolve host
    if resolved ≠ host then (false,[⟨resolved,0⟩],true) else (false,[⟨host,0⟩],false)

def addressLiteral (domain : String) : Option String :=
  if Strings.hasPrefix domain "[" && Strings.hasSuffix domain "]" then
    let host := stripIPv6 rt.toLower (String.ofList (domain.toList.drop 1).dropLast)
    if rt.isIP host then some host else none
  else none

def resolverMX (domain : String) : Except Err (Bool × List MX) :=
  if rt.extResolver then net.authLookupMX domain
  else (net.lookupMX (fqdn domain)).map (fun records => (false,records))

/-- `lookupMX`: whether the records are signed, the records, and whether they come
from an override. -/
def lookupMX (domain : String) : Except Err (Bool × List MX × Bool) :=
  match addressLiteral rt domain with
  | some host => .ok (addressMX cache host)
  | none =>
    if rt.isIP domain then .ok (addressMX cache domain)
    else
      match cache.bind (fun cache => cache.resolveMX domain) with
      | some target => .ok (false,[⟨target,0⟩],true)
      | none =>
        match resolverMX rt net domain with
        | .error e =>
          .error (.smtpWrap
            { code := smtpCode e 451 554
              enhancedCode := smtpEnchCode e ⟨0,4,4⟩
              message := "MX lookup error"
              targetName := "remote"
              reason := net.dnsReason e } e)
        | .ok (dnssecOk,records) =>
          let records := net.sortMX records
          .ok (dnssecOk,if records = [] then [⟨domain,0⟩] else records,false)

def connectHost (host : String) : String :=
  let connectHost := match cache with
    | none => host
    | some cache =>
      let resolved := cache.resolve host
      if resolved ≠ "" then resolved else host
  if rt.ipv4 then
    if !rt.isIP connectHost then
      match net.lookupIP4 connectHost with
      | .ok (addr :: _) => addr
      | _ => connectHost
    else if !rt.isIPv4 connectHost then
      match net.lookupIP4 (Strings.trimSuffix host ".") with
      | .ok (addr :: _) => addr
      | _ => connectHost
    else connectHost
  else connectHost

inductive Attempt where
  | done (res : Except Err (TLSLevel × Option Err))
  | retry (tlsCfg : Option TLSConfig) (tlsLevel : TLSLevel) (tlsErr : Err)

/-- From the label `retry` of `connect` to its end, or to where it goes back. -/
def attempt (dialled : Except Err Server) (host : String) (c : C) (tlsCfg : Option TLSConfig)
    (tlsLevel : TLSLevel) (tlsErr : Option Err) : C × Attempt :=
  match c.connect rt.smtp host dialled with
  | (c,some e) => (c,.done (.error e))
  | (c,none) =>
    match tlsCfg with
    | none => (c,.done (.ok (.none,tlsErr)))
    | some cfg =>
      if !c.extension "STARTTLS" then (c,.done (.ok (.none,tlsErr)))
      else
        match c.ask (.startTLS cfg.insecureSkipVerify) with
        | (c,some e) => (c.directClose,.done (.error e))
        | (c,none) =>
          match c.ask (.hello rt.hostname) with
          | (c,none) => (c,.done (.ok (tlsLevel,tlsErr)))
          | (c,some e) =>
            if net.isVerifyError e ∧ tlsLevel = .authenticated then
              (c.directClose,.retry (some { insecureSkipVerify := true }) .encrypted e)
            else (c.directClose,.retry none .none e)

def attempts (record : Nat) (host : String) :
    Nat → Nat → C → Option TLSConfig → TLSLevel → Option Err →
      C × Except Err (TLSLevel × Option Err)
  | 0, _, c, _, _, _ => (c,.error (.leaf "out of attempts" none))
  | left + 1, made, c, tlsCfg, tlsLevel, tlsErr =>
    match attempt rt net (net.dial record made host) host c tlsCfg tlsLevel tlsErr with
    | (c,.done res) => (c,res)
    | (c,.retry tlsCfg tlsLevel tlsErr) =>
      attempts record host left (made + 1) c tlsCfg tlsLevel (some tlsErr)

/-- `connect`. There are never more than three attempts. -/
def connect (record : Nat) (c : C) (host : String) : C × Except Err (TLSLevel × Option Err) :=
  let dialHost := connectHost rt net cache host
  if rt.isIP dialHost then
    attempts rt net record dialHost 3 0 c (some { insecureSkipVerify := true }) .encrypted none
  else attempts rt net record dialHost 3 0 c rt.tlsConfig .authenticated none

/-- A loop over policies: each sees the level so far and may raise it. -/
def consult {L : Type} (kind : CheckKind) (raise : L → L → L) (ask : Nat → L → Except Err L) :
    List Nat → L → List PolicyCheck × Except Err L
  | [], level => ([],.ok level)
  | p :: rest, level =>
    match ask p level with
    | .error e => ([⟨p,kind,false⟩],.error e)
    | .ok policyLevel =>
      let (checks,res) := consult kind raise ask rest (raise level policyLevel)
      (⟨p,kind,true⟩ :: checks,res)

def checkConns (policies : List Nat) (record : Nat) (conn : MxConn) (mx : MX) (mxLevel : MXLevel)
    (tlsLevel : TLSLevel) (tlsErr : Option Err) : MxConn × Option Err :=
  let (checks,res) := consult .conn TLSLevel.raise
    (fun p level =>
      (net.policy record p).checkConn mxLevel level conn.domain mx.host conn.c.tlsState)
    policies tlsLevel
  let conn := { conn with checks := conn.checks ++ checks }
  match res with
  | .error e =>
    (conn.close,some (.fieldsWrap e
      [("tls_err",match tlsErr with | none => .nil | some err => .str (errorText err))]))
  | .ok tlsLevel => ({ conn with mxLevel := mxLevel, tlsLevel := tlsLevel },none)

def attemptMX (policies : List Nat) (record : Nat) (conn : MxConn) (mx : MX)
    (cacheOverride : Bool) : MxConn × Option Err :=
  let policies := if cacheOverride then [] else policies
  let (checks,res) := consult .mx MXLevel.raise
    (fun p level => (net.policy record p).checkMX level conn.domain mx.host conn.dnssecOk)
    policies .none
  let conn := { conn with checks := checks }
  match res with
  | .error e => (conn,some e)
  | .ok mxLevel =>
    match connect rt net cache record conn.c mx.host with
    | (c,.error e) => ({ conn with c := c },some e)
    | (c,.ok (tlsLevel,tlsErr)) =>
      checkConns net policies record { conn with c := c } mx mxLevel tlsLevel tlsErr

/-- The loop of `newConn` over the records, with the number of the first one. -/
def attemptMXs (policies : List Nat) (cacheOverride : Bool) :
    Nat → List MX → MxConn → Option Err → Except Err (MxConn × Option Err)
  | _, [], conn, lastErr => .ok (conn,lastErr)
  | record, mx :: rest, conn, lastErr =>
    if mx.host = "." then
      .error (.smtp
        { code := 556
          enhancedCode := ⟨5,1,10⟩
          message := "Domain does not accept email (null MX)" })
    else
      match attemptMX rt net cache policies record conn mx cacheOverride with
      | (conn,none) => .ok (conn,lastErr)
      | (conn,some e) => attemptMXs policies cacheOverride (record + 1) rest conn (some e)

def noUsableMX (domain : String) (lastErr : Err) : Err :=
  .smtpWrap
    { code := smtpCode lastErr 451 550
      enhancedCode := smtpEnchCode lastErr ⟨0,4,0⟩
      message := "No usable MXs, last err: " ++ errorText lastErr
      targetName := "remote"
      misc := [("domain",.str domain)] } lastErr

/-- `newConn`. It goes by the client whether it is connected. -/
def newConn (policies : List Nat) (now : Int) (domain : String) : Except Err MxConn :=
  match lookupMX rt net cache domain with
  | .error e => .error e
  | .ok (dnssecOk,records,cacheOverride) =>
    let conn : MxConn :=
      { c := { hostname := rt.hostname }
        domain := domain
        dnssecOk := dnssecOk
        reuseLimit := rt.connReuseLimit
        lastUseAt := now }
    match attemptMXs rt net cache policies cacheOverride 0 records conn none with
    | .error e => .error e
    | .ok (conn,lastErr) =>
      if conn.c.cl.isNone then .error (noUsableMX domain (lastErr.getD C.errNilClient))
      else .ok conn

end Opening

end Madmail.Remote
