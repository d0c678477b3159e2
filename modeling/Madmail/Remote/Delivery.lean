import Madmail.Lib.Runs
import Madmail.Remote.Connect
import Madmail.Remote.Http
import Mathlib.Data.List.Sort

namespace Madmail.Remote
open Exterrors Madmail.Module Lib EndpointCache Smtpconn Function

def moduleError (err : Err) : Err := .fieldsWrap err [("target",.str "remote")]

/-- The reading of the buffer with the message: what opening it gives, and what
stops the copying. -/
structure Reading where
  openErr : Option Err := none
  copyErr : Option Err := none

inductive Routine where
  -- about to try HTTP
  | http
  -- in `connectionForDomain`: about to get a connection, to check it, to look for
  -- REQUIRETLS, and to send MAIL
  | acquire
  | check (conn : MxConn)
  | relax (conn : MxConn)
  | mail (conn : MxConn)
  -- `connectionForDomain` has returned
  | connected (conn : MxConn)
  -- done: by HTTP, without a connection, and with one, as `connectionForDomain`
  -- had returned it
  | delivered
  | failed (err : Err)
  | sent (conn : MxConn) (reading : Reading)

namespace Routine

def done : Routine → Bool
  | delivered | failed _ | sent _ _ => true
  | _ => false

def holds : Routine → Option MxConn
  | check conn | relax conn | mail conn | connected conn => some conn
  | _ => none

end Routine

/-- How far the calls of a delivery are. `BodyNonAtomic` starts no goroutines for a
message in quarantine. -/
inductive Phase where
  | opened
  | body (quarantine : Bool)
  | closed
  deriving DecidableEq, Repr

structure Delivery where
  mailFrom : String
  msgMeta : MsgMetadata
  phase : Phase := .opened
  recipients : List String := []
  domains : List String := []
  rcptsByDomain : String → List String := fun _ => []
  connections : String → Option MxConn := fun _ => none
  policies : List Nat
  -- the flag when the delivery was started
  requireTLS : Bool := msgMeta.smtpOpts.requireTLS
  routines : String → Option Routine := fun _ => none
  message : Message := ⟨[],""⟩

def overridden (rt : Target) (msgMeta : MsgMetadata) : Bool :=
  msgMeta.tlsRequireOverride && rt.allowSecOverride

/-- `Start`. `limited` is the error of the message limits, if they give one. -/
def start (rt : Target) (msgMeta : MsgMetadata) (mailFrom : String) (limited : Option Err) :
    Except Err Delivery :=
  match (if mailFrom = "" then .ok () else (Address.split mailFrom).map (fun _ => ())) with
  | .error e =>
    .error (.smtpWrap
      { code := 501
        enhancedCode := ⟨5,1,8⟩
        message := "Malformed sender address"
        targetName := "remote" } e)
  | .ok () =>
    match limited with
    | some e =>
      .error (.smtpWrap
        { code := 451
          enhancedCode := ⟨4,4,5⟩
          message := "High load, try again later"
          reason := "Global limit timeout"
          targetName := "remote" } e)
    | none =>
      .ok
        { mailFrom := mailFrom
          msgMeta := msgMeta
          policies := if overridden rt msgMeta then [] else rt.policies }

namespace Delivery

def addRcpt (rd : Delivery) (rcptTo : String) : Delivery × Option Err :=
  if rd.msgMeta.quarantine then
    (rd,some (.smtp
      { code := 550
        enhancedCode := ⟨5,7,0⟩
        message := "Refusing to deliver a quarantined message"
        targetName := "remote" }))
  else
    match Address.split rcptTo with
    | .error e => (rd,some e)
    | .ok (_,domain) =>
      if domain = "" then
        (rd,some (.smtp
          { code := 550
            enhancedCode := ⟨5,1,1⟩
            message := "<postmaster> address it no supported"
            targetName := "remote" }))
      else
        ({ rd with
            domains := if domain ∈ rd.domains then rd.domains else rd.domains ++ [domain]
            rcptsByDomain :=
              update rd.rcptsByDomain domain (rd.rcptsByDomain domain ++ [rcptTo])
            recipients := rd.recipients ++ [rcptTo] },none)

def quarantined : Err :=
  .smtp
    { code := 550
      enhancedCode := ⟨5,7,0⟩
      message := "Refusing to deliver quarantined message"
      targetName := "remote" }

end Delivery

def checkLevels (conn : MxConn) : Option Err :=
  if conn.tlsLevel.rank < TLSLevel.authenticated.rank then
    some (.smtp
      { code := 550
        enhancedCode := ⟨5,7,30⟩
        message := "TLS it not available or unauthenticated but required (REQUIRETLS)"
        misc := [("tls_level",.int conn.tlsLevel.rank)] })
  else if conn.mxLevel.rank < MXLevel.mtasts.rank then
    some (.smtp
      { code := 550
        enhancedCode := ⟨5,7,30⟩
        message := "Failed to establish the MX record authenticity (REQUIRETLS)"
        misc := [("mx_level",.int conn.mxLevel.rank)] })
  else none

/-- RCPT for one recipient after the other, with the statuses of those that the
server does not take. -/
def rcpts (env : Smtpconn.Env) : List String → C → C × List Status
  | [], c => (c,[])
  | rcpt :: rest, c =>
    match c.rcpt env rcpt with
    | (c,some e) =>
      let (c,statuses) := rcpts env rest c
      (c,(rcpt,some (moduleError e)) :: statuses)
    | (c,none) => rcpts env rest c

/-- The rest of the goroutine once it has a connection: the connection, the
statuses, and whether a part of the message went out. -/
def transfer (env : Smtpconn.Env) (conn : MxConn) (rcptsTo : List String) (msg : Message)
    (reading : Reading) (now : Int) : MxConn × List Status × Bool :=
  let (c,statuses) := rcpts env rcptsTo conn.c
  match reading.openErr with
  | some e => ({ conn with c := c },statuses ++ c.rcpts.map (fun rcpt => (rcpt,some e)),false)
  | none =>
    let (c',err) := c.data env msg.header msg.body reading.copyErr
    ({ conn with c := c', errored := err.isSome, lastUseAt := now },
      statuses ++ c'.rcpts.map (fun rcpt => (rcpt,err)),c.dataGoesOut)

def Delivery.statuses (rt : Target) (rd : Delivery) (domain : String) : List Status :=
  match rd.routines domain with
  | some .delivered => (rd.rcptsByDomain domain).map (fun rcpt => (rcpt,none))
  | some (.failed e) => (rd.rcptsByDomain domain).map (fun rcpt => (rcpt,some e))
  | some (.sent conn reading) =>
    (transfer rt.smtp conn (rd.rcptsByDomain domain) rd.message reading 0).2.1
  | _ => []

/-- `SetStatus` of `multipleErrs`, for one call after the other. -/
def multipleErrs (statuses : List Status) : String → Option (Option Err) :=
  statuses.foldl (fun errs status => update errs status.1 (some status.2)) (fun _ => none)

def bodyNil (statuses : List Status) : Bool :=
  statuses.all (fun status => multipleErrs statuses status.1 == some none)

inductive Via where
  | http (url : String)
  | smtp (conn : MxConn)

structure Move where
  pool : Pool.P MxConn
  routine : Routine
  -- whether it takes REQUIRETLS off the message, which all goroutines share
  relaxes : Bool := false
  connection : Option MxConn := none
  sent : List Via := []

inductive Step where
  | http (env : HttpEnv)
  | acquire (net : Net) (now : Int)
  | check (takeDest : Option Err)
  | relax
  | mail (now : Int)
  | transfer (reading : Reading) (now : Int)

def acquire (rt : Target) (cache : Option Cache) (pool : Pool.P MxConn) (rd : Delivery)
    (domain : String) (net : Net) (now : Int) : Pool.P MxConn × Except Err MxConn :=
  match pool.get MxConn.pooled rt.pool now domain with
  | (pool,some conn) =>
    if !rd.msgMeta.smtpOpts.requireTLS then (pool,.ok conn)
    else (pool,newConn rt net cache rd.policies now domain)
  | (pool,none) => (pool,newConn rt net cache rd.policies now domain)

def Delivery.move (rt : Target) (cache : Option Cache) (pool : Pool.P MxConn) (rd : Delivery)
    (domain : String) : Routine → Step → Option Move
  | .http, .http env =>
    let tried := tryHTTP ⟨rt.endpointRewrite,cache⟩ env rd.mailFrom domain (rd.rcptsByDomain domain)
      rd.message
    some
      { pool := pool
        routine := if tried.err.isNone then .delivered else .acquire
        sent := (tried.requests.filter (fun request => request.2)).map
          (fun request => .http request.1) }
  | .acquire, .acquire net now =>
    let (pool,res) := acquire rt cache pool rd domain net now
    some
      { pool := pool
        routine := match res with
          | .error e => .failed e
          | .ok conn => .check conn }
  | .check conn, .check takeDest =>
    let refusal := if rd.msgMeta.smtpOpts.requireTLS then checkLevels conn else none
    some
      { pool := pool
        routine := match refusal <|> takeDest with
          | some e => .failed e
          | none => .relax conn }
  | .relax conn, .relax =>
    some
      { pool := pool
        relaxes := rt.relaxedREQUIRETLS && !conn.c.extension "REQUIRETLS"
        routine := .mail conn }
  | .mail conn, .mail now =>
    match conn.c.mail rt.smtp rd.mailFrom rd.msgMeta.smtpOpts with
    | (_,some e) =>
      some { pool := pool, routine := .failed e }
    | (c,none) =>
      let conn := { conn with c := c, lastUseAt := now }
      some
        { pool := pool
          routine := .connected conn
          connection := some conn }
  | .connected conn, .transfer reading now =>
    let (conn',_,out) := transfer rt.smtp conn (rd.rcptsByDomain domain) rd.message reading now
    some
      { pool := pool
        routine := .sent conn reading
        connection := some conn'
        sent := if out then [.smtp conn'] else [] }
  | _, _ => none

def Delivery.moved (rd : Delivery) (domain : String) (m : Move) : Delivery :=
  { rd with
    msgMeta :=
      { rd.msgMeta with smtpOpts := { rd.msgMeta.smtpOpts with
        requireTLS := !m.relaxes && rd.msgMeta.smtpOpts.requireTLS } }
    routines := update rd.routines domain (some m.routine)
    connections := match m.connection with
      | none => rd.connections
      | some conn => update rd.connections domain (some conn) }

/-- A message that went out: its domain, whether it asked for REQUIRETLS when its
delivery was started, whether it turns the policies off, and whether the cache had
an override for the domain. -/
structure Sent where
  domain : String
  via : Via
  requireTLS : Bool
  overridden : Bool
  cacheOverride : Bool

structure World where
  pool : Pool.P MxConn := {}
  cache : Option Cache := none
  deliveries : List Delivery := []
  sent : List Sent := []

def hasOverride (cache : Option Cache) (domain : String) : Bool :=
  (cache.bind (fun cache => cache.override domain)).isSome

def release (rt : Target) (now : Int) (pool : Pool.P MxConn) (conn : MxConn) : Pool.P MxConn :=
  match { conn with transactions := conn.transactions + 1 }.usable with
  | (_,false) => pool
  | (conn,true) => pool.returnConn rt.pool now conn.domain conn

def World.after (rt : Target) (w : World) (i : Nat) (domain : String) (rd : Delivery) (m : Move) :
    World :=
  { w with
    pool := m.pool
    deliveries := w.deliveries.set i (rd.moved domain m)
    sent := w.sent ++ m.sent.map (fun via =>
      ⟨domain,via,rd.requireTLS,overridden rt rd.msgMeta,hasOverride w.cache domain⟩) }

def Delivery.idle (rd : Delivery) : Bool :=
  rd.domains.all (fun domain => (rd.routines domain).all Routine.done)

/-- `BodyNonAtomic` up to where the goroutines run. -/
def Delivery.startBody (rd : Delivery) (message : Message) : Delivery :=
  if rd.msgMeta.quarantine then { rd with phase := .body true }
  else
    { rd with
      phase := .body false
      message := message
      routines := fun domain => if domain ∈ rd.domains then some .http else none }

inductive Action where
  | start (msgMeta : MsgMetadata) (mailFrom : String)
  | addRcpt (i : Nat) (rcptTo : String)
  -- the message is put in quarantine by another part of the server
  | quarantine (i : Nat)
  | body (i : Nat) (message : Message)
  | go (i : Nat) (domain : String) (step : Step)
  -- `Commit` or `Abort`, with the order of the map of connections
  | close (i : Nat) (order : List String) (now : Int)
  -- an administrator changes the endpoint cache
  | setCache (cache : Option Cache)
  | cleanUp (now : Int)

/-- One step of the target. The calls of a delivery come in the order of its
contract: recipients, the body once, and the end. -/
def step (rt : Target) (w : World) : Action → Option World
  | .start msgMeta mailFrom =>
    match start rt msgMeta mailFrom none with
    | .error _ => none
    | .ok rd => some { w with deliveries := w.deliveries ++ [rd] }
  | .addRcpt i rcptTo => do
    let rd ← w.deliveries[i]?
    if rd.phase = .opened then
      some { w with deliveries := w.deliveries.set i (rd.addRcpt rcptTo).1 }
    else none
  | .quarantine i => do
    let rd ← w.deliveries[i]?
    some { w with
      deliveries := w.deliveries.set i { rd with msgMeta := { rd.msgMeta with quarantine := true } } }
  | .body i message => do
    let rd ← w.deliveries[i]?
    if rd.phase = .opened then
      some { w with deliveries := w.deliveries.set i (rd.startBody message) }
    else none
  | .go i domain step => do
    let rd ← w.deliveries[i]?
    let routine ← rd.routines domain
    let m ← rd.move rt w.cache w.pool domain routine step
    some (w.after rt i domain rd m)
  | .close i order now => do
    let rd ← w.deliveries[i]?
    if rd.phase ≠ .closed ∧ rd.idle ∧ order.isPerm rd.domains then
      some { w with
        pool := (order.filterMap rd.connections).foldl (release rt now) w.pool
        deliveries := w.deliveries.set i { rd with phase := .closed } }
    else none
  | .setCache cache => some { w with cache := cache }
  | .cleanUp now => some { w with pool := w.pool.cleanUp rt.pool now }

def Target.plain : Target :=
  { hostname := "mx.example.com"
    policies := [0]
    pool :=
      { maxKeys := 10
        maxConnsPerKey := 10
        maxConnLifetimeSec := 100
        staleKeyLifetimeSec := 100 }
    smtp :=
      { idnaToASCII := fun domain =>
          if Address.isASCII domain then .ok domain else .error (.leaf "idna: not ASCII" none)
        idnaToASCII_ascii := fun domain ace h => by
          split at h
          · cases h
            assumption
          · cases h
        opError := fun _ => none }
    toLower := fun text => text
    isIP := fun _ => false
    isIPv4 := fun _ => false }

def HttpEnv.failing : HttpEnv :=
  { openBody := fun _ => some (.leaf "cannot open the body" none)
    writeHeader := fun _ => ""
    send := fun _ _ => { transmitted := false, code := .ok 500 } }

def serverWith (extensions : List String) : Server :=
  { reply := fun _ _ => none
    extension := fun _ name => name ∈ extensions
    tlsState := fun _ => { handshakeComplete := true, verifiedChains := true } }

def Policy.accepting (mxLevel : MXLevel) : Policy :=
  { checkMX := fun _ _ _ _ => .ok mxLevel
    checkConn := fun _ _ _ _ _ => .ok .none }

def Net.plain (policy : Policy) (server : Server) : Net :=
  { policy := fun _ _ => policy
    dial := fun _ _ _ => .ok server
    authLookupMX := fun domain => .ok (true,[⟨domain,10⟩])
    lookupMX := fun domain => .ok [⟨domain,10⟩]
    sortMX := List.insertionSort (fun a b => a.pref ≤ b.pref)
    sortMX_perm := List.perm_insertionSort _
    sortMX_sorted := fun records => by
      have : Std.Total (fun a b : MX => a.pref ≤ b.pref) := ⟨fun a b => Nat.le_total a.pref b.pref⟩
      have : IsTrans MX (fun a b => a.pref ≤ b.pref) := ⟨fun _ _ _ => Nat.le_trans⟩
      exact List.pairwise_insertionSort _ records
    lookupIP4 := fun _ => .ok []
    isVerifyError := fun _ => false
    dnsReason := fun _ => "" }

/-- A message is handed to the next delivery, whose number is given. -/
def handOver (i : Nat) (msgMeta : MsgMetadata) (rcptsTo : List String) : List Action :=
  .start msgMeta "eve@example.org" :: rcptsTo.map (.addRcpt i) ++ [.body i ⟨[],"text"⟩]

/-- The goroutine of a domain has no success by HTTP and passes the check of its connection. -/
def checkBySMTP (i : Nat) (domain : String) (net : Net) : List Action :=
  [.go i domain (.http .failing),.go i domain (.acquire net 0),.go i domain (.check none)]

def openBySMTP (i : Nat) (domain : String) (net : Net) : List Action :=
  checkBySMTP i domain net ++ [.go i domain .relax,.go i domain (.mail 0)]

def sendBySMTP (i : Nat) (domain : String) (net : Net) : List Action :=
  openBySMTP i domain net ++ [.go i domain (.transfer {} 0)]

end Madmail.Remote
