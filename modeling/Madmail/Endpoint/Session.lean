import Madmail.Framework.Address
import Madmail.Framework.Module

namespace Madmail.Smtp
open Exterrors Madmail.Module Address

structure Endpoint where
  idna : Idna
  deferServerReject : Bool
  authAlwaysRequired : Bool
  submission : Bool
  lmtp : Bool
  maxReceived : Nat

/-- What the pipeline knows of a message: everything it was given so far. -/
structure Envelope where
  msgMeta : MsgMetadata
  mailFrom : String
  rcpts : List String

/-- `s.delivery` together with `s.msgMeta`, which is set and cleared with it.
The number tells the deliveries of a session apart. -/
structure Delivery where
  num : Nat
  envelope : Envelope

/-- The answers a session gets while it handles one command. They depend on
what the session passes, and on nothing else of its state. -/
structure Env where
  msgID : Except Err String
  takeMsg : String → String → Option Err
  start : MsgMetadata → String → Option Err
  addRcpt : Envelope → String → Option Err
  readHeader : Except Err Header
  submissionPrepare : MsgMetadata → Header → Except Err (MsgMetadata × Header)
  buffer : Except Err String
  openBuffer : Option Err
  isAcceptedMessage : Header → String → Except Err Bool
  body : Envelope → Header → String → Option Err
  -- The statuses in the order they are reported.
  bodyNonAtomic : Envelope → Header → String → List (String × Option Err)
  commit : Envelope → Option Err

inductive Event where
  | takeMsg (ip domain : String)
  | releaseMsg (ip domain : String)
  | abort (num : Nat)
  | commit (num : Nat)
  deriving DecidableEq, Repr

structure Session where
  connState : ConnState
  mailFrom : String := ""
  opts : MailOptions := {}
  delivery : Option Delivery := none
  deliveryErr : Option GoSmtpError := none
  rcpts : List String := []
  -- How many deliveries were started, and the calls made so far.
  started : Nat := 0
  events : List Event := []

def Session.note (s : Session) (e : Event) : Session := { s with events := s.events ++ [e] }

def limitIP (conn : ConnState) : String := conn.remoteIP.getD "127.0.0.1"

def mangle (message : String) : String :=
  String.ofList (message.toList.map (fun ch => if ch.toNat > 128 then '?' else ch))

/-- `wrapErr` of an error that is not nil. The command only labels a metric. -/
def wrapErr (msgId : String) (mangleUTF8 : Bool) (err : Err) : GoSmtpError :=
  if isDeadlineExceeded err then ⟨451,⟨4,4,5⟩,"High load, try again later"⟩
  else
    let res : GoSmtpError :=
      { code := match fields err "smtp_code" with
          | some (.int n) => n
          | _ => if isTemporary err then 451 else 554
        enhancedCode := match fields err "smtp_enchcode" with
          | some (.enchCode c) => c
          | _ => ⟨0,0,0⟩
        message := match fields err "smtp_msg" with
          | some (.str text) => text
          | _ => "Internal server error" }
    let res := match err with
      | .goSmtp e => e
      | _ => res
    let message := if msgId ≠ "" then res.message ++ " (msg ID = " ++ msgId ++ ")" else res.message
    { res with message := if mangleUTF8 then mangle message else message }

/-- `releaseLimits`: the domain is taken from `s.mailFrom` once more. -/
def releaseLimits (s : Session) : Session :=
  if s.mailFrom = "" then s.note (.releaseMsg (limitIP s.connState) "")
  else
    match Address.split s.mailFrom with
    | .error _ => s
    | .ok (_,domain) => s.note (.releaseMsg (limitIP s.connState) domain)

def cleanSession (s : Session) : Session :=
  { releaseLimits s with
    mailFrom := "", opts := {}, delivery := none, deliveryErr := none, rcpts := [] }

/-- `Reset`, which aborts a delivery that is under way and else does nothing. -/
def reset (s : Session) : Session :=
  match s.delivery with
  | none => s
  | some d => cleanSession (s.note (.abort d.num))

theorem reset_delivery (s : Session) : (reset s).delivery = none := by
  unfold reset
  cases hd : s.delivery with
  | none => exact hd
  | some d => rfl

def logout (s : Session) : Session := reset s

/-- The part of `startDelivery` that refuses the sender before anything is
taken, or else the sender address and its domain. -/
def checkSender (endp : Endpoint) (env : Env) (sender : String) (opts : MailOptions) :
    Except Err (String × String × String) :=
  match env.msgID with
  | .error e => .error e
  | .ok msgID =>
    if !opts.utf8 ∧ sender.toList.any (fun ch => ch.toNat > 128) then
      .error (.smtp
        { code := 550
          enhancedCode := ⟨5,6,7⟩
          message := "SMTPUTF8 is required for non-ASCII senders" })
    else
      match cleanDomain endp.idna sender with
      | .error _ =>
        .error (.smtp
          { code := 553
            enhancedCode := ⟨5,1,7⟩
            message := "Unable to normalize the sender address" })
      | .ok cleanFrom =>
        if cleanFrom = "" then .ok (msgID,"","")
        else
          match Address.split cleanFrom with
          | .error e => .error e
          | .ok (_,domain) => .ok (msgID,cleanFrom,domain)

/-- `startDelivery`: the session after it, or the message ID and the error. The
task of the trace is left out, and with it the panic of RCPT after a MAIL that
`Start` refused over an open delivery. -/
def startDelivery (endp : Endpoint) (env : Env) (s : Session) (sender : String)
    (opts : MailOptions) : Session × Option (String × Err) :=
  match checkSender endp env sender opts with
  | .error e => (s,some ("",e))
  | .ok (msgID,cleanFrom,domain) =>
    let msgMeta : MsgMetadata :=
      { id := msgID, originalFrom := sender, smtpOpts := opts, conn := some s.connState }
    let ip := limitIP s.connState
    match env.takeMsg ip domain with
    | some e => (s,some ("",e))
    | none =>
      match env.start msgMeta cleanFrom with
      | some e =>
        ((s.note (.takeMsg ip domain)).note (.releaseMsg ip domain),some (msgID,e))
      | none =>
        ({ s.note (.takeMsg ip domain) with
            mailFrom := cleanFrom
            delivery := some ⟨s.started,msgMeta,cleanFrom,[]⟩
            started := s.started + 1 },none)

theorem startDelivery_cases (endp : Endpoint) (env : Env) (s : Session) (sender : String)
    (opts : MailOptions) :
    (∃ events refusal,
      startDelivery endp env s sender opts = ({ s with events := events },some refusal)) ∨
    ∃ events d, d.envelope.rcpts = [] ∧ env.start d.envelope.msgMeta d.envelope.mailFrom = none ∧
      startDelivery endp env s sender opts =
        ({ s with
            mailFrom := d.envelope.mailFrom
            delivery := some d
            started := s.started + 1
            events := events },none) := by
  fun_cases startDelivery endp env s sender opts
  case case4 msgMeta _ _ hs => exact .inr ⟨_,⟨s.started,msgMeta,_,[]⟩,rfl,hs,rfl⟩
  all_goals exact .inl ⟨_,_,rfl⟩

def errAuthRequired : GoSmtpError := ⟨502,⟨5,7,0⟩,"Please authenticate first"⟩

def mail (endp : Endpoint) (env : Env) (s : Session) (sender : String) (opts : MailOptions) :
    Session × Option GoSmtpError :=
  if endp.authAlwaysRequired ∧ s.connState.authUser = "" then (s,some errAuthRequired)
  else
    -- The argument is kept for a deferred startDelivery.
    let keep (s : Session) : Session := { s with mailFrom := sender, opts := opts }
    if endp.deferServerReject then (keep s,none)
    else
      match startDelivery endp env s sender opts with
      | (s,some (msgID,e)) => (s,some (wrapErr msgID (!opts.utf8) e))
      | (s,none) => (keep s,none)

def addRcpt (endp : Endpoint) (env : Env) (s : Session) (d : Delivery) (rcptTo : String) :
    Session × Option Err :=
  if !isASCII rcptTo ∧ !s.opts.utf8 then
    (s,some (.smtp
      { code := 553
        enhancedCode := ⟨5,6,7⟩
        message := "SMTPUTF8 is required for non-ASCII recipients" }))
  else
    match cleanDomain endp.idna rcptTo with
    | .error _ =>
      (s,some (.smtp
        { code := 501
          enhancedCode := ⟨5,1,2⟩
          message := "Unable to normalize the recipient address" }))
    | .ok cleanTo =>
      ({ s with
          rcpts := s.rcpts ++ [cleanTo]
          delivery := some
            { d with envelope := { d.envelope with rcpts := d.envelope.rcpts ++ [cleanTo] } } },
        env.addRcpt d.envelope cleanTo)

/-- `Rcpt` once there is a delivery: without one, the source does not get here. -/
def rcptStarted (endp : Endpoint) (env : Env) (s : Session) (rcptTo : String) :
    Session × Option GoSmtpError :=
  match s.delivery with
  | none => (s,none)
  | some d =>
    let (s,err) := addRcpt endp env s d rcptTo
    (s,err.map (wrapErr d.envelope.msgMeta.id (!s.opts.utf8)))

def rcpt (endp : Endpoint) (env : Env) (s : Session) (rcptTo : String) :
    Session × Option GoSmtpError :=
  match s.delivery with
  | some _ => rcptStarted endp env s rcptTo
  | none =>
    match s.deliveryErr with
    | some e => (s,some e)
    | none =>
      match startDelivery endp env s s.mailFrom s.opts with
      | (s,some (msgID,e)) =>
        let err := wrapErr msgID (!s.opts.utf8) e
        ({ s with deliveryErr := some err },some err)
      | (s,none) => rcptStarted endp env s rcptTo

/-- `prepareBody`: the meta-data, the header and the buffered body. -/
def prepareBody (endp : Endpoint) (env : Env) (msgMeta : MsgMetadata) :
    Except Err (MsgMetadata × Header × String) :=
  match env.readHeader with
  | .error e => .error (.errorf "I/O error while parsing header: " e)
  | .ok header =>
    match if endp.submission then env.submissionPrepare msgMeta header else .ok (msgMeta,header) with
    | .error e => .error e
    | .ok (msgMeta,header) =>
      match env.buffer with
      | .error e => .error (.errorf "I/O error while writing buffer: " e)
      | .ok body => .ok (msgMeta,header,body)

def checkRoutingLoops (endp : Endpoint) (header : Header) : Option Err :=
  let receivedCount := header.countP (fun field => field.1 = "Received")
  if receivedCount > endp.maxReceived then
    some (.smtp
      { code := 554
        enhancedCode := ⟨5,4,6⟩
        message := "Too many Received header fields (" ++ toString receivedCount ++
          "), possible forwarding loop" })
  else none

def encryptionNeeded : Err :=
  .smtp
    { code := 523
      enhancedCode := ⟨5,7,1⟩
      message := "Encryption Needed: Invalid Unencrypted Mail"
      reason := "unencrypted message" }

/-- The PGP gate: an error, or whether the message may pass. -/
def pgpGate (env : Env) (header : Header) (body : String) : Except Err Bool :=
  match env.openBuffer with
  | some e => .error e
  | none =>
    match env.isAcceptedMessage header body with
    | .error e => .error (.errorf "PGP verification failed: " e)
    | .ok accepted => .ok accepted

def tlsOverride (header : Header) (msgMeta : MsgMetadata) : MsgMetadata :=
  match header.lookup "Tls-Required" with
  | some value =>
    if value.toList.map Char.toLower = ['n','o'] then { msgMeta with tlsRequireOverride := true }
    else msgMeta
  | none => msgMeta

/-- What came of a message body: the error of the command, the statuses of
single recipients, and whether `Commit` was called. -/
structure DataReply where
  err : Option Err
  statuses : List (String × Option Err) := []
  committed : Bool := false

def deliverBody (endp : Endpoint) (env : Env) (envelope : Envelope) (header : Header)
    (body : String) : DataReply :=
  match pgpGate env header body with
  | .error e => { err := some e }
  | .ok false => { err := some encryptionNeeded }
  | .ok true =>
    match checkRoutingLoops endp header with
    | some e => { err := some e }
    | none =>
      let envelope := { envelope with msgMeta := tlsOverride header envelope.msgMeta }
      match env.body envelope header body with
      | some e => { err := some e }
      | none => { err := env.commit envelope, committed := true }

def deliverBodyLMTP (endp : Endpoint) (env : Env) (rcpts : List String) (envelope : Envelope)
    (header : Header) (body : String) : DataReply :=
  match pgpGate env header body with
  | .error e => { err := some e }
  | .ok false =>
    { err := none, statuses := rcpts.map (fun rcpt => (rcpt,some encryptionNeeded)) }
  | .ok true =>
    let envelope := { envelope with msgMeta := tlsOverride header envelope.msgMeta }
    match checkRoutingLoops endp header with
    | some e => { err := some e }
    | none =>
      { err := env.commit envelope
        statuses := env.bodyNonAtomic envelope header body
        committed := true }

/-- The reply to a command: the library refuses it on its own, or the session
answers. -/
inductive Reply where
  | refused
  | answer (err : Option GoSmtpError) (statuses : List (String × Option GoSmtpError))
  deriving DecidableEq, Repr

/-- `Data` or `LMTPData`, for a delivery that was started. When the body is
buffered, a deferred call cleans the session whatever comes after. -/
def data (endp : Endpoint) (env : Env) (s : Session) (d : Delivery) : Session × Reply :=
  let wrap := wrapErr d.envelope.msgMeta.id (!s.opts.utf8)
  match prepareBody endp env d.envelope.msgMeta with
  | .error e => (s,.answer (some (wrap e)) [])
  | .ok (msgMeta,header,body) =>
    let envelope := { d.envelope with msgMeta := msgMeta }
    let res := if endp.lmtp then deliverBodyLMTP endp env s.rcpts envelope header body
      else deliverBody endp env envelope header body
    let s := if res.committed then s.note (.commit d.num) else s
    (cleanSession s,
      .answer (res.err.map wrap) (res.statuses.map (fun st => (st.1,st.2.map wrap))))

/-- `Auth` when the exchange has succeeded. A message under way points to the
same connection state. -/
def authenticate (s : Session) (identity : String) : Session :=
  let connState := { s.connState with authUser := identity }
  { s with
    connState := connState
    delivery := s.delivery.map (fun d =>
      { d with envelope.msgMeta.conn := d.envelope.msgMeta.conn.map (fun _ => connState) }) }

inductive Command where
  -- How the authentication exchange ends.
  | auth (result : Except GoSmtpError String)
  | mail (sender : String) (opts : MailOptions)
  | rcpt (rcptTo : String)
  | data
  | rset
  | quit

/-- The connection as the protocol library keeps it: whether MAIL was accepted,
how many recipients were, whether the client has authenticated, and whether the
session was ended. -/
structure Conn where
  session : Session
  fromReceived : Bool := false
  recipients : Nat := 0
  didAuth : Bool := false
  closed : Bool := false

def Conn.reset (c : Conn) : Conn :=
  { c with session := Smtp.reset c.session, fromReceived := false, recipients := 0 }

/-- One command of the client, as the library passes it to the session. -/
def Conn.command (endp : Endpoint) (c : Conn) (env : Env) : Command → Conn × Reply
  | .auth result =>
    if c.didAuth then (c,.refused)
    else
      match result with
      | .error e => (c,.answer (some e) [])
      | .ok identity =>
        ({ c with session := authenticate c.session identity, didAuth := true },.answer none [])
  | .mail sender opts =>
    match Smtp.mail endp env c.session sender opts with
    | (s,some e) => ({ c with session := s },.answer (some e) [])
    | (s,none) => ({ c with session := s, fromReceived := true },.answer none [])
  | .rcpt rcptTo =>
    if !c.fromReceived then (c,.refused)
    else
      match Smtp.rcpt endp env c.session rcptTo with
      | (s,some e) => ({ c with session := s },.answer (some e) [])
      | (s,none) => ({ c with session := s, recipients := c.recipients + 1 },.answer none [])
  | .data =>
    if !c.fromReceived ∨ c.recipients = 0 then (c,.refused)
    else
      match c.session.delivery with
      -- An accepted recipient implies a delivery.
      | none => (c,.refused)
      | some d =>
        let (s,reply) := Smtp.data endp env c.session d
        (({ c with session := s }).reset,reply)
  | .rset => (c.reset,.answer none [])
  | .quit => ({ c with session := logout c.session, closed := true },.answer none [])

def Conn.handle (endp : Endpoint) (c : Conn) (input : Env × Command) : Conn × Reply :=
  if c.closed then (c,.refused) else c.command endp input.1 input.2

def Conn.step (endp : Endpoint) (c : Conn) (input : Env × Command) : Conn := (c.handle endp input).1

def Conn.open (conn : ConnState) : Conn := { session := { connState := conn } }

def Conn.replies (endp : Endpoint) (c : Conn) : List (Env × Command) → List Reply
  | [] => []
  | input :: rest => (c.handle endp input).2 :: (c.step endp input).replies endp rest

def Endpoint.plain : Endpoint :=
  { idna := ⟨.ok,fun text => text,fun _ => false⟩
    deferServerReject := true
    authAlwaysRequired := false
    submission := false
    lmtp := false
    maxReceived := 50 }

def Env.accepting (msgID : String) : Env :=
  { msgID := .ok msgID
    takeMsg := fun _ _ => none
    start := fun _ _ => none
    addRcpt := fun _ _ => none
    readHeader := .ok [("Subject","hi")]
    submissionPrepare := fun msgMeta header => .ok (msgMeta,header)
    buffer := .ok "hello"
    openBuffer := none
    isAcceptedMessage := fun _ _ => .ok true
    body := fun _ _ _ => none
    bodyNonAtomic := fun envelope _ _ => envelope.rcpts.map (fun rcpt => (rcpt,none))
    commit := fun _ => none }

end Madmail.Smtp
