import Madmail.Framework.Address
import Madmail.Framework.Module

namespace Madmail.Smtpconn
open Exterrors Madmail.Module

/-- What a client sends to a server. Everything between the reply to DATA and the
final dot is one command. -/
inductive Command where
  | hello (hostname : String)
  | startTLS (insecureSkipVerify : Bool)
  | mail (mailFrom : String) (opts : MailOptions)
  | rcpt (rcptTo : String)
  | data
  | message (header : Header) (body : String)
  | reset
  | quit
  deriving DecidableEq, Repr

structure TLSState where
  handshakeComplete : Bool := false
  verifiedChains : Bool := false
  deriving DecidableEq, Repr

/-- The other end of a connection: how it answers a command, the extensions it
names and the state of TLS, each after the commands it has had. A handshake is
made with the first command after STARTTLS. -/
structure Server where
  reply : List Command → Command → Option Err
  extension : List Command → String → Bool
  tlsState : List Command → TLSState

/-- `smtp.Client` of the protocol library, which keeps the extensions that the
last EHLO has named. -/
structure Client where
  server : Server
  log : List Command := []
  ext : String → Bool := fun _ => false
  closed : Bool := false

namespace Client

def errClosed : Err := .leaf "use of closed network connection" none

def send (cl : Client) (cmd : Command) : Client × Option Err :=
  if cl.closed then (cl,some errClosed)
  else
    let log := cl.log ++ [cmd]
    match cl.server.reply cl.log cmd, cmd with
    | none, .hello _ => ({ cl with log := log, ext := cl.server.extension log },none)
    | err, _ => ({ cl with log := log },err)

end Client

structure OpError where
  op : String
  addr : String
  dns : Bool

/-- What the code is given: `idna.ToASCII`, whose results are ASCII, and which
errors are a `net.OpError`. -/
structure Env where
  idnaToASCII : String → Except Err String
  idnaToASCII_ascii : ∀ domain ace, idnaToASCII domain = .ok ace → Address.isASCII ace = true
  opError : Err → Option OpError

structure C where
  hostname : String
  addrInSMTPMsg : Bool := true
  serverName : String := ""
  cl : Option Client := none
  rcpts : List String := []

namespace C

def wrapClientErr (env : Env) (c : C) (err : Err) (serverName : String) : Err :=
  match err with
  | .smtp _ | .smtpWrap _ _ => err
  | .goSmtp e =>
    let msg := if c.addrInSMTPMsg then serverName ++ " said: " ++ e.message else e.message
    let e := if e.code = 552 then
        { e with code := 452, enhancedCode := { e.enhancedCode with cls := 4 } }
      else e
    .smtpWrap
      { code := e.code
        enhancedCode := e.enhancedCode
        message := msg
        misc := [("remote_server",.str serverName)] } (.goSmtp e)
  | _ =>
    match env.opError err with
    | some op =>
      if op.dns then
        .smtpWrap
          { code := smtpCode err 450 550
            enhancedCode := smtpEnchCode err ⟨0,4,4⟩
            message := "DNS error"
            misc := [("remote_server",.str op.addr),("io_op",.str op.op)] } err
      else
        .smtpWrap
          { code := 450
            enhancedCode := ⟨4,4,2⟩
            message := "Network I/O error"
            misc := [("remote_addr",.str op.addr),("io_op",.str op.op)] } err
    | none => .fieldsWrap err [("remote_server",.str serverName)]

/-- A nil client makes the source panic. No caller has one. -/
def errNilClient : Err := .leaf "nil client" none

def ask (c : C) (cmd : Command) : C × Option Err :=
  match c.cl with
  | none => (c,some errNilClient)
  | some cl =>
    let (cl,err) := cl.send cmd
    ({ c with cl := some cl },err)

def extension (c : C) (name : String) : Bool :=
  match c.cl with
  | none => false
  | some cl => cl.ext name

def tlsState (c : C) : TLSState :=
  match c.cl with
  | none => {}
  | some cl => cl.server.tlsState cl.log

/-- `Connect` without STARTTLS, given what dialling comes to. A connection that
cannot be made leaves the object as it was. -/
def connect (env : Env) (c : C) (host : String) (dialled : Except Err Server) : C × Option Err :=
  match dialled with
  | .error e => (c,some (c.wrapClientErr env e host))
  | .ok server =>
    match ({ server := server } : Client).send (.hello c.hostname) with
    | (_,some e) => (c,some (c.wrapClientErr env e host))
    | (cl,none) => ({ c with serverName := host, cl := some cl },none)

def wrapped (env : Env) (r : C × Option Err) : C × Option Err :=
  (r.1,r.2.map (fun e => r.1.wrapClientErr env e r.1.serverName))

def mail (env : Env) (c : C) (mailFrom : String) (opts : MailOptions) : C × Option Err :=
  let utf8 := opts.utf8 && c.extension "SMTPUTF8"
  let spelling := if opts.utf8 && !utf8 then Address.toASCII env.idnaToASCII mailFrom else .ok mailFrom
  match spelling with
  | .error e =>
    (c,some (.smtpWrap
      { code := 550
        enhancedCode := ⟨5,6,7⟩
        message := "SMTPUTF8 is unsupported, cannot convert sender address"
        misc := [("remote_server",.str c.serverName)] } e))
  | .ok mailFrom => wrapped env (c.ask (.mail mailFrom { utf8 := utf8, requireTLS := opts.requireTLS }))

def spelling (env : Env) (c : C) (rcptTo : String) : Except Err String :=
  if !Address.isASCII rcptTo && !c.extension "SMTPUTF8" then Address.toASCII env.idnaToASCII rcptTo
  else .ok rcptTo

def rcpt (env : Env) (c : C) (rcptTo : String) : C × Option Err :=
  match c.spelling env rcptTo with
  | .error e =>
    (c,some (.smtpWrap
      { code := 553
        enhancedCode := ⟨5,6,7⟩
        message := "SMTPUTF8 is unsupported, cannot convert recipient address"
        misc := [("remote_server",.str c.serverName)] } e))
  | .ok rcptTo =>
    match wrapped env (c.ask (.rcpt rcptTo)) with
    | (c,some e) => (c,some e)
    | (c,none) => ({ c with rcpts := c.rcpts ++ [rcptTo] },none)

/-- `Data` of an SMTP connection. `copyErr` is what stops the copying of the
message, if something does. -/
def data (env : Env) (c : C) (header : Header) (body : String) (copyErr : Option Err) :
    C × Option Err :=
  match wrapped env (c.ask .data) with
  | (c,some e) => (c,some e)
  | (c,none) =>
    match copyErr with
    | some e => (c,some (c.wrapClientErr env e c.serverName))
    | none => wrapped env (c.ask (.message header body))

def dataGoesOut (c : C) : Bool := (c.ask .data).2.isNone

/-- `Close`. A server that does not take QUIT leaves a closed client behind. -/
def close (c : C) : C :=
  match c.cl with
  | none => c
  | some cl =>
    match cl.send .quit with
    | (cl,some _) => { c with cl := some { cl with closed := true } }
    | (_,none) => { c with cl := none, serverName := "" }

def directClose (c : C) : C := { c with cl := none, serverName := "" }

end C

end Madmail.Smtpconn
