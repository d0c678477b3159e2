import Madmail.Framework.Buffer
import Madmail.Smtpconn.Conn

namespace Madmail.Smtpconn
open Exterrors Framework Madmail.Module

/-- What an LMTP client reads after the final dot: the reply for a recipient, or
an error of the connection. -/
inductive Answer where
  | status (err : Option GoSmtpError)
  | broken (err : Err)

/-- How a server and the connection to it behave after DATA: an error while the
message is sent, the replies for the recipients, and an error after the last of
them. -/
structure Exchange where
  sendErr : Option Err := none
  answers : List Answer
  finish : Option Err := none

def readError : ReadErr → Err
  | .eof => .leaf "EOF" none
  | .unexpectedEOF => .leaf "unexpected EOF" none
  | .other err => err

namespace C

/-- The loop of the library over the recipients that it has sent: the calls of the
callback, and the error. -/
def readStatuses (finish : Option Err) :
    List String → List Answer → List (String × Option GoSmtpError) × Option Err
  | [], _ => ([],finish)
  | rcpt :: rest, .status err :: answers =>
    let (calls,e) := readStatuses finish rest answers
    ((rcpt,err) :: calls,e)
  | _ :: _, .broken e :: _ => ([],some e)
  | _ :: _, [] => ([],some (readError .eof))

def lmtpData (env : Env) (c : C) (header : Header) (body : Reader Char) (x : Exchange) :
    C × List (String × Option GoSmtpError) × Option Err :=
  match wrapped env (c.ask .data) with
  | (c,some e) => (c,[],some e)
  | (c,none) =>
    match x.sendErr, body.readAll with
    | some e, _ => (c,[],some (c.wrapClientErr env e c.serverName))
    | none, (_,some e) => (c,[],some (c.wrapClientErr env (readError e) c.serverName))
    | none, (content,none) =>
      let (c,_) := c.ask (.message header (String.ofList content))
      let (calls,err) := readStatuses x.finish c.rcpts x.answers
      (c,calls,err.map (fun e => c.wrapClientErr env e c.serverName))

end C

end Madmail.Smtpconn

namespace Madmail.SmtpDownstream
open Exterrors Framework Madmail.Module Smtpconn

structure Delivery where
  modName : String
  conn : C
  rcpts : List String := []

def moduleError (modName : String) (err : Err) : Err := .fieldsWrap err [("target",.str modName)]

namespace Delivery

def addRcpt (env : Env) (d : Delivery) (rcptTo : String) : Delivery × Option Err :=
  match d.conn.rcpt env rcptTo with
  | (c,some e) => ({ d with conn := c },some (moduleError d.modName e))
  | (c,none) => ({ d with conn := c, rcpts := d.rcpts ++ [rcptTo] },none)

def addRcpts (env : Env) (d : Delivery) (rcptsTo : List String) : Delivery :=
  rcptsTo.foldl (fun d rcptTo => (d.addRcpt env rcptTo).1) d

/-- What `Open` of a buffer returns. The reader may be a nil interface. The one
that `os.Open` returns with an error is not: it is a nil `*os.File`, which can
be closed, and whose reads fail. -/
structure Opened where
  reader : Option (Reader Char)
  err : Option Err

/-- The connection after a call, the calls of `SetStatus` in order, and whether it
has panicked. -/
structure Reported where
  conn : C
  statuses : List (String × Option Err)
  panicked : Bool

def statusErr (modName : String) (e : GoSmtpError) : Err :=
  .smtpWrap
    { code := e.code
      enhancedCode := e.enhancedCode
      message := e.message
      targetName := modName } (.goSmtp e)

def setAll (d : Delivery) (rcpts : List String) (err : Option Err) : List (String × Option Err) :=
  match err with
  | none => []
  | some e => rcpts.map (fun rcpt => (rcpt,some (moduleError d.modName e)))

/-- `BodyNonAtomic`, which does not return after an error of `Open`. -/
def bodyNonAtomic (env : Env) (d : Delivery) (header : Header) (opened : Opened) (x : Exchange) :
    Reported :=
  let failed := d.setAll d.rcpts opened.err
  match opened.reader with
  -- `r.Close` of a nil interface
  | none => ⟨d.conn,failed,true⟩
  | some r =>
    let (c,calls,err) := d.conn.lmtpData env header r x
    let told := calls.map (fun call => (call.1,call.2.map (statusErr d.modName)))
    ⟨c,failed ++ told ++ d.setAll (d.rcpts.drop calls.length) err,false⟩

end Delivery

end Madmail.SmtpDownstream
