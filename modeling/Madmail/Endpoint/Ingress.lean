import Madmail.Endpoint.Chatmail
import Madmail.Endpoint.Session

namespace Madmail.Imap
open Exterrors Madmail.Module

/-- What an APPEND meets: how its literal is read, `message.Read`, and the
storage's own `CreateMessage`. -/
structure AppendEnv where
  readAll : Except Err String
  readMessage : String → Except Err (Header × String)
  createMessage : String → List String → Int → String → Option Err

/-- What came of it: the error, and the text that the storage was given. -/
structure Appended where
  err : Option Err
  handed : Option String := none

/-- `encryptionWrapperUser.CreateMessage`, on the user that every login gets. -/
def createMessage (isAcceptedMessage : Header → String → Except Err Bool) (env : AppendEnv)
    (mbox : String) (flags : List String) (date : Int) : Appended :=
  match env.readAll with
  | .error e => { err := some (.errorf "failed to read message for PGP verification: " e) }
  | .ok res =>
    match env.readMessage res with
    | .error e => { err := some (.errorf "failed to parse message for PGP verification: " e) }
    | .ok (header,body) =>
      match isAcceptedMessage header body with
      | .error e => { err := some (.errorf "PGP verification failed: " e) }
      | .ok false => { err := some (.leaf "Encryption Needed: Invalid Unencrypted Mail" none) }
      | .ok true => { err := env.createMessage mbox flags date res, handed := some res }

end Madmail.Imap

namespace Madmail.Smtp
open Exterrors Madmail.Module

/-- The header and body that the pipeline is given by a DATA command, if the
command gets that far. -/
def Conn.handed (endp : Endpoint) (c : Conn) (env : Env) : Option (Header × String) :=
  if c.closed ∨ !c.fromReceived ∨ c.recipients = 0 then none
  else
    match c.session.delivery with
    | none => none
    | some d =>
      match prepareBody endp env d.envelope.msgMeta with
      | .error _ => none
      | .ok (msgMeta,header,body) =>
        let envelope := { d.envelope with msgMeta := msgMeta }
        -- The body is handed over where a pipeline that takes everything would commit.
        let env := { env with body := fun _ _ _ => none }
        let res := if endp.lmtp then deliverBodyLMTP endp env c.session.rcpts envelope header body
          else deliverBody endp env envelope header body
        if res.committed then some (header,body) else none

end Madmail.Smtp

namespace Madmail.Ingress
open Exterrors Madmail.Module

inductive Entry (τ δ : Type) where
  -- DATA over SMTP, submission or LMTP
  | data (endp : Smtp.Endpoint) (c : Smtp.Conn) (env : Smtp.Env)
  | append (env : Imap.AppendEnv) (mbox : String) (flags : List String) (date : Int)
  | mxdeliv (r : Chatmail.Receiver τ δ) (req : Chatmail.Request)

/-- The header and body of a message that is handed to the pipeline or the
storage, with `pgp_verify.IsAcceptedMessage` as given. -/
def Entry.handed (isAcceptedMessage : Header → String → Except Err Bool) :
    Entry τ δ → Option (Header × String)
  | .data endp c env => c.handed endp { env with isAcceptedMessage := isAcceptedMessage }
  | .append env mbox flags date =>
    (Imap.createMessage isAcceptedMessage env mbox flags date).handed.bind
      (fun text => (env.readMessage text).toOption)
  | .mxdeliv r req => (Chatmail.handleReceiveEmail r req).handed

end Madmail.Ingress
