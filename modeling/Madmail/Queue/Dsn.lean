import Madmail.Queue.Delivery

namespace Madmail.Dsn
open Exterrors Madmail.Module

inductive Action where
  | failed | delayed | delivered | relayed | expanded
  deriving DecidableEq, Repr

def Action.text : Action → String
  | .failed => "failed"
  | .delayed => "delayed"
  | .delivered => "delivered"
  | .relayed => "relayed"
  | .expanded => "expanded"

/-- `dsn.RecipientInfo`. An action that is not set is the empty text. -/
structure RecipientInfo where
  finalRecipient : String
  remoteMTA : String := ""
  action : Option Action
  status : EnhancedCode
  diagnosticCode : Err

structure Idna where
  address : Bool → String → Except Err String
  domain : Bool → String → Except Err String

def formatCode (code : EnhancedCode) : String :=
  toString code.cls ++ "." ++ toString code.subject ++ "." ++ toString code.detail

def oneLine (text : String) : String :=
  String.ofList (text.toList.map fun c => if c = '\n' ∨ c = '\r' then ' ' else c)

def diagnosticText (utf8 : Bool) : Err → Option String
  | .goSmtp e =>
    some ("smtp; " ++ toString e.code ++ " " ++ formatCode e.enhancedCode ++ " " ++
      oneLine e.message)
  | err => if utf8 then some ("X-Maddy; " ++ oneLine (errorText err)) else none

/-- `RecipientInfo.WriteTo`, up to the formatting of the fields. -/
def RecipientInfo.header (idna : Idna) (utf8 : Bool) (info : RecipientInfo) : Except Err Header := do
  if info.finalRecipient = "" then throw (.leaf "dsn: Final-Recipient is required" none)
  let finalRcpt ← (idna.address utf8 info.finalRecipient).mapError
    (.errorf "dsn: cannot convert Final-Recipient to a suitable representation: ")
  let h : Header := [("Final-Recipient",(if utf8 then "utf8; " else "rfc822; ") ++ finalRcpt)]
  let some action := info.action | throw (.leaf "dsn: Action is required" none)
  if info.status.cls = 0 then throw (.leaf "dsn: Status is required" none)
  let h := ("Status",formatCode info.status) :: ("Action",action.text) :: h
  let h := (diagnosticText utf8 info.diagnosticCode).toList.map ("Diagnostic-Code",·) ++ h
  if info.remoteMTA = "" then return h
  let remoteMTA ← (idna.domain utf8 info.remoteMTA).mapError
    (.errorf "dsn: cannot convert Remote-MTA to a suitable representation: ")
  return ("Remote-MTA","dns; " ++ remoteMTA) :: h

end Madmail.Dsn

namespace Madmail.Queue
open Exterrors Madmail.Module

/-- What `emitDSN` says about a recipient, under the address that the sender knows. Without an error
for them it panics. -/
def rcptInfo (msgMeta : MsgMetadata) (rcptErrs : String → Option GoSmtpError) (rcpt : String) :
    Option Dsn.RecipientInfo :=
  (rcptErrs rcpt).map fun rcptErr =>
    let originalRcpt := (msgMeta.originalRcpts rcpt).getD ""
    { finalRecipient := if originalRcpt ≠ "" then originalRcpt else rcpt
      action := some .failed
      status := rcptErr.enhancedCode
      diagnosticCode := .goSmtp rcptErr }

end Madmail.Queue
