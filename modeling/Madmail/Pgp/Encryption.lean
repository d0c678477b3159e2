import Madmail.Msgpipeline.CheckRunner
import Madmail.Pgp.Verify

namespace Madmail.PgpEncryption
open Exterrors Madmail.Module Msgpipeline Lib.Strings PgpVerify

structure Text extends PgpVerify.Text where
  equalFold : String → String → Bool
  -- the `Address` of `mail.ParseAddress`
  parseAddress : String → Except Err String

structure Check where
  passthroughSenders : List String := []
  passthroughRecipients : List String := []
  requireEncryption : Bool := true
  allowSecureJoin : Bool := true

structure State where
  c : Check
  mailFrom : String := ""
  rcptTos : List String := []

def Check.checkStateForMsg (c : Check) : State := { c }

def State.checkSender (s : State) (mailFrom : String) : State := { s with mailFrom }

def State.checkRcpt (s : State) (rcptTo : String) : State :=
  { s with rcptTos := s.rcptTos ++ [rcptTo] }

/-- What `CheckBody` gets to read: the buffer is opened once for each recipient that
is looked at, and again for a message that is not encrypted. The readers are numbered
by the recipients that come after. -/
structure Buffer where
  opened : Nat → Except Err Reader
  reopened : Nat → Except Err Reader

def rejected (e : Err) : CheckResult := { reject := true, reason := some e }

def invalidFrom (err : Err) : Err :=
  .smtpWrap
    { code := 554
      enhancedCode := ⟨5,6,0⟩
      message := "Invalid From header"
      reason := "invalid mime from"
      checkName := "pgp_encryption" } err

def fromMismatch : Err :=
  .smtp
    { code := 554
      enhancedCode := ⟨5,6,0⟩
      message := "From header does not match envelope sender"
      reason := "from mismatch"
      checkName := "pgp_encryption" }

def invalidRecipient : Err :=
  .smtp
    { code := 554
      enhancedCode := ⟨5,6,0⟩
      message := "Invalid recipient address format"
      reason := "invalid recipient format"
      checkName := "pgp_encryption" }

def cannotRead (err : Err) : Err :=
  .smtpWrap
    { code := 451
      enhancedCode := ⟨4,0,0⟩
      message := "Cannot read message body"
      reason := "body read error"
      checkName := "pgp_encryption" } err

def cannotValidate (err : Err) : Err :=
  .smtpWrap
    { code := 451
      enhancedCode := ⟨4,0,0⟩
      message := "Error validating message encryption"
      reason := "encryption validation error"
      checkName := "pgp_encryption" } err

def unencrypted (recipient sender : String) : Err :=
  .smtp
    { code := 523
      enhancedCode := ⟨5,7,1⟩
      message := "Encryption Needed: Invalid Unencrypted Mail"
      reason := "unencrypted message"
      checkName := "pgp_encryption"
      misc := [("recipient",.str recipient),("sender",.str sender)] }

def State.recipientMatchesPassthrough (txt : Text) (s : State) (recipient : String) : Bool :=
  s.c.passthroughRecipients.any fun addr =>
    txt.equalFold recipient addr ||
      (hasPrefix addr "@" && hasSuffix (txt.toLower recipient) (txt.toLower addr))

def isBounce (txt : Text) (header : Header) : Bool :=
  let autoSubmitted := get header "Auto-Submitted"
  let mimeFrom := get header "From"
  autoSubmitted ≠ "" && autoSubmitted ≠ "no" && mimeFrom ≠ "" &&
    (match txt.parseAddress mimeFrom with
      | .error _ => false
      | .ok address => hasPrefix (txt.toLower address) "mailer-daemon@") &&
    hasPrefix (get header "Content-Type") "multipart/report"

def State.validateFrom (txt : Text) (s : State) (header : Header) : Option Err :=
  let mimeFrom := get header "From"
  if mimeFrom = "" then none
  else
    match txt.parseAddress mimeFrom with
    | .error e => some (invalidFrom e)
    | .ok address => if !txt.equalFold address s.mailFrom then some fromMismatch else none

def State.checkRcpts (txt : Text) (s : State) (header : Header) (buf : Buffer) :
    List String → CheckResult
  | [] => {}
  | recipient :: rest =>
    if s.recipientMatchesPassthrough txt recipient then s.checkRcpts txt header buf rest
    else if (split recipient '@').length ≠ 2 then rejected invalidRecipient
    else
      let contentType := get header "Content-Type"
      match buf.opened rest.length with
      | .error e => rejected (cannotRead e)
      | .ok r =>
        match isValidEncryptedMessage txt.toText contentType r with
        | .error e => rejected (cannotValidate e)
        | .ok true => s.checkRcpts txt header buf rest
        | .ok false =>
          let joined : Bool := match buf.reopened rest.length with
            | .error _ => false
            | .ok r =>
              isSecureJoinMessage txt.toText
                [("Content-Type",contentType),("Secure-Join",get header "Secure-Join")] r
          if s.c.allowSecureJoin ∧ joined then s.checkRcpts txt header buf rest
          else rejected (unencrypted recipient s.mailFrom)

def State.checkBody (txt : Text) (s : State) (header : Header) (buf : Buffer) : CheckResult :=
  if !s.c.requireEncryption then {}
  else if s.c.passthroughSenders.contains s.mailFrom then {}
  else if isBounce txt header then {}
  else
    match s.validateFrom txt header with
    | some e => rejected e
    | none => s.checkRcpts txt header buf s.rcptTos

end Madmail.PgpEncryption
