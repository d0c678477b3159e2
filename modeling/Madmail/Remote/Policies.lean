import Madmail.Remote.Dane

namespace Madmail.Remote.Security
open Exterrors Lib Smtpconn

/-- The policies that can be configured, each with what it has for one MX record: the
results of its lookups, and for DANE what the server has shown in the handshake. -/
inductive Configured where
  | mtasts (found : Except Err StsPolicy)
  | stsPreload
  | dnssec
  -- without a resolver it does nothing
  | dane (extResolver : Bool) (found : Except Err (List TLSA)) (serverName : String)
      (leaf : Certificate) (chain : List Certificate)
  | localPolicy (minTLSLevel : TLSLevel) (minMXLevel : MXLevel)

def localCheckMX (minMXLevel mxLevel : MXLevel) : Except Err MXLevel :=
  if mxLevel.rank < minMXLevel.rank then
    .error (.smtp
      { code := 451
        enhancedCode := ⟨4,7,0⟩
        message := "Failed to establish the MX record authenticity"
        misc := [("mx_level",.int mxLevel.rank),("required_mx_level",.int minMXLevel.rank)] })
  else .ok .none

def localCheckConn (minTLSLevel tlsLevel : TLSLevel) : Except Err TLSLevel :=
  if tlsLevel.rank < minTLSLevel.rank then
    .error (.smtp
      { code := 451
        enhancedCode := ⟨4,7,1⟩
        message := "TLS it not available or unauthenticated but required"
        misc := [("tls_level",.int tlsLevel.rank),
          ("required_tls_level",.int minTLSLevel.rank)] })
  else .ok .none

/-- `verifyDANE` for a server with certificates, as `CheckConn` uses it. -/
def verifyPeer (x : X509) (serverName : String) (leaf : Certificate) (chain : List Certificate)
    (recs : List TLSA) (tlsState : TLSState) : Except Err Bool :=
  match verifyDANE x recs
    { handshakeComplete := tlsState.handshakeComplete
      serverName := serverName
      peerCertificates := leaf :: chain } with
  | some (overridePKIX,none) => .ok overridePKIX
  | some (_,some e) => .error e
  | none => .error (.leaf "index out of range" none)

def Configured.policy (env : Env) (x : X509) : Configured → Policy
  | .mtasts found =>
    { checkMX := fun _ _ mx _ => mtastsCheckMX env found mx
      checkConn := fun _ tlsLevel _ _ tlsState => mtastsCheckConn found tlsLevel tlsState }
  | .stsPreload =>
    { checkMX := fun mxLevel _ _ _ => .ok mxLevel
      checkConn := fun _ tlsLevel _ _ _ => .ok tlsLevel }
  | .dnssec =>
    { checkMX := fun _ _ _ dnssec => .ok (if dnssec then .dnssec else .none)
      checkConn := fun _ _ _ _ _ => .ok .none }
  | .dane extResolver found serverName leaf chain =>
    { checkMX := fun _ _ _ _ => .ok .none
      checkConn := fun _ _ _ _ tlsState =>
        if !extResolver then .ok .none
        else daneCheckConn { env with verifyDANE := verifyPeer x serverName leaf chain } found
          tlsState }
  | .localPolicy minTLSLevel minMXLevel =>
    { checkMX := fun mxLevel _ _ _ => localCheckMX minMXLevel mxLevel
      checkConn := fun _ tlsLevel _ _ _ => localCheckConn minTLSLevel tlsLevel }

def Configured.hasRecords : Configured → Bool
  | .dane true (.ok _) _ _ _ => true
  | _ => false

end Madmail.Remote.Security
