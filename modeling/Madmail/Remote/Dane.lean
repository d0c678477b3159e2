import Madmail.Remote.Security

namespace Madmail.Remote.Security
open Exterrors Lib Smtpconn

structure Certificate where
  raw : String
  isCA : Bool
  deriving DecidableEq, Repr

structure ConnectionState where
  handshakeComplete : Bool
  serverName : String
  peerCertificates : List Certificate
  deriving DecidableEq, Repr

/-- What libraries decide: whether a TLSA record matches a certificate, and whether
there is a path from a certificate to a root. Pools of certificates are sets, and
without a root there is no path. -/
structure X509 where
  matchesCert : TLSA → Certificate → Bool
  verify : String → List Certificate → List Certificate → Certificate → Bool
  verify_congr : ∀ dnsName roots roots' intermediates intermediates' leaf,
    (∀ cert, cert ∈ roots ↔ cert ∈ roots') → (∀ cert, cert ∈ intermediates ↔ cert ∈ intermediates') →
    verify dnsName roots intermediates leaf = verify dnsName roots' intermediates' leaf
  verify_noRoots : ∀ dnsName intermediates leaf, verify dnsName [] intermediates leaf = false

/-- Whether `verifyDANE` gets to the usage of a record. -/
def TLSA.wellFormed (rec : TLSA) : Bool :=
  (rec.matchingType == 0 || rec.matchingType == 1 || rec.matchingType == 2) &&
    (rec.selector == 0 || rec.selector == 1)

def withUsage (usage : Nat) (recs : List TLSA) : List TLSA :=
  recs.filter (fun rec => rec.wellFormed && rec.usage == usage)

def isRoot (x : X509) (taRecs : List TLSA) (cert : Certificate) : Bool :=
  taRecs.any (fun rec => cert.isCA && x.matchesCert rec cert)

def tlsRequired (connState : ConnectionState) : Err :=
  .smtp
    { code := 550
      enhancedCode := ⟨5,7,1⟩
      message := "TLS is required but unsupported or failed (enforced by DANE)"
      targetName := "remote"
      misc := [("remote_server",.str connState.serverName)] }

def noMatchingRecords (connState : ConnectionState) : Err :=
  .smtp
    { code := 550
      enhancedCode := ⟨5,7,0⟩
      message := "No matching TLSA records"
      targetName := "remote"
      misc := [("remote_server",.str connState.serverName)] }

/-- `verifyDANE`: `overridePKIX` and the error. A handshake without certificates
would make the source panic. -/
def verifyDANE (x : X509) (recs : List TLSA) (connState : ConnectionState) :
    Option (Bool × Option Err) :=
  if recs = [] then some (false,none)
  else if !connState.handshakeComplete then some (false,some (tlsRequired connState))
  else
    let eeRecs := withUsage 3 recs
    let taRecs := withUsage 2 recs
    if eeRecs = [] ∧ taRecs = [] then some (false,none)
    else
      match connState.peerCertificates with
      | [] => none
      | leaf :: chain =>
        if eeRecs.any (fun rec => x.matchesCert rec leaf) then some (true,none)
        else if taRecs = [] then some (true,some (noMatchingRecords connState))
        else
          let roots := (leaf :: chain).filter (isRoot x taRecs)
          let intermediates := (leaf :: chain).filter (fun cert => !isRoot x taRecs cert)
          if x.verify connState.serverName roots intermediates leaf then some (true,none)
          else some (false,some (noMatchingRecords connState))

def X509.plain : X509 :=
  { matchesCert := fun rec cert => rec.certificate == cert.raw
    verify := fun _ roots _ _ => roots ≠ []
    verify_congr := by
      intro dnsName roots roots' intermediates intermediates' leaf hr _
      have hnil : roots = [] ↔ roots' = [] := by
        simp only [List.eq_nil_iff_forall_not_mem,hr]
      simp only [ne_eq,hnil]
    verify_noRoots := fun _ _ _ => rfl }

end Madmail.Remote.Security
