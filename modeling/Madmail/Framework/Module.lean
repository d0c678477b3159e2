import Mathlib.Data.List.Basic

namespace Madmail.Module

/-- The parts of `ConnState` that the modelled code reads. `remoteIP` is absent
when the remote address is not a TCP one. -/
structure ConnState where
  hostname : String
  remoteIP : Option String
  authUser : String
  deriving DecidableEq, Repr

structure MailOptions where
  utf8 : Bool := false
  requireTLS : Bool := false
  deriving DecidableEq, Repr

/-- The fields of a `textproto.Header` in their order, under canonical keys. -/
abbrev Header := List (String × String)

structure MsgMetadata where
  id : String
  originalFrom : String := ""
  dontTraceSender : Bool := false
  quarantine : Bool := false
  originalRcpts : String → Option String := fun _ => none
  smtpOpts : MailOptions := {}
  conn : Option ConnState := none
  tlsRequireOverride : Bool := false

end Madmail.Module
