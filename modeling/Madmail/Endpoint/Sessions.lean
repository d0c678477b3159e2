import Madmail.Endpoint.Session

namespace Madmail.Smtp
open Exterrors Madmail.Module

/-- Where a call of `NewSession`, and then the session it has returned, is. -/
inductive Place where
  -- in `RunEarlyChecks`
  | checking (c : Conn)
  -- before the `Logout` of a session that the checks have refused
  | failing (c : Conn) (err : Err)
  -- before the counter is incremented
  | passed (c : Conn)
  | refused (reply : GoSmtpError)
  | opened (c : Conn)
  | loggedOut

/-- The counter of an endpoint and its sessions, in the order in which they were
begun. -/
structure Sessions where
  sessionCnt : Int32 := 0
  places : List Place := []

def Sessions.connectionCount (w : Sessions) : Int := w.sessionCnt.toInt

inductive Sessions.Action where
  | newSession (conn : ConnState)
  -- the early checks return
  | checked (i : Nat) (err : Option Err)
  -- what `NewSession` does after the checks
  | proceed (i : Nat)
  -- A command of the client. The loss of a connection counts as QUIT.
  | command (i : Nat) (input : Env × Command)

def Sessions.step (endp : Endpoint) (w : Sessions) : Action → Option Sessions
  | .newSession conn => some { w with places := w.places ++ [.checking (Conn.open conn)] }
  | .checked i err =>
    match w.places[i]?, err with
    | some (.checking c), some e => some { w with places := w.places.set i (.failing c e) }
    | some (.checking c), none => some { w with places := w.places.set i (.passed c) }
    | _, _ => none
  | .proceed i =>
    match w.places[i]? with
    -- `sess.Logout`, as for a session that was counted
    | some (.failing _ e) =>
      some ⟨w.sessionCnt + -1,w.places.set i (.refused (wrapErr "" true e))⟩
    | some (.passed c) => some ⟨w.sessionCnt + 1,w.places.set i (.opened c)⟩
    | _ => none
  | .command i input =>
    match w.places[i]? with
    | some (.opened c) =>
      if (c.step endp input).closed then some ⟨w.sessionCnt + -1,w.places.set i .loggedOut⟩
      else some { w with places := w.places.set i (.opened (c.step endp input)) }
    | _ => none

end Madmail.Smtp
