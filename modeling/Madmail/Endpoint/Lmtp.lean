import Madmail.Endpoint.Session
import Madmail.Lib.Runs
import Madmail.Msgpipeline.Pipeline

namespace Madmail.Smtp
open Exterrors Madmail.Module Msgpipeline.Delivery

/-- `SetStatus` of the collector that the protocol library gives to `LMTPData`:
it has a slot for each recipient it has accepted, under the client's spelling,
and panics when there is none left. -/
def setStatus (slots : List String) (rcpt : String) : Option (List String) :=
  if rcpt ∈ slots then some (slots.erase rcpt) else none

section Pipeline
variable {τ δ : Type} (ops : Msgpipeline.Targets τ δ) (pipeline : Msgpipeline.Pipeline τ)

def Envelope.transaction (envelope : Envelope) : Option (Transaction τ δ) :=
  Msgpipeline.Delivery.transaction ops pipeline envelope.msgMeta envelope.mailFrom envelope.rcpts

def Env.withPipeline (env : Env) : Env :=
  { env with
    start := fun msgMeta mailFrom =>
      (Msgpipeline.Delivery.start (δ := δ) pipeline msgMeta mailFrom).2
    addRcpt := fun envelope rcptTo =>
      (envelope.transaction ops pipeline).bind fun tx =>
        (tx.dd.addRcpt ops tx.msgMeta rcptTo).2.2 }

/-- The meta-data are one object of the session and the pipeline, which writes
these fields. -/
def sharedMeta (msgMeta : MsgMetadata) (tx : Transaction τ δ) : MsgMetadata :=
  { msgMeta with
    originalRcpts := tx.msgMeta.originalRcpts
    quarantine := tx.msgMeta.quarantine }

def Env.withBody (env : Env) (tx : Transaction τ δ) : Env :=
  { env with
    bodyNonAtomic := fun envelope header body =>
      (tx.dd.bodyNonAtomic ops (sharedMeta envelope.msgMeta tx) header body).statuses.map
        (fun st => (st.rcpt,st.err)) }

structure Lmtp where
  session : Session
  accepted : List String := []

def Lmtp.rcpt (endp : Endpoint) (l : Lmtp) (input : Env × String) : Lmtp :=
  match Smtp.rcpt endp (input.1.withPipeline ops pipeline) l.session input.2 with
  | (s,some _) => { l with session := s }
  | (s,none) => { session := s, accepted := l.accepted ++ [input.2] }

end Pipeline

def Reply.recipients : Reply → List String
  | .refused => []
  | .answer _ statuses => statuses.map Prod.fst

end Madmail.Smtp
