import Madmail.Msgpipeline.Pipeline

namespace Madmail.Chatmail
open Exterrors Madmail.Module Msgpipeline

structure Request where
  method : String
  -- `X-Mail-From`, and all the values of `X-Mail-To`
  mailFrom : String
  mailTo : List String
  body : Except Err String

structure Response where
  code : Nat
  text : String := ""
  deriving DecidableEq, Repr

def internalServerError : Response := ⟨500,"Internal server error"⟩

structure Receiver (τ δ : Type) where
  ops : Targets τ δ
  storage : Option τ
  msgID : String
  -- `textproto.ReadHeader`: the header and what follows it
  readHeader : String → Except Err (Header × String)

/-- What came of a request: the response, the recipients that `AddRcpt` took, the
header and body that `Body` was given, whether `Commit` succeeded, and the
delivery after the deferred `Abort`. -/
structure Handled (δ : Type) where
  response : Response
  accepted : List String := []
  handed : Option (Header × String) := none
  committed : Bool := false
  delivery : Option δ := none

def addRcpts (ops : Targets τ δ) : List String → δ → MsgMetadata → δ × MsgMetadata × List String
  | [], delivery, msgMeta => (delivery,msgMeta,[])
  | rcptTo :: rest, delivery, msgMeta =>
    match ops.addRcpt delivery msgMeta rcptTo with
    | (delivery,msgMeta,some _) => addRcpts ops rest delivery msgMeta
    | (delivery,msgMeta,none) =>
      let (delivery,msgMeta,accepted) := addRcpts ops rest delivery msgMeta
      (delivery,msgMeta,rcptTo :: accepted)

variable {τ δ : Type}

def receiveMessage (r : Receiver τ δ) (mailTo : List String) (bodyData : String) (delivery : δ)
    (msgMeta : MsgMetadata) : Handled δ :=
  let finish (delivery : δ) : Option δ := some (r.ops.abort delivery).1
  let (delivery,msgMeta,accepted) := addRcpts r.ops mailTo delivery msgMeta
  if accepted = [] then
    { response := ⟨404,"No valid recipients"⟩, delivery := finish delivery }
  else
    match r.readHeader bodyData with
    | .error _ =>
      { response := ⟨400,"Bad request"⟩, accepted := accepted, delivery := finish delivery }
    | .ok (header,body) =>
      match r.ops.body delivery msgMeta header body with
      | (delivery,_,some _) =>
        { response := internalServerError, accepted := accepted, handed := some (header,body)
          delivery := finish delivery }
      | (delivery,_,none) =>
        match r.ops.commit delivery with
        | (delivery,some _) =>
          { response := internalServerError, accepted := accepted, handed := some (header,body)
            delivery := finish delivery }
        | (delivery,none) =>
          { response := ⟨200,""⟩, accepted := accepted, handed := some (header,body)
            committed := true, delivery := finish delivery }

def handleReceiveEmail (r : Receiver τ δ) (req : Request) : Handled δ :=
  if req.method ≠ "POST" then { response := ⟨405,"Method not allowed"⟩ }
  else if req.mailTo = [] then { response := ⟨400,"Missing X-Mail-To header"⟩ }
  else
    match req.body with
    | .error _ => { response := internalServerError }
    | .ok bodyData =>
      match r.storage with
      | none => { response := internalServerError }
      | some dt =>
        match r.ops.start dt { id := r.msgID } req.mailFrom with
        | (_,.error _) => { response := internalServerError }
        | (msgMeta,.ok delivery) => receiveMessage r req.mailTo bodyData delivery msgMeta

end Madmail.Chatmail
