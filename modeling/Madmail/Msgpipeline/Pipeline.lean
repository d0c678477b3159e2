import Madmail.Framework.Address
import Madmail.Msgpipeline.CheckRunner

namespace Madmail.Msgpipeline
open Exterrors Madmail.Module

structure Modifier where
  modStateForMsg : MsgMetadata → Option Err
  rewriteSender : String → Except Err String
  rewriteRcpt : String → Except Err (List String)
  rewriteBody : Header → String → Except Err Header

abbrev Group := List Modifier

namespace Group

def modStateForMsg (g : Group) (msgMeta : MsgMetadata) : Option Err :=
  g.findSome? (fun m => m.modStateForMsg msgMeta)

def rewriteSender (g : Group) (mailFrom : String) : Except Err String :=
  g.foldlM (fun mailFrom m => m.rewriteSender mailFrom) mailFrom

def rewriteAll (rewrite : String → Except Err (List String)) (rcpts : List String) :
    Except Err (List String) := do
  return (← rcpts.mapM rewrite).flatten

def rewriteRcpt (g : Group) (rcptTo : String) : Except Err (List String) :=
  g.foldlM (fun rcpts m => rewriteAll m.rewriteRcpt rcpts) [rcptTo]

def rewriteBody (g : Group) (header : Header) (body : String) : Except Err Header :=
  g.foldlM (fun header m => m.rewriteBody header body) header

end Group

structure RcptBlock where
  checks : List Nat := []
  modifiers : Group := []
  rejectErr : Option Err := none
  targets : List Nat := []

abbrev Lookup := String → Except Err Bool

structure SourceBlock where
  checks : List Nat := []
  modifiers : Group := []
  rejectErr : Option Err := none
  rcptIn : List (Lookup × Nat) := []
  perRcpt : String → Option Nat := fun _ => none
  defaultRcpt : Nat := 0

/-- `MsgPipeline`. Recipient blocks and targets are objects with an identity,
so that the maps of a delivery are keyed by their numbers. -/
structure Pipeline (τ : Type) where
  env : Env
  idna : Address.Idna
  hostname : String
  firstPipeline : Bool
  doDMARC : Bool
  globalChecks : List Nat
  globalModifiers : Group
  sourceIn : List (Lookup × SourceBlock)
  perSource : String → Option SourceBlock
  defaultSource : SourceBlock
  blocks : Nat → RcptBlock
  target : Nat → τ

/-- A call of `SetStatus`. To tell the calls apart, it carries the targets that
lead to the object which made it, and the address as that object gave it. -/
structure Status where
  rcpt : String
  err : Option Err
  via : List Nat := []
  addr : String
  deriving DecidableEq

def Status.own (rcpt : String) (err : Option Err) : Status := { rcpt := rcpt, err := err, addr := rcpt }

/-- The methods of delivery targets of type `τ` and of their deliveries of type
`δ`. A pipeline is such a target again. `Body` may set the quarantine flag of
the message, and says if it does. -/
structure Targets (τ δ : Type) where
  isPipeline : τ → Bool
  start : τ → MsgMetadata → String → MsgMetadata × Except Err δ
  addRcpt : δ → MsgMetadata → String → δ × MsgMetadata × Option Err
  body : δ → MsgMetadata → Header → String → δ × Bool × Option Err
  isPartialDelivery : δ → Bool
  bodyNonAtomic : δ → MsgMetadata → Header → String → δ × List Status
  commit : δ → δ × Option Err
  abort : δ → δ × Option Err

inductive ModRef where
  | global
  | source
  | rcpt (block : Nat)
  deriving DecidableEq, Repr

inductive ModCall where
  | rewriteSender | rewriteRcpt | rewriteBody | close
  deriving DecidableEq, Repr

structure Handle (δ : Type) where
  obj : δ
  recipients : List String := []

structure Delivery (τ δ : Type) where
  d : Pipeline τ
  sourceAddr : String := ""
  sourceBlock : SourceBlock := {}
  -- Which modifier states there are, those of the recipient blocks as a map.
  globalModifiersState : Bool := false
  sourceModifiersState : Bool := false
  rcptModifiersState : List Nat := []
  deliveries : List (Nat × Handle δ) := []
  checkRunner : CheckRunner
  modCalls : List (ModRef × ModCall) := []

def wrapErr (rcptTo : String) (err : Err) : Err :=
  .fieldsWrap err [("effective_rcpt",.str rcptTo)]

namespace Delivery
variable {τ δ : Type}

def noteMod (dd : Delivery τ δ) (ref : ModRef) (call : ModCall) : Delivery τ δ :=
  { dd with modCalls := dd.modCalls ++ [(ref,call)] }

def close (dd : Delivery τ δ) : Delivery τ δ :=
  let refs :=
    (if dd.globalModifiersState then [ModRef.global] else []) ++
    (if dd.sourceModifiersState then [ModRef.source] else []) ++
    (dd.d.env.pick .closeModifiers dd.rcptModifiersState).map ModRef.rcpt
  refs.foldl (fun dd ref => dd.noteMod ref .close)
    { dd with checkRunner := dd.checkRunner.close dd.d.env }

def firstIn (tables : List (Lookup × β)) (key : String) : Option β :=
  match tables with
  | [] => none
  | (table,block) :: rest =>
    match table key with
    | .ok true => some block
    | _ => firstIn rest key

def srcBlockForAddr (d : Pipeline τ) (mailFrom : String) : Except Err SourceBlock :=
  match Address.forLookup d.idna mailFrom with
  | .error e =>
    .error (.smtpWrap
      { code := 501
        enhancedCode := ⟨5,1,7⟩
        message := "Unable to normalize the sender address" } e)
  | .ok cleanFrom =>
    match firstIn d.sourceIn cleanFrom with
    | some block => .ok block
    | none =>
      match d.perSource cleanFrom with
      | some block => .ok block
      | none =>
        match Address.split cleanFrom with
        | .error e =>
          if cleanFrom ≠ "" then
            .error (.smtpWrap
              { code := 501
                enhancedCode := ⟨5,1,3⟩
                message := "Invalid sender address"
                reason := "Can't extract local-part and host-part" } e)
          else .ok ((d.perSource "").getD d.defaultSource)
        | .ok (_,domain) => .ok ((d.perSource domain).getD d.defaultSource)

def checkConnSender (dd : Delivery τ δ) (msgMeta : MsgMetadata) (checks : List Nat)
    (mailFrom : String) : Delivery τ δ × Option Err :=
  let (cr,err) := dd.checkRunner.checkConnSender dd.d.env msgMeta checks mailFrom
  ({ dd with checkRunner := cr },err)

def initRunGlobalModifiers (dd : Delivery τ δ) (msgMeta : MsgMetadata) (mailFrom : String) :
    Delivery τ δ × Except Err String :=
  match dd.d.globalModifiers.modStateForMsg msgMeta with
  | some e => (dd,.error e)
  | none =>
    let dd := dd.noteMod .global .rewriteSender
    match dd.d.globalModifiers.rewriteSender mailFrom with
    | .error e => (dd.noteMod .global .close,.error e)
    | .ok mailFrom => ({ dd with globalModifiersState := true },.ok mailFrom)

def startSource (dd : Delivery τ δ) (msgMeta : MsgMetadata) (mailFrom : String) :
    Delivery τ δ × Option Err :=
  match dd.checkConnSender msgMeta dd.sourceBlock.checks mailFrom with
  | (dd,some e) => (dd,some e)
  | (dd,none) =>
    match dd.sourceBlock.modifiers.modStateForMsg msgMeta with
    | some e => (dd,some e)
    | none =>
      let dd := dd.noteMod .source .rewriteSender
      match dd.sourceBlock.modifiers.rewriteSender mailFrom with
      | .error e => (dd,some e)
      | .ok mailFrom => ({ dd with sourceModifiersState := true, sourceAddr := mailFrom },none)

def startSender (dd : Delivery τ δ) (msgMeta : MsgMetadata) (mailFrom : String) :
    Delivery τ δ × Option Err :=
  match dd.checkConnSender msgMeta dd.d.globalChecks mailFrom with
  | (dd,some e) => (dd,some e)
  | (dd,none) =>
    match dd.initRunGlobalModifiers msgMeta mailFrom with
    | (dd,.error e) => (dd,some e)
    | (dd,.ok mailFrom) =>
      match srcBlockForAddr dd.d mailFrom with
      | .error e => (dd,some e)
      | .ok block =>
        match block.rejectErr with
        | some e => (dd,some e)
        | none => ({ dd with sourceBlock := block }).startSource msgMeta mailFrom

/-- `MsgPipeline.Start`. The map of original recipients needs no allocation. -/
def start (d : Pipeline τ) (msgMeta : MsgMetadata) (mailFrom : String) :
    Delivery τ δ × Option Err :=
  match ({ d := d, checkRunner := { doDMARC := d.doDMARC } } : Delivery τ δ).startSender
      msgMeta mailFrom with
  | (dd,some e) => (dd.close,some e)
  | (dd,none) => (dd,none)

def checkRcpt (dd : Delivery τ δ) (msgMeta : MsgMetadata) (checks : List Nat) (rcptTo : String) :
    Delivery τ δ × Option Err :=
  let (cr,err) := dd.checkRunner.checkRcpt dd.d.env msgMeta checks rcptTo
  ({ dd with checkRunner := cr },err)

def rcptBlockForAddr (dd : Delivery τ δ) (rcptTo : String) : Except Err Nat :=
  match Address.forLookup dd.d.idna rcptTo with
  | .error e =>
    .error (.smtpWrap
      { code := 553
        enhancedCode := ⟨5,1,2⟩
        message := "Unable to normalize the recipient address" } e)
  | .ok cleanRcpt =>
    match firstIn dd.sourceBlock.rcptIn cleanRcpt with
    | some block => .ok block
    | none =>
      match dd.sourceBlock.perRcpt cleanRcpt with
      | some block => .ok block
      | none =>
        match Address.split cleanRcpt with
        | .error e =>
          .error (.smtpWrap
            { code := 501
              enhancedCode := ⟨5,1,3⟩
              message := "Invalid recipient address"
              reason := "Can't extract local-part and host-part" } e)
        | .ok (_,domain) => .ok ((dd.sourceBlock.perRcpt domain).getD dd.sourceBlock.defaultRcpt)

/-- `getRcptModifiers`: the state is made on first use, and what it does to the
sender is ignored. -/
def getRcptModifiers (dd : Delivery τ δ) (msgMeta : MsgMetadata) (block : Nat) :
    Delivery τ δ × Option Err :=
  if block ∈ dd.rcptModifiersState then (dd,none)
  else
    match (dd.d.blocks block).modifiers.modStateForMsg msgMeta with
    | some e => (dd,some e)
    | none =>
      let dd := dd.noteMod (.rcpt block) .rewriteSender
      ({ dd with rcptModifiersState := dd.rcptModifiersState ++ [block] },none)

def rewriteSource (dd : Delivery τ δ) : List String → Delivery τ δ × Except Err (List String)
  | [] => (dd,.ok [])
  | rcptTo :: rest =>
    match dd.sourceBlock.modifiers.rewriteRcpt rcptTo with
    | .error e => (dd.noteMod .source .rewriteRcpt,.error e)
    | .ok newTo =>
      match (dd.noteMod .source .rewriteRcpt).rewriteSource rest with
      | (dd,.error e) => (dd,.error e)
      | (dd,.ok more) => (dd,.ok (newTo ++ more))

def handle (dd : Delivery τ δ) (tgt : Nat) : Option (Handle δ) := dd.deliveries.lookup tgt

def setHandle (dd : Delivery τ δ) (tgt : Nat) (h : Handle δ) : Delivery τ δ :=
  { dd with
    deliveries := dd.deliveries.map (fun entry => if entry.1 = tgt then (tgt,h) else entry) }

section Methods
variable (ops : Targets τ δ)

def getDelivery (dd : Delivery τ δ) (msgMeta : MsgMetadata) (tgt : Nat) :
    Delivery τ δ × MsgMetadata × Except Err (Handle δ) :=
  match dd.handle tgt with
  | some h => (dd,msgMeta,.ok h)
  | none =>
    match ops.start (dd.d.target tgt) msgMeta dd.sourceAddr with
    | (msgMeta,.error e) => (dd,msgMeta,.error e)
    | (msgMeta,.ok obj) =>
      ({ dd with deliveries := dd.deliveries ++ [(tgt,{ obj := obj })] },msgMeta,.ok { obj := obj })

def addToTarget (originalTo rcptTo : String) (tgt : Nat) (st : Delivery τ δ × MsgMetadata) :
    (Delivery τ δ × MsgMetadata) × Option Err :=
  let (dd,msgMeta) := st
  let wrap (e : Err) : Err := if ops.isPipeline (dd.d.target tgt) then e else wrapErr rcptTo e
  match dd.getDelivery ops msgMeta tgt with
  | (dd,msgMeta,.error e) => ((dd,msgMeta),some (wrap e))
  | (dd,msgMeta,.ok h) =>
    match ops.addRcpt h.obj msgMeta rcptTo with
    | (obj,msgMeta,some e) => ((dd.setHandle tgt { h with obj := obj },msgMeta),some (wrap e))
    | (obj,msgMeta,none) =>
      ((dd.setHandle tgt { obj := obj, recipients := h.recipients ++ [originalTo] },msgMeta),none)

def addRewritten (originalTo : String) (targets : List Nat) (rcptTo : String)
    (st : Delivery τ δ × MsgMetadata) : (Delivery τ δ × MsgMetadata) × Option Err :=
  let (dd,msgMeta) := st
  let msgMeta :=
    if originalTo ≠ rcptTo then
      { msgMeta with
        originalRcpts := Function.update msgMeta.originalRcpts rcptTo (some originalTo) }
    else msgMeta
  forEach (addToTarget ops originalTo rcptTo) targets (dd,msgMeta)

def addEffective (originalTo rcptTo : String) (st : Delivery τ δ × MsgMetadata) :
    (Delivery τ δ × MsgMetadata) × Option Err :=
  let (dd,msgMeta) := st
  match dd.rcptBlockForAddr rcptTo with
  | .error e => ((dd,msgMeta),some (wrapErr rcptTo e))
  | .ok block =>
    match (dd.d.blocks block).rejectErr with
    | some e => ((dd,msgMeta),some (wrapErr rcptTo e))
    | none =>
      match dd.checkRcpt msgMeta (dd.d.blocks block).checks rcptTo with
      | (dd,some e) => ((dd,msgMeta),some (wrapErr rcptTo e))
      | (dd,none) =>
        match dd.getRcptModifiers msgMeta block with
        | (dd,some e) => ((dd,msgMeta),some (wrapErr rcptTo e))
        | (dd,none) =>
          let dd := dd.noteMod (.rcpt block) .rewriteRcpt
          match (dd.d.blocks block).modifiers.rewriteRcpt rcptTo with
          | .error e => ((dd.noteMod (.rcpt block) .close,msgMeta),some (wrapErr rcptTo e))
          | .ok newTo =>
            forEach (addRewritten ops originalTo (dd.d.blocks block).targets) newTo (dd,msgMeta)

def addRcpt (dd : Delivery τ δ) (msgMeta : MsgMetadata) (rcptTo : String) :
    Delivery τ δ × MsgMetadata × Option Err :=
  match dd.checkRcpt msgMeta dd.d.globalChecks rcptTo with
  | (dd,some e) => (dd,msgMeta,some e)
  | (dd,none) =>
    match dd.checkRcpt msgMeta dd.sourceBlock.checks rcptTo with
    | (dd,some e) => (dd,msgMeta,some e)
    | (dd,none) =>
      let dd := dd.noteMod .global .rewriteRcpt
      match dd.d.globalModifiers.rewriteRcpt rcptTo with
      | .error e => (dd,msgMeta,some e)
      | .ok resultTo =>
        match dd.rewriteSource resultTo with
        | (dd,.error e) => (dd,msgMeta,some e)
        | (dd,.ok resultTo) =>
          let ((dd,msgMeta),err) := forEach (addEffective ops rcptTo) resultTo (dd,msgMeta)
          (dd,msgMeta,err)

end Methods

def checkBodies (dd : Delivery τ δ) (msgMeta : MsgMetadata) (groups : List (List Nat))
    (header : Header) (body : String) : Delivery τ δ × Option Err :=
  let (cr,err) := forEach
    (fun checks (cr : CheckRunner) => cr.checkBody dd.d.env msgMeta checks header body)
    groups dd.checkRunner
  ({ dd with checkRunner := cr },err)

def mainGroups (dd : Delivery τ δ) : List (List Nat) := [dd.d.globalChecks,dd.sourceBlock.checks]

/-- The groups of the recipient blocks in use, which only `Body` runs. -/
def rcptGroups (dd : Delivery τ δ) : List (List Nat) :=
  (dd.d.env.pick .bodyChecks dd.rcptModifiersState).map (fun block => (dd.d.blocks block).checks)

def generateReceived (env : Env) (msgMeta : MsgMetadata) (hostname mailFrom : String) :
    Except Err String :=
  match msgMeta.conn with
  | none => .error (.leaf "can't generate Received for a locally generated message" none)
  | some _ => .ok (env.receivedText msgMeta hostname mailFrom)

def addReceived (dd : Delivery τ δ) (msgMeta : MsgMetadata) (header : Header) : Except Err Header :=
  if dd.d.firstPipeline then
    match generateReceived dd.d.env msgMeta dd.d.hostname msgMeta.originalFrom with
    | .error e => .error e
    | .ok received => .ok (("Received",received) :: header)
  else .ok header

inductive Stop where
  | policy (err : Err)
  | failure (err : Err)

def Stop.err : Stop → Err
  | .policy err | .failure err => err

/-- `Body` up to where the results of the checks have been applied. -/
def applyPolicy (dd : Delivery τ δ) (msgMeta : MsgMetadata) (header : Header) (body : String) :
    Delivery τ δ × MsgMetadata × Except Stop Header :=
  match dd.checkBodies msgMeta (dd.mainGroups ++ dd.rcptGroups) header body with
  | (dd,some e) => (dd,msgMeta,.error (.policy e))
  | (dd,none) =>
    match dd.addReceived msgMeta header with
    | .error e => (dd,msgMeta,.error (.failure e))
    | .ok header =>
      match dd.checkRunner.applyResults dd.d.env msgMeta dd.d.hostname header with
      | (cr,msgMeta,.error e) => ({ dd with checkRunner := cr },msgMeta,.error (.policy e))
      | (cr,msgMeta,.ok header) => ({ dd with checkRunner := cr },msgMeta,.ok header)

def bodyModifiers (dd : Delivery τ δ) : List (ModRef × Group) :=
  (.global,dd.d.globalModifiers) :: (.source,dd.sourceBlock.modifiers) ::
    (dd.d.env.pick .rewriteBody dd.rcptModifiersState).map
      (fun block => (.rcpt block,(dd.d.blocks block).modifiers))

def rewriteWith (body : String) :
    List (ModRef × Group) → Delivery τ δ → Header → Delivery τ δ × Except Err Header
  | [], dd, header => (dd,.ok header)
  | (ref,modifiers) :: rest, dd, header =>
    match modifiers.rewriteBody header body with
    | .error e => (dd.noteMod ref .rewriteBody,.error e)
    | .ok header => rewriteWith body rest (dd.noteMod ref .rewriteBody) header

def rewriteBody (dd : Delivery τ δ) (header : Header) (body : String) :
    Delivery τ δ × Except Err Header :=
  rewriteWith body dd.bodyModifiers dd header

def keys (dd : Delivery τ δ) : List Nat := dd.deliveries.map Prod.fst

section Methods
variable (ops : Targets τ δ)

def bodyOf (header : Header) (body : String) (tgt : Nat) (st : Delivery τ δ × MsgMetadata) :
    (Delivery τ δ × MsgMetadata) × Option Err :=
  let (dd,msgMeta) := st
  match dd.handle tgt with
  | none => ((dd,msgMeta),none)
  | some h =>
    let (obj,quarantined,err) := ops.body h.obj msgMeta header body
    ((dd.setHandle tgt { h with obj := obj },
      { msgMeta with quarantine := msgMeta.quarantine || quarantined }),err)

def body (dd : Delivery τ δ) (msgMeta : MsgMetadata) (header : Header) (body : String) :
    Delivery τ δ × MsgMetadata × Option Err :=
  match dd.applyPolicy msgMeta header body with
  | (dd,msgMeta,.error stop) => (dd,msgMeta,some stop.err)
  | (dd,msgMeta,.ok header) =>
    match dd.rewriteBody header body with
    | (dd,.error e) => (dd,msgMeta,some e)
    | (dd,.ok header) =>
      let ((dd,msgMeta),err) :=
        forEach (bodyOf ops header body) (dd.d.env.pick .body dd.keys) (dd,msgMeta)
      (dd,msgMeta,err)

def setStatusAll (dd : Delivery τ δ) (err : Err) : List Status :=
  (dd.d.env.pick .setStatusAll dd.keys).flatMap (fun tgt =>
    match dd.handle tgt with
    | none => []
    | some h => h.recipients.map (fun rcpt => .own rcpt (some err)))

def collectStatus (originalRcpts : String → Option String) (tgt : Nat) (st : Status) : Status :=
  { st with rcpt := (originalRcpts st.rcpt).getD st.rcpt, via := tgt :: st.via }

/-- What `BodyNonAtomic` has done: the statuses that were set, and the targets
that got the message, each with the quarantine flag it found. -/
structure NonAtomic (τ δ : Type) where
  dd : Delivery τ δ
  msgMeta : MsgMetadata
  statuses : List Status := []
  handed : List (Nat × Bool) := []

def handNonAtomic (header : Header) (body : String) (r : NonAtomic τ δ) (tgt : Nat) :
    NonAtomic τ δ :=
  match r.dd.handle tgt with
  | none => r
  | some h =>
    let handed := r.handed ++ [(tgt,r.msgMeta.quarantine)]
    if ops.isPartialDelivery h.obj then
      let (obj,statuses) := ops.bodyNonAtomic h.obj r.msgMeta header body
      { r with
        dd := r.dd.setHandle tgt { h with obj := obj }
        statuses := r.statuses ++ statuses.map (collectStatus r.msgMeta.originalRcpts tgt)
        handed := handed }
    else
      let (obj,quarantined,err) := ops.body h.obj r.msgMeta header body
      { dd := r.dd.setHandle tgt { h with obj := obj }
        msgMeta := { r.msgMeta with quarantine := r.msgMeta.quarantine || quarantined }
        statuses := r.statuses ++ match err with
          | none => []
          | some e => h.recipients.map (fun rcpt => .own rcpt (some e))
        handed := handed }

def bodyNonAtomic (dd : Delivery τ δ) (msgMeta : MsgMetadata) (header : Header) (body : String) :
    NonAtomic τ δ :=
  match dd.checkBodies msgMeta dd.mainGroups header body with
  | (dd,some e) => { dd := dd, msgMeta := msgMeta, statuses := dd.setStatusAll e }
  | (dd,none) =>
    match dd.rewriteBody header body with
    | (dd,.error e) => { dd := dd, msgMeta := msgMeta, statuses := dd.setStatusAll e }
    | (dd,.ok header) =>
      (dd.d.env.pick .body dd.keys).foldl (handNonAtomic ops header body)
        { dd := dd, msgMeta := msgMeta }

/-- `Commit`, which stops at the first delivery that fails. -/
def commit (dd : Delivery τ δ) : Delivery τ δ × Option Err :=
  forEach
    (fun tgt (dd : Delivery τ δ) =>
      match dd.handle tgt with
      | none => (dd,none)
      | some h =>
        let (obj,err) := ops.commit h.obj
        (dd.setHandle tgt { h with obj := obj },err))
    (dd.d.env.pick .commit dd.keys) dd.close

/-- `Abort`, which goes through all of them and returns the last error. -/
def abort (dd : Delivery τ δ) : Delivery τ δ × Option Err :=
  (dd.d.env.pick .abort dd.keys).foldl
    (fun (st : Delivery τ δ × Option Err) tgt =>
      match st.1.handle tgt with
      | none => st
      | some h =>
        let (obj,err) := ops.abort h.obj
        (st.1.setHandle tgt { h with obj := obj },err <|> st.2))
    (dd.close,none)

structure Transaction (τ δ : Type) where
  dd : Delivery τ δ
  msgMeta : MsgMetadata
  accepted : List String := []

def Transaction.offer (tx : Transaction τ δ) (rcptTo : String) : Transaction τ δ :=
  match tx.dd.addRcpt ops tx.msgMeta rcptTo with
  | (dd,msgMeta,some _) => { tx with dd := dd, msgMeta := msgMeta }
  | (dd,msgMeta,none) =>
    { dd := dd, msgMeta := msgMeta, accepted := tx.accepted ++ [rcptTo] }

theorem offer_dd (tx : Transaction τ δ) (rcptTo : String) :
    (tx.offer ops rcptTo).dd = (tx.dd.addRcpt ops tx.msgMeta rcptTo).1 := by
  unfold Transaction.offer
  rcases tx.dd.addRcpt ops tx.msgMeta rcptTo with ⟨dd,m,_ | e⟩ <;> rfl

def transaction (d : Pipeline τ) (msgMeta : MsgMetadata) (mailFrom : String)
    (rcpts : List String) : Option (Transaction τ δ) :=
  match start d msgMeta mailFrom with
  | (_,some _) => none
  | (dd,none) => some (rcpts.foldl (Transaction.offer ops) { dd := dd, msgMeta := msgMeta })

end Methods

end Delivery

def Env.passing : Env :=
  { stateForMsg := fun _ _ => none
    result := fun _ _ => {}
    dmarcApply := fun _ _ => ({ authres := {} },.none)
    formatAuthres := fun hostname _ => hostname
    receivedText := fun _ hostname _ => hostname
    pick := fun _ keys => keys
    pick_perm := fun _ keys => .refl keys }

def Pipeline.plain : Pipeline Unit :=
  { env := .passing
    idna := ⟨.ok,fun text => text,fun _ => false⟩
    hostname := "mx.example.org"
    firstPipeline := false
    doDMARC := false
    globalChecks := []
    globalModifiers := []
    sourceIn := []
    perSource := fun _ => none
    defaultSource := {}
    blocks := fun _ => { targets := [0] }
    target := fun _ => () }

def Targets.silent : Targets Unit Unit :=
  { isPipeline := fun _ => false
    start := fun _ msgMeta _ => (msgMeta,.ok ())
    addRcpt := fun _ msgMeta _ => ((),msgMeta,none)
    body := fun _ _ _ _ => ((),false,none)
    isPartialDelivery := fun _ => true
    bodyNonAtomic := fun _ _ _ _ => ((),[])
    commit := fun _ => ((),none)
    abort := fun _ => ((),none) }

end Madmail.Msgpipeline
