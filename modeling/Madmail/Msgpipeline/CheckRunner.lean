import Madmail.Framework.Exterrors
import Madmail.Framework.Module

namespace Madmail.Msgpipeline
open Exterrors Madmail.Module Function

def forEach (f : α → σ → σ × Option ε) : List α → σ → σ × Option ε
  | [], s => (s,none)
  | a :: as, s =>
    match f a s with
    | (s,some e) => (s,some e)
    | (s,none) => forEach f as s

inductive AuthValue where
  | unset | none | pass | fail | policy | neutral | tempError | permError | hardFail | softFail
  deriving DecidableEq, Repr

def AuthValue.text : AuthValue → String
  | .unset => ""
  | .none => "none"
  | .pass => "pass"
  | .fail => "fail"
  | .policy => "policy"
  | .neutral => "neutral"
  | .tempError => "temperror"
  | .permError => "permerror"
  | .hardFail => "hardfail"
  | .softFail => "softfail"

structure SPFResult where
  value : AuthValue := .unset
  reason : String := ""
  mailFrom : String := ""
  helo : String := ""
  deriving DecidableEq, Repr

structure DKIMResult where
  value : AuthValue := .unset
  reason : String := ""
  domain : String := ""
  identifier : String := ""
  deriving DecidableEq, Repr

structure DMARCResult where
  value : AuthValue := .unset
  reason : String := ""
  fromDomain : String := ""
  deriving DecidableEq, Repr

inductive AuthResult where
  | spf (r : SPFResult)
  | dkim (r : DKIMResult)
  | dmarc (r : DMARCResult)
  | other (method : String) (value : AuthValue)
  deriving DecidableEq, Repr

inductive Policy where
  | none | quarantine | reject
  deriving DecidableEq, Repr

structure EvalResult where
  authres : DMARCResult
  spfResult : SPFResult := {}
  dkimResult : DKIMResult := {}

structure CheckResult where
  reason : Option Err := none
  reject : Bool := false
  quarantine : Bool := false
  authResult : List AuthResult := []
  header : Header := []

inductive CheckCall where
  | checkConnection
  | checkSender (mailFrom : String)
  | checkRcpt (rcptTo : String)
  | checkBody (header : Header) (body : String)
  | close
  deriving DecidableEq, Repr

/-- Where the order of the elements is not up to the code: the goroutines of a
group of checks, and the loops over the maps. -/
inductive Site where
  | checks (call : CheckCall)
  | closeStates
  | bodyChecks
  | rewriteBody
  | body
  | setStatusAll
  | commit
  | abort
  | closeModifiers
  deriving DecidableEq, Repr

/-- What a pipeline gets to know about one message. A check answers according
to all the calls its state has had; a check that panics has the empty result. -/
structure Env where
  stateForMsg : Nat → MsgMetadata → Option Err
  result : Nat → List CheckCall → CheckResult
  dmarcApply : Option Header → List AuthResult → EvalResult × Policy
  formatAuthres : String → List AuthResult → String
  receivedText : MsgMetadata → String → String → String
  pick : Site → List Nat → List Nat
  pick_perm : ∀ site keys, (pick site keys).Perm keys

/-- `checkRunner`. Checks and states are objects with an identity, so they are
numbered; the states in the order they are created. -/
structure CheckRunner where
  mailFrom : String := ""
  mailFromReceived : Bool := false
  checkedRcpts : List String := []
  checkedRcptsPerCheck : Nat → List String := fun _ => []
  doDMARC : Bool
  -- The header `FetchRecord` was called with.
  dmarcFetch : Option Header := none
  -- From checks to their states.
  states : List (Nat × Nat) := []
  mergedRes : CheckResult := {}
  nextState : Nat := 0
  owner : Nat → Nat := fun _ => 0
  calls : Nat → List CheckCall := fun _ => []

def addFields (header fields : Header) : Header := fields.foldl (fun h f => f :: h) header

namespace CheckRunner

def note (cr : CheckRunner) (state : Nat) (call : CheckCall) : CheckRunner :=
  { cr with calls := update cr.calls state (cr.calls state ++ [call]) }

def ask (env : Env) (cr : CheckRunner) (state : Nat) (call : CheckCall) :
    CheckRunner × CheckResult :=
  (cr.note state call,env.result (cr.owner state) (cr.calls state ++ [call]))

def askRcpt (env : Env) (rcptTo : String) (cr : CheckRunner) (state : Nat) :
    CheckRunner × CheckResult :=
  if rcptTo ∈ cr.checkedRcptsPerCheck state then (cr,{})
  else
    ask env
      { cr with
        checkedRcptsPerCheck := update cr.checkedRcptsPerCheck state
          (cr.checkedRcptsPerCheck state ++ [rcptTo]) }
      state (.checkRcpt rcptTo)

/-- The data of one group of goroutines. A `sync.Once` is done when there is a
value, though that may be a nil error. -/
structure Merge where
  runner : CheckRunner
  quarantineErr : Option (Option Err) := none
  rejectErr : Option (Option Err) := none

def Merge.add (m : Merge) (res : CheckResult) : Merge :=
  let merged :=
    { m.runner.mergedRes with
      authResult := m.runner.mergedRes.authResult ++ res.authResult
      header := addFields m.runner.mergedRes.header res.header }
  let m := { m with runner := { m.runner with mergedRes := merged } }
  if res.quarantine then { m with quarantineErr := some (m.quarantineErr.getD res.reason) }
  else if res.reject then { m with rejectErr := some (m.rejectErr.getD res.reason) }
  else m

def Merge.result (m : Merge) : CheckRunner × Option Err :=
  match m.rejectErr with
  | some (some e) => (m.runner,some e)
  | _ =>
    match m.quarantineErr with
    | some (some _) => ({ m.runner with mergedRes := { m.runner.mergedRes with quarantine := true } },none)
    | _ => (m.runner,none)

/-- `runAndMergeResults`, for goroutines that finish in the order of the list. -/
def runAndMergeResults (cr : CheckRunner) (states : List Nat)
    (runner : CheckRunner → Nat → CheckRunner × CheckResult) : CheckRunner × Option Err :=
  (states.foldl
    (fun (m : Merge) state =>
      let (cr,res) := runner m.runner state
      ({ m with runner := cr }).add res)
    { runner := cr }).result

structure Init where
  runner : CheckRunner
  states : List Nat := []
  newStates : List Nat := []
  newStatesMap : List (Nat × Nat) := []

def initState (env : Env) (msgMeta : MsgMetadata) (check : Nat) (i : Init) : Init × Option Err :=
  match i.runner.states.lookup check with
  | some state => ({ i with states := i.states ++ [state] },none)
  | none =>
    match env.stateForMsg check msgMeta with
    | some e => (i,some e)
    | none =>
      let state := i.runner.nextState
      ({ runner :=
          { i.runner with
            nextState := state + 1
            owner := update i.runner.owner state check }
         states := i.states ++ [state]
         newStates := i.newStates ++ [state]
         newStatesMap := i.newStatesMap ++ [(check,state)] },none)

def closeStates (cr : CheckRunner) (states : List Nat) : CheckRunner :=
  states.foldl (fun cr state => cr.note state .close) cr

def replaySender (env : Env) (cr : CheckRunner) (newStates : List Nat) : CheckRunner × Option Err :=
  if cr.mailFromReceived then
    forEach
      (fun call (cr : CheckRunner) =>
        cr.runAndMergeResults (env.pick (.checks call) newStates) (fun cr state => ask env cr state call))
      [.checkConnection,.checkSender cr.mailFrom] cr
  else (cr,none)

def runRcpt (env : Env) (states : List Nat) (rcptTo : String) (cr : CheckRunner) :
    CheckRunner × Option Err :=
  cr.runAndMergeResults (env.pick (.checks (.checkRcpt rcptTo)) states) (askRcpt env rcptTo)

def register (cr : CheckRunner) (newStatesMap : List (Nat × Nat)) : CheckRunner :=
  { cr with
    states := newStatesMap.foldl
      (fun states entry => entry :: states.filter (fun old => old.1 ≠ entry.1)) cr.states }

def checkStates (env : Env) (cr : CheckRunner) (msgMeta : MsgMetadata) (checks : List Nat) :
    CheckRunner × Except Err (List Nat) :=
  match forEach (initState env msgMeta) checks { runner := cr } with
  | (i,some e) => (i.runner.closeStates i.states,.error e)
  | (i,none) =>
    if i.newStates = [] then (i.runner,.ok i.states)
    else
      match i.runner.replaySender env i.newStates with
      | (cr,some e) => (cr.closeStates i.states,.error e)
      | (cr,none) =>
        match forEach (runRcpt env i.states) cr.checkedRcpts cr with
        | (cr,some e) => (cr.closeStates i.states,.error e)
        | (cr,none) => (cr.register i.newStatesMap,.ok i.states)

def checkConnSender (env : Env) (cr : CheckRunner) (msgMeta : MsgMetadata) (checks : List Nat)
    (mailFrom : String) : CheckRunner × Option Err :=
  match checkStates env { cr with mailFrom := mailFrom, mailFromReceived := true } msgMeta checks with
  | (cr,.error e) => (cr,some e)
  | (cr,.ok _) => (cr,none)

def checkRcpt (env : Env) (cr : CheckRunner) (msgMeta : MsgMetadata) (checks : List Nat)
    (rcptTo : String) : CheckRunner × Option Err :=
  match checkStates env cr msgMeta checks with
  | (cr,.error e) => (cr,some e)
  | (cr,.ok states) =>
    let (cr,err) := runRcpt env states rcptTo cr
    ({ cr with checkedRcpts := cr.checkedRcpts ++ [rcptTo] },err)

def checkBody (env : Env) (cr : CheckRunner) (msgMeta : MsgMetadata) (checks : List Nat)
    (header : Header) (body : String) : CheckRunner × Option Err :=
  match checkStates env cr msgMeta checks with
  | (cr,.error e) => (cr,some e)
  | (cr,.ok states) =>
    let cr :=
      if cr.doDMARC ∧ cr.dmarcFetch = none then { cr with dmarcFetch := some header } else cr
    cr.runAndMergeResults (env.pick (.checks (.checkBody header body)) states)
      (fun cr state => ask env cr state (.checkBody header body))

def dmarcRejection (res : EvalResult) : Err :=
  .smtp
    { code := if res.authres.value = .tempError then 450 else 550
      enhancedCode := ⟨if res.authres.value = .tempError then 4 else 5,7,1⟩
      message := "DMARC check failed"
      checkName := "dmarc"
      misc :=
        [("reason",.str res.authres.reason),("dkim_res",.str res.dkimResult.value.text),
          ("dkim_domain",.str res.dkimResult.domain),("spf_res",.str res.spfResult.value.text),
          ("spf_from",.str res.spfResult.mailFrom)] }

/-- The end of `applyResults`: the fields that go on top of the header. -/
def resultHeader (env : Env) (cr : CheckRunner) (hostname : String) (header : Header) : Header :=
  let header :=
    if cr.mergedRes.authResult = [] then header
    else ("Authentication-Results",env.formatAuthres hostname cr.mergedRes.authResult) :: header
  addFields header cr.mergedRes.header

def applyResults (env : Env) (cr : CheckRunner) (msgMeta : MsgMetadata) (hostname : String)
    (header : Header) : CheckRunner × MsgMetadata × Except Err Header :=
  let msgMeta := if cr.mergedRes.quarantine then { msgMeta with quarantine := true } else msgMeta
  if cr.doDMARC then
    let (res,policy) := env.dmarcApply cr.dmarcFetch cr.mergedRes.authResult
    let merged :=
      { cr.mergedRes with authResult := cr.mergedRes.authResult ++ [.dmarc res.authres] }
    let cr := { cr with mergedRes := merged }
    match policy with
    | .reject => (cr,msgMeta,.error (dmarcRejection res))
    | .quarantine =>
      (cr,{ msgMeta with quarantine := true },.ok (resultHeader env cr hostname header))
    | .none => (cr,msgMeta,.ok (resultHeader env cr hostname header))
  else (cr,msgMeta,.ok (resultHeader env cr hostname header))

def close (env : Env) (cr : CheckRunner) : CheckRunner :=
  cr.closeStates (env.pick .closeStates (cr.states.map Prod.snd))

end CheckRunner

end Madmail.Msgpipeline
