import Madmail.Framework.Exterrors
import Madmail.Framework.Module
import Mathlib.Data.List.AList

namespace Madmail.Queue
open Exterrors Madmail.Module Function

abbrev Counts := AList (fun _ : String => Nat)

/-- `QueueMetadata`. A nil map and an empty one read the same. -/
structure QueueMetadata where
  msgMeta : MsgMetadata
  mailFrom : String
  toRcpts : List String
  rcptErrs : String → Option GoSmtpError
  triesCount : Counts
  firstAttempt : Int
  lastAttempt : Int

def newDelivery (msgMeta : MsgMetadata) (mailFrom : String) (now : Int) : QueueMetadata :=
  { msgMeta, mailFrom, toRcpts := [], rcptErrs := fun _ => none, triesCount := ∅,
    firstAttempt := now, lastAttempt := now }

def addRcpt (m : QueueMetadata) (rcptTo : String) : QueueMetadata :=
  { m with toRcpts := m.toRcpts ++ [rcptTo] }

abbrev Errs := String → Option Err

def setStatus (errs : Errs) (rcptTo : String) : Option Err → Errs
  | none => errs
  | some err => update errs rcptTo (some err)

def expandToPartialErr (errs : Errs) (rcpts : List String) (err : Err) : Errs :=
  rcpts.foldl (fun errs rcpt => update errs rcpt (some err)) errs

inductive Body where
  /-- `Body` is the only method. -/
  | atomic (err : Option Err)
  /-- `BodyNonAtomic`, as its `SetStatus` calls in the order of the lock. -/
  | nonAtomic (statuses : List (String × Option Err))

/-- What the target answers during one attempt. `addRcpt` is indexed by the
number of the call. -/
structure Target where
  start : Option Err
  addRcpt : Nat → Option Err
  body : Body
  commit : Option Err

inductive Terminal where
  | abort | commit
  deriving DecidableEq, Repr

structure Delivered where
  errs : Errs
  /-- Arguments of the `AddRcpt` calls, in order. -/
  handed : List String
  terminal : Option Terminal

/-- The loop over `meta.To`: rejected recipients get their error, the others
are collected in `acceptedRcpts`. -/
def addRcpts (tgt : Target) : Nat → List String → Errs → List String → Errs × List String
  | _, [], errs, accepted => (errs,accepted)
  | k, rcpt :: rest, errs, accepted =>
    match tgt.addRcpt k with
    | some err => addRcpts tgt (k + 1) rest (update errs rcpt (some err)) accepted
    | none => addRcpts tgt (k + 1) rest errs (accepted ++ [rcpt])

def bodyErrs (accepted : List String) (errs : Errs) : Body → Errs
  | .atomic none => errs
  | .atomic (some err) => expandToPartialErr errs accepted err
  | .nonAtomic statuses => statuses.foldl (fun errs st => setStatus errs st.1 st.2) errs

def deliver (tgt : Target) (toRcpts : List String) : Delivered :=
  match tgt.start with
  | some err => ⟨expandToPartialErr (fun _ => none) toRcpts err,[],none⟩
  | none =>
    let (errs,accepted) := addRcpts tgt 0 toRcpts (fun _ => none) []
    if accepted.isEmpty then ⟨errs,toRcpts,some .abort⟩
    else
      let errs := bodyErrs accepted errs tgt.body
      if accepted.all (fun rcpt => (errs rcpt).isSome) then ⟨errs,toRcpts,some .abort⟩
      else
        match tgt.commit with
        | some err => ⟨expandToPartialErr errs accepted err,toRcpts,some .commit⟩
        | none => ⟨errs,toRcpts,some .commit⟩

def toSMTPErr (err : Err) : GoSmtpError :=
  match err with
  | .goSmtp e => e
  | err =>
    let temporary := isTemporaryOrUnspec err
    { code := match fields err "smtp_code" with
        | some (.int n) => n
        | _ => if temporary then 451 else 554
      enhancedCode := match fields err "smtp_enchcode" with
        | some (.goSmtpEnchCode c) => c
        | _ => if temporary then ⟨4,0,0⟩ else ⟨5,0,0⟩
      message := match fields err "smtp_msg" with
        | some (.str s) => s
        | _ => "Internal server error" }

/-- The accumulators of the loop of `tryDelivery`. `delivered` lists the
recipients that were counted as delivered. -/
structure Split where
  rcptErrs : String → Option GoSmtpError
  triesCount : Counts
  newRcpts : List String
  failedRcpts : List String
  delivered : List String
  smallestTriesCount : Nat

def Split.markDelivered (acc : Split) (rcpt : String) : Split :=
  { acc with delivered := acc.delivered ++ [rcpt] }

def Split.markFailed (acc : Split) (rcpt : String) (err : Err) : Split :=
  { acc with
    rcptErrs := update acc.rcptErrs rcpt (some (toSMTPErr err))
    triesCount := acc.triesCount.erase rcpt
    failedRcpts := acc.failedRcpts ++ [rcpt] }

def Split.requeue (acc : Split) (rcpt : String) (err : Err) : Split :=
  let count := (acc.triesCount.lookup rcpt).getD 0 + 1
  { acc with
    rcptErrs := update acc.rcptErrs rcpt (some (toSMTPErr err))
    triesCount := acc.triesCount.insert rcpt count
    newRcpts := acc.newRcpts ++ [rcpt]
    smallestTriesCount := if count < acc.smallestTriesCount then count else acc.smallestTriesCount }

def splitRcpt (maxTries : Int) (errs : Errs) (acc : Split) (rcpt : String) : Split :=
  match errs rcpt with
  | none => acc.markDelivered rcpt
  | some err =>
    if !isTemporaryOrUnspec err ∨ maxTries ≤ (acc.triesCount.lookup rcpt).getD 0 + 1 then
      acc.markFailed rcpt err
    else acc.requeue rcpt err

def splitRcpts (maxTries : Int) (errs : Errs) (m : QueueMetadata) : Split :=
  m.toRcpts.foldl (splitRcpt maxTries errs)
    { rcptErrs := m.rcptErrs, triesCount := m.triesCount, newRcpts := [], failedRcpts := [],
      delivered := [], smallestTriesCount := 999999 }

/-- What one call of `tryDelivery` did. `dsn` is the argument of the `emitDSN`
call, empty when there was none; `next` is the updated meta-data, absent when
the message was removed from the disk. -/
structure Attempt where
  handed : List String
  terminal : Option Terminal
  delivered : List String
  dsn : List String
  rcptErrs : String → Option GoSmtpError
  smallestTriesCount : Nat
  next : Option QueueMetadata

def tryDelivery (maxTries : Int) (now : Int) (tgt : Target) (m : QueueMetadata) : Attempt :=
  let result := deliver tgt m.toRcpts
  let split := splitRcpts maxTries result.errs m
  { handed := result.handed
    terminal := result.terminal
    delivered := split.delivered
    dsn := split.failedRcpts
    rcptErrs := split.rcptErrs
    smallestTriesCount := split.smallestTriesCount
    next :=
      if split.newRcpts.isEmpty then none
      else some { m with
        toRcpts := split.newRcpts, rcptErrs := split.rcptErrs, triesCount := split.triesCount,
        lastAttempt := now } }

/-- The life of a queued message whose meta-data updates all reach the disk:
the meta-data that attempt number `n` starts from, absent once the message is
removed. The target and the clock of each attempt are arbitrary. -/
def stateAt (maxTries : Int) (clock : Nat → Int) (tgt : Nat → Target) (first : QueueMetadata) :
    Nat → Option QueueMetadata
  | 0 => some first
  | n + 1 => (stateAt maxTries clock tgt first n).bind
      (fun m => (tryDelivery maxTries (clock n) (tgt n) m).next)

def attemptAt (maxTries : Int) (clock : Nat → Int) (tgt : Nat → Target) (first : QueueMetadata)
    (n : Nat) : Option Attempt :=
  (stateAt maxTries clock tgt first n).map (tryDelivery maxTries (clock n) (tgt n))

/-- The life of a queued message when the meta-data updates after the attempts
in `lost` fail: the next attempt reads what the file had before. -/
def stateWith (maxTries : Int) (clock : Nat → Int) (tgt : Nat → Target) (lost : Nat → Bool)
    (first : QueueMetadata) : Nat → Option QueueMetadata
  | 0 => some first
  | n + 1 => (stateWith maxTries clock tgt lost first n).bind (fun m =>
      (tryDelivery maxTries (clock n) (tgt n) m).next.map (fun next => if lost n then m else next))

def attemptWith (maxTries : Int) (clock : Nat → Int) (tgt : Nat → Target) (lost : Nat → Bool)
    (first : QueueMetadata) (n : Nat) : Option Attempt :=
  (stateWith maxTries clock tgt lost first n).map (tryDelivery maxTries (clock n) (tgt n))

end Madmail.Queue
