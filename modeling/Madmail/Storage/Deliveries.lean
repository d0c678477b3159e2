import Madmail.Framework.Exterrors
import Madmail.Lib.Runs
import Madmail.Storage.Imapsql

namespace Madmail.Imapsql
open Exterrors

def quotaExceeded : Err :=
  .smtp
    { code := 552
      enhancedCode := ⟨5,2,2⟩
      message := "Quota exceeded"
      targetName := "imapsql" }

def bodyErr (isSerialization : Err → Bool) (err : Err) : Err :=
  if isSerialization err then
    .smtpWrap
      { code := 453
        enhancedCode := ⟨4,3,2⟩
        message := "Storage access serialiation problem, try again later"
        targetName := "imapsql" } err
  else err

/-- The quota check of `Body`, over the recipients in the order of the map. `f` is
how the queries for each of them end; a recipient whose quota cannot be read is
logged and passed over. -/
def Storage.checkQuota (f : String → Faults) (bodyLen : Nat) :
    List String → Storage → Storage × Option Err
  | [], s => (s,none)
  | rcpt :: rest, s =>
    match s.getQuota (f rcpt) rcpt with
    | (s,none) => checkQuota f bodyLen rest s
    | (s,some q) =>
      if q.max > 0 ∧ q.used + bodyLen > q.max then (s,some quotaExceeded)
      else checkQuota f bodyLen rest s

/-- How the calls that `Body` makes into the mail store end: the choice of the junk
mailbox, and the writing of the message. -/
structure BodyCalls where
  specialMailbox : Option Err := none
  bodyParsed : Option Err := none

def Storage.body (isSerialization : Err → Bool) (f : String → Faults) (c : BodyCalls)
    (quarantine : Bool) (bodyLen : Nat) (order : List String) (s : Storage) :
    Storage × Option Err :=
  match s.checkQuota f bodyLen order with
  | (s,some err) => (s,some err)
  | (s,none) =>
    let junk := if quarantine then c.specialMailbox else none
    (s,(junk <|> c.bodyParsed).map (bodyErr isSerialization))

inductive Phase where
  -- the recipients are added
  | added
  -- `Body` has returned nil, or an error
  | accepted
  | rejected
  | committed
  | aborted
  deriving DecidableEq, Repr

structure Pending where
  d : Delivery
  quarantine : Bool
  phase : Phase := .added

structure Deliveries where
  store : Storage
  pending : List Pending

inductive DeliveryStep where
  | body (i : Nat) (order : List String) (f : String → Faults) (c : BodyCalls)
  -- `failed` is whether the mail store fails to commit
  | commit (i : Nat) (failed : Bool)
  | abort (i : Nat)

def Deliveries.step (isSerialization : Err → Bool) (w : Deliveries) :
    DeliveryStep → Option Deliveries
  | .body i order f c => do
    let p ← w.pending[i]?
    if p.phase = .added ∧ order.isPerm p.d.addedRcpts then
      let (s,err) := w.store.body isSerialization f c p.quarantine p.d.bodyLen order
      some
        { store := s
          pending := w.pending.set i
            { p with phase := if err.isNone then .accepted else .rejected } }
    else none
  | .commit i failed => do
    let p ← w.pending[i]?
    if p.phase = .accepted then
      if failed || !p.d.addedRcpts.all w.store.users then
        some { w with pending := w.pending.set i { p with phase := .aborted } }
      else
        some
          { store := w.store.commit p.d
            pending := w.pending.set i { p with phase := .committed } }
    else none
  | .abort i => do
    let p ← w.pending[i]?
    if p.phase = .committed then none
    else some { w with pending := w.pending.set i { p with phase := .aborted } }

/-- The deliveries before the first `Body`, each with whether its message is in
quarantine. -/
def Deliveries.start (s : Storage) (ds : List (Delivery × Bool)) : Deliveries where
  store := s
  pending := ds.map (fun d => { d := d.1, quarantine := d.2 })

end Madmail.Imapsql
