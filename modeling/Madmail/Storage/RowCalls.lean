import Madmail.Lib.Runs
import Madmail.Storage.Imapsql

namespace Madmail.Imapsql

def firstLoginRow (now : Int) (row : QuotaRow) : QuotaRow :=
  { row with
    lastLoginAt := now
    firstLoginAt := if row.firstLoginAt = 1 then now else row.firstLoginAt }

def limitRow (now max : Int) : Option QuotaRow → QuotaRow
  | none => { maxStorage := max, createdAt := now, firstLoginAt := 1 }
  | some row => { row with maxStorage := max }

inductive RowOp where
  | setQuota (username : String) (max : Int)
  | updateFirstLogin (username : String)
  | createIMAPAcct (username : String)
  deriving DecidableEq, Repr

/-- How far such a call is. One that was `skipped` has returned nil without saving
anything: `UpdateFirstLogin` where there is no row, `CreateIMAPAcct` where the row
has a time of creation. -/
inductive Stage where
  | start
  | created
  | read (row : Option QuotaRow)
  | saved
  | skipped
  | failed
  deriving DecidableEq, Repr

structure RowCall where
  op : RowOp
  stage : Stage := .start
  deriving DecidableEq, Repr

def RowCall.createUser (s : Storage) (fault : Bool) (c : RowCall) : Option (Storage × RowCall) :=
  match c.op, c.stage with
  | .createIMAPAcct username, .start =>
    if fault ∨ s.users username then some (s,{ c with stage := .failed })
    else some (s.addUser username,{ c with stage := .created })
  | _, _ => none

def RowCall.read (s : Storage) (fault : Bool) (c : RowCall) : Option RowCall :=
  let stage (st : Stage) : RowCall := { c with stage := if fault then .failed else st }
  match c.op, c.stage with
  | .setQuota username _, .start => some (stage (.read (s.quotas username)))
  | .updateFirstLogin username, .start =>
    match s.quotas username with
    | none => some (stage .skipped)
    | some row => some (stage (.read (some row)))
  | .createIMAPAcct username, .created =>
    match s.quotas username with
    | none => some (stage (.read none))
    | some row => some (stage (if row.createdAt = 0 then .read (some row) else .skipped))
  | _, _ => none

/-- What a call writes. `Save` inserts the row if it is gone, `Create` fails if there
is one by now. -/
def RowCall.save (s : Storage) (now : Int) (fault : Bool) (c : RowCall) :
    Option (Storage × RowCall) :=
  match c.stage with
  | .read row =>
    if fault then some (s,{ c with stage := .failed })
    else
      match c.op, row with
      | .setQuota username max, row =>
        some ({ s.putRow username (limitRow now max row) with cache := s.cache.setMax username max },
          { c with stage := .saved })
      | .updateFirstLogin username, some row =>
        some (s.putRow username (firstLoginRow now row),{ c with stage := .saved })
      | .updateFirstLogin _, none => none
      | .createIMAPAcct username, none =>
        if (s.quotas username).isSome then some (s,{ c with stage := .failed })
        else
          some (s.putRow username { createdAt := now, firstLoginAt := 1 },{ c with stage := .saved })
      | .createIMAPAcct username, some row =>
        some (s.putRow username { row with createdAt := now },{ c with stage := .saved })
  | _ => none

/-- How far `PruneUnusedAccounts` is: not begun, about to take the next account, or
about to delete one in the mail store and in the credentials database. -/
inductive Prune where
  | waiting
  | next (rest : List String)
  | back (username : String) (rest : List String)
  | auth (username : String) (rest : List String)
  deriving DecidableEq, Repr

/-- The storage with the calls under way, and the accounts of the credentials
database if one is configured. -/
structure Rows where
  store : Storage
  calls : List RowCall
  prune : Prune := .waiting
  authDB : Option (String → Bool) := none

def Storage.unused (s : Storage) (cutoff : Int) (username : String) : Bool :=
  match s.quotas username with
  | none => false
  | some row => row.firstLoginAt = 1 ∧ row.createdAt < cutoff

inductive RowAction where
  | createUser (i : Nat) (fault : Bool)
  | read (i : Nat) (fault : Bool)
  | save (i : Nat) (now : Int) (fault : Bool)
  -- `order` is the rows of the table as the query goes through them
  | select (cutoff : Int) (order : List String) (fault : Bool)
  | deleteRow (fault : Bool)
  | deleteBack (fault : Bool)
  | deleteAuth (fault : Bool)
  | commit (d : Delivery)

def Rows.step (w : Rows) : RowAction → Option Rows
  | .createUser i fault => do
    let c ← w.calls[i]?
    let (s,c') ← c.createUser w.store fault
    some { w with store := s, calls := w.calls.set i c' }
  | .read i fault => do
    let c ← w.calls[i]?
    let c' ← c.read w.store fault
    some { w with calls := w.calls.set i c' }
  | .save i now fault => do
    let c ← w.calls[i]?
    let (s,c') ← c.save w.store now fault
    some { w with store := s, calls := w.calls.set i c' }
  | .select cutoff order fault =>
    if w.prune = .waiting ∧ order.Nodup then
      some { w with prune := .next (if fault then [] else order.filter (w.store.unused cutoff)) }
    else none
  | .deleteRow fault =>
    match w.prune with
    | .next (username :: rest) =>
      -- the error is not looked at
      some
        { w with
          store := if fault then w.store else w.store.deleteRow username
          prune := .back username rest }
    | _ => none
  | .deleteBack fault =>
    match w.prune with
    | .back username rest =>
      if fault ∨ !w.store.users username then some { w with prune := .next rest }
      else
        some
          { w with
            store := w.store.deleteUser username
            prune := if w.authDB.isSome then .auth username rest else .next rest }
    | _ => none
  | .deleteAuth fault =>
    match w.prune with
    | .auth username rest =>
      some
        { w with
          authDB := if fault then w.authDB
            else w.authDB.map (fun db => Function.update db username false)
          prune := .next rest }
    | _ => none
  | .commit d => some { w with store := w.store.commit d }

end Madmail.Imapsql
