import Madmail.Storage.QuotaCache
import Mathlib.Algebra.Ring.Int.Defs
import Mathlib.Data.List.Nodup

namespace Madmail.Imapsql
open Quota Function

/-- A row of the `quotas` table. A NULL limit reads as zero. -/
structure QuotaRow where
  maxStorage : Int := 0
  createdAt : Int := 0
  firstLoginAt : Int := 0
  lastLoginAt : Int := 0
  deriving DecidableEq, Repr

structure Msg where
  id : Nat
  account : String
  bodyLen : Nat
  date : Int
  seen : Bool
  deriving DecidableEq, Repr

def globalDefault : String := "__GLOBAL_DEFAULT__"

structure Storage where
  -- `default_quota` of the configuration
  defaultQuota : Int
  users : String → Bool
  quotas : String → Option QuotaRow
  msgs : List Msg
  nextMsgId : Nat
  blocked : String → Bool
  cache : Cache

/-- The database calls that fail: the sum over `msgs`, the query for the quota
row of a user, the one for the global default, a write, the call into the mail
store, and the query and the write of the block list. -/
structure Faults where
  usage : Bool := false
  row : Bool := false
  global : Bool := false
  write : Bool := false
  back : Bool := false
  isBlocked : Bool := false
  block : Bool := false

/-- `SUM(bodylen)` over some messages of a user. -/
def sumBodyLen (msgs : List Msg) (username : String) : Int :=
  ((msgs.filter (fun m => m.account = username)).map (fun m => (m.bodyLen : Int))).sum

def Storage.used (s : Storage) (username : String) : Int := sumBodyLen s.msgs username

def Storage.effectiveDefault (s : Storage) (f : Faults) : Int :=
  if f.global then s.defaultQuota
  else
    match s.quotas globalDefault with
    | some row => row.maxStorage
    | none => s.defaultQuota

def Storage.usedMap (s : Storage) (username : String) : Option Int :=
  if s.msgs.any (fun m => m.account = username) then some (s.used username)
  else if s.users username then some 0
  else none

def Storage.quotaMap (s : Storage) (username : String) : Option Int :=
  if username = globalDefault then none else (s.quotas username).map QuotaRow.maxStorage

def Storage.populate (s : Storage) : Storage :=
  { s with cache := Cache.load s.usedMap s.quotaMap (s.effectiveDefault {}) }

/-- The storage after `Init`. A load that fails leaves the new cache as it is. -/
def Storage.init (s : Storage) (loaded : Bool) : Storage :=
  let s := { s with cache := Cache.new }
  if loaded then s.populate else s

structure QuotaReply where
  used : Int
  max : Int
  isDefault : Bool
  deriving DecidableEq, Repr

/-- `GetQuota`. There is no reply when it returns an error. -/
def Storage.getQuota (s : Storage) (f : Faults) (username : String) :
    Storage × Option QuotaReply :=
  match s.cache.get username with
  | (e,false) => (s,some ⟨e.usedBytes,e.maxBytes,e.isDefault⟩)
  | (_,true) =>
    let used := if f.usage then 0 else s.used username
    if f.row then (s,none)
    else
      match s.quotas username with
      | some row =>
        ({ s with cache := (s.cache.setMax username row.maxStorage).updateUsed username used },
          some ⟨used,row.maxStorage,false⟩)
      | none =>
        ({ s with cache := s.cache.updateUsed username used },
          some ⟨used,s.effectiveDefault f,true⟩)

def Storage.putRow (s : Storage) (username : String) (row : QuotaRow) : Storage :=
  { s with quotas := update s.quotas username (some row) }

def Storage.setDefaultQuota (s : Storage) (f : Faults) (max : Int) : Storage :=
  if f.write then s
  else
    { s.putRow globalDefault { maxStorage := max } with cache := s.cache.setDefaultQuota max }

def Storage.setQuota (s : Storage) (f : Faults) (now : Int) (username : String) (max : Int) :
    Storage :=
  if f.row ∨ f.write then s
  else
    let row := match s.quotas username with
      | none => { maxStorage := max, createdAt := now, firstLoginAt := 1 }
      | some row => { row with maxStorage := max }
    { s.putRow username row with cache := s.cache.setMax username max }

def Storage.resetQuota (s : Storage) (f : Faults) (username : String) : Storage :=
  if f.write then s
  else
    let quotas := match s.quotas username with
      | none => s.quotas
      | some row => update s.quotas username (some { row with maxStorage := 0 })
    { s with quotas, cache := s.cache.resetMax username }

def Storage.ensureRow (s : Storage) (f : Faults) (now : Int) (username : String) : Storage :=
  if f.row ∨ f.write then s
  else
    match s.quotas username with
    | none => s.putRow username { createdAt := now, firstLoginAt := 1 }
    | some row => if row.createdAt = 0 then s.putRow username { row with createdAt := now } else s

def Storage.addUser (s : Storage) (username : String) : Storage :=
  { s with users := update s.users username true }

/-- `CreateIMAPAcct`: the mail store, which spells the name as `account`, refuses
an account that exists. -/
def Storage.createIMAPAcct (s : Storage) (f : Faults) (now : Int) (username account : String) :
    Storage :=
  if f.back ∨ s.users account then s
  else (s.addUser account).ensureRow f now username

/-- `GetOrCreateIMAPAcct` for a normalized name, with just-in-time registration
switched on or off. A query of the block list that fails counts nothing. -/
def Storage.getOrCreateIMAPAcct (s : Storage) (f : Faults) (jitEnabled : Bool) (now : Int)
    (username account : String) : Storage :=
  if jitEnabled then
    if !f.isBlocked ∧ s.blocked username ∨ f.back then s
    else (s.addUser account).ensureRow f now username
  else if f.back ∨ !s.users account then s
  else s.ensureRow f now username

def Storage.deleteMsgs (s : Storage) (which : Msg → Bool) : Storage :=
  { s with msgs := s.msgs.filter (fun m => !which m) }

def Storage.deleteRow (s : Storage) (username : String) : Storage :=
  { s with quotas := update s.quotas username none }

def Storage.deleteUser (s : Storage) (account : String) : Storage :=
  { s.deleteMsgs (fun m => m.account = account) with
    users := update s.users account false }

/-- `DeleteIMAPAcct`: the quota row goes first, whatever becomes of the rest. -/
def Storage.deleteIMAPAcct (s : Storage) (f : Faults) (username account : String) : Storage :=
  let s := if f.write then s else s.deleteRow username
  if f.back ∨ !s.users account then s else s.deleteUser account

/-- An account that cannot be deleted is logged, and its name still blocked. -/
def Storage.deleteAccount (s : Storage) (f : Faults) (username account : String) : Storage :=
  let s := s.deleteIMAPAcct f username account
  let s := if f.write then s else s.deleteRow username
  let s := { s with cache := s.cache.invalidate username }
  if f.block then s else { s with blocked := update s.blocked username true }

def Storage.pruneMessages (s : Storage) (cutoff : Int) : Storage :=
  s.deleteMsgs (fun m => m.date < cutoff)

def Storage.purgeIMAPMsgs (s : Storage) (username : String) : Storage :=
  s.deleteMsgs (fun m => m.account = username)

def Storage.purgeAllIMAPMsgs (s : Storage) : Storage := s.deleteMsgs (fun _ => true)

def Storage.purgeReadIMAPMsgs (s : Storage) : Storage := s.deleteMsgs (fun m => m.seen)

def Storage.pruneUnreadIMAPMsgs (s : Storage) (cutoff : Int) : Storage :=
  s.deleteMsgs (fun m => !m.seen ∧ m.date < cutoff)

def Storage.expunge (s : Storage) (username : String) (ids : List Nat) : Storage :=
  s.deleteMsgs (fun m => m.account = username ∧ m.id ∈ ids)

def Storage.addMsg (s : Storage) (username : String) (bodyLen : Nat) (date : Int) : Storage :=
  { s with
    msgs := s.msgs ++ [⟨s.nextMsgId,username,bodyLen,date,false⟩]
    nextMsgId := s.nextMsgId + 1 }

def Storage.append (s : Storage) (username : String) (bodyLen : Nat) (date : Int) : Storage :=
  if s.users username then s.addMsg username bodyLen date else s

/-- A delivery whose body is accepted. The header that is stored for a recipient
holds fields of its own. -/
structure Delivery where
  addedRcpts : List String
  nodup : addedRcpts.Nodup
  headerLen : String → Nat
  bodyLen : Nat
  date : Int

/-- `delivery.Commit`. The mail store fails if an account is gone. -/
def Storage.commit (s : Storage) (d : Delivery) : Storage :=
  if !d.addedRcpts.all s.users then s
  else
    let s := d.addedRcpts.foldl (fun s rcpt => s.addMsg rcpt (d.headerLen rcpt + d.bodyLen) d.date) s
    if d.bodyLen > 0 then
      { s with cache := d.addedRcpts.foldl (fun c rcpt => c.addUsed rcpt d.bodyLen) s.cache }
    else s

abbrev Username := { name : String // name ≠ globalDefault }

inductive Op where
  | createIMAPAcct (u : Username) (now : Int)
  | getOrCreateIMAPAcct (u : Username) (jitEnabled : Bool) (now : Int)
  | deleteAccount (u : Username)
  | getQuota (u : Username)
  | setQuota (u : Username) (max now : Int)
  | resetQuota (u : Username)
  | setDefaultQuota (max : Int)
  | commit (d : Delivery)
  | append (u : Username) (bodyLen : Nat) (date : Int)
  | expunge (u : Username) (ids : List Nat)
  | pruneMessages (cutoff : Int)
  | purgeIMAPMsgs (u : Username)
  | purgeAllIMAPMsgs
  | purgeReadIMAPMsgs
  | pruneUnreadIMAPMsgs (cutoff : Int)

def Storage.step (s : Storage) : Op → Storage
  | .createIMAPAcct u now => s.createIMAPAcct {} now u u
  | .getOrCreateIMAPAcct u jitEnabled now => s.getOrCreateIMAPAcct {} jitEnabled now u u
  | .deleteAccount u => s.deleteAccount {} u u
  | .getQuota u => (s.getQuota {} u).1
  | .setQuota u max now => s.setQuota {} now u max
  | .resetQuota u => s.resetQuota {} u
  | .setDefaultQuota max => s.setDefaultQuota {} max
  | .commit d => s.commit d
  | .append u bodyLen date => s.append u bodyLen date
  | .expunge u ids => s.expunge u ids
  | .pruneMessages cutoff => s.pruneMessages cutoff
  | .purgeIMAPMsgs u => s.purgeIMAPMsgs u
  | .purgeAllIMAPMsgs => s.purgeAllIMAPMsgs
  | .purgeReadIMAPMsgs => s.purgeReadIMAPMsgs
  | .pruneUnreadIMAPMsgs cutoff => s.pruneUnreadIMAPMsgs cutoff

end Madmail.Imapsql
