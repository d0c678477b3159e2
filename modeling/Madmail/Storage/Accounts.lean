import Madmail.Framework.Exterrors
import Madmail.Storage.Imapsql

namespace Madmail.Imapsql
open Exterrors Function

/-- The names of accounts. The mail store spells every name with
`strings.ToLower`; the block list and the quota table take the name they are
given. -/
structure Names where
  toLower : String → String
  authNormalize : String → Except Err String
  deliveryNormalize : String → Except Err String

/-- How the calls that one operation makes end: the setting, and an error for
each call that fails. -/
structure Calls where
  jitEnabled : Except Err Bool
  -- the count over the block list
  isBlocked : Option Err := none
  -- the write to the block list
  block : Option Err := none
  -- the call into the mail store that reads or creates the account
  back : Option Err := none
  -- the mail store's `AddRcpt`
  backAddRcpt : Option Err := none
  -- the query for the quota row, and the write or deletion of it
  row : Option Err := none
  write : Option Err := none

def Calls.faults (c : Calls) : Faults :=
  { row := c.row.isSome
    write := c.write.isSome
    back := c.back.isSome
    isBlocked := c.isBlocked.isSome
    block := c.block.isSome }

def errUserAlreadyExists : Err := .leaf "imap: user already exists" none

def errUserDoesntExists : Err := .leaf "imap: user doesn't exists" none

def errNoSuchMailbox : Err := .leaf "No such mailbox" none

def errInvalidCredentials : Err := .leaf "Invalid credentials" none

def userDoesNotExist (actual : Err) : Err :=
  .smtpWrap { code := 501, enhancedCode := ⟨5,1,1⟩, message := "User does not exist",
              targetName := "imapsql" } actual

def Storage.rowNeedsWrite (s : Storage) (username : String) : Bool :=
  match s.quotas username with
  | none => true
  | some row => row.createdAt == 0

namespace Accounts

def createIMAPAcct (n : Names) (c : Calls) (now : Int) (s : Storage) (accountName : String) :
    Storage × Option Err :=
  (s.createIMAPAcct c.faults now accountName (n.toLower accountName),
    match c.back with
    | some err => some err
    | none =>
      if s.users (n.toLower accountName) then some errUserAlreadyExists
      else
        match c.row with
        | some err => some err
        | none => if s.rowNeedsWrite accountName then c.write else none)

/-- `IsBlocked`. The count is zero when the query fails. -/
def isBlocked (c : Calls) (s : Storage) (username : String) : Bool × Option Err :=
  (c.isBlocked.isNone && s.blocked username,c.isBlocked)

/-- `GetOrCreateIMAPAcct`: the account that is logged in to. -/
def getOrCreateIMAPAcct (n : Names) (c : Calls) (now : Int) (s : Storage) (username : String) :
    Storage × Except Err String :=
  match n.authNormalize username with
  | .error _ => (s,.error errInvalidCredentials)
  | .ok accountName =>
    match c.jitEnabled with
    | .error err => (s,.error err)
    | .ok jitEnabled =>
      (s.getOrCreateIMAPAcct c.faults jitEnabled now accountName (n.toLower accountName),
        -- the error of the query is dropped
        if jitEnabled ∧ (isBlocked c s accountName).1 then .error errInvalidCredentials
        else
          match c.back with
          | some err => .error err
          | none =>
            if jitEnabled ∨ s.users (n.toLower accountName) then .ok (n.toLower accountName)
            else .error errInvalidCredentials)

def blockUser (c : Calls) (s : Storage) (username : String) : Storage × Option Err :=
  match c.block with
  | some err => (s,some err)
  | none => ({ s with blocked := update s.blocked username true },none)

def unblockUser (c : Calls) (s : Storage) (username : String) : Storage × Option Err :=
  match c.block with
  | some err => (s,some err)
  | none => ({ s with blocked := update s.blocked username false },none)

/-- `DeleteIMAPAcct`. The error of the first deletion is not looked at. -/
def deleteIMAPAcct (n : Names) (c : Calls) (s : Storage) (accountName : String) :
    Storage × Option Err :=
  (s.deleteIMAPAcct c.faults accountName (n.toLower accountName),
    match c.back with
    | some err => some err
    | none => if s.users (n.toLower accountName) then none else some errUserDoesntExists)

def deleteAccount (n : Names) (c : Calls) (s : Storage) (username : String) :
    Storage × Option Err :=
  (s.deleteAccount c.faults username (n.toLower username),
    c.block.map (.errorf "failed to block user after deletion: "))

/-- The recipients of a delivery under their account names, with the address
each was given as, and the accounts that the mail store's delivery holds. -/
structure Incoming where
  addedRcpts : List (String × String) := []
  users : List String := []
  deriving DecidableEq, Repr

def addRcptErr (isSerialization : Err → Bool) (err : Err) : Err :=
  if err = errUserDoesntExists ∨ err = errNoSuchMailbox then userDoesNotExist err
  else if isSerialization err then
    .smtpWrap { code := 453, enhancedCode := ⟨4,3,2⟩,
                message := "Internal server error, try again later",
                targetName := "imapsql" } err
  else err

def ensureAccount (n : Names) (c : Calls) (now : Int) (s : Storage) (accountName : String) :
    Storage :=
  match c.jitEnabled with
  | .ok true => (createIMAPAcct n c now s accountName).1
  | .ok false | .error _ => s

def addRcpt (n : Names) (isSerialization : Err → Bool) (c : Calls) (now : Int) (s : Storage)
    (d : Incoming) (rcptTo : String) : Storage × Incoming × Option Err :=
  match n.deliveryNormalize rcptTo with
  | .error err => (s,d,some (userDoesNotExist err))
  | .ok accountName =>
    if d.addedRcpts.any (fun r => r.1 == accountName) then (s,d,none)
    else
      let s := ensureAccount n c now s accountName
      match c.backAddRcpt with
      | some err => (s,d,some (addRcptErr isSerialization err))
      | none =>
        if s.users (n.toLower accountName) then
          (s, { addedRcpts := (accountName,rcptTo) :: d.addedRcpts
                users := d.users ++ [n.toLower accountName] },none)
        else (s,d,some (addRcptErr isSerialization errUserDoesntExists))

structure World where
  store : Storage
  deliveries : Nat → Incoming

inductive Action where
  | start (i : Nat)
  | addRcpt (i : Nat) (rcptTo : String)
  | commit (d : Delivery)
  | login (username : String)
  | createIMAPAcct (accountName : String)
  | deleteIMAPAcct (accountName : String)
  | deleteAccount (username : String)
  | blockUser (username : String)
  | unblockUser (username : String)

structure Event where
  act : Action
  calls : Calls
  now : Int

def withStore (w : World) (r : Storage × Option Err) : World × Option Err :=
  ({ w with store := r.1 },r.2)

def step (n : Names) (isSerialization : Err → Bool) (w : World) (e : Event) :
    World × Option Err :=
  match e.act with
  | .start i => ({ w with deliveries := update w.deliveries i {} },none)
  | .addRcpt i rcptTo =>
    let r := addRcpt n isSerialization e.calls e.now w.store (w.deliveries i) rcptTo
    (⟨r.1,update w.deliveries i r.2.1⟩,r.2.2)
  | .commit d => ({ w with store := w.store.commit d },none)
  | .login username =>
    let r := getOrCreateIMAPAcct n e.calls e.now w.store username
    withStore w (r.1,match r.2 with | .error err => some err | .ok _ => none)
  | .createIMAPAcct accountName =>
    withStore w (createIMAPAcct n e.calls e.now w.store accountName)
  | .deleteIMAPAcct accountName => withStore w (deleteIMAPAcct n e.calls w.store accountName)
  | .deleteAccount username => withStore w (deleteAccount n e.calls w.store username)
  | .blockUser username => withStore w (blockUser e.calls w.store username)
  | .unblockUser username => withStore w (unblockUser e.calls w.store username)

def next (n : Names) (isSerialization : Err → Bool) (w : World) (e : Event) : World :=
  (step n isSerialization w e).1

end Accounts

end Madmail.Imapsql
