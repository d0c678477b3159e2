import Madmail.Lib.Runs
import Madmail.Smtpconn.Pool

namespace Madmail.PoolSteps
open Pool (Config)

/-- A channel of connections. A connection goes by the number of the call of `Return`
that passed it. -/
structure Chan where
  buf : List Nat := []
  closed : Bool := false
  deriving DecidableEq, Repr

structure Slot where
  chan : Nat
  lastUse : Int
  deriving DecidableEq, Repr

/-- How far a call of `Get` is. It `drain`s a bucket that it has dropped, and closes
what it finds there; or it `receive`s from a bucket and looks at what it gets. -/
inductive GetStage where
  | start (key : String)
  | drain (chan : Nat)
  | close (chan conn : Nat)
  | receive (chan : Nat)
  | examine (chan conn : Nat)
  | got (conn : Nat)
  | new
  deriving DecidableEq, Repr

inductive Task where
  | cleanUp
  | returnConn (key : String) (conn : Nat)
  | close
  deriving DecidableEq, Repr

/-- The call that has the lock: the keys its loop has still to visit, the channel that
it drains, and the connection of it that it closes. -/
structure Holder where
  task : Task
  todo : List String := []
  drain : Option Nat := none
  conn : Option Nat := none
  deriving DecidableEq, Repr

/-- How far `Close` is. A second call waits for the ticker for ever. -/
inductive Shutdown where
  | idle | stopped | finished
  deriving DecidableEq, Repr

/-- The pool and the calls under way. `closing` are the goroutines that have still to
close a connection. -/
structure World where
  keys : Option (List (String × Slot)) := some []
  chans : List Chan := []
  lock : Option Holder := none
  gets : List GetStage := []
  closing : List Nat := []
  closed : List Nat := []
  returned : Nat := 0
  shutdown : Shutdown := .idle
  panicked : Bool := false

namespace World

def slots (w : World) : List (String × Slot) := w.keys.getD []

def names (w : World) : List String := w.slots.map (·.1)

def take (w : World) (ch : Nat) : Option (Nat × World) :=
  match w.chans[ch]? with
  | some ⟨conn :: rest,closed⟩ => some (conn,{ w with chans := w.chans.set ch ⟨rest,closed⟩ })
  | _ => none

def drop (w : World) (key : String) (bucket : Slot) : World :=
  let keys := w.keys.map (fun slots => slots.filter (fun entry => entry.1 ≠ key))
  match w.chans[bucket.chan]? with
  | some ⟨buf,false⟩ => { w with keys, chans := w.chans.set bucket.chan ⟨buf,true⟩ }
  | _ => { w with keys, panicked := true }

def send (cfg : Config) (w : World) (ch conn : Nat) : World :=
  match w.chans[ch]? with
  | some ⟨buf,false⟩ =>
    if buf.length < cfg.maxConnsPerKey then
      { w with chans := w.chans.set ch ⟨buf ++ [conn],false⟩ }
    else { w with closing := w.closing ++ [conn] }
  | _ => { w with panicked := true }

end World

inductive Action where
  -- `Get`: its call, what it does under the lock, and the rest step by step
  | get (key : String)
  | enterGet (i : Nat) (now : Int)
  | receive (i : Nat)
  | closeConn (i : Nat)
  | examine (i : Nat) (usable : Bool)
  -- a goroutine that closes a connection
  | runClose (conn : Nat)
  | enterCleanUp
  | enterReturn (key : String)
  -- `Close` stops the ticker, and then takes the lock
  | stop
  | enterClose
  -- what the calls that hold the lock do
  | visit (key : String) (now : Int)
  | drain
  | closeDrained
  | leave (now : Int)
  deriving DecidableEq, Repr

def World.step (cfg : Config) (w : World) : Action → Option World
  | .get key => some { w with gets := w.gets ++ [.start key] }
  | .enterGet i now =>
    match w.lock, w.gets[i]? with
    | none, some (.start key) =>
      match w.slots.lookup key with
      | none => some { w with gets := w.gets.set i .new }
      | some bucket =>
        if now - bucket.lastUse > cfg.maxConnLifetimeSec then
          some { w.drop key bucket with gets := w.gets.set i (.drain bucket.chan) }
        else some { w with gets := w.gets.set i (.receive bucket.chan) }
    | _, _ => none
  | .receive i =>
    match w.gets[i]? with
    | some (.receive ch) =>
      match w.take ch with
      | none => some { w with gets := w.gets.set i .new }
      | some (conn,w) => some { w with gets := w.gets.set i (.examine ch conn) }
    | some (.drain ch) =>
      match w.take ch with
      | none => some { w with gets := w.gets.set i .new }
      | some (conn,w) => some { w with gets := w.gets.set i (.close ch conn) }
    | _ => none
  | .closeConn i =>
    match w.gets[i]? with
    | some (.close ch conn) =>
      some { w with gets := w.gets.set i (.drain ch), closed := w.closed ++ [conn] }
    | _ => none
  | .examine i usable =>
    match w.gets[i]? with
    | some (.examine ch conn) =>
      if usable then some { w with gets := w.gets.set i (.got conn) }
      else some { w with gets := w.gets.set i (.receive ch), closing := w.closing ++ [conn] }
    | _ => none
  | .runClose conn =>
    if conn ∈ w.closing then
      some { w with closing := w.closing.erase conn, closed := w.closed ++ [conn] }
    else none
  | .enterCleanUp =>
    if w.lock.isSome then none else some { w with lock := some { task := .cleanUp, todo := w.names } }
  | .enterReturn key =>
    if w.lock.isSome then none
    else
      match w.keys with
      | none => some { w with returned := w.returned + 1 }
      | some slots =>
        let todo := if (slots.lookup key).isNone ∧ slots.length = cfg.maxKeys then w.names else []
        some
          { w with
            lock := some { task := .returnConn key w.returned, todo }
            returned := w.returned + 1 }
  | .stop => if w.shutdown = .idle then some { w with shutdown := .stopped } else none
  | .enterClose =>
    if w.lock.isSome ∨ w.shutdown ≠ .stopped then none
    else some { w with lock := some { task := .close, todo := w.names } }
  | .visit key now =>
    match w.lock, w.slots.lookup key with
    | some ⟨task,todo,none,none⟩, some bucket =>
      if key ∉ todo then none
      else if task ≠ .close ∧ bucket.lastUse + cfg.staleKeyLifetimeSec > now then
        some { w with lock := some { task, todo := todo.erase key } }
      else
        some
          { w.drop key bucket with
            lock := some { task, todo := todo.erase key, drain := some bucket.chan } }
    | _, _ => none
  | .drain =>
    match w.lock with
    | some ⟨task,todo,some ch,none⟩ =>
      match w.take ch with
      | none => some { w with lock := some { task, todo } }
      | some (conn,w) =>
        -- `CleanUp` does not wait for the connection to be closed
        if task = .cleanUp then some { w with closing := w.closing ++ [conn] }
        else some { w with lock := some { task, todo, drain := some ch, conn := some conn } }
    | _ => none
  | .closeDrained =>
    match w.lock with
    | some ⟨task,todo,drain,some conn⟩ =>
      some { w with lock := some { task, todo, drain }, closed := w.closed ++ [conn] }
    | _ => none
  | .leave now =>
    match w.lock with
    | some ⟨.cleanUp,[],none,none⟩ => some { w with lock := none }
    | some ⟨.close,[],none,none⟩ =>
      some { w with lock := none, keys := none, shutdown := .finished }
    | some ⟨.returnConn key conn,[],none,none⟩ =>
      match w.slots.lookup key with
      | some bucket => some { w.send cfg bucket.chan conn with lock := none }
      | none =>
        let bucket : Slot := { chan := w.chans.length, lastUse := now }
        let w : World :=
          { w with
            chans := w.chans ++ [{ buf := [] }]
            keys := w.keys.map (fun slots => slots ++ [(key,bucket)]) }
        some { w.send cfg bucket.chan conn with lock := none }
    | _ => none

end Madmail.PoolSteps
