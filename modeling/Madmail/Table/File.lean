import Madmail.Framework.Exterrors
import Madmail.Lib.Strings

namespace Madmail.TableFile
open Exterrors Lib.Strings

abbrev Entries := String → List String

/-- What the scanner makes of a file: its lines, and the error at the end. -/
structure Content where
  lines : List String
  err : Option Err := none

/-- The file that a table reads, with `strings.TrimSpace` as given. -/
structure Config where
  path : String
  trimSpace : String → String

variable (cfg : Config)

def readLine (lineCounter : Nat) (line : String) (out : Entries) : Except Err Entries :=
  if hasPrefix line "#" then .ok out
  else
    let text := cfg.trimSpace line
    if text = "" then .ok out
    else
      let parts := splitN text ':' 2
      let key := cfg.trimSpace (parts.headD "")
      if key = "" then
        .error (.leaf (cfg.path ++ ":" ++ toString lineCounter ++ ": empty address before colon") none)
      else
        let values := (split (parts.getD 1 "") ',').map cfg.trimSpace
        .ok (Function.update out key (out key ++ values))

def readLines : Nat → List String → Entries → Except Err Entries
  | _,[],out => .ok out
  | lineCounter,line :: rest,out =>
    match readLine cfg (lineCounter + 1) line out with
    | .error e => .error e
    | .ok out => readLines (lineCounter + 1) rest out

def readFile (content : Content) : Except Err Entries :=
  match readLines cfg 0 content.lines (fun _ => []),content.err with
  | .error e,_ => .error e
  | .ok _,some e => .error e
  | .ok out,none => .ok out

inductive Stat where
  | info (modTime : Int)
  | notExist
  | failed (e : Err)

/-- What a call of `reload` gets to know. Times are in nanoseconds from the zero `Time` on. -/
structure Calls where
  stat : Stat
  now : Int
  opened : Except Err Content
  statAfter : Stat

def reloadInterval : Int := 15000000000

structure File where
  m : Entries
  mStamp : Int := 0

/-- `reload`, and nothing where it panics. -/
def File.reload (f : File) (c : Calls) : Option File :=
  match c.stat with
  | .notExist => some { f with m := fun _ => [] }
  -- the error is logged, and `info` is nil
  | .failed _ => none
  | .info modTime =>
    if modTime < f.mStamp ∨ c.now - modTime < reloadInterval / 2 then some f
    else
      match c.opened with
      | .error _ => some f
      | .ok content =>
        match readFile cfg content,c.statAfter with
        | .ok newm,.info modTime' =>
          if modTime' ≠ modTime then some f else some { m := newm,mStamp := modTime }
        | _,_ => some f

inductive Pos where
  | waiting | reloading | acking | ended
  deriving DecidableEq

/-- The reloader, the hooks that wait to send on `forceReload`, the calls of `Close` that wait to
send on `stopReloader`, and those that wait for its answer. -/
structure World where
  file : File
  reloader : Pos := .waiting
  hooks : Nat := 0
  closing : Nat := 0
  closers : Nat := 0

inductive Action where
  | tick
  | hook
  | close
  | receiveHook
  | receiveClose
  | reload (c : Calls)
  | ack
  | pass

def World.step (w : World) : Action → Option World
  | .tick => if w.reloader = .waiting then some { w with reloader := .reloading } else none
  | .hook => some { w with hooks := w.hooks + 1 }
  | .close => some { w with closing := w.closing + 1 }
  | .receiveHook =>
    if w.reloader = .waiting ∧ 0 < w.hooks then
      some { w with hooks := w.hooks - 1,reloader := .reloading }
    else none
  | .receiveClose =>
    if w.reloader = .waiting ∧ 0 < w.closing then
      some { w with closing := w.closing - 1,closers := w.closers + 1,reloader := .acking }
    else none
  | .reload c =>
    if w.reloader = .reloading then
      match w.file.reload cfg c with
      | some file => some { w with file,reloader := .waiting }
      -- the panic is recovered at the top of the goroutine
      | none => some { w with reloader := .ended }
    else none
  | .ack =>
    if w.reloader = .acking ∧ 0 < w.closers then
      some { w with closers := w.closers - 1,reloader := .ended }
    else none
  -- a call of `Close` takes what another one sends for the answer
  | .pass => if 0 < w.closing ∧ 0 < w.closers then some { w with closing := w.closing - 1 } else none

end Madmail.TableFile
