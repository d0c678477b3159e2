import Madmail.Framework.Buffer
import Madmail.Lib.Runs
import Madmail.Remote.Http

namespace Madmail.Remote
open Exterrors Madmail.Module Framework

/-- A body buffer that was opened: what it holds, and a reader that gives all of it, or fails after
some of it. -/
structure OpenBody where
  content : List Char
  reader : Reader Char
  part : reader.bytes <+: content
  whole : reader.err = .eof → reader.bytes = content

/-- What the goroutine of `doHTTPRequestURL` has before it: fields of the header, octets of the
body, or the deferred `pw.Close`. -/
inductive Producer where
  | header (fields : Header)
  | copy (chunks : List (List Char))
  | closing
  | closed
  deriving DecidableEq, Repr

/-- A request: the goroutine, what it is writing to the pipe, what the server has received and
whether that is the end of the request, and what `client.Do` returned. -/
structure Transfer where
  producer : Producer
  offered : List Char := []
  received : List Char := []
  ended : Bool := false
  result : Option (Except Err Nat) := none

/-- What a transfer is about: `Raw` of the fields, the body, and whether the server may answer
before it has the whole request. -/
structure TransferEnv where
  raw : String × String → Option (List Char)
  body : OpenBody
  early : Bool

/-- A step of the goroutine, of the transport that reads from the pipe and sends on, or of the
server. -/
inductive TransferStep where
  | produce
  | read (n : Nat)
  | finish
  | answer (code : Nat)
  | fail (err : Err)

namespace Transfer

def start (header : Header) : Transfer := { producer := .header header }

/-- The next `Write` of the goroutine, or `Close`. An error of `WriteHeader` or of `io.Copy` ends the
goroutine, and with it the pipe is closed as at the end of a body. -/
def produce (env : TransferEnv) (t : Transfer) : Option Transfer :=
  match t.producer with
  | .header [] => some { t with producer := .copy env.body.reader.chunks, offered := ['\r','\n'] }
  | .header (field :: fields) =>
    match env.raw field with
    | none => some { t with producer := .closing }
    | some formatted => some { t with producer := .header fields, offered := formatted }
  | .copy [] => some { t with producer := .closing }
  | .copy (chunk :: chunks) => some { t with producer := .copy chunks, offered := chunk }
  | .closing => some { t with producer := .closed }
  | .closed => none

def step (env : TransferEnv) (t : Transfer) : TransferStep → Option Transfer
  | .produce =>
    -- a `Write` returns when all of it was read; it fails once `client.Do` has closed the other end
    if t.result.isSome then
      if t.producer = .closing ∨ t.producer = .closed then t.produce env
      else some { t with producer := .closing, offered := [] }
    else if t.offered = [] then t.produce env
    else none
  | .read n =>
    if t.result.isNone ∧ t.offered ≠ [] ∧ 0 < n then
      some { t with received := t.received ++ t.offered.take n, offered := t.offered.drop n }
    else none
  | .finish =>
    if t.result.isNone ∧ t.offered = [] ∧ t.producer = .closed ∧ t.ended = false then
      some { t with ended := true }
    else none
  | .answer code =>
    if t.result.isNone ∧ (t.ended ∨ env.early) then some { t with result := some (.ok code) }
    else none
  | .fail err => if t.result.isNone then some { t with result := some (.error err) } else none

def returned (t : Transfer) : Option (Option Err) := t.result.map answerErr

end Transfer

def renderHeader (raw : String × String → Option (List Char)) (header : Header) :
    Option (List Char) :=
  (header.mapM raw).map fun fields => fields.flatten ++ ['\r','\n']

end Madmail.Remote
