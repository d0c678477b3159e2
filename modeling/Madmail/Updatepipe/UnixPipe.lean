import Madmail.Lib.Bytes
import Mathlib.Algebra.GroupWithZero.Nat

namespace Madmail.Updatepipe
open Lib.Bytes (ascii)

/-- The `Key` of an update, which has any type: a number as it stands in the JSON text, the
`uint64` that is made of one, or another value. -/
inductive Key where
  | number (text : List UInt8)
  | uint64 (n : Nat)
  | other (json : List UInt8)
  deriving DecidableEq, Repr

/-- `mess.Update`. The fields other than the key are only handed on. -/
structure Update (α : Type) where
  key : Key
  fields : α
  deriving DecidableEq, Repr

/-- The JSON library: `Decode` of the first value in a text, and `Marshal`. -/
structure Json (α : Type) where
  decode : List UInt8 → Except String (Update α)
  marshal : Update α → Except String (List UInt8)

def semicolon : UInt8 := 0x3B

def unescapeName (s : List UInt8) : List UInt8 := s.map fun c => if c = 0x10 then semicolon else c

def escapeName (s : List UInt8) : List UInt8 := s.map fun c => if c = semicolon then 0x10 else c

/-- The digits that `strconv.ParseUint` has not read yet. The number that it returns with an
error is 0, or the largest one if it is out of range. -/
def parseDigits : Nat → List UInt8 → Nat
  | n, [] => n
  | n, c :: cs =>
    if 48 ≤ c.toNat ∧ c.toNat ≤ 57 then
      let n := n * 10 + (c.toNat - 48)
      if 2 ^ 64 ≤ n then 2 ^ 64 - 1 else parseDigits n cs
    else 0

/-- A number becomes a `uint64`; an error of `ParseUint` is ignored. -/
def Key.resolve : Key → Key
  | .number text => .uint64 (parseDigits 0 text)
  | key => key

def parseUpdate (json : Json α) (s : List UInt8) : Except String (List UInt8 × Update α) :=
  if semicolon ∈ s then
    match json.decode (unescapeName (s.dropWhile (· ≠ semicolon)).tail) with
    | .error e => .error ("parseUpdate: " ++ e)
    | .ok upd => .ok (s.takeWhile (· ≠ semicolon),{ upd with key := upd.key.resolve })
  else .error "updatepipe: mismatched parts count"

def formatUpdate (json : Json α) (myID : List UInt8) (upd : Update α) :
    Except String (List UInt8) :=
  match json.marshal upd with
  | .error e => .error ("formatUpdate: " ++ e)
  | .ok updBlob => .ok (myID ++ semicolon :: escapeName updBlob ++ [0x0A])

def maxTokenSize : Nat := 64 * 1024

def dropCR (line : List UInt8) : List UInt8 :=
  if line.getLast? = some 0x0D then line.dropLast else line

/-- The tokens of a `bufio.Scanner`, given what stands between the line feeds. It stops when
its buffer has no room for a line with its end. What follows the last line feed is a token too,
if there is anything. -/
def scanLines : List (List UInt8) → List (List UInt8)
  | [] => []
  | [rest] => if rest = [] ∨ maxTokenSize ≤ rest.length then [] else [dropCR rest]
  | line :: more => if maxTokenSize ≤ line.length then [] else dropCR line :: scanLines more

inductive Ended where
  | returned
  | panicked
  deriving DecidableEq, Repr

structure UnixSockPipe where
  pid : Nat
  address : Nat

def UnixSockPipe.myID (usp : UnixSockPipe) : List UInt8 :=
  ascii (toString usp.pid) ++ 0x2D :: ascii ("0x" ++ String.ofList (Nat.toDigits 16 usp.address))

/-- The loop of `readUpdates`: what it sends, and how it ends. An error is logged. -/
def UnixSockPipe.forward (usp : UnixSockPipe) (json : Json α) :
    List (List UInt8) → List (Update α) × Ended
  | [] => ([],.returned)
  | line :: rest =>
    let (id,upd) := match parseUpdate json line with
      | .error _ => ([],none)
      | .ok (id,upd) => (id,some upd)
    if id = usp.myID then usp.forward json rest
    else
      match upd with
      -- a nil pointer is dereferenced
      | none => ([],.panicked)
      | some upd =>
        let (sent,ended) := usp.forward json rest
        (upd :: sent,ended)

def UnixSockPipe.readUpdates (usp : UnixSockPipe) (json : Json α) (stream : List UInt8) :
    List (Update α) × Ended :=
  usp.forward json (scanLines (stream.splitOn 0x0A))

end Madmail.Updatepipe
