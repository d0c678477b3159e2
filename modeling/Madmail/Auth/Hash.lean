import Madmail.Framework.Exterrors
import Madmail.Lib.Strings
import Mathlib.Algebra.Ring.Nat

namespace Madmail.PassTable
open Exterrors Lib.Strings

abbrev Bytes := List UInt8

def bytes (s : String) : Bytes := s.toUTF8.data.toList

/-- What a call ends in. Go code that indexes past the end of a slice, or that
calls a nil function, panics. -/
inductive Outcome (α : Type) where
  | ok (a : α)
  | err (e : Err)
  | panicked
  deriving DecidableEq

/-- The cryptographic and encoding functions the code is given. `argon2IDKey`
takes the password, the salt, time, memory and threads, and is undefined where
it panics. -/
structure Crypto where
  base64Encode : Bytes → String
  base64Decode : String → Except Err Bytes
  sha256 : Bytes → Bytes
  argon2IDKey : Bytes → Bytes → Nat → Nat → Nat → Option Bytes
  bcryptGenerate : Bytes → Int → Except Err String
  bcryptCompare : String → Bytes → Option Err

inductive Algo where
  | sha256 | bcrypt | argon2
  deriving DecidableEq, Repr

def Algo.name : Algo → String
  | .sha256 => "sha256"
  | .bcrypt => "bcrypt"
  | .argon2 => "argon2"

def defaultHash : Algo := .sha256

def algoOf (tag : String) : Option Algo :=
  [Algo.sha256,.bcrypt,.argon2].find? (fun algo => algo.name = tag)

structure HashOpts where
  bcryptCost : Int := 0
  argon2Time : Nat := 0
  argon2Memory : Nat := 0
  argon2Threads : Nat := 0

def parseUint (s : String) (bitSize : Nat) : Except Err Nat :=
  if s.toList ≠ [] ∧ s.toList.all Char.isDigit then
    let n := s.toList.foldl (fun n c => 10 * n + (c.toNat - '0'.toNat)) 0
    if n < 2 ^ bitSize then .ok n
    else .error (.leaf ("strconv.ParseUint: parsing " ++ s.quote ++ ": value out of range") none)
  else .error (.leaf ("strconv.ParseUint: parsing " ++ s.quote ++ ": invalid syntax") none)

def hashMismatch : Err := .leaf "pass_table: hash mismatch" none

def computeSHA256 (c : Crypto) (salt : Except Err Bytes) (pass : String) : Except Err String :=
  match salt with
  | .error e => .error (.errorf "pass_table: failed to generate salt: " e)
  | .ok salt => .ok (c.base64Encode salt ++ ":" ++ c.base64Encode (c.sha256 (salt ++ bytes pass)))

def verifySHA256 (c : Crypto) (pass hashSalt : String) : Outcome Unit :=
  match split hashSalt ':' with
  | [salt,hash] =>
    match c.base64Decode salt with
    | .error e => .err (.errorf "pass_table: malformed hash string, cannot decode pass: " e)
    | .ok salt =>
      match c.base64Decode hash with
      | .error e => .err (.errorf "pass_table: malformed hash string, cannot decode pass: " e)
      | .ok hash => if c.sha256 (salt ++ bytes pass) = hash then .ok () else .err hashMismatch
  | _ => .err (.leaf "pass_table: malformed hash string, no salt" none)

def computeArgon2 (c : Crypto) (salt : Except Err Bytes) (opts : HashOpts) (pass : String) :
    Outcome String :=
  match salt with
  | .error e => .err (.errorf "pass_table: failed to generate salt: " e)
  | .ok salt =>
    match c.argon2IDKey (bytes pass) salt opts.argon2Time opts.argon2Memory opts.argon2Threads with
    | none => .panicked
    | some hash =>
      .ok (toString opts.argon2Time ++ ":" ++ toString opts.argon2Memory ++ ":" ++
        toString opts.argon2Threads ++ ":" ++ c.base64Encode salt ++ ":" ++ c.base64Encode hash)

/-- The parts are taken one after the other: with too few of them the index
expression panics, unless an earlier part is malformed. -/
def verifyArgon2 (c : Crypto) (pass hashSalt : String) : Outcome Unit :=
  let field (n bitSize : Nat) (next : Nat → Outcome Unit) : Outcome Unit :=
    match (splitN hashSalt ':' 5)[n]? with
    | none => .panicked
    | some part =>
      match parseUint part bitSize with
      | .error e => .err (.errorf "pass_table: malformed hash string: " e)
      | .ok value => next value
  let blob (n : Nat) (next : Bytes → Outcome Unit) : Outcome Unit :=
    match (splitN hashSalt ':' 5)[n]? with
    | none => .panicked
    | some part =>
      match c.base64Decode part with
      | .error e => .err (.errorf "pass_table: malformed hash string: " e)
      | .ok value => next value
  field 0 32 fun time => field 1 32 fun memory => field 2 8 fun threads =>
    blob 3 fun salt => blob 4 fun hash =>
      match c.argon2IDKey (bytes pass) salt time memory threads with
      | none => .panicked
      | some passHash => if passHash = hash then .ok () else .err hashMismatch

def computeBcrypt (c : Crypto) (opts : HashOpts) (pass : String) : Except Err String :=
  c.bcryptGenerate (bytes pass) opts.bcryptCost

def verifyBcrypt (c : Crypto) (pass hashSalt : String) : Outcome Unit :=
  match c.bcryptCompare hashSalt (bytes pass) with
  | none => .ok ()
  | some e => .err e

def Outcome.ofExcept : Except Err α → Outcome α
  | .ok a => .ok a
  | .error e => .err e

/-- `HashCompute`. The salt is what the random source gives; bcrypt draws its
own. -/
def hashCompute (c : Crypto) (salt : Except Err Bytes) (opts : HashOpts) :
    Algo → String → Outcome String
  | .sha256, pass => .ofExcept (computeSHA256 c salt pass)
  | .bcrypt, pass => .ofExcept (computeBcrypt c opts pass)
  | .argon2, pass => computeArgon2 c salt opts pass

def hashVerify (c : Crypto) : Algo → String → String → Outcome Unit
  | .sha256 => verifySHA256 c
  | .bcrypt => verifyBcrypt c
  | .argon2 => verifyArgon2 c

end Madmail.PassTable
