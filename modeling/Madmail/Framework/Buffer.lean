import Madmail.Framework.Exterrors

namespace Madmail.Framework
open Exterrors

variable {α : Type}

/-- The errors of a reader. `io.EOF` says that it has given all there is. -/
inductive ReadErr where
  | eof
  | unexpectedEOF
  | other (err : Err)
  deriving DecidableEq, Repr

/-- An `io.Reader`: what each `Read` gives if there is room for it, and the error of all that
follow. To the loops below an error that comes along with octets is as one that comes after
them. -/
structure Reader (α : Type) where
  chunks : List (List α)
  err : ReadErr

namespace Reader

def bytes (r : Reader α) : List α := r.chunks.flatten

/-- The loop of `io.ReadFull` for a buffer with room for `k` octets: what is read into it, and what
there is left to read. -/
def fill : List (List α) → Nat → List α × List (List α)
  | chunks, 0 => ([],chunks)
  | [], _ + 1 => ([],[])
  | chunk :: chunks, k + 1 =>
    if chunk.length ≤ k + 1 then
      let (read,rest) := fill chunks (k + 1 - chunk.length)
      (chunk ++ read,rest)
    else (chunk.take (k + 1),chunk.drop (k + 1) :: chunks)

def readFull (r : Reader α) (k : Nat) : List α × Option ReadErr × Reader α :=
  let (read,rest) := fill r.chunks k
  let err :=
    if k ≤ read.length then none
    else if 0 < read.length ∧ r.err = .eof then some .unexpectedEOF
    else some r.err
  (read,err,{ r with chunks := rest })

/-- The loop of `io.ReadAll` and of `io.Copy`: what is read until the first error, and that error
unless it is `io.EOF`. -/
def drain (err : ReadErr) : List (List α) → List α → List α × Option ReadErr
  | [], read => (read,if err = .eof then none else some err)
  | chunk :: chunks, read => drain err chunks (read ++ chunk)

def readAll (r : Reader α) : List α × Option ReadErr := drain r.err r.chunks []

def multiReader (slice : List α) (r : Reader α) : Reader α := { r with chunks := slice :: r.chunks }

end Reader

inductive Buffer (α : Type) where
  | memory (slice : List α)
  | file (content : List α)
  deriving DecidableEq, Repr

def Buffer.bytes : Buffer α → List α
  | .memory slice => slice
  | .file content => content

inductive BufferErr where
  | read (err : ReadErr)
  -- "buffer: failed to write file: " and the error
  | failedToWriteFile (err : ReadErr)
  deriving DecidableEq, Repr

def bufferInMemory (r : Reader α) : Except BufferErr (Buffer α) :=
  match r.readAll with
  | (_,some err) => .error (.read err)
  | (blob,none) => .ok (.memory blob)

/-- `BufferInFile`, if the file can be created and written. -/
def bufferInFile (r : Reader α) : Except BufferErr (Buffer α) :=
  match r.readAll with
  | (_,some err) => .error (.failedToWriteFile err)
  | (content,none) => .ok (.file content)

def autoBufferMode (maxSize : Nat) (r : Reader α) : Except BufferErr (Buffer α) :=
  match r.readFull maxSize with
  | (initial,some .unexpectedEOF,_) => .ok (.memory initial)
  | (_,some .eof,_) => .ok (.memory [])
  | (_,some err,_) => .error (.read err)
  | (initial,none,r) =>
    if initial.length < maxSize then .ok (.memory initial)
    else bufferInFile (.multiReader initial r)

end Madmail.Framework
