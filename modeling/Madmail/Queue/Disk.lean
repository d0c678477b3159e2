import Madmail.Lib.FileProg
import Madmail.Queue.Delivery
import Madmail.Queue.TimeWheel
import Mathlib.Algebra.Ring.Nat

namespace Madmail.Queue.Disk
open Lib.FileProg Madmail.Module Function

/-- What a file of the queue directory holds, by what reads it back: anything
the readers do not understand is `raw`. -/
inductive FileData where
  | raw (bytes : String)
  | header (h : Header)
  | body (bytes : String)
  | json (m : QueueMetadata)

def FileData.empty : FileData := .raw ""

inductive Part where
  | header | body | metadata | metaNew
  deriving DecidableEq, Repr

def Part.suffix : Part → String
  | .header => ".header"
  | .body => ".body"
  | .metadata => ".meta"
  | .metaNew => ".meta.new"

def fileName (id : String) (part : Part) : String := id ++ part.suffix

/-- The part of a file operation that concerns one message. It returns whether
the error is nil. -/
abbrev Script := Prog Part FileData Bool

/-- A call whose error is returned after the given clean-up. -/
def call (o : Op Part FileData) (onError next : Script) : Script :=
  .op o (fun ok => if ok then next else onError)

def refuse : Script := .done false

def tryRemoveDanglingFile (part : Part) (next : Script) : Script :=
  .op (.remove part) (fun _ => next)

/-- The copy that is written: connection information can not be serialized. -/
def metaCopy (m : QueueMetadata) : QueueMetadata :=
  { m with msgMeta := { m.msgMeta with conn := none } }

def updateMetadataOnDisk (m : QueueMetadata) : Script :=
  call (.create .metaNew .empty) refuse <|
  call (.write .metaNew (.json (metaCopy m))) refuse <|
  call (.sync .metaNew) refuse <|
  call (.rename .metaNew .metadata) refuse <|
  .done true

def storeNewMessage (m : QueueMetadata) (header : Header) (body : String) : Script :=
  let dropHeader := tryRemoveDanglingFile .header refuse
  let dropBoth := tryRemoveDanglingFile .body (tryRemoveDanglingFile .header refuse)
  call (.create .header .empty) refuse <|
  call (.write .header (.header header)) dropHeader <|
  -- body.Open
  call .other dropHeader <|
  -- The header file stays behind when the body file can not be created.
  call (.create .body .empty) refuse <|
  call (.write .body (.body body)) dropBoth <|
  (updateMetadataOnDisk m).bind fun ok =>
    if ok then
      call (.sync .header) refuse <|
      call (.sync .body) refuse <|
      .done true
    else dropBoth

def removeFromDisk : Script :=
  .op (.remove .header) fun _ => .op (.remove .body) fun _ => .op (.remove .metadata) fun _ =>
    .done true

/-- `queueDelivery.Abort`, which goes by whether `Body` has recorded a body. -/
def abort (recorded : Bool) : Script := if recorded then removeFromDisk else .done true

/-- `queueDelivery.Body`, and `Abort` when it has failed. It returns whether the
error of `Body` is nil. -/
def bodyOrAbort (m : QueueMetadata) (header : Header) (body : String) : Script :=
  (storeNewMessage m header body).bind fun ok =>
    if ok then .done true else (abort ok).bind fun _ => .done false

abbrev QueueDir := Dir String FileData

def readMessageMeta (d : QueueDir) (id : String) : Option QueueMetadata :=
  match d (fileName id .metadata) with
  | some (.json m) => some m
  | _ => none

structure Message where
  last : QueueMetadata
  header : Header
  body : FileData

/-- The message, or the directory after the dangling files were removed. -/
def openMessage (d : QueueDir) (id : String) : QueueDir × Option Message :=
  match readMessageMeta d id with
  | none => (d,none)
  | some m =>
    match d (fileName id .body) with
    | none => (update d (fileName id .metadata) none,none)
    | some body =>
      match d (fileName id .header) with
      | none =>
        (update (update d (fileName id .metadata) none) (fileName id .body) none,
          none)
      | some (.header header) => (d,some ⟨m,header,body⟩)
      | some _ => (d,none)

/-- The settings that decide when a loaded message is tried. `scaleFactor` is
`time.Duration(math.Pow(retryTimeScale, x))`. -/
structure RetryConfig where
  initialRetryTime : Int
  postInitDelay : Int
  scaleFactor : Int → Int

def smallestTriesCount (m : QueueMetadata) : Nat :=
  m.triesCount.entries.foldl (fun smallest entry => if smallest > entry.2 then entry.2 else smallest)
    999999

def nextTryTime (q : RetryConfig) (now : Int) (m : QueueMetadata) : Int :=
  let delay := Int.bmod (q.initialRetryTime * q.scaleFactor (smallestTriesCount m - 1)) (2 ^ 64)
  let next := m.lastAttempt + delay
  if TimeWheel.sub next now < q.postInitDelay then now + q.postInitDelay else next

def metaID (name : String) : Option String :=
  if ".meta".toList.isSuffixOf name.toList then
    some (String.ofList (name.toList.take (name.toList.length - 5)))
  else none

structure Faults where
  read : String → Bool
  stat : String → Bool
  remove : String → Bool

def Faults.none : Faults := ⟨fun _ => false,fun _ => false,fun _ => false⟩

inductive Found where
  | skipped
  | dangling (parts : List Part)
  | complete (m : QueueMetadata)

def inspect (f : Faults) (d : QueueDir) (id : String) : Found :=
  if f.read (fileName id .metadata) then .skipped
  else
    match readMessageMeta d id with
    | none => .skipped
    | some m =>
      if f.stat (fileName id .header) then .skipped
      else if (d (fileName id .header)).isNone then .dangling [.metadata,.body]
      else if f.stat (fileName id .body) then .skipped
      else if (d (fileName id .body)).isNone then .dangling [.metadata,.header]
      else .complete m

def removeDangling (f : Faults) (id : String) (d : QueueDir) (part : Part) : QueueDir :=
  if f.remove (fileName id part) then d else update d (fileName id part) none

structure Scan where
  dir : QueueDir
  slots : List (Int × String)

def scanEntry (q : RetryConfig) (now : Int) (f : Faults) (s : Scan) (name : String) : Scan :=
  match metaID name with
  | none => s
  | some id =>
    match inspect f s.dir id with
    | .skipped => s
    | .dangling parts => { s with dir := parts.foldl (removeDangling f id) s.dir }
    | .complete m => { s with slots := s.slots ++ [(nextTryTime q now m,id)] }

def readDiskQueue (q : RetryConfig) (now : Int) (f : Faults) (entries : List String)
    (d : QueueDir) : Scan :=
  entries.foldl (scanEntry q now f) ⟨d,[]⟩

inductive Phase where
  | fresh
  | storing (msg : Message) (rest : Script)
  -- `Body` has returned nil; `last` was written by the last update that was completed.
  | stored (msg : Message)
  | updating (msg : Message) (next : QueueMetadata) (rest : Script)
  | removing (rest : Script)
  | gone

def Phase.script : Phase → Option Script
  | .storing _ rest | .updating _ _ rest | .removing rest => some rest
  | .fresh | .stored _ | .gone => none

/-- The phase after a call, when `rest` is what is left of the operation. -/
def Phase.resume (rest : Script) : Phase → Phase
  | .storing msg _ =>
    match rest with
    | .done true => .stored msg
    | .done false => .gone
    | rest => .storing msg rest
  | .updating msg next _ =>
    match rest with
    | .done true => .stored { msg with last := next }
    | .done false => .stored msg
    | rest => .updating msg next rest
  | .removing _ =>
    match rest with
    | .done _ => .gone
    | rest => .removing rest
  | phase => phase

structure World where
  dir : QueueDir
  phase : String → Phase

def World.start : World := ⟨fun _ => none,fun _ => .fresh⟩

inductive Action where
  | store (m : QueueMetadata) (header : Header) (body : String)
  | update (m : QueueMetadata)
  | remove (id : String)
  -- The next call of the operation on `id` returns.
  | call (id : String) (ok : Bool) (junk : FileData)
  -- A crash, and a start that gets through these entries before the next crash.
  | restart (q : RetryConfig) (now : Int) (f : Faults) (entries : List String)

/-- The phase of an ID after a restart. An operation that did not return is
forgotten; a message that happens to be complete on the disk is a stored one. -/
def restarted (d : QueueDir) (id : String) : Phase → Phase
  | .fresh => .fresh
  | .stored msg | .updating msg _ _ => .stored msg
  | .storing _ _ | .removing _ | .gone =>
    match d (fileName id .metadata), d (fileName id .header), d (fileName id .body) with
    | some (.json m), some (.header header), some body => .stored ⟨m,header,body⟩
    | _, _, _ => .gone

def World.enter (w : World) (id : String) (phase : Phase) : World :=
  { w with phase := update w.phase id phase }

def World.step (w : World) : Action → Option World
  | .store m header body =>
    match w.phase m.msgMeta.id with
    | .fresh =>
      some (w.enter m.msgMeta.id
        (.storing ⟨m,header,.body body⟩ (storeNewMessage m header body)))
    | _ => none
  | .update m =>
    match w.phase m.msgMeta.id with
    | .stored msg => some (w.enter m.msgMeta.id (.updating msg m (updateMetadataOnDisk m)))
    | _ => none
  | .remove id =>
    match w.phase id with
    | .stored _ => some (w.enter id (.removing removeFromDisk))
    | _ => none
  | .call id ok junk =>
    match (w.phase id).script with
    | some (.op o next) =>
      (outcome w.dir (o.map (fileName id)) ok junk).map fun d =>
        ({ w with dir := d }).enter id ((w.phase id).resume (next ok))
    | _ => none
  | .restart q now f entries =>
    some ⟨(readDiskQueue q now f entries w.dir).dir,fun id => restarted w.dir id (w.phase id)⟩

end Madmail.Queue.Disk
