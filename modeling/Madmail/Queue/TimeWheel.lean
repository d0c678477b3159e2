import Madmail.Lib.Runs
import Mathlib.Algebra.Ring.Int.Defs

namespace Madmail.Queue.TimeWheel
open Lib

def maxDuration : Int := 2 ^ 63 - 1
def minDuration : Int := -2 ^ 63

/-- `Time.Sub`: the difference, saturated to what a `time.Duration` can hold.
A `time.Time` is the number of nanoseconds since the zero `Time`. -/
def sub (t u : Int) : Int := max minDuration (min maxDuration (t - u))

structure TimeSlot (V : Type) where
  time : Int
  value : V
  deriving DecidableEq, Repr

/-- A `*list.Element`. The number stands for the pointer: elements are told
apart by it even when two slots carry the same time and value. -/
structure Element (V : Type) where
  id : Nat
  slot : TimeSlot V
  deriving DecidableEq, Repr

inductive Pc (V : Type) where
  -- about to call `time.Now`
  | top
  | scan (now : Int)
  -- the select of an empty queue
  | idle
  | arm (now : Int) (closest : Element V)
  -- the select of `selectloop`; the timer fires at `fireAt`
  | wait (now : Int) (closest : Element V) (fireAt : Int)
  | stopping
  | returned
  deriving DecidableEq, Repr

inductive ClosePc where
  | notCalled | stored | sent | acked | closed
  deriving DecidableEq, Repr

structure Dispatch (V : Type) where
  element : Element V
  clock : Int
  deriving DecidableEq, Repr

/-- The wheel, its `tick` goroutine and every call of `Add` and `Close` in
progress. The last four fields only record the history. -/
structure State (V : Type) where
  clock : Int
  stopped : Bool
  slots : List (Element V)
  tick : Pc V
  close : ClosePc
  -- `Add` calls that have passed the test of `stopped`
  tested : List (TimeSlot V)
  -- `Add` calls that have appended their slot and still have to send
  pushed : List (Element V)
  added : List (Element V)
  received : List (Element V)
  dispatched : List (Dispatch V)
  -- `Add` calls that sent on the closed channel
  panicked : List (Element V)
  deriving DecidableEq, Repr

def start (V : Type) (clock : Int) : State V :=
  { clock, stopped := false, slots := [], tick := .top, close := .notCalled, tested := [],
    pushed := [], added := [], received := [], dispatched := [], panicked := [] }

inductive Action (V : Type) where
  | clock (t : Int)
  | addTest (slot : TimeSlot V)
  | addPush (k : Nat)
  | addSend (k : Nat)
  | readNow
  | scan
  | newTimer
  | fire
  | closeStore
  | closeSend
  | closeReceive
  | closeChannel
  deriving DecidableEq, Repr

def closest (now : Int) : Option (Element V) → List (Element V) → Option (Element V)
  | best, [] => best
  | none, e :: es => closest now (some e) es
  | some b, e :: es =>
    if sub e.slot.time now < sub b.slot.time now then closest now (some e) es
    else closest now (some b) es

/-- `updateNotify` is unbuffered: `tick` takes part in the send, and only in
one of its two selects. `none` means that the sender stays blocked. -/
def receive (e : Element V) : Pc V → Option (Pc V)
  | .idle => some .top
  | .wait now c fireAt =>
    if sub c.slot.time now ≤ sub e.slot.time now then some (.wait now c fireAt) else some .top
  | _ => none

/-- `time.NewTimer`: a timer with a duration that is not positive fires at once. -/
def newTimer (clock : Int) (d : Int) : Int := clock + max 0 d

def step (s : State V) : Action V → Option (State V)
  | .clock t => if s.clock ≤ t then some { s with clock := t } else none
  | .addTest slot => if s.stopped then some s else some { s with tested := s.tested ++ [slot] }
  | .addPush k =>
    match s.tested[k]? with
    | none => none
    | some slot =>
      let e : Element V := ⟨s.added.length,slot⟩
      some { s with
        tested := s.tested.eraseIdx k, slots := s.slots ++ [e],
        pushed := s.pushed ++ [e], added := s.added ++ [e] }
  | .addSend k =>
    match s.pushed[k]? with
    | none => none
    | some e =>
      if s.close = .closed then
        some { s with pushed := s.pushed.eraseIdx k, panicked := s.panicked ++ [e] }
      else
        match receive e s.tick with
        | none => none
        | some pc => some { s with
            tick := pc, pushed := s.pushed.eraseIdx k, received := s.received ++ [e] }
  | .readNow =>
    match s.tick with
    | .top => some { s with tick := .scan s.clock }
    | _ => none
  | .scan =>
    match s.tick with
    | .scan now =>
      match closest now none s.slots with
      | none => some { s with tick := .idle }
      | some c => some { s with tick := .arm now c }
    | _ => none
  | .newTimer =>
    match s.tick with
    | .arm now c => some { s with tick := .wait now c (newTimer s.clock (sub c.slot.time now)) }
    | _ => none
  | .fire =>
    -- Removal and dispatch are one action: nobody but `tick` looks at the list.
    match s.tick with
    | .wait _ c fireAt =>
      if fireAt ≤ s.clock then
        some { s with
          tick := .top, slots := s.slots.filter (fun e => e.id != c.id),
          dispatched := s.dispatched ++ [⟨c,s.clock⟩] }
      else none
    | _ => none
  | .closeStore =>
    if s.close = .notCalled then some { s with stopped := true, close := .stored } else none
  | .closeSend =>
    match s.close, s.tick with
    | .stored, .idle | .stored, .wait _ _ _ => some { s with tick := .stopping, close := .sent }
    | _, _ => none
  | .closeReceive =>
    match s.close, s.tick with
    | .sent, .stopping => some { s with tick := .returned, close := .acked }
    | _, _ => none
  | .closeChannel => if s.close = .acked then some { s with close := .closed } else none

end Madmail.Queue.TimeWheel
