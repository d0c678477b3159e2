import Madmail.Lib.Runs
import Madmail.Msgpipeline.CheckRunner

namespace Madmail.Msgpipeline
open Exterrors Madmail.Module

/-- How far a goroutine of `runAndMergeResults` has got: its check has answered, and what it has
merged since then. -/
inductive Stage where
  | answered
  | authMerged
  | headerMerged
  | done
  deriving DecidableEq, Repr

structure Goroutine where
  result : CheckResult
  stage : Stage := .answered

/-- The goroutines of a call with the data that they share. `headerLocked` is set by a goroutine
that panics while it holds `headerLock`, which it then never unlocks. -/
structure CheckGroup where
  mergedRes : CheckResult
  quarantineErr : Option (Option Err) := none
  rejectErr : Option (Option Err) := none
  headerLocked : Bool := false
  goroutines : List Goroutine

/-- What `AddRaw` adds for a field that a check has set, given what `Raw` makes of it. There is
none if it panics. -/
abbrev AddRaw := String × String → Option (String × String)

namespace CheckGroup

def start (mergedRes : CheckResult) (results : List CheckResult) : CheckGroup where
  mergedRes := mergedRes
  goroutines := results.map fun result => { result }

def move (g : CheckGroup) (i : Nat) (result : CheckResult) (stage : Stage) : CheckGroup :=
  { g with goroutines := g.goroutines.set i { result, stage } }

def appendAuth (g : CheckGroup) (result : CheckResult) : CheckGroup :=
  { g with mergedRes :=
      { g.mergedRes with authResult := g.mergedRes.authResult ++ result.authResult } }

def addHeader (g : CheckGroup) (fields : Header) : CheckGroup :=
  { g with mergedRes := { g.mergedRes with header := addFields g.mergedRes.header fields } }

/-- What is done with the verdict of a check. A reason without an action is logged. -/
def setVerdict (g : CheckGroup) (result : CheckResult) : CheckGroup :=
  if result.quarantine then { g with quarantineErr := some (g.quarantineErr.getD result.reason) }
  else if result.reject then { g with rejectErr := some (g.rejectErr.getD result.reason) }
  else g

/-- A step of the goroutine `i`: each of the parts between locks is one. Where `AddRaw` panics the
fields that follow are not added and the verdict is not looked at. -/
def step (addRaw : AddRaw) (g : CheckGroup) (i : Nat) : Option CheckGroup :=
  match g.goroutines[i]? with
  | some ⟨result,.answered⟩ => some ((g.appendAuth result).move i result .authMerged)
  | some ⟨result,.authMerged⟩ =>
    if result.header = [] then some (g.move i result .headerMerged)
    else if g.headerLocked then none
    else
      match result.header.mapM addRaw with
      | some fields => some ((g.addHeader fields).move i result .headerMerged)
      | none =>
        let fields := ((result.header.map addRaw).takeWhile Option.isSome).reduceOption
        some ({ g.addHeader fields with headerLocked := true }.move i result .done)
  | some ⟨result,.headerMerged⟩ => some ((g.setVerdict result).move i result .done)
  | _ => none

/-- What `runAndMergeResults` leaves in `mergedRes` and returns, once all goroutines are done. -/
def outcome (g : CheckGroup) : Option (CheckResult × Option Err) :=
  if g.goroutines.all (·.stage = .done) then
    match g.rejectErr with
    | some (some e) => some (g.mergedRes,some e)
    | _ =>
      match g.quarantineErr with
      | some (some _) => some ({ g.mergedRes with quarantine := true },none)
      | _ => some (g.mergedRes,none)
  else none

end CheckGroup

end Madmail.Msgpipeline
