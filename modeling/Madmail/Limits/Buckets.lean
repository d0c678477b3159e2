import Madmail.Limits.Limiters

namespace Madmail.Limits

/-- The `L` interface with its `Take`, which is undefined where it panics. -/
structure TakeL (α γ : Type) extends L α γ where
  take : α → γ → α × Option Bool

namespace BucketSet
variable {α γ : Type}

inductive Call (γ : Type) where
  | take (key : String) (clock : Clock) (choice : γ)
  | takeContext (key : String) (clock : Clock) (choice : γ)
  | release (key : String)

inductive Reply where
  | took (ok : Bool)
  | returned (err : Option Exterrors.Err)
  | released
  | panicked
  deriving DecidableEq

def call (ops : TakeL α γ) (hasNew : Bool) (s : BucketSet α) : Call γ → BucketSet α × Reply
  | .take key clock choice =>
    if !hasNew then (s,.took true)
    else
      match s.takeAt key clock with
      | (s,.bucket r) =>
        match ops.take r choice with
        | (r,some ok) => (s.store key r,.took ok)
        | (r,none) => (s.store key r,.panicked)
      -- `New` has panicked, or this is a method of a nil interface.
      | (s,_) => (s,.panicked)
  | .takeContext key clock choice =>
    if !hasNew then (s,.returned none)
    else
      match s.takeAt key clock with
      | (s,.bucket r) =>
        match ops.takeContext r choice with
        | (r,.nil) => (s.store key r,.returned none)
        | (r,.err e) => (s.store key r,.returned (some e))
        | (r,.panic) => (s.store key r,.panicked)
      | (s,_) => (s,.panicked)
  | .release key =>
    if !hasNew then (s,.released)
    else
      match s.release ops.toL key with
      | (s,true) => (s,.panicked)
      | (s,false) => (s,.released)

def after (ops : TakeL α γ) (hasNew : Bool) (s : BucketSet α) (c : Call γ) : BucketSet α :=
  (s.call ops hasNew c).1

end BucketSet

end Madmail.Limits
