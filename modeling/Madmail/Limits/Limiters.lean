import Madmail.Framework.Exterrors
import Mathlib.Data.List.AList

namespace Madmail.Limits
open Exterrors

inductive Outcome where
  | nil
  | err (e : Err)
  | panic
  deriving DecidableEq, Repr

/-- The `L` interface, as far as it is used. `TakeContext` is given what decides
about its `select`; `Release` tells whether it panics. -/
structure L (α γ : Type) where
  takeContext : α → γ → α × Outcome
  release : α → α × Bool

/-- What decides about a `select`: whether the `ctx.Done()` case is taken, which
may be so even if the other one is ready, and the tokens that `fill` has put into
the bucket by then. -/
structure Choice where
  done : Bool
  ctxErr : Err
  refill : Nat

/-- The limiters that a configuration can name, by the capacity of their channel
and what is in it. The capacity of a no-op is 0. -/
inductive Limiter where
  | rate (burst tokens : Nat)
  | semaphore (size held : Nat)
  deriving DecidableEq, Repr

def Limiter.takeContext : Limiter → Choice → Limiter × Outcome
  | .rate burst tokens, choice =>
    if burst = 0 then (.rate burst tokens,.nil)
    else
      let tokens := min burst (tokens + choice.refill)
      if choice.done ∨ tokens = 0 then (.rate burst tokens,.err choice.ctxErr)
      else (.rate burst (tokens - 1),.nil)
  | .semaphore size held, choice =>
    if size = 0 then (.semaphore size held,.nil)
    else if choice.done ∨ size ≤ held then (.semaphore size held,.err choice.ctxErr)
    else (.semaphore size (held + 1),.nil)

def Limiter.release : Limiter → Limiter × Bool
  | .rate burst tokens => (.rate burst tokens,false)
  | .semaphore size held =>
    if size = 0 then (.semaphore size held,false)
    -- limiters: mismatched Release call
    else if held = 0 then (.semaphore size held,true)
    else (.semaphore size (held - 1),false)

def Limiter.ops : L Limiter Choice := ⟨Limiter.takeContext,Limiter.release⟩

/-- `NewRate` and `NewSemaphore`, which panic if the channel can not be made. -/
inductive Ctor where
  | rate (burst : Int) (period : Int)
  | concurrency (size : Int)
  deriving DecidableEq, Repr

def Ctor.size : Ctor → Int
  | .rate burst _ => burst
  | .concurrency size => size

def Ctor.make (ctor : Ctor) : Option Limiter :=
  if ctor.size < 0 then none
  else match ctor with
    | .rate burst _ => some (.rate burst.toNat burst.toNat)
    | .concurrency size => some (.semaphore size.toNat 0)

def Limiter.capacity : Limiter → Nat
  | .rate burst _ => burst
  | .semaphore size _ => size

/-- No call has come to the limiter. -/
def Limiter.Fresh : Limiter → Prop
  | .rate burst tokens => tokens = burst
  | .semaphore _ held => held = 0

theorem Ctor.make_isSome_iff (ctor : Ctor) : ctor.make.isSome ↔ 0 ≤ ctor.size := by
  unfold make
  split
  · simp; omega
  · cases ctor <;> simp_all [size]

theorem Ctor.make_fresh {ctor : Ctor} (h : ctor.make = some l) :
    l.Fresh ∧ (l.capacity : Int) = ctor.size := by
  unfold make at h
  split at h
  · cases h
  · next hs =>
    cases ctor <;>
    · cases h
      simp only [size] at hs
      exact ⟨rfl,by simp only [Limiter.capacity,size]; omega⟩

/-- A limiter that no call has come to lets a call through unless its select is
decided against it. -/
theorem Limiter.Fresh.takeContext {l : Limiter} (h : l.Fresh) (choice : Choice) :
    (l.takeContext choice).2 =
      if l.capacity ≠ 0 ∧ choice.done = true then .err choice.ctxErr else .nil := by
  cases l with
  | rate burst tokens =>
    cases h
    by_cases hcap : burst = 0
    · simp [Limiter.takeContext,capacity,hcap]
    · cases hd : choice.done <;> simp [Limiter.takeContext,capacity,hcap,hd]
  | semaphore size held =>
    cases h
    by_cases hcap : size = 0
    · simp [Limiter.takeContext,capacity,hcap]
    · cases hd : choice.done <;> simp [Limiter.takeContext,capacity,hcap,hd]

/-- The limiter, but for what is in its channel. -/
def Limiter.blank : Limiter → Limiter
  | .rate burst _ => .rate burst 0
  | .semaphore size _ => .semaphore size 0

theorem take_blank (l : Limiter) (c : Choice) : (Limiter.ops.takeContext l c).1.blank = l.blank := by
  cases l <;> simp only [Limiter.ops,Limiter.takeContext] <;> split <;> (try split) <;> rfl

theorem release_blank (l : Limiter) : (Limiter.ops.release l).1.blank = l.blank := by
  cases l with
  | rate burst tokens => rfl
  | semaphore size held =>
    simp only [Limiter.ops,Limiter.release]
    split
    · rfl
    · split <;> rfl

theorem capacity_blank (l : Limiter) : l.blank.capacity = l.capacity := by cases l <;> rfl

section MultiLimit
variable {α β γ : Type} (inner : L α γ)

def MultiLimit.release : List α → List α × Bool
  | [] => ([],false)
  | l :: rest =>
    match inner.release l with
    | (l,true) => (l :: rest,true)
    | (l,false) =>
      let (rest,panics) := MultiLimit.release rest
      (l :: rest,panics)

def MultiLimit.takeFrom (choice : Nat → γ) (taken : List α) : List α → List α × Outcome
  | [] => (taken,.nil)
  | l :: rest =>
    match inner.takeContext l (choice taken.length) with
    | (l,.nil) => MultiLimit.takeFrom choice (taken ++ [l]) rest
    | (l,.panic) => (taken ++ l :: rest,.panic)
    | (l,.err e) =>
      match MultiLimit.release inner taken with
      | (taken,true) => (taken ++ l :: rest,.panic)
      | (taken,false) => (taken ++ l :: rest,.err e)

def MultiLimit.ops : L (List α) (Nat → γ) :=
  ⟨fun wrapped choice => MultiLimit.takeFrom inner choice [] wrapped,MultiLimit.release inner⟩

variable {inner} {f : α → β}

theorem MultiLimit.release_map (hrelease : ∀ a, f (inner.release a).1 = f a) (l : List α) :
    (release inner l).1.map f = l.map f := by
  induction l with
  | nil => rfl
  | cons a l ih =>
    have ha := hrelease a
    rw [release]
    split <;> rename_i hr <;> rw [hr] at ha
    · simp [ha]
    · simp [ha,ih]

theorem MultiLimit.takeFrom_map (htake : ∀ a choice, f (inner.takeContext a choice).1 = f a)
    (hrelease : ∀ a, f (inner.release a).1 = f a) :
    (takeFrom inner choice taken rest).1.map f = (taken ++ rest).map f := by
  induction rest generalizing taken with
  | nil => simp [takeFrom]
  | cons a rest ih =>
    have ha := htake a (choice taken.length)
    have hback := release_map hrelease taken
    rw [takeFrom]
    split <;> rename_i ht <;> rw [ht] at ha
    · rw [ih]
      simp [ha]
    · simp [ha]
    · split <;> rename_i hr <;> rw [hr] at hback <;> simp [ha,hback]

end MultiLimit

structure Bucket (α : Type) where
  r : α
  lastUse : Int

/-- A set of buckets. Its `New` function builds the same limiter each time, or
panics. -/
structure BucketSet (α : Type) where
  new : Option α
  reapInterval : Int
  maxBuckets : Nat
  m : AList (fun _ : String => Bucket α) := ∅

/-- The readings of the clock in one call: the one that the buckets are held
against, and the one that is stored with the bucket. -/
structure Clock where
  reapAt : Int
  useAt : Int

inductive Taken (α : Type) where
  | nil
  | panic
  | bucket (r : α)

namespace BucketSet
variable {α γ : Type}

def size (s : BucketSet α) : Nat := s.m.entries.length

def stale (s : BucketSet α) (now : Int) (b : Bucket α) : Bool := b.lastUse - now > s.reapInterval

def reap (s : BucketSet α) (now : Int) : BucketSet α :=
  { s with m := s.m.keys.foldl (fun m key =>
      if (m.lookup key).any (s.stale now) then m.erase key else m) s.m }

def bucketFor (s : BucketSet α) (key : String) (now : Int) : BucketSet α × Taken α :=
  match s.m.lookup key with
  | some b => ({ s with m := s.m.insert key { b with lastUse := now } },.bucket b.r)
  | none =>
    match s.new with
    | none => (s,.panic)
    | some r => ({ s with m := s.m.insert key ⟨r,now⟩ },.bucket r)

/-- `take`. The clock goes on while it runs. -/
def takeAt (s : BucketSet α) (key : String) (clock : Clock) : BucketSet α × Taken α :=
  if s.maxBuckets < s.size then
    let s := s.reap clock.reapAt
    if s.maxBuckets < s.size then (s,.nil) else s.bucketFor key clock.useAt
  else s.bucketFor key clock.useAt

/-- `take`, if it does not. -/
def take (s : BucketSet α) (key : String) (now : Int) : BucketSet α × Taken α :=
  s.takeAt key ⟨now,now⟩

def store (s : BucketSet α) (key : String) (r : α) : BucketSet α :=
  match s.m.lookup key with
  | none => s
  | some b => { s with m := s.m.insert key { b with r := r } }

def takeContext (ops : L α γ) (s : BucketSet α) (key : String) (now : Int) (choice : γ) :
    BucketSet α × Outcome :=
  match s.take key now with
  -- a method of a nil interface
  | (s,.nil) => (s,.panic)
  | (s,.panic) => (s,.panic)
  | (s,.bucket r) =>
    let (r,outcome) := ops.takeContext r choice
    (s.store key r,outcome)

def release (ops : L α γ) (s : BucketSet α) (key : String) : BucketSet α × Bool :=
  match s.m.lookup key with
  | none => (s,false)
  | some b =>
    let (r,panics) := ops.release b.r
    (s.store key r,panics)

end BucketSet

end Madmail.Limits
