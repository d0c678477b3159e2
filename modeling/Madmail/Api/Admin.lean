import Madmail.Lib.Runs
import Madmail.Lib.Strings

namespace Madmail.Admin
open Lib.Strings Function

/-- The part of `Handler` that `authenticate` works on. Times are in nanoseconds. -/
structure Handler where
  token : String
  lastAttempts : String → List Int

structure Request where
  headers : List (String × String)
  remoteAddr : String

def minute : Int := 60 * 1000000000

def recent (now : Int) (attempts : List Int) : List Int :=
  attempts.filter fun t => now - minute < t

/-- `extractIP`: what is before the last colon, without brackets. -/
def extractIP (addr : String) : String :=
  if contains addr ':' then
    trim (String.ofList ((addr.toList.reverse.dropWhile (· ≠ ':')).tail.reverse)) ['[',']']
  else addr

namespace Handler

def checkRateLimit (h : Handler) (ip : String) (now : Int) : Handler × Bool :=
  let recent := recent now (h.lastAttempts ip)
  ({ h with lastAttempts := update h.lastAttempts ip recent },recent.length < 10)

def recordFailedAttempt (h : Handler) (ip : String) (now : Int) : Handler :=
  { h with lastAttempts := update h.lastAttempts ip (h.lastAttempts ip ++ [now]) }

def clearFailedAttempts (h : Handler) (ip : String) : Handler :=
  { h with lastAttempts := update h.lastAttempts ip [] }

/-- `cleanupRateLimitEntries`. An IP without attempts has no entry. -/
def cleanupRateLimitEntries (h : Handler) (now : Int) : Handler :=
  { h with lastAttempts := fun ip => recent now (h.lastAttempts ip) }

/-- The token that `authenticate` has to look at, if it comes to that. -/
def presented (h : Handler) (req : Request) : Option String :=
  if h.token = "" then none
  else
    let authHeader := (req.headers.lookup "Authorization").getD ""
    let authHeader :=
      if authHeader = "" then (req.headers.lookup "authorization").getD "" else authHeader
    if authHeader = "" then none
    else if !hasPrefix authHeader "Bearer " then none
    else some (trimPrefix authHeader "Bearer ")

end Handler

inductive Place where
  -- before the check of the limit
  | entered (token : String)
  -- before the comparison
  | admitted (token : String)
  -- the token was right, or wrong, and this is not noted yet
  | matched
  | failed
  | returned (ok : Bool)
  deriving DecidableEq, Repr

structure Pending where
  ip : String
  place : Place
  deriving DecidableEq, Repr

/-- The handler with the requests under way. `guesses` are the comparisons with a wrong token
and `successes` the requests that were let in, each with the IP and the time. -/
structure Server where
  handler : Handler
  requests : List Pending
  clock : Int
  guesses : List (String × Int)
  successes : List (String × Int)

inductive Act where
  | arrive (req : Request)
  | check (i : Nat)
  | compare (i : Nat)
  | clear (i : Nat)
  | record (i : Nat)
  | cleanup

namespace Server

def start (token : String) (clock : Int) : Server where
  handler := ⟨token,fun _ => []⟩
  requests := []
  clock := clock
  guesses := []
  successes := []

def move (s : Server) (i : Nat) (p : Pending) (place : Place) : Server :=
  { s with requests := s.requests.set i { p with place } }

/-- One step at the time of the clock. Each of the methods that hold `rateMu` is one step, and
so is the comparison. -/
def act (s : Server) : Act → Option Server
  | .arrive req =>
    let place := match s.handler.presented req with
      | none => .returned false
      | some token => .entered token
    some { s with requests := s.requests ++ [⟨extractIP req.remoteAddr,place⟩] }
  | .check i =>
    match s.requests[i]? with
    | some ⟨ip,.entered token⟩ =>
      let (handler,allowed) := s.handler.checkRateLimit ip s.clock
      some ({ s with handler }.move i ⟨ip,.entered token⟩
        (if allowed then .admitted token else .returned false))
    | _ => none
  | .compare i =>
    match s.requests[i]? with
    | some ⟨ip,.admitted token⟩ =>
      if token = s.handler.token then some (s.move i ⟨ip,.admitted token⟩ .matched)
      else
        some ({ s with guesses := (ip,s.clock) :: s.guesses }.move i ⟨ip,.admitted token⟩ .failed)
    | _ => none
  | .clear i =>
    match s.requests[i]? with
    | some ⟨ip,.matched⟩ =>
      some ({ s with
          handler := s.handler.clearFailedAttempts ip
          successes := (ip,s.clock) :: s.successes }.move i ⟨ip,.matched⟩ (.returned true))
    | _ => none
  | .record i =>
    match s.requests[i]? with
    | some ⟨ip,.failed⟩ =>
      some ({ s with handler := s.handler.recordFailedAttempt ip s.clock }.move i ⟨ip,.failed⟩
        (.returned false))
    | _ => none
  | .cleanup => some { s with handler := s.handler.cleanupRateLimitEntries s.clock }

def step (s : Server) (a : Int × Act) : Option Server :=
  if s.clock ≤ a.1 then { s with clock := a.1 }.act a.2 else none

end Server

end Madmail.Admin
