import Mathlib.Algebra.GroupWithZero.Nat

namespace Madmail.DataSize

structure Digits where
  isDigit : Char → Bool
  ascii : ∀ c, c.toNat < 128 → isDigit c = c.isDigit

def parseUint : List Char → Nat → Except String Nat
  | [], n => .ok n
  | c :: cs, n =>
    if c.isDigit then
      if 10 * n + (c.toNat - '0'.toNat) < 2 ^ 64 then
        parseUint cs (10 * n + (c.toNat - '0'.toNat))
      else .error "value out of range"
    else .error "invalid syntax"

def parseSigned : List Char → Except String (Bool × Nat)
  | [] => .error "invalid syntax"
  | c :: cs =>
    if c = '-' ∨ c = '+' then
      if cs = [] then .error "invalid syntax" else (parseUint cs 0).map fun n => (c = '-',n)
    else (parseUint (c :: cs) 0).map fun n => (false,n)

/-- `strconv.Atoi` for an `int` of 64 bits. -/
def atoi (s : String) : Except String Int64 :=
  let failed (err : String) := "strconv.Atoi: parsing \"" ++ s ++ "\": " ++ err
  match parseSigned s.toList with
  | .error err => .error (failed err)
  | .ok (true,n) =>
    if n ≤ 2 ^ 63 then .ok (-Int64.ofNat n) else .error (failed "value out of range")
  | .ok (false,n) =>
    if n < 2 ^ 63 then .ok (Int64.ofNat n) else .error (failed "value out of range")

structure Scan where
  total : Int64 := 0
  currentDigit : String := ""
  suffix : String := ""
  deriving DecidableEq, Repr

def addSize (total num : Int64) (suffix : String) : Except String Int64 :=
  if suffix = "G" then .ok (total + num * 1024 * 1024 * 1024)
  else if suffix = "M" then .ok (total + num * 1024 * 1024)
  else if suffix = "K" then .ok (total + num * 1024)
  else if suffix = "B" ∨ suffix = "b" then .ok (total + num)
  else if num ≠ 0 then .error ("unknown unit suffix: " ++ suffix)
  else .ok total

def endGroup (st : Scan) : Except String Int64 := do
  let num ← atoi st.currentDigit
  if num < 0 then .error "value must not be negative"
  else addSize st.total num st.suffix

section
variable (d : Digits)

def scanChar (st : Scan) (ch : Char) : Except String Scan :=
  if d.isDigit ch then
    if st.suffix ≠ "" then .error "unexpected digit after a suffix"
    else .ok { st with currentDigit := st.currentDigit.push ch }
  else if ch ≠ ' ' then .ok { st with suffix := st.suffix.push ch }
  else (endGroup st).map fun total => { total := total }

def scan : List Char → Scan → Except String Int64
  | [], st => .ok st.total
  | ch :: rest, st =>
    match scanChar d st ch with
    | .error err => .error err
    | .ok st => scan rest st

/-- `ParseDataSize`, which adds a space to end the last group. -/
def parseDataSize (s : String) : Except String Int64 :=
  if s = "" then .error "missing a number" else scan d (s ++ " ").toList {}

end

end Madmail.DataSize
