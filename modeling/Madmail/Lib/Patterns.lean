import Mathlib.Data.List.DropRight
import Mathlib.Data.List.Infix

namespace Madmail.Lib
open List

section Rewrite
variable {β : Type} {hit : List Char → Option (List β × Nat)} {keep : Char → List β}
  {cs rest : List Char}

/-- Go through a text from left to right. A hit gives what stands for it, and how many
characters after its first it takes up. -/
def rewriteText (hit : List Char → Option (List β × Nat)) (keep : Char → List β) :
    Nat → List Char → List β
  | _, [] => []
  | skip + 1, _ :: cs => rewriteText hit keep skip cs
  | 0, c :: cs =>
    match hit (c :: cs) with
    | none => keep c ++ rewriteText hit keep 0 cs
    | some (out,more) => out ++ rewriteText hit keep more cs

end Rewrite

/-- `strings.Replacer`: of the texts that stand at a place, the first pair counts. -/
def replaceAll (pairs : List (List Char × List Char)) (cs : List Char) : List Char :=
  rewriteText (fun cs => (pairs.find? (·.1.isPrefixOf cs)).map fun q => (q.2,q.1.length - 1))
    (fun c => [c]) 0 cs

/-- A regular expression `opening([^\$]+)closing`. -/
structure Pattern where
  opening : List Char
  closing : Char

namespace Pattern

def wrap (p : Pattern) (m : List Char) : List Char := p.opening ++ (m ++ [p.closing])

def tail (p : Pattern) (cs : List Char) : List Char :=
  (cs.takeWhile (· ≠ '$')).rdropWhile (· ≠ p.closing)

/-- The group of a match at the start of a text, which is as long as it can be. -/
def matchAt (p : Pattern) (cs : List Char) : Option (List Char) :=
  if p.opening <+: cs then
    let closed := p.tail (cs.drop p.opening.length)
    if 2 ≤ closed.length then some closed.dropLast else none
  else none

def findAll (p : Pattern) (cs : List Char) : List (List Char) :=
  rewriteText (fun cs => (p.matchAt cs).map fun m => ([m],(p.wrap m).length - 1))
    (fun _ => []) 0 cs

variable {p : Pattern} {cs m n rest : List Char} {o : Char} {os : List Char}

variable {vars : List (List Char × List Char)}

end Pattern

end Madmail.Lib
