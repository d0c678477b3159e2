import Madmail.Config.Environment

namespace Madmail.Proofs.EnvRefs
open Lib Cfgparser Msgpipeline.Config List Function

def Braceless (s : String) : Prop := '{' ∉ s.toList ∧ '}' ∉ s.toList

def valueFor (env : Environ) (name : String) : Option String :=
  (env.find? (·.1 = name)).map Prod.snd

/-- A part of a name or argument: text, or a reference to a variable. -/
inductive Piece (env : Environ) where
  | text (s : String) (free : Braceless s)
  | ref (name : String) (apart : Braceless name) (dollar : '$' ∉ name.toList)
      (free : ∀ value, valueFor env name = some value → Braceless value)

variable {env : Environ}

namespace Piece

def written : Piece env → List Char
  | text s _ => s.toList
  | ref name .. => unixEnvvarRe.wrap name.toList

def value : Piece env → List Char
  | text s _ => s.toList
  | ref name .. => (valueFor env name).elim [] String.toList

def Unset : Piece env → Prop
  | text .. => False
  | ref name .. => valueFor env name = none

def Nameless : Piece env → Prop
  | text .. => False
  | ref name .. => name = ""

instance : (p : Piece env) → Decidable p.Unset
  | text .. => inferInstanceAs (Decidable False)
  | ref .. => inferInstanceAs (Decidable (_ = none))

end Piece

/-- An unset reference comes before a dollar sign. -/
def UnsetAhead : List (Piece env) → Prop
  | [] => False
  | p :: rest => p.Unset ∨ '$' ∉ p.value ∧ UnsetAhead rest

/-- There is no text between unset references, unless there is a dollar sign in it, and none
of them stands alone with an empty name. The flag says that one comes before, with no dollar
sign since. -/
def Clean : Prop → List (Piece env) → Prop
  | _, [] => True
  | opened, p :: rest =>
    (opened ∧ '$' ∉ p.value ∧ UnsetAhead rest → p.value = []) ∧
      (p.Unset ∧ p.Nameless → opened ∨ UnsetAhead rest) ∧
      Clean (p.Unset ∨ opened ∧ '$' ∉ p.value) rest

namespace Piece

end Piece

/-- The text is right just if the pieces are clean. If it is not, it shows a reference or has
lost something. -/
structure Left (opened : Prop) (ps : List (Piece env)) (out : List Char) : Prop where
  iff : out = ps.flatMap Piece.value ↔ Clean opened ps
  bound : '\x7b' ∈ out ∨ out.length ≤ (ps.flatMap Piece.value).length

namespace Left
variable {p : Piece env} {ps : List (Piece env)} {opened : Prop} {out : List Char}

theorem kept (hset : ¬ p.Unset) (hquiet : ¬ (opened ∧ '$' ∉ p.value ∧ UnsetAhead ps))
    (h : Left (opened ∧ '$' ∉ p.value) ps out) : Left opened (p :: ps) (p.value ++ out) where
  iff := by simp [Clean,hset,hquiet,h.iff]
  bound := by
    rcases h.bound with hopen | hlen
    · exact .inl (mem_append_right _ hopen)
    · right
      simpa using hlen

theorem unset (hunset : p.Unset) (hnil : p.value = [])
    (hname : p.Nameless → opened ∨ UnsetAhead ps) (h : Left True ps out) :
    Left opened (p :: ps) out where
  iff := by
    have hclean : Clean opened (p :: ps) ↔ Clean True ps := by
      simpa [Clean,hunset,hnil] using fun _ => hname
    rw [hclean,← h.iff,flatMap_cons,hnil,nil_append]
  bound := by simpa [hnil] using h.bound

theorem lost (hset : ¬ p.Unset) (hd : '$' ∉ p.value) (hahead : UnsetAhead ps)
    (hbraces : '\x7b' ∉ (p :: ps).flatMap Piece.value) (h : Left True ps out) :
    Left True (p :: ps) out where
  iff := by
    have hclean : Clean True (p :: ps) ↔ p.value = [] ∧ Clean True ps := by
      simp [Clean,hset,hd,hahead]
    rw [hclean,← h.iff,flatMap_cons]
    constructor
    · intro he
      have hlen : out.length ≤ (ps.flatMap Piece.value).length :=
        h.bound.resolve_left fun hopen => hbraces (by rw [flatMap_cons,← he]; exact hopen)
      have hnil : p.value = [] := by
        rw [he,length_append] at hlen
        exact length_eq_zero_iff.mp (by omega)
      rw [hnil,nil_append] at he
      exact ⟨hnil,he⟩
    · rintro ⟨hnil,he⟩
      rw [hnil,he,nil_append]
  bound := by
    rcases h.bound with hopen | hlen
    · exact .inl hopen
    · right
      rw [flatMap_cons,length_append]
      omega

end Left

end Madmail.Proofs.EnvRefs
