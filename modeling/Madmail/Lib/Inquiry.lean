import Mathlib.Logic.Basic

namespace Madmail.Lib.Inquiry

/-- Members that are asked about items, in groups: who is known, who was asked
about what, and which items have come up. -/
@[ext]
structure Table (κ ι : Type) where
  known : κ → Prop
  asked : κ → ι → Prop
  seen : ι → Prop

structure Round (κ ι : Type) where
  group : List κ
  item : ι

namespace Table
variable {κ ι : Type}

/-- Nobody is asked twice. If the group has a member that is not known, all of
it is asked about what has come up before. -/
def Asks (t : Table κ ι) (r : Round κ ι) (k : κ) (x : ι) : Prop :=
  k ∈ r.group ∧ ¬ t.asked k x ∧ (x = r.item ∨ (∃ new ∈ r.group, ¬ t.known new) ∧ t.seen x)

def next (t : Table κ ι) (r : Round κ ι) : Table κ ι :=
  { known := fun k => t.known k ∨ k ∈ r.group
    asked := fun k x => t.asked k x ∨ t.Asks r k x
    seen := fun x => t.seen x ∨ x = r.item }

def Questions : Table κ ι → List (Round κ ι) → κ → ι → Prop
  | _, [], _, _ => False
  | t, r :: rs, k, x => t.Asks r k x ∨ (t.next r).Questions rs k x

/-- What has come up before is asked about because of the past. Any other
question is also put, or was put, where fewer members are known and nothing else
has come up. -/
theorem questions_or_asked {P : ι → Prop} {s t : Table κ ι} (rs : List (Round κ ι))
    (hknown : ∀ k, s.known k → t.known k) (hseen : ∀ x, t.seen x → s.seen x ∨ P x)
    (hq : t.Questions rs k x) (hp : ¬ P x) : s.asked k x ∨ s.Questions rs k x := by
  induction rs generalizing s t with
  | nil => exact hq.elim
  | cons r rs ih =>
    rcases hq with ⟨hk, -,hwhy⟩ | hq
    · by_cases ha : s.asked k x
      · exact .inl ha
      · refine .inr (.inl ⟨hk,ha,hwhy.imp_right fun ⟨⟨new,hm,hn⟩,hx⟩ => ?_⟩)
        exact ⟨⟨new,hm,fun h => hn (hknown new h)⟩,(hseen x hx).resolve_right hp⟩
    · have hlater := ih (s := s.next r) (t := t.next r)
        (fun k h => h.imp_left (hknown k))
        (fun x h => h.elim (fun h => (hseen x h).imp_left .inl) (fun h => .inl (.inr h))) hq
      rcases hlater with (ha | ha) | hq
      · exact .inl ha
      · exact .inr (.inl ha)
      · exact .inr (.inr hq)

end Table

end Madmail.Lib.Inquiry
