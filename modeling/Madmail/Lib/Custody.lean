import Mathlib.Data.List.Basic

namespace Madmail.Lib.Custody
variable {ε : Type} {close : ε} {calls more : List ε} {made held : Prop}

/-- The last call on an object closes it, and no earlier one does. -/
def ClosedOnce (close : ε) (calls : List ε) : Prop :=
  ∃ before, calls = before ++ [close] ∧ close ∉ before

/-- An object is open as long as its owner holds it, and was closed once when
its owner does not. -/
def InOrder (close : ε) (made held : Prop) (calls : List ε) : Prop :=
  (held → close ∉ calls) ∧ (made → ¬ held → ClosedOnce close calls)

theorem ClosedOnce.mem (h : ClosedOnce close calls) : close ∈ calls := by
  obtain ⟨before,rfl, -⟩ := h
  simp

@[simp]
theorem closedOnce_concat : ClosedOnce close (calls ++ [close]) ↔ close ∉ calls := by
  constructor
  · rintro ⟨before,he,hn⟩
    rwa [List.append_cancel_right he]
  · exact fun hn => ⟨calls,rfl,hn⟩

theorem inOrder_held (hh : held) : InOrder close made held calls ↔ close ∉ calls :=
  ⟨fun h => h.1 hh,fun hn => ⟨fun _ => hn,fun _ hnot => absurd hh hnot⟩⟩

theorem inOrder_given_up (hm : made) (hh : ¬ held) :
    InOrder close made held calls ↔ ClosedOnce close calls :=
  ⟨fun h => h.2 hm hh,fun hc => ⟨fun h => absurd h hh,fun _ _ => hc⟩⟩

theorem inOrder_absent (hm : ¬ made) (hh : ¬ held) : InOrder close made held calls :=
  ⟨fun h => absurd h hh,fun h => absurd h hm⟩

/-- Calls on an object that is held, or that was lost before it was closed,
neither put it in order nor out of it. -/
theorem inOrder_use (hmore : close ∉ more) (huse : more = [] ∨ held ∨ close ∉ calls) :
    InOrder close made held (calls ++ more) ↔ InOrder close made held calls := by
  by_cases hh : held
  · simp [inOrder_held hh,hmore]
  · by_cases hm : made
    · rw [inOrder_given_up hm hh,inOrder_given_up hm hh]
      rcases huse with rfl | h | hn
      · rw [List.append_nil]
      · exact absurd h hh
      · refine iff_of_false (fun h => ?_) (fun h => hn h.mem)
        rcases List.mem_append.mp h.mem with h | h
        · exact hn h
        · exact hmore h
    · exact iff_of_true (inOrder_absent hm hh) (inOrder_absent hm hh)

end Madmail.Lib.Custody
