import Madmail.Lib.Runs
import Madmail.Endpoint.Sessions
import Mathlib.Algebra.GroupWithZero.Nat

namespace Madmail.Proofs.SessionCount
open Exterrors Lib Smtp Madmail.Module List

def isOpen : Place → Bool
  | .opened _ => true
  | _ => false

def isRefused : Place → Bool
  | .refused _ => true
  | _ => false

def openSessions (w : Sessions) : Nat := w.places.countP isOpen

def refusedSessions (w : Sessions) : Nat := w.places.countP isRefused

/-- How a place changes in one step, and what is added to the counter. -/
inductive Moves : Place → Place → Int → Prop where
  | failed : Moves (.checking c) (.failing c e) 0
  | passed : Moves (.checking c) (.passed c) 0
  | refused : Moves (.failing c e) (.refused reply) (-1)
  | opened : Moves (.passed c) (.opened c) 1
  | served : Moves (.opened c) (.opened c') 0
  | ended : Moves (.opened c) .loggedOut (-1)

inductive Steps (w : Sessions) : Sessions → Prop where
  | begun : Steps w { w with places := w.places ++ [.checking c] }
  | moved (hi : w.places[i]? = some p) (hm : Moves p p' d)
      (hcnt : cnt = w.sessionCnt + Int32.ofInt d) : Steps w ⟨cnt,w.places.set i p'⟩

variable {endp : Endpoint} {w w' : Sessions}

theorem step_cases (h : w.step endp a = some w') : Steps w w' := by
  have hzero : w.sessionCnt = w.sessionCnt + Int32.ofInt 0 := by simp
  have hone : (1 : Int32) = Int32.ofInt 1 := by decide
  have hminus : (-1 : Int32) = Int32.ofInt (-1) := by decide
  cases a with
  | newSession conn =>
    cases h
    exact .begun
  | checked i err =>
    simp only [Sessions.step] at h
    split at h
    · rename_i c e hi
      cases h
      exact .moved hi .failed hzero
    · rename_i c hi
      cases h
      exact .moved hi .passed hzero
    · cases h
  | proceed i =>
    simp only [Sessions.step] at h
    split at h
    · rename_i c e hi
      rw [← Option.some.inj h]
      exact .moved hi .refused (by rw [hminus])
    · rename_i c hi
      rw [← Option.some.inj h]
      exact .moved hi .opened (by rw [hone])
    · cases h
  | command i input =>
    simp only [Sessions.step] at h
    split at h
    · rename_i c hi
      split at h
      · rw [← Option.some.inj h]
        exact .moved hi .ended (by rw [hminus])
      · cases h
        exact .moved hi .served hzero
    · cases h

def weight (p : Place) : Int := ((isOpen p).toNat : Int) - (isRefused p).toNat

theorem moves_weight (h : Moves p p' d) : weight p' = weight p + d := by
  cases h <;> rfl

theorem countP_set_add {l : List α} (hi : l[i]? = some p) (x : α) :
    (l.set i x).countP q + (q p).toNat = l.countP q + (q x).toNat := by
  obtain ⟨hlt,hp⟩ := List.getElem?_eq_some_iff.mp hi
  rw [countP_set hlt,hp]
  cases hq : q p with
  | false => cases q x <;> simp
  | true =>
    have hpos : 0 < l.countP q := countP_pos_iff.mpr ⟨p,hp ▸ getElem_mem hlt,hq⟩
    cases q x <;> simp <;> omega

/-- Every refused call takes one off the count of the open sessions. -/
def Counted (w : Sessions) : Prop :=
  w.sessionCnt = Int32.ofInt ((openSessions w : Int) - refusedSessions w)

theorem step_counted (hw : Counted w) (h : w.step endp a = some w') : Counted w' := by
  unfold Counted openSessions refusedSessions at *
  cases step_cases h with
  | begun => simpa [isOpen,isRefused] using hw
  | @moved i p p' d cnt hi hm hcnt =>
    have hopen := countP_set_add (q := isOpen) hi p'
    have hrefused := countP_set_add (q := isRefused) hi p'
    have hweight := moves_weight hm
    unfold weight at hweight
    rw [hcnt,hw,← Int32.ofInt_add]
    apply congrArg Int32.ofInt
    simp only
    omega

theorem run_counted (h : run (Sessions.step endp) {} acts = some w) : Counted w := by
  have hfirst : Counted {} := by
    unfold Counted
    decide
  exact run_keeps (fun _ _ _ _ _ hs hw => step_counted hw hs) hfirst h

/-- The counter is right exactly if the number of refused calls is a multiple of
2^32 and the number of sessions can be counted at all. -/
theorem session_count_iff (endp : Endpoint) (acts : List Sessions.Action) (w : Sessions)
    (h : run (Sessions.step endp) {} acts = some w) :
    (w.connectionCount = openSessions w ∧ 0 ≤ w.connectionCount ∧
        (openSessions w = 0 → w.connectionCount = 0)) ↔
      2 ^ 32 ∣ refusedSessions w ∧ openSessions w < 2 ^ 31 := by
  have hcount : w.connectionCount =
      ((openSessions w : Int) - refusedSessions w).bmod (2 ^ 32) := by
    rw [Sessions.connectionCount,run_counted h,Int32.toInt_ofInt]
    rfl
  have hiff : w.connectionCount = openSessions w ↔
      2 ^ 32 ∣ refusedSessions w ∧ openSessions w < 2 ^ 31 := by
    rw [hcount,Int.bmod_eq_iff (by decide)]
    omega
  rw [← hiff]
  constructor
  · exact fun hall => hall.1
  · intro heq
    refine ⟨heq,?_,?_⟩
    · rw [heq]
      exact Int.natCast_nonneg _
    · intro hnone
      rw [heq,hnone]
      rfl

def blocked : Err := .leaf "early check failed" none

def client : ConnState := { hostname := "client.example", remoteIP := none, authUser := "" }

theorem one_session_counted :
    ∃ w, run (Sessions.step .plain) {} [.newSession client,.checked 0 none,.proceed 0] = some w ∧
      openSessions w = 1 ∧ w.connectionCount = openSessions w := by
  refine ⟨_,rfl,rfl,?_⟩
  exact ((session_count_iff .plain [.newSession client,.checked 0 none,.proceed 0] _ rfl).mpr
    ⟨by decide,by decide⟩).1

/-- One client that an early check refuses. -/
theorem refused_session_counted :
    ∃ w, run (Sessions.step .plain) {}
        [.newSession client,.checked 0 (some blocked),.proceed 0] = some w ∧
      openSessions w = 0 ∧ w.connectionCount = -1 :=
  ⟨_,rfl,rfl,by decide⟩

end Madmail.Proofs.SessionCount
