import Madmail.Proofs.QuotaStore
import Madmail.Proofs.RowSteps

namespace Madmail.Proofs.PruneRace
open Lib Imapsql QuotaStore RowSteps List Function

variable {w w' : Rows} {a : RowAction} {u : String}

def remaining : Prune → List String
  | .waiting => []
  | .next rest | .back _ rest | .auth _ rest => rest

def Completed (calls : List RowCall) (u : String) : Prop :=
  ∃ (i : Nat) (st : Stage), calls[i]? = some ⟨.updateFirstLogin u,st⟩ ∧ completed st = true

def Begins (u : String) (w : Rows) : RowAction → Prop
  | .deleteRow _ => ∃ rest, w.prune = .next (u :: rest)
  | _ => False

/-- The step completes an `UpdateFirstLogin` for an account that has been selected, or
selects one for which that has been done. -/
def Overtakes (u : String) (w : Rows) : RowAction → Prop
  | .save i _ false =>
    u ∈ remaining w.prune ∧ ∃ row, w.calls[i]? = some ⟨.updateFirstLogin u,.read row⟩
  | .select cutoff order false =>
    u ∈ order ∧ w.store.unused cutoff u = true ∧ Completed w.calls u
  | _ => False

/-- The prune leaves alone the accounts whose `UpdateFirstLogin` has completed. -/
def Spares (w : Rows) (a : RowAction) : Prop :=
  ∀ u, ¬ (Completed w.calls u ∧ Begins u w a)

/-- No `UpdateFirstLogin` completes between the selection of its account and its
deletion, and none is selected after one has. -/
def Window (w : Rows) (a : RowAction) : Prop := ∀ u, ¬ Overtakes u w a

section Steps
variable {i : Nat} {op : RowOp} {st st' : Stage} {s s' : Storage} {v : String} {now : Int}
  {fault : Bool}

/-- The selected accounts have rows, and each is there once. -/
structure Sound (w : Rows) : Prop where
  rows : ∀ v ∈ remaining w.prune, w.store.quotas v ≠ none
  once : (remaining w.prune).Nodup

theorem completed_set (hc : calls[i]? = some ⟨op,st⟩) (hopen : completed st = false) :
    Completed (calls.set i ⟨op,st'⟩) u ↔
      Completed calls u ∨ (op = .updateFirstLogin u ∧ completed st' = true) := by
  have hi : i < calls.length := (List.getElem?_eq_some_iff.mp hc).1
  constructor
  · intro ⟨j,st,hj,hst⟩
    by_cases hij : i = j
    · subst hij
      rw [getElem?_set_self hi] at hj
      cases hj
      exact .inr ⟨rfl,hst⟩
    · rw [getElem?_set_ne hij] at hj
      exact .inl ⟨j,st,hj,hst⟩
  · intro h
    obtain ⟨j,st,hj,hst⟩ | ⟨hlogin,hst⟩ := h
    · refine ⟨j,st,?_,hst⟩
      rw [getElem?_set_ne,hj]
      intro hij
      subst hij
      cases hc.symm.trans hj
      rw [hst] at hopen
      cases hopen
    · refine ⟨i,st',?_,hst⟩
      rw [getElem?_set_self hi,hlogin]

theorem putRow_rows (h : s.quotas v ≠ none) : (s.putRow u row).quotas v ≠ none := by
  unfold Storage.putRow
  dsimp only
  by_cases huv : v = u
  · rw [huv,update_self]
    exact nofun
  · rw [update_of_ne huv]
    exact h

theorem writes_rows (h : Writes s now op st fault s' st') (hv : s.quotas v ≠ none) :
    s'.quotas v ≠ none := by
  cases h with
  | fails op row => exact hv
  | conflict u hrow => exact hv
  | _ => exact putRow_rows hv

/-- What a step does to the accounts that are to be deleted after a login. -/
structure Marks (w w' : Rows) (a : RowAction) : Prop where
  sound : Sound w'
  late : ∀ v, (v ∈ remaining w'.prune ∧ Completed w'.calls v) ↔
    ((v ∈ remaining w.prune ∧ Completed w.calls v) ∧ ¬ (Completed w.calls v ∧ Begins v w a)) ∨
      Overtakes v w a

theorem marks_of_same (hw : Sound w) (hprune : remaining w'.prune = remaining w.prune)
    (hcalls : w'.calls = w.calls) (hrows : w'.store.quotas = w.store.quotas)
    (hbegins : ∀ v, ¬ Begins v w a) (hover : ∀ v, ¬ Overtakes v w a) : Marks w w' a := by
  constructor
  · constructor
    · rw [hprune,hrows]
      exact hw.rows
    · rw [hprune]
      exact hw.once
  · intro v
    rw [hprune,hcalls]
    constructor
    · exact fun h => .inl ⟨h,fun h => hbegins v h.2⟩
    · intro h
      obtain h | h := h
      · exact h.1
      · exact absurd h (hover v)

theorem marks_of_call (hw : Sound w) (hprune : w'.prune = w.prune)
    (hc : w.calls[i]? = some ⟨op,st⟩) (hopen : completed st = false)
    (hcalls : w'.calls = w.calls.set i ⟨op,st'⟩)
    (hrows : ∀ v, w.store.quotas v ≠ none → w'.store.quotas v ≠ none)
    (hbegins : ∀ v, ¬ Begins v w a)
    (hover : ∀ v ∈ remaining w.prune,
      (op = .updateFirstLogin v ∧ completed st' = true) ↔ Overtakes v w a)
    (hin : ∀ v, Overtakes v w a → v ∈ remaining w.prune) : Marks w w' a := by
  constructor
  · constructor
    · intro v hv
      rw [hprune] at hv
      exact hrows v (hw.rows v hv)
    · rw [hprune]
      exact hw.once
  · intro v
    rw [hprune,hcalls,completed_set hc hopen]
    constructor
    · intro ⟨hv,hdone⟩
      obtain hdone | hdone := hdone
      · exact .inl ⟨⟨hv,hdone⟩,fun h => hbegins v h.2⟩
      · exact .inr ((hover v hv).mp hdone)
    · intro h
      obtain ⟨⟨hv,hdone⟩, -⟩ | h := h
      · exact ⟨hv,.inl hdone⟩
      · exact ⟨hin v h,.inr ((hover v (hin v h)).mpr h)⟩

theorem marks_of_deleteRow (hw : Sound w) (hprune : w.prune = .next (u :: rest)) :
    Marks w
      { w with
        store := if fault then w.store else w.store.deleteRow u
        prune := .back u rest } (.deleteRow fault) := by
  have hrows := hw.rows
  have honce := hw.once
  rw [hprune] at hrows honce
  obtain ⟨hu,hrest⟩ := nodup_cons.mp honce
  constructor
  · refine ⟨fun v hv => ?_,hrest⟩
    have hrow := hrows v (mem_cons_of_mem _ hv)
    split
    · exact hrow
    · unfold Storage.deleteRow
      dsimp only
      rw [update_of_ne]
      · exact hrow
      · intro h
        subst h
        exact hu hv
  · intro v
    rw [hprune]
    constructor
    · intro h
      obtain ⟨hv,hdone⟩ := h
      refine .inl ⟨⟨mem_cons_of_mem _ hv,hdone⟩,?_⟩
      intro h
      obtain ⟨-,rest',hnext⟩ := h
      rw [hprune] at hnext
      cases hnext
      exact hu hv
    · intro h
      obtain ⟨⟨hv,hdone⟩,hnot⟩ | h := h
      · obtain hv | hv := mem_cons.mp hv
        · subst hv
          exact absurd ⟨hdone,rest,hprune⟩ hnot
        · exact ⟨hv,hdone⟩
      · exact h.elim

theorem marks_of_save (hw : Sound w) (hc : w.calls[i]? = some ⟨op,st⟩)
    (hwrites : Writes w.store now op st fault s' st') :
    Marks w { w with store := s', calls := w.calls.set i ⟨op,st'⟩ } (.save i now fault) := by
  refine marks_of_call hw rfl hc (open_of_writes hwrites) rfl
    (fun v hv => writes_rows hwrites hv) (fun v h => h) (fun v hv => ?_) (fun v h => ?_)
  · constructor
    · intro h
      obtain ⟨hlogin,hdone⟩ := h
      subst hlogin
      cases hwrites with
      | fails op row => cases hdone
      | login u row => exact ⟨hv,some row,hc⟩
    · intro h
      cases fault with
      | true => exact h.elim
      | false =>
        obtain ⟨-,row,hrow⟩ := h
        cases hc.symm.trans hrow
        cases hwrites with
        | login u row => exact ⟨rfl,rfl⟩
  · cases fault with
    | true => exact h.elim
    | false => exact h.1

theorem marks_of_select (hprune : w.prune = .waiting) (horder : order.Nodup) :
    Marks w { w with prune := .next (order.filter (w.store.unused cutoff)) }
      (.select cutoff order false) := by
  constructor
  · refine ⟨fun v hv hnone => ?_,horder.filter _⟩
    obtain ⟨-,hunused⟩ := mem_filter.mp hv
    unfold Storage.unused at hunused
    rw [hnone] at hunused
    cases hunused
  · intro v
    rw [hprune]
    constructor
    · intro h
      obtain ⟨hv,hdone⟩ := h
      obtain ⟨hv,hunused⟩ := mem_filter.mp hv
      exact .inr ⟨hv,hunused,hdone⟩
    · intro h
      obtain h | ⟨hv,hunused,hdone⟩ := h
      · cases h.1.1
      · exact ⟨mem_filter.mpr ⟨hv,hunused⟩,hdone⟩

theorem marks_of_step (hw : Sound w) (h : w.step a = some w') : Marks w w' a := by
  cases steps_of_step h with
  | createUser i fault s' u st hc hst hrows husers =>
    refine marks_of_call hw rfl hc rfl rfl (fun v hv => ?_) (fun v h => h)
      (fun v _ => ⟨fun h => ?_,fun h => h.elim⟩) (fun v h => h.elim)
    · rw [hrows]
      exact hv
    · cases h.1
  | read i fault op st st' hc hreads =>
    refine marks_of_call hw rfl hc (open_of_reads hreads) rfl (fun v hv => hv) (fun v h => h)
      (fun v hv => ⟨fun h => ?_,fun h => h.elim⟩) (fun v h => h.elim)
    obtain ⟨hlogin,hdone⟩ := h
    subst hlogin
    cases hreads with
    | fails op st hst => cases hdone
    | noRow u hnone => exact (hw.rows v hv) hnone
    | row u row hrow => cases hdone
  | save i now fault op st st' s' hc hwrites => exact marks_of_save hw hc hwrites
  | select cutoff order fault hprune horder =>
    cases fault with
    | true =>
      refine marks_of_same hw ?_ rfl rfl (fun v h => h) (fun v h => h)
      rw [hprune]
      rfl
    | false => exact marks_of_select hprune horder
  | deleteRow fault u rest hprune => exact marks_of_deleteRow hw hprune
  | notDeleted fault u rest hprune | deleteAuth fault u rest db hprune =>
    refine marks_of_same hw ?_ rfl rfl (fun v h => h) (fun v h => h)
    rw [hprune]
    rfl
  | deleteBack fault u rest after hprune hafter =>
    refine marks_of_same hw ?_ rfl rfl (fun v h => h) (fun v h => h)
    rw [hprune]
    obtain hafter | hafter := hafter <;> rw [hafter] <;> rfl
  | commit d =>
    obtain ⟨_,_,_,hd⟩ := commit_frame w.store d
    exact marks_of_same hw rfl rfl (hd ▸ rfl) (fun v h => h) (fun v h => h)

end Steps

section Kept

def Deleting (u : String) : Prune → Prop
  | .back v _ | .auth v _ => v = u
  | _ => False

theorem completed_kept (hdone : Completed w.calls u) (h : w.step a = some w') :
    Completed w'.calls u := by
  cases steps_of_step h with
  | createUser i fault s' u st hc => exact (completed_set hc rfl).mpr (.inl hdone)
  | read i fault op st st' hc hreads =>
    exact (completed_set hc (open_of_reads hreads)).mpr (.inl hdone)
  | save i now fault op st st' s' hc hwrites =>
    exact (completed_set hc (open_of_writes hwrites)).mpr (.inl hdone)
  | _ => exact hdone

theorem account_kept (hidle : ¬ Deleting u w.prune) (hbegins : ¬ Begins u w a)
    (hu : w.store.users u = true) (h : w.step a = some w') :
    ¬ Deleting u w'.prune ∧ w'.store.users u = true := by
  cases steps_of_step h with
  | createUser i fault s' v st hc hst hrows husers => exact ⟨hidle,husers u hu⟩
  | read i fault op st st' hc hreads => exact ⟨hidle,hu⟩
  | save i now fault op st st' s' hc hwrites =>
    exact ⟨hidle,(congrFun (users_of_writes hwrites) u).trans hu⟩
  | deleteRow fault v rest hprune =>
    refine ⟨fun h => hbegins ⟨rest,?_⟩,?_⟩
    · cases h
      exact hprune
    · split <;> exact hu
  | deleteBack fault v rest after hprune hafter =>
    have hne : u ≠ v := by
      intro heq
      rw [hprune] at hidle
      exact hidle heq.symm
    refine ⟨?_,(update_of_ne hne ..).trans hu⟩
    obtain hafter | hafter := hafter <;> rw [hafter]
    · exact fun h => hne h.symm
    · exact fun h => h
  | commit d =>
    obtain ⟨_,_,_,hd⟩ := commit_frame w.store d
    exact ⟨hidle,by simpa [hd] using hu⟩
  | _ => exact ⟨fun h => h,hu⟩

end Kept

/-- The accounts whose `UpdateFirstLogin` completed before the prune came to them are
there at the end of the run. -/
def LoginsKept (start : Rows) (acts : List RowAction) (w : Rows) : Prop :=
  ∀ before after w₁ u, acts = before ++ after → run Rows.step start before = some w₁ →
    Completed w₁.calls u → ¬ Deleting u w₁.prune → w₁.store.users u = true →
    w.store.users u = true

theorem kept_of_spares (hrun : run Rows.step start acts = some w)
    (hm : Meets Rows.step Spares start acts) : LoginsKept start acts w := by
  intro before after w₁ u hacts hbefore hdone hidle hu
  subst hacts
  rw [run_append hbefore] at hrun
  have hkept := run_invariant_of_meets
    (P := fun w => Completed w.calls u ∧ ¬ Deleting u w.prune ∧ w.store.users u = true)
    (fun w a w' hw hspares hstep =>
      ⟨completed_kept hw.1 hstep,
        account_kept hw.2.1 (fun hb => hspares u ⟨hw.1,hb⟩) hw.2.2 hstep⟩)
    ⟨hdone,hidle,hu⟩ (meets_rest hbefore hm) hrun
  exact hkept.2.2

/-- In every run in which the prune gets to its end, it does not begin to delete
accounts whose `UpdateFirstLogin` has completed exactly if none completes after the
selection, and these accounts are then all kept. -/
theorem prune_spares_iff (start : Rows) (hstart : start.prune = .waiting) (acts : List RowAction)
    (hrun : run Rows.step start acts = some w) (hend : w.prune = .next []) :
    (Meets Rows.step Spares start acts ↔ Meets Rows.step Window start acts) ∧
      (Meets Rows.step Window start acts → LoginsKept start acts w) := by
  have hsound : Sound start := by
    constructor
    · rw [hstart]
      exact nofun
    · rw [hstart]
      exact nodup_nil
  have hiff : Meets Rows.step Spares start acts ↔ Meets Rows.step Window start acts := by
    unfold Spares Window
    rw [meets_forall,meets_forall]
    refine forall_congr' fun u => ?_
    refine meets_iff_of_mark (Q := fun w => u ∈ remaining w.prune ∧ Completed w.calls u)
      (fun w a w' hw hstep => (marks_of_step hw hstep).sound)
      (fun w a w' hw hstep => (marks_of_step hw hstep).late u) ?_ hsound ?_ hrun ?_
    · intro w a hw ⟨hdone,hbegins⟩
      cases a with
      | deleteRow fault =>
        obtain ⟨rest,hprune⟩ := hbegins
        rw [hprune]
        exact ⟨mem_cons_self,hdone⟩
      | _ => exact hbegins.elim
    · rw [hstart]
      exact fun h => by cases h.1
    · rw [hend]
      exact fun h => by cases h.1
  exact ⟨hiff,fun hm => kept_of_spares hrun (hiff.mpr hm)⟩

def twoUnused : Rows where
  store :=
    { emptyServer with
      users := fun v => v = "ann@mail.example" ∨ v = "bob@mail.example"
      quotas := fun v =>
        if v = "ann@mail.example" ∨ v = "bob@mail.example" then
          some { createdAt := 10, firstLoginAt := 1 }
        else none }
  calls := [⟨.updateFirstLogin "bob@mail.example",.start⟩]

def selectBoth : RowAction := .select 50 ["ann@mail.example","bob@mail.example"] false

def loginFirst : List RowAction :=
  [.read 0 false,.save 0 100 false,selectBoth,.deleteRow false,.deleteBack false]

theorem login_first_kept :
    ∃ w, run Rows.step twoUnused loginFirst = some w ∧ LoginsKept twoUnused loginFirst w := by
  obtain ⟨w,hrun,hend⟩ : ∃ w, run Rows.step twoUnused loginFirst = some w ∧ w.prune = .next [] :=
    ⟨_,rfl,by decide⟩
  refine ⟨w,hrun,(prune_spares_iff twoUnused rfl loginFirst hrun hend).2 ?_⟩
  refine ⟨fun u h => h,fun w₁ h₁ => ⟨?_,fun w₂ h₂ => ⟨?_,fun w₃ _ => ⟨fun u h => h,fun w₄ _ =>
    ⟨fun u h => h,fun _ _ => trivial⟩⟩⟩⟩⟩
  · cases h₁
    exact fun u h => by cases h.1
  · cases h₁
    cases h₂
    intro u ⟨_,hunused,i,st,hi,_⟩
    match i, hi with
    | 0, hi =>
      cases hi
      cases hunused

/-- The login comes after the selection and before the turn of its account, which is
deleted all the same. -/
theorem login_overtaken :
    ¬ ∀ (start w₁ w : Rows) (before after : List RowAction) (u : String),
      start.prune = .waiting → run Rows.step start before = some w₁ → Completed w₁.calls u →
      (∃ rest, w₁.prune = .next (u :: rest)) → w₁.store.users u = true →
      run Rows.step w₁ after = some w → w.store.users u = true := by
  intro h
  obtain ⟨w₁,hbefore,hcalls,hprune,huser⟩ : ∃ w₁, run Rows.step twoUnused
      [selectBoth,.deleteRow false,.deleteBack false,.read 0 false,.save 0 100 false] = some w₁ ∧
      w₁.calls = [⟨.updateFirstLogin "bob@mail.example",.saved⟩] ∧
      w₁.prune = .next ["bob@mail.example"] ∧ w₁.store.users "bob@mail.example" = true :=
    ⟨_,rfl,by decide,by decide,by decide⟩
  obtain ⟨w,hafter,hgone⟩ : ∃ w, run Rows.step w₁ [.deleteRow false,.deleteBack false] = some w ∧
      w.store.users "bob@mail.example" = false := by
    cases hbefore
    exact ⟨_,rfl,by decide⟩
  have hkept := h twoUnused w₁ w _ _ "bob@mail.example" rfl hbefore
    ⟨0,.saved,by rw [hcalls]; rfl,rfl⟩ ⟨[],hprune⟩ huser hafter
  rw [hgone] at hkept
  cases hkept

end Madmail.Proofs.PruneRace
