import Madmail.Proofs.QuotaStore
import Madmail.Proofs.RowSteps

namespace Madmail.Proofs.QuotaRecord
open Lib Imapsql QuotaStore RowSteps Function List

variable {s : Storage} {w w' : Rows} {a : RowAction} {u : String} {m : Int} {st st' : Stage}

def hasLogin (row : QuotaRow) : Bool := row.firstLoginAt ≠ 0 ∧ row.firstLoginAt ≠ 1

def Recorded (w : Rows) (u : String) (m : Int) : Prop :=
  ∃ row, w.store.quotas u = some row ∧ row.maxStorage = m ∧ hasLogin row = true

def pair (u : String) (m : Int) (st st' : Stage) : List RowCall :=
  [⟨.setQuota u m,st⟩,⟨.updateFirstLogin u,st'⟩]

def RowStep : RowAction → Prop
  | .read _ _ => True
  | .save _ now _ => 1 < now
  | _ => False

/-- A call that saves its row after the other one has returned has read the row with
what the other one had to add. -/
def UpToDate (m : Int) (w : Rows) : RowAction → Prop
  | .save i _ false =>
    match w.calls, i with
    | [c,c'], 0 => completed c'.stage = true → ∀ row, c.stage = .read row →
        ∃ r, row = some r ∧ hasLogin r = true
    | [c,c'], 1 => completed c.stage = true → ∀ r, c'.stage = .read (some r) →
        r.maxStorage = m ∧ r.firstLoginAt ≠ 0
    | _, _ => True
  | _ => True

section Steps

variable (u : String) (m : Int) (s : Storage) in
inductive Moves : Stage → Stage → RowAction → Storage → Stage → Stage → Prop where
  | setFails (st st' : Stage) (a : RowAction) (h : completed st = false)
      (hok : ∀ now, a ≠ .save 0 now false) (hok' : ∀ now, a ≠ .save 1 now false) :
      Moves st st' a s .failed st'
  | setRead (st' : Stage) : Moves .start st' (.read 0 false) s (.read (s.quotas u)) st'
  | setSave (row : Option QuotaRow) (st' : Stage) (now : Int) (s' : Storage)
      (hs' : s'.quotas u = some (limitRow now m row)) :
      Moves (.read row) st' (.save 0 now false) s' .saved st'
  | loginFails (st st' : Stage) (a : RowAction) (h : completed st' = false)
      (hok : ∀ now, a ≠ .save 0 now false) (hok' : ∀ now, a ≠ .save 1 now false) :
      Moves st st' a s st .failed
  | loginRead (st : Stage) (row : QuotaRow) (h : s.quotas u = some row) :
      Moves st .start (.read 1 false) s st (.read (some row))
  | loginSkipped (st : Stage) (h : s.quotas u = none) :
      Moves st .start (.read 1 false) s st .skipped
  | loginSave (st : Stage) (row : QuotaRow) (now : Int) (hnow : 1 < now) (s' : Storage)
      (hs' : s'.quotas u = some (firstLoginRow now row)) :
      Moves st (.read (some row)) (.save 1 now false) s' st .saved

theorem moves_of_step (hcalls : w.calls = pair u m st st') (ha : RowStep a)
    (h : w.step a = some w') :
    ∃ st₁ st₁', w'.calls = pair u m st₁ st₁' ∧ Moves u m w.store st st' a w'.store st₁ st₁' := by
  cases steps_of_step h with
  | read i fault op stage stage' hc hreads =>
    rw [hcalls] at hc
    rw [hcalls]
    cases i with
    | zero =>
      cases hc
      refine ⟨stage',st',rfl,?_⟩
      cases hreads with
      | fails op st hst =>
        refine .setFails _ _ _ ?_ nofun nofun
        obtain hst | hst := hst <;> rw [hst] <;> rfl
      | limit u m => exact .setRead st'
    | succ i =>
      cases i with
      | zero =>
        cases hc
        refine ⟨st,stage',rfl,?_⟩
        cases hreads with
        | fails op st hst =>
          refine .loginFails _ _ _ ?_ nofun nofun
          obtain hst | hst := hst <;> rw [hst] <;> rfl
        | noRow u hnone => exact .loginSkipped st hnone
        | row u row hrow => exact .loginRead st row hrow
      | succ i => cases hc
  | save i now fault op stage stage' s' hc hwrites =>
    rw [hcalls] at hc
    rw [hcalls]
    cases i with
    | zero =>
      cases hc
      refine ⟨stage',st',rfl,?_⟩
      cases hwrites with
      | fails op row =>
        exact .setFails _ _ _ rfl nofun nofun
      | limit u m row => exact .setSave row st' now _ (update_self _ _ _)
    | succ i =>
      cases i with
      | zero =>
        cases hc
        refine ⟨st,stage',rfl,?_⟩
        cases hwrites with
        | fails op row =>
          exact .loginFails _ _ _ rfl nofun nofun
        | login u row => exact .loginSave st row now ha _ (update_self _ _ _)
      | succ i => cases hc
  | _ => cases ha

end Steps

section Runs

structure Current (u : String) (m : Int) (w : Rows) (st st' : Stage) : Prop where
  calls : w.calls = pair u m st st'
  row : st = .saved → w.store.quotas u ≠ none
  unread : st' ≠ .read none
  found : st ≠ .skipped

theorem moves_current (h : Current u m w st st') (ha : RowStep a) (hstep : w.step a = some w') :
    ∃ st₁ st₁', Current u m w' st₁ st₁' ∧ Moves u m w.store st st' a w'.store st₁ st₁' := by
  obtain ⟨st₁,st₁',hcalls,hm⟩ := moves_of_step h.calls ha hstep
  have hrow := h.row
  have hunread := h.unread
  have hfound := h.found
  refine ⟨st₁,st₁',⟨hcalls,?_,?_,?_⟩,hm⟩
  · generalize w'.store = s' at hm ⊢
    cases hm with
    | setFails _ _ _ hc => exact nofun
    | setRead st' => exact nofun
    | setSave row st' now s' hs' | loginSave st row now hnow s' hs' => exact fun _ => by simp [hs']
    | loginFails _ _ _ hc => exact hrow
    | loginRead st row hrow' => exact hrow
    | loginSkipped st hnone => exact hrow
  · generalize w'.store = s' at hm
    cases hm with
    | setFails _ _ _ hc | setRead st' | setSave row st' now s' hs' => exact hunread
    | _ => exact nofun
  · generalize w'.store = s' at hm
    cases hm with
    | setFails _ _ _ hc => exact nofun
    | setRead st' => exact nofun
    | setSave row st' now s' hs' => exact nofun
    | _ => exact hfound

theorem limitRow_recorded (hs : w.store.quotas u = some (limitRow now m row)) :
    Recorded w u m ↔ ∃ r, row = some r ∧ hasLogin r = true := by
  unfold Recorded
  rw [hs]
  constructor
  · intro ⟨row',heq,hmax,hlogin⟩
    cases heq
    cases row with
    | none => cases hlogin
    | some r => exact ⟨r,rfl,hlogin⟩
  · intro ⟨r,hr,hlogin⟩
    subst hr
    exact ⟨_,rfl,rfl,hlogin⟩

theorem firstLoginRow_recorded (hnow : 1 < now)
    (hs : w.store.quotas u = some (firstLoginRow now row)) :
    Recorded w u m ↔ row.maxStorage = m ∧ row.firstLoginAt ≠ 0 := by
  have hlogin : hasLogin (firstLoginRow now row) = true ↔ row.firstLoginAt ≠ 0 := by
    unfold hasLogin firstLoginRow
    rw [decide_eq_true_iff]
    dsimp only
    split <;> omega
  unfold Recorded
  rw [hs]
  constructor
  · intro ⟨row',heq,hmax,hlog⟩
    cases heq
    exact ⟨hmax,hlogin.mp hlog⟩
  · intro ⟨hmax,hne⟩
    exact ⟨_,rfl,hmax,hlogin.mpr hne⟩

theorem upToDate_set (h : w.calls = pair u m (.read row) st') :
    UpToDate m w (.save 0 now false) ↔
      (completed st' = true → ∃ r, row = some r ∧ hasLogin r = true) := by
  simp [UpToDate,h,pair]

theorem upToDate_login (h : w.calls = pair u m st (.read (some row))) :
    UpToDate m w (.save 1 now false) ↔
      (completed st = true → row.maxStorage = m ∧ row.firstLoginAt ≠ 0) := by
  simp [UpToDate,h,pair]

theorem upToDate_other (h : w.calls = pair u m st st') (hset : ∀ now, a ≠ .save 0 now false)
    (hlogin : ∀ now, a ≠ .save 1 now false) : UpToDate m w a := by
  cases a with
  | save i now fault =>
    cases fault with
    | true => trivial
    | false =>
      unfold UpToDate
      rw [h]
      match i with
      | 0 => exact absurd rfl (hset now)
      | 1 => exact absurd rfl (hlogin now)
      | i + 2 => trivial
  | _ => trivial

/-- What a step does to the record: if it ends the calls, both updates are there
exactly if the step was up to date. -/
theorem step_recorded (h : Current u m w st st') (ha : RowStep a) (hstep : w.step a = some w') :
    ∃ st₁ st₁', Current u m w' st₁ st₁' ∧
      (completed st₁ = true → completed st₁' = true → (Recorded w' u m ↔ UpToDate m w a)) ∧
      (¬ UpToDate m w a → completed st₁ = true ∧ completed st₁' = true) := by
  obtain ⟨st₁,st₁',hcur,hm⟩ := moves_current h ha hstep
  refine ⟨st₁,st₁',hcur,?_⟩
  have hcalls := h.calls
  have hrow := h.row
  have hfound := h.found
  generalize hs' : w'.store = s' at hm
  cases hm with
  | setFails st st' a hc hok hok' | loginFails st st' a hc hok hok' =>
    exact ⟨nofun,fun hno => absurd (upToDate_other hcalls hok hok') hno⟩
  | setRead st' | loginRead st row hread => exact ⟨nofun,fun hno => absurd trivial hno⟩
  | setSave row st' now s' hsaved =>
    rw [← hs'] at hsaved
    rw [upToDate_set hcalls,limitRow_recorded hsaved]
    refine ⟨fun _ hdone => ⟨fun hlogin _ => hlogin,fun h => h hdone⟩,fun hno => ⟨rfl,?_⟩⟩
    exact (Classical.not_imp.mp hno).1
  | loginSkipped st hnone =>
    refine ⟨fun hdone => ?_,fun hno => absurd trivial hno⟩
    -- there is a row once `SetQuota` has returned
    cases st with
    | saved => exact absurd hnone (hrow rfl)
    | skipped => exact absurd rfl hfound
    | _ => cases hdone
  | loginSave st row now hnow s' hsaved =>
    rw [← hs'] at hsaved
    rw [upToDate_login hcalls,firstLoginRow_recorded hnow hsaved]
    refine ⟨fun hdone _ => ⟨fun hboth _ => hboth,fun h => h hdone⟩,fun hno => ⟨?_,rfl⟩⟩
    exact (Classical.not_imp.mp hno).1

theorem no_step_of_completed (h : Current u m w st st') (hdone : completed st = true)
    (hdone' : completed st' = true) (ha : RowStep a) : w.step a = none := by
  cases hstep : w.step a with
  | none => rfl
  | some w' =>
    obtain ⟨st₁,st₁', -,hm⟩ := moves_of_step h.calls ha hstep
    generalize w'.store = s' at hm
    cases hm with
    | setFails st st' a hc =>
      rw [hc] at hdone
      cases hdone
    | loginFails st st' a hc =>
      rw [hc] at hdone'
      cases hdone'
    | setRead st' => cases hdone
    | setSave row st' now s' hs' => cases hdone
    | loginRead st row hread => cases hdone'
    | loginSkipped st hnone => cases hdone'
    | loginSave st row now hnow s' hs' => cases hdone'

end Runs

def bothCalls (s : Storage) (u : String) (m : Int) : Rows where
  store := s
  calls := pair u m .start .start

/-- After both calls the record has both updates exactly if the call that saved last
was up to date. -/
theorem updates_recorded_iff (s : Storage) (u : String) (m : Int) (acts : List RowAction)
    (hacts : ∀ a ∈ acts, RowStep a) (hrun : run Rows.step (bothCalls s u m) acts = some w)
    (hdone : ∀ c ∈ w.calls, completed c.stage = true) :
    Recorded w u m ↔ Meets Rows.step (UpToDate m) (bothCalls s u m) acts := by
  have hstart : Current u m (bothCalls s u m) .start .start :=
    ⟨rfl,nofun,nofun,nofun⟩
  have hended : ∀ st st', Current u m w st st' → completed st = true ∧ completed st' = true := by
    intro st st' hcur
    rw [hcur.calls] at hdone
    exact ⟨hdone _ mem_cons_self,hdone _ (mem_cons_of_mem _ mem_cons_self)⟩
  have hallowed : Meets Rows.step (fun _ a => RowStep a) (bothCalls s u m) acts :=
    meets_of_free fun a ha _ => hacts a ha
  constructor
  · intro hrec
    by_contra hno
    have hmarked := run_marked_of_inv
      (I := fun w => ∃ st st', Current u m w st st')
      (Q := fun w => ∃ st st', Current u m w st st' ∧ completed st = true ∧ completed st' = true ∧
        ¬ Recorded w u m)
      (fun w a w' hw ha hstep => by
        obtain ⟨st,st',hcur⟩ := hw
        obtain ⟨st₁,st₁',hcur', -⟩ := step_recorded hcur ha hstep
        exact ⟨st₁,st₁',hcur'⟩)
      (fun w a w' hw ha hbroken hstep => by
        obtain ⟨st,st',hcur⟩ := hw
        obtain ⟨st₁,st₁',hcur',hiff,hends⟩ := step_recorded hcur ha hstep
        obtain ⟨hd,hd'⟩ := hends hbroken
        exact ⟨st₁,st₁',hcur',hd,hd',fun hrec => hbroken ((hiff hd hd').mp hrec)⟩)
      (fun w a w' _ ha hq hstep => by
        obtain ⟨st,st',hcur,hd,hd', -⟩ := hq
        rw [no_step_of_completed hcur hd hd' ha] at hstep
        cases hstep)
      ⟨_,_,hstart⟩ hallowed hno hrun
    obtain ⟨st,st', -, -, -,hnot⟩ := hmarked
    exact hnot hrec
  · intro hmeets
    have hkept := run_invariant_of_meets
      (P := fun w => ∃ st st', Current u m w st st' ∧
        (completed st = true → completed st' = true → Recorded w u m))
      (fun w a w' hw ha hstep => by
        obtain ⟨st,st',hcur, -⟩ := hw
        obtain ⟨st₁,st₁',hcur',hiff, -⟩ := step_recorded hcur ha.1 hstep
        exact ⟨st₁,st₁',hcur',fun hd hd' => (hiff hd hd').mpr ha.2⟩)
      ⟨_,_,hstart,nofun⟩ (meets_and hallowed hmeets) hrun
    obtain ⟨st,st',hcur,hrec⟩ := hkept
    obtain ⟨hd,hd'⟩ := hended st st' hcur
    exact hrec hd hd'

def freshAccount : Storage :=
  { emptyServer with
    quotas := update (fun _ => none) "ann@mail.example"
      (some { createdAt := 10, firstLoginAt := 1 }) }

def inTurn : List RowAction := [.read 0 false,.save 0 100 false,.read 1 false,.save 1 100 false]

theorem updates_in_turn_recorded :
    ∃ w, run Rows.step (bothCalls freshAccount "ann@mail.example" 500) inTurn = some w ∧
      Recorded w "ann@mail.example" 500 := by
  obtain ⟨w,hrun,hcalls⟩ : ∃ w, run Rows.step (bothCalls freshAccount "ann@mail.example" 500) inTurn =
      some w ∧ w.calls = pair "ann@mail.example" 500 .saved .saved := ⟨_,rfl,by decide⟩
  refine ⟨w,hrun,(updates_recorded_iff freshAccount _ 500 inTurn ?_ hrun ?_).mpr ?_⟩
  · simp [inTurn,RowStep]
  · rw [hcalls]
    simp [pair,completed]
  · refine ⟨trivial,fun w₁ h₁ => ⟨?_,fun w₂ h₂ => ⟨trivial,fun w₃ h₃ => ⟨?_,fun _ _ => trivial⟩⟩⟩⟩
    · cases h₁
      nofun
    · cases h₁
      cases h₂
      cases h₃
      intro _ r hr
      cases hr
      decide

/-- Both calls read the row before one of them saves it: the one that saves last
takes the update of the other one back. -/
theorem update_lost :
    ¬ ∀ (s : Storage) (u : String) (m : Int) (acts : List RowAction) (w : Rows),
      (∀ a ∈ acts, RowStep a) → run Rows.step (bothCalls s u m) acts = some w →
      (∀ c ∈ w.calls, completed c.stage = true) → Recorded w u m := by
  intro h
  obtain ⟨w,hrun,hcalls,hrow⟩ : ∃ w, run Rows.step (bothCalls freshAccount "ann@mail.example" 500)
      [.read 0 false,.read 1 false,.save 0 100 false,.save 1 100 false] = some w ∧
      w.calls = pair "ann@mail.example" 500 .saved .saved ∧
      w.store.quotas "ann@mail.example" =
        some { createdAt := 10, firstLoginAt := 100, lastLoginAt := 100 } :=
    ⟨_,rfl,by decide,by decide⟩
  obtain ⟨row,hfound,hmax, -⟩ := h freshAccount "ann@mail.example" 500 _ w (by simp [RowStep]) hrun
    (by
      rw [hcalls]
      simp [pair,completed])
  rw [hrow] at hfound
  cases hfound
  cases hmax

end Madmail.Proofs.QuotaRecord
