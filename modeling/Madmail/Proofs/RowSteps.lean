import Madmail.Storage.RowCalls

namespace Madmail.Proofs.RowSteps
open Lib Imapsql

variable {s s' : Storage} {c c' : RowCall} {u : String} {now : Int} {fault : Bool}

section Calls

def completed : Stage → Bool
  | .saved | .skipped => true
  | _ => false

inductive Reads (s : Storage) : RowOp → Stage → Bool → Stage → Prop where
  | fails (op : RowOp) (st : Stage) (h : st = .start ∨ st = .created) : Reads s op st true .failed
  | limit (u : String) (m : Int) : Reads s (.setQuota u m) .start false (.read (s.quotas u))
  | noRow (u : String) (h : s.quotas u = none) : Reads s (.updateFirstLogin u) .start false .skipped
  | row (u : String) (row : QuotaRow) (h : s.quotas u = some row) :
      Reads s (.updateFirstLogin u) .start false (.read (some row))
  | noAcct (u : String) (h : s.quotas u = none) :
      Reads s (.createIMAPAcct u) .created false (.read none)
  | acct (u : String) (row : QuotaRow) (h : s.quotas u = some row) :
      Reads s (.createIMAPAcct u) .created false
        (if row.createdAt = 0 then .read (some row) else .skipped)

theorem reads_of_read (h : c.read s fault = some c') :
    c'.op = c.op ∧ Reads s c.op c.stage fault c'.stage := by
  obtain ⟨op,st⟩ := c
  unfold RowCall.read at h
  dsimp only at h
  split at h
  · cases h
    cases fault with
    | true => exact ⟨rfl,.fails _ _ (.inl rfl)⟩
    | false => exact ⟨rfl,.limit _ _⟩
  · cases fault with
    | true =>
      split at h <;> cases h <;> exact ⟨rfl,.fails _ _ (.inl rfl)⟩
    | false =>
      split at h
      · rename_i hq
        cases h
        exact ⟨rfl,.noRow _ hq⟩
      · rename_i hq
        cases h
        exact ⟨rfl,.row _ _ hq⟩
  · cases fault with
    | true =>
      split at h <;> cases h <;> exact ⟨rfl,.fails _ _ (.inr rfl)⟩
    | false =>
      split at h
      · rename_i hq
        cases h
        exact ⟨rfl,.noAcct _ hq⟩
      · rename_i hq
        cases h
        exact ⟨rfl,.acct _ _ hq⟩
  · cases h

variable (s : Storage) (now : Int) in
inductive Writes : RowOp → Stage → Bool → Storage → Stage → Prop where
  | fails (op : RowOp) (row : Option QuotaRow) : Writes op (.read row) true s .failed
  | limit (u : String) (m : Int) (row : Option QuotaRow) :
      Writes (.setQuota u m) (.read row) false
        { s.putRow u (limitRow now m row) with cache := s.cache.setMax u m } .saved
  | login (u : String) (row : QuotaRow) :
      Writes (.updateFirstLogin u) (.read (some row)) false
        (s.putRow u (firstLoginRow now row)) .saved
  | conflict (u : String) (h : s.quotas u ≠ none) :
      Writes (.createIMAPAcct u) (.read none) false s .failed
  | create (u : String) (h : s.quotas u = none) :
      Writes (.createIMAPAcct u) (.read none) false
        (s.putRow u { createdAt := now, firstLoginAt := 1 }) .saved
  | creation (u : String) (row : QuotaRow) :
      Writes (.createIMAPAcct u) (.read (some row)) false
        (s.putRow u { row with createdAt := now }) .saved

theorem writes_of_save (h : c.save s now fault = some (s',c')) :
    c'.op = c.op ∧ Writes s now c.op c.stage fault s' c'.stage := by
  obtain ⟨op,st⟩ := c
  unfold RowCall.save at h
  dsimp only at h
  split at h
  · cases fault with
    | true =>
      cases h
      exact ⟨rfl,.fails _ _⟩
    | false =>
      rw [if_neg Bool.false_ne_true] at h
      split at h
      · cases h
        exact ⟨rfl,.limit _ _ _⟩
      · cases h
        exact ⟨rfl,.login _ _⟩
      · cases h
      · split at h
        · rename_i hq
          cases h
          exact ⟨rfl,.conflict _ (Option.isSome_iff_ne_none.mp hq)⟩
        · rename_i hq
          cases h
          exact ⟨rfl,.create _ (Option.not_isSome_iff_eq_none.mp hq)⟩
      · cases h
        exact ⟨rfl,.creation _ _⟩
  · cases h

theorem open_of_reads (h : Reads s op st fault st') : completed st = false := by
  cases h with
  | fails op st hst => obtain hst | hst := hst <;> rw [hst] <;> rfl
  | _ => rfl

theorem open_of_writes (h : Writes s now op st fault s' st') : completed st = false := by
  cases h <;> rfl

theorem users_of_writes (h : Writes s now op st fault s' st') : s'.users = s.users := by
  cases h <;> rfl

theorem createUser_cases (h : c.createUser s fault = some (s',c')) :
    ∃ u st, c = ⟨.createIMAPAcct u,.start⟩ ∧ c' = ⟨.createIMAPAcct u,st⟩ ∧
      (st = .failed ∨ st = .created) ∧ s'.quotas = s.quotas ∧
      ∀ v, s.users v = true → s'.users v = true := by
  obtain ⟨op,st⟩ := c
  unfold RowCall.createUser at h
  dsimp only at h
  split at h
  · rename_i u
    split at h
    · cases h
      exact ⟨u,.failed,rfl,rfl,.inl rfl,rfl,fun v hv => hv⟩
    · cases h
      refine ⟨u,.created,rfl,rfl,.inr rfl,rfl,fun v hv => ?_⟩
      unfold Storage.addUser
      dsimp only
      rw [Function.update_apply]
      split
      · rfl
      · exact hv
  · cases h

end Calls

section Steps

inductive Steps (w : Rows) : RowAction → Rows → Prop where
  | createUser (i : Nat) (fault : Bool) (s' : Storage) (u : String) (st : Stage)
      (hc : w.calls[i]? = some ⟨.createIMAPAcct u,.start⟩) (hst : st = .failed ∨ st = .created)
      (hrows : s'.quotas = w.store.quotas)
      (husers : ∀ v, w.store.users v = true → s'.users v = true) :
      Steps w (.createUser i fault)
        { w with store := s', calls := w.calls.set i ⟨.createIMAPAcct u,st⟩ }
  | read (i : Nat) (fault : Bool) (op : RowOp) (st st' : Stage) (hc : w.calls[i]? = some ⟨op,st⟩)
      (h : Reads w.store op st fault st') :
      Steps w (.read i fault) { w with calls := w.calls.set i ⟨op,st'⟩ }
  | save (i : Nat) (now : Int) (fault : Bool) (op : RowOp) (st st' : Stage) (s' : Storage)
      (hc : w.calls[i]? = some ⟨op,st⟩) (h : Writes w.store now op st fault s' st') :
      Steps w (.save i now fault) { w with store := s', calls := w.calls.set i ⟨op,st'⟩ }
  | select (cutoff : Int) (order : List String) (fault : Bool) (hprune : w.prune = .waiting)
      (horder : order.Nodup) :
      Steps w (.select cutoff order fault)
        { w with prune := .next (if fault then [] else order.filter (w.store.unused cutoff)) }
  | deleteRow (fault : Bool) (u : String) (rest : List String)
      (hprune : w.prune = .next (u :: rest)) :
      Steps w (.deleteRow fault)
        { w with
          store := if fault then w.store else w.store.deleteRow u
          prune := .back u rest }
  | notDeleted (fault : Bool) (u : String) (rest : List String) (hprune : w.prune = .back u rest) :
      Steps w (.deleteBack fault) { w with prune := .next rest }
  | deleteBack (fault : Bool) (u : String) (rest : List String) (after : Prune)
      (hprune : w.prune = .back u rest) (hafter : after = .auth u rest ∨ after = .next rest) :
      Steps w (.deleteBack fault)
        { w with
          store :=
            { w.store.deleteMsgs (fun m => m.account = u) with
              users := Function.update w.store.users u false }
          prune := after }
  | deleteAuth (fault : Bool) (u : String) (rest : List String) (db : Option (String → Bool))
      (hprune : w.prune = .auth u rest) :
      Steps w (.deleteAuth fault) { w with authDB := db, prune := .next rest }
  | commit (d : Delivery) : Steps w (.commit d) { w with store := w.store.commit d }

theorem steps_of_step (h : w.step a = some w') : Steps w a w' := by
  revert h
  fun_cases Rows.step w a <;> intro h
  case case1 i fault =>
    simp only [Option.bind_eq_bind,Option.bind_eq_some_iff] at h
    obtain ⟨c,hc,⟨s',c'⟩,hcreate,h⟩ := h
    cases h
    obtain ⟨u,st,hstart,hend,hst,hrows,husers⟩ := createUser_cases hcreate
    subst hstart hend
    exact .createUser i fault s' u st hc hst hrows husers
  case case2 i fault =>
    simp only [Option.bind_eq_bind,Option.bind_eq_some_iff] at h
    obtain ⟨⟨op,st⟩,hc,⟨op',st'⟩,hread,h⟩ := h
    cases h
    obtain ⟨rfl,hreads⟩ := reads_of_read hread
    exact .read i fault _ st st' hc hreads
  case case3 i now fault =>
    simp only [Option.bind_eq_bind,Option.bind_eq_some_iff] at h
    obtain ⟨⟨op,st⟩,hc,⟨s',⟨op',st'⟩⟩,hsave,h⟩ := h
    cases h
    obtain ⟨rfl,hwrites⟩ := writes_of_save hsave
    exact .save i now fault _ st st' s' hc hwrites
  all_goals cases h
  · rename_i hstart
    exact .select _ _ _ hstart.1 hstart.2
  · rename_i hprune
    exact .deleteRow _ _ _ hprune
  · rename_i hprune _
    exact .notDeleted _ _ _ hprune
  · rename_i hprune _
    refine .deleteBack _ _ _ _ hprune ?_
    split
    · exact .inl rfl
    · exact .inr rfl
  · rename_i hprune
    exact .deleteAuth _ _ _ _ hprune
  · exact .commit _

end Steps

end Madmail.Proofs.RowSteps
