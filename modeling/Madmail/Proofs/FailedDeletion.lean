import Madmail.Proofs.RowSteps
import Madmail.Storage.Accounts

namespace Madmail.Proofs.FailedDeletion
open Exterrors Lib Quota Imapsql Accounts

/-- What is left of an account after a deletion that has failed, as the other operations see it:
the quota record, what a prune selects, and the limit that is reported. -/
structure Unharmed (u : String) (before after : Storage) : Prop where
  record : after.quotas u = before.quotas u
  considered : ∀ cutoff, after.unused cutoff u = before.unused cutoff u
  limit : ∀ f, (after.getQuota f u).2.map (fun r => (r.max,r.isDefault)) =
    (before.getQuota f u).2.map (fun r => (r.max,r.isDefault))

theorem unharmed_refl : Unharmed u s s :=
  ⟨rfl,fun _ => rfl,fun _ => rfl⟩

variable {n : Names} {c : Calls} {s : Storage} {u : String} {err : Err}

theorem failed_store (h : (deleteIMAPAcct n c s u).2 = some err) :
    (deleteIMAPAcct n c s u).1 = if c.write.isSome then s else s.deleteRow u := by
  simp only [deleteIMAPAcct] at h
  refine if_pos ?_
  cases hb : c.back with
  | some e => simp [Calls.faults,hb]
  | none =>
    cases hu : s.users (n.toLower u) with
    | true => simp [hb,hu] at h
    | false => cases hw : c.write <;> simp [Calls.faults,Storage.deleteRow,hw,hu]

theorem deleteRow_quotas : (s.deleteRow u).quotas u = none := by
  simp [Storage.deleteRow]

theorem deleteRow_absent (h : s.quotas u = none) : s.deleteRow u = s := by
  rw [Storage.deleteRow,← h,Function.update_eq_self]

/-- A deletion that the mail store refuses leaves the account as it was exactly if there was no
record, or the deletion of the record has failed as well. -/
theorem failed_deletion_iff (n : Names) (c : Calls) (s : Storage) (u : String) (err : Err)
    (h : (deleteIMAPAcct n c s u).2 = some err) :
    Unharmed u s (deleteIMAPAcct n c s u).1 ↔ s.quotas u = none ∨ c.write.isSome = true := by
  rw [failed_store h]
  cases hw : c.write.isSome with
  | true =>
    rw [if_pos rfl]
    exact ⟨fun _ => .inr rfl,fun _ => unharmed_refl⟩
  | false =>
    rw [if_neg Bool.false_ne_true]
    constructor
    · intro hun
      exact .inl (hun.record.symm.trans deleteRow_quotas)
    · rintro (hrow | hw)
      · rw [deleteRow_absent hrow]
        exact unharmed_refl
      · cases hw

def unusedAccount : Storage where
  defaultQuota := 100
  users := fun name => name = "u@example.org"
  quotas := fun name => if name = "u@example.org" then
    some { maxStorage := 5, createdAt := 1, firstLoginAt := 1 } else none
  msgs := []
  nextMsgId := 0
  blocked := fun _ => false
  cache := .new

def plainNames : Names := ⟨fun name => name,.ok,.ok⟩

def storeDown : Calls := { jitEnabled := .ok false, back := some (.leaf "database is locked" none) }

theorem failed_deletion_both :
    Unharmed "u@example.org" unusedAccount
      (deleteIMAPAcct plainNames { storeDown with write := some (.leaf "database is locked" none) }
        unusedAccount "u@example.org").1 :=
  (failed_deletion_iff plainNames _ unusedAccount "u@example.org" (.leaf "database is locked" none)
    rfl).mpr (.inr rfl)

/-- The mail store fails, but the record is gone: the next prune does not find the account any more,
and its limit is the default. -/
theorem failed_deletion_drops_record :
    (deleteIMAPAcct plainNames storeDown unusedAccount "u@example.org").2.isSome = true ∧
      (deleteIMAPAcct plainNames storeDown unusedAccount "u@example.org").1.quotas "u@example.org" =
        none ∧
      unusedAccount.unused 10 "u@example.org" = true ∧
      (deleteIMAPAcct plainNames storeDown unusedAccount "u@example.org").1.unused 10
        "u@example.org" = false ∧
      (unusedAccount.getQuota {} "u@example.org").2 = some ⟨0,5,false⟩ ∧
      ((deleteIMAPAcct plainNames storeDown unusedAccount "u@example.org").1.getQuota {}
        "u@example.org").2 = some ⟨0,100,true⟩ := by
  decide

end Madmail.Proofs.FailedDeletion
