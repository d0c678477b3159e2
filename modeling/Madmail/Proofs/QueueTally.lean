import Madmail.Proofs.QueueAccounting
import Mathlib.Logic.Function.Iterate

namespace Madmail.Proofs.QueueTally
open Exterrors Madmail.Module Queue QueueAccounting Function List

/-- What the loop of `tryDelivery` has made of the occurrences of one address,
and the tries that are counted for it. -/
structure Tally where
  tries : Nat
  kept : Nat
  failed : Nat
  delivered : Nat

def tally (acc : Split) (rcpt : String) : Tally :=
  { tries := (acc.triesCount.lookup rcpt).getD 0
    kept := acc.newRcpts.count rcpt
    failed := acc.failedRcpts.count rcpt
    delivered := acc.delivered.count rcpt }

def turn (maxTries : Int) (err : Option Err) (t : Tally) : Tally :=
  match err with
  | none => { t with delivered := t.delivered + 1 }
  | some e =>
    if !isTemporaryOrUnspec e ∨ maxTries ≤ t.tries + 1 then
      { t with tries := 0, failed := t.failed + 1 }
    else { t with tries := t.tries + 1, kept := t.kept + 1 }

theorem tally_self (maxTries : Int) (errs : Errs) (acc : Split) (rcpt : String) :
    tally (splitRcpt maxTries errs acc rcpt) rcpt =
      turn maxTries (errs rcpt) (tally acc rcpt) := by
  unfold splitRcpt turn
  cases errs rcpt with
  | none => simp [tally,Split.markDelivered]
  | some err =>
    by_cases h : !isTemporaryOrUnspec err ∨ maxTries ≤ (acc.triesCount.lookup rcpt).getD 0 + 1
    · have ht : !isTemporaryOrUnspec err ∨ maxTries ≤ (tally acc rcpt).tries + 1 := h
      simp only [if_pos h,if_pos ht]
      simp [tally,Split.markFailed]
    · have ht : ¬ (!isTemporaryOrUnspec err ∨ maxTries ≤ (tally acc rcpt).tries + 1) := h
      simp only [if_neg h,if_neg ht]
      simp [tally,Split.requeue]

theorem tally_other (maxTries : Int) (errs : Errs) (acc : Split) (h : r ≠ rcpt) :
    tally (splitRcpt maxTries errs acc rcpt) r = tally acc r := by
  unfold splitRcpt
  cases errs rcpt with
  | none => simp [tally,Split.markDelivered,Ne.symm h]
  | some err =>
    dsimp only
    split
    · simp [tally,Split.markFailed,Ne.symm h,AList.lookup_erase_ne h]
    · simp [tally,Split.requeue,Ne.symm h,AList.lookup_insert_ne h]

/-- The loop treats the occurrences of an address one after the other, whatever
stands between them. -/
theorem tally_fold {rcpts : List String} :
    tally (rcpts.foldl (splitRcpt maxTries errs) acc) rcpt =
      (turn maxTries (errs rcpt))^[rcpts.count rcpt] (tally acc rcpt) := by
  induction rcpts generalizing acc with
  | nil => rfl
  | cons x rest ih =>
    rw [foldl_cons,ih]
    by_cases h : x = rcpt
    · subst h
      rw [tally_self,count_cons_self,iterate_succ_apply]
    · rw [tally_other maxTries errs acc (Ne.symm h),count_cons_of_ne h]

theorem tally_splitRcpts (maxTries : Int) (errs : Errs) (m : QueueMetadata) (rcpt : String) :
    tally (splitRcpts maxTries errs m) rcpt =
      (turn maxTries (errs rcpt))^[m.toRcpts.count rcpt]
        ⟨(m.triesCount.lookup rcpt).getD 0,0,0,0⟩ :=
  tally_fold

section Turns
variable {maxTries : Int} {t : Tally}

theorem turns_delivered : (turn maxTries none)^[n] t = { t with delivered := t.delivered + n } := by
  induction n with
  | zero => rfl
  | succ n ih => rw [iterate_succ_apply',ih]; rfl

theorem turns_permanent (hp : isTemporaryOrUnspec err = false) (n : Nat) (t : Tally) :
    ((turn maxTries (some err))^[n] t).kept = t.kept ∧
      ((turn maxTries (some err))^[n] t).failed = t.failed + n := by
  induction n with
  | zero => exact ⟨rfl,rfl⟩
  | succ n ih =>
    rw [iterate_succ_apply']
    obtain ⟨hkept,hfailed⟩ := ih
    simp only [turn,hp,Bool.not_false,true_or,↓reduceIte]
    exact ⟨hkept,by omega⟩

/-- Every occurrence counts as a try: they are all kept as long as the tries
last for all of them. -/
theorem turns_kept (htemp : isTemporaryOrUnspec err = true) (n : Nat) (t : Tally)
    (h : n = 0 ∨ (t.tries + n : Int) < maxTries) :
    (turn maxTries (some err))^[n] t = { t with tries := t.tries + n, kept := t.kept + n } := by
  induction n with
  | zero => rfl
  | succ n ih =>
    rw [iterate_succ_apply',ih (by omega)]
    have hlast : ¬ (maxTries : Int) ≤ ((t.tries + n : Nat) : Int) + 1 := by omega
    simp only [turn,htemp,Bool.not_true,Bool.false_eq_true,hlast,or_self,↓reduceIte,
      Nat.add_assoc]

theorem turns_total (err : Err) (n : Nat) (t : Tally) :
    ((turn maxTries (some err))^[n] t).kept + ((turn maxTries (some err))^[n] t).failed =
      t.kept + t.failed + n := by
  induction n with
  | zero => rfl
  | succ n ih =>
    rw [iterate_succ_apply']
    generalize (turn maxTries (some err))^[n] t = u at ih ⊢
    unfold turn
    dsimp only
    split <;> dsimp only <;> omega

theorem turns_fails (htemp : isTemporaryOrUnspec err = true) (n : Nat) (t : Tally) (hn : 0 < n)
    (h : maxTries ≤ (t.tries + n : Int)) :
    t.failed < ((turn maxTries (some err))^[n] t).failed := by
  induction n with
  | zero => omega
  | succ n ih =>
    rw [iterate_succ_apply']
    by_cases hlast : n = 0 ∨ (t.tries + n : Int) < maxTries
    · rw [turns_kept htemp n t hlast]
      have hover : maxTries ≤ ((t.tries + n : Nat) : Int) + 1 := by omega
      simp only [turn,hover,or_true,↓reduceIte]
      omega
    · have hmono (u : Tally) : u.failed ≤ (turn maxTries (some err) u).failed := by
        unfold turn
        dsimp only
        split <;> dsimp only <;> omega
      exact Nat.lt_of_lt_of_le (ih (by omega) (by omega)) (hmono _)

end Turns

theorem expand_apply (errs : Errs) (rcpts : List String) (err : Err) (rcpt : String) :
    expandToPartialErr errs rcpts err rcpt = if rcpt ∈ rcpts then some err else errs rcpt := by
  unfold expandToPartialErr
  induction rcpts generalizing errs with
  | nil => simp
  | cons r rest ih =>
    rw [foldl_cons,ih]
    by_cases h : rcpt = r
    · subst h
      simp
    · simp [h]

def triesOf (m : QueueMetadata) (rcpt : String) : Nat := (m.triesCount.lookup rcpt).getD 0

def after (maxTries : Int) (tgt : Target) (m : QueueMetadata) (rcpt : String) : Tally :=
  (turn maxTries ((deliver tgt m.toRcpts).errs rcpt))^[m.toRcpts.count rcpt]
    ⟨triesOf m rcpt,0,0,0⟩

theorem tryDelivery_tally (maxTries now : Int) (tgt : Target) (m : QueueMetadata) :
    (∀ rcpt, (tryDelivery maxTries now tgt m).dsn.count rcpt = (after maxTries tgt m rcpt).failed) ∧
    ((tryDelivery maxTries now tgt m).next = none ↔
      ∀ rcpt, (after maxTries tgt m rcpt).kept = 0) ∧
    ∀ next, (tryDelivery maxTries now tgt m).next = some next →
      ∀ rcpt, next.toRcpts.count rcpt = (after maxTries tgt m rcpt).kept ∧
        triesOf next rcpt = (after maxTries tgt m rcpt).tries := by
  have htally (rcpt : String) :
      tally (splitRcpts maxTries (deliver tgt m.toRcpts).errs m) rcpt = after maxTries tgt m rcpt :=
    tally_splitRcpts maxTries _ m rcpt
  refine ⟨fun rcpt => congrArg Tally.failed (htally rcpt),?_,?_⟩
  · have hkept (rcpt : String) := congrArg Tally.kept (htally rcpt)
    simp only [tally] at hkept
    simp only [tryDelivery,← hkept,count_eq_zero,← eq_nil_iff_forall_not_mem]
    split <;> simp_all
  · intro next hnext rcpt
    simp only [tryDelivery] at hnext
    split at hnext
    · cases hnext
    · cases hnext
      exact ⟨congrArg Tally.kept (htally rcpt),congrArg Tally.tries (htally rcpt)⟩

theorem after_absent (h : rcpt ∉ m.toRcpts) :
    after maxTries tgt m rcpt = ⟨triesOf m rcpt,0,0,0⟩ := by
  simp [after,count_eq_zero.mpr h]

def queued (msgMeta : MsgMetadata) (mailFrom : String) (now : Int) (rcpts : List String) :
    QueueMetadata :=
  rcpts.foldl Queue.addRcpt (newDelivery msgMeta mailFrom now)

theorem queued_triesCount (msgMeta : MsgMetadata) (mailFrom : String) (now : Int)
    (rcpts : List String) : (queued msgMeta mailFrom now rcpts).triesCount = ∅ :=
  (addRcpts_fields (newDelivery msgMeta mailFrom now) rcpts).2

theorem queued_fields (msgMeta : MsgMetadata) (mailFrom : String) (now : Int)
    (rcpts : List String) :
    (queued msgMeta mailFrom now rcpts).toRcpts = rcpts ∧
      ∀ r, triesOf (queued msgMeta mailFrom now rcpts) r = 0 := by
  obtain ⟨hto,_⟩ := addRcpts_fields (newDelivery msgMeta mailFrom now) rcpts
  refine ⟨by simpa [queued,newDelivery] using hto,fun r => ?_⟩
  rw [triesOf,queued_triesCount]
  rfl

end Madmail.Proofs.QueueTally
