import Madmail.Storage.Imapsql

namespace Madmail.Proofs.QuotaStore
open Quota Imapsql Function List

section Cache
variable {c : Cache} {u v : String} {e : Entry} {max used delta : Int}

@[simp] theorem set_self : (c.set u e).entries u = some e := update_self _ _ _

theorem set_other (h : v ≠ u) : (c.set u e).entries v = c.entries v :=
  update_of_ne h _ _

theorem setMax_other (h : v ≠ u) : (c.setMax u max).entries v = c.entries v := set_other h

theorem updateUsed_other (h : v ≠ u) : (c.updateUsed u used).entries v = c.entries v := set_other h

theorem addUsed_other (h : v ≠ u) : (c.addUsed u delta).entries v = c.entries v := set_other h

theorem addUsed_self :
    (c.addUsed u delta).entries u = some { c.entryOrDefault u with
      usedBytes := if (c.entryOrDefault u).usedBytes + delta < 0 then 0
        else (c.entryOrDefault u).usedBytes + delta } :=
  set_self

theorem resetMax_other (h : v ≠ u) : (c.resetMax u).entries v = c.entries v := by
  unfold Cache.resetMax
  split
  · rfl
  · exact set_other h

theorem resetMax_self :
    (c.resetMax u).entries u =
      (c.entries u).map (fun e => { e with maxBytes := c.defaultQuota, isDefault := true }) := by
  unfold Cache.resetMax
  cases he : c.entries u with
  | none => simp [he]
  | some e => simp

/-- The loop of a delivery over the cache adds to the entry of each recipient once. -/
theorem addUsed_fold {rcpts : List String} (hn : rcpts.Nodup) (c : Cache) (delta : Int)
    (u : String) :
    (rcpts.foldl (fun c rcpt => c.addUsed rcpt delta) c).entries u =
      if u ∈ rcpts then (c.addUsed u delta).entries u else c.entries u := by
  induction rcpts generalizing c with
  | nil => simp
  | cons rcpt rest ih =>
    obtain ⟨hnot,hrest⟩ := nodup_cons.mp hn
    rw [foldl_cons,ih hrest]
    by_cases h : u = rcpt
    · subst rcpt
      simp [hnot]
    · have hsame : (c.addUsed rcpt delta).entries u = c.entries u := addUsed_other h
      have hentry : (c.addUsed rcpt delta).entryOrDefault u = c.entryOrDefault u := by
        simp only [Cache.entryOrDefault,hsame]
        rfl
      simp only [mem_cons,h,false_or,hsame]
      split
      · rw [addUsed_self,addUsed_self,hentry]
      · rfl

end Cache

section Storage
variable {s : Storage} {u v : String}
variable (rcpts : List String) (s : Storage) (len : String → Nat) (date : Int)

/-- Its loop over the mail store changes nothing but the messages. -/
theorem addMsgs_frame : ∃ msgs nextMsgId,
    rcpts.foldl (fun s rcpt => s.addMsg rcpt (len rcpt) date) s =
      { s with msgs := msgs, nextMsgId := nextMsgId } := by
  induction rcpts generalizing s with
  | nil => exact ⟨s.msgs,s.nextMsgId,rfl⟩
  | cons rcpt rest ih => exact ih _

/-- A delivery changes the messages and the cache, and nothing else. -/
theorem commit_frame (d : Delivery) : ∃ msgs nextMsgId cache,
    s.commit d = { s with msgs := msgs, nextMsgId := nextMsgId, cache := cache } := by
  obtain ⟨msgs,nextMsgId,h⟩ :=
    addMsgs_frame d.addedRcpts s (fun rcpt => d.headerLen rcpt + d.bodyLen) d.date
  unfold Storage.commit
  split
  · exact ⟨_,_,_,rfl⟩
  · rw [h]
    split
    · exact ⟨_,_,_,rfl⟩
    · exact ⟨_,_,_,rfl⟩

theorem ensureRow_frame (f : Faults) (now : Int) (u : String) :
    (s.ensureRow f now u).msgs = s.msgs ∧ (s.ensureRow f now u).cache = s.cache ∧
    (s.ensureRow f now u).defaultQuota = s.defaultQuota ∧
    ∀ v, v ≠ u → (s.ensureRow f now u).quotas v = s.quotas v := by
  unfold Storage.ensureRow
  split
  · exact ⟨rfl,rfl,rfl,fun _ _ => rfl⟩
  · split
    · exact ⟨rfl,rfl,rfl,fun v hv => update_of_ne hv _ _⟩
    · split
      · exact ⟨rfl,rfl,rfl,fun v hv => update_of_ne hv _ _⟩
      · exact ⟨rfl,rfl,rfl,fun _ _ => rfl⟩

/-- The quota row that is there afterwards has the limit of the old one, or none. -/
theorem ensureRow_row (now : Int) (u : String) :
    ((s.ensureRow {} now u).quotas u).map QuotaRow.maxStorage =
      some (((s.quotas u).map QuotaRow.maxStorage).getD 0) := by
  simp only [Storage.ensureRow,Bool.false_eq_true,or_self,↓reduceIte]
  cases hq : s.quotas u with
  | none => simp [Storage.putRow]
  | some row =>
    simp only
    split
    · simp [Storage.putRow]
    · simp [hq]

/-- What is left of an account that was deleted. -/
theorem deleteAccount_frame :
    (s.deleteAccount {} u u).cache = s.cache.invalidate u ∧
    (s.deleteAccount {} u u).quotas = update s.quotas u none ∧
    (s.deleteAccount {} u u).defaultQuota = s.defaultQuota ∧
    ((s.deleteAccount {} u u).msgs = s.msgs ∨
      (s.deleteAccount {} u u).msgs = (s.deleteMsgs (fun m => m.account = u)).msgs) := by
  simp only [Storage.deleteAccount,Storage.deleteIMAPAcct,Storage.deleteUser,Storage.deleteRow,
    Bool.false_eq_true,↓reduceIte,false_or]
  split
  · simp
  · simp [Storage.deleteMsgs]

end Storage

def emptyServer : Storage where
  defaultQuota := 1000
  users _ := false
  quotas _ := none
  msgs := []
  nextMsgId := 1
  blocked _ := false
  cache := Cache.new

def ann : Username := ⟨"ann@mail.example",by decide⟩

end Madmail.Proofs.QuotaStore
