import Madmail.Lib.Retry
import Madmail.Queue.Delivery

namespace Madmail.Proofs.QueueAccounting
open Exterrors Madmail.Module Queue Lib.Retry List

/-- The decision of `tryDelivery` about one recipient that was tried `tries`
times before this attempt. -/
def verdict (maxTries : Int) (errs : Errs) (tries : Nat) (rcpt : String) : Verdict :=
  match errs rcpt with
  | none => .done
  | some err => if !isTemporaryOrUnspec err ∨ maxTries ≤ tries + 1 then .failed else .retry

theorem verdict_retry_bound (h : verdict maxTries errs tries rcpt = .retry) :
    (tries : Int) + 1 < maxTries := by
  unfold verdict at h
  split at h
  · cases h
  · split at h
    · cases h
    · rename_i hn
      omega

def classOf (maxTries : Int) (errs : Errs) (triesCount : Counts) (v : Verdict)
    (rcpts : List String) : List String :=
  rcpts.filter (fun r => verdict maxTries errs ((triesCount.lookup r).getD 0) r = v)

theorem classOf_congr (h : ∀ r ∈ rcpts, t.lookup r = t'.lookup r) :
    classOf maxTries errs t v rcpts = classOf maxTries errs t' v rcpts := by
  apply filter_congr
  intro r hr
  rw [h r hr]

theorem splitRcpt_other (h : r ≠ rcpt) :
    (splitRcpt maxTries errs acc rcpt).triesCount.lookup r = acc.triesCount.lookup r := by
  unfold splitRcpt
  split
  · rfl
  · split <;> simp [Split.markFailed,Split.requeue,AList.lookup_insert_ne h,AList.lookup_erase_ne h]

theorem splitRcpt_lists (maxTries : Int) (errs : Errs) (acc : Split) (rcpt : String) :
    (splitRcpt maxTries errs acc rcpt).delivered =
      acc.delivered ++ classOf maxTries errs acc.triesCount .done [rcpt] ∧
    (splitRcpt maxTries errs acc rcpt).failedRcpts =
      acc.failedRcpts ++ classOf maxTries errs acc.triesCount .failed [rcpt] ∧
    (splitRcpt maxTries errs acc rcpt).newRcpts =
      acc.newRcpts ++ classOf maxTries errs acc.triesCount .retry [rcpt] := by
  have hone (v : Verdict) : classOf maxTries errs acc.triesCount v [rcpt] =
      if verdict maxTries errs ((acc.triesCount.lookup rcpt).getD 0) rcpt = v then [rcpt] else [] := by
    simp [classOf,filter_cons]
  simp only [hone]
  cases he : errs rcpt with
  | none => simp [splitRcpt,verdict,he,Split.markDelivered]
  | some err =>
    by_cases hc : !isTemporaryOrUnspec err ∨ maxTries ≤ (acc.triesCount.lookup rcpt).getD 0 + 1
    · simp only [splitRcpt,verdict,he,if_pos hc,Split.markFailed]
      simp
    · simp only [splitRcpt,verdict,he,if_neg hc,Split.requeue]
      simp

theorem splitRcpt_tries
    (h : verdict maxTries errs ((acc.triesCount.lookup rcpt).getD 0) rcpt = .retry) :
    (splitRcpt maxTries errs acc rcpt).triesCount.lookup rcpt =
      some ((acc.triesCount.lookup rcpt).getD 0 + 1) := by
  cases he : errs rcpt with
  | none => simp only [verdict,he,reduceCtorEq] at h
  | some err =>
    simp only [verdict,he] at h
    split at h
    · cases h
    · rename_i hn
      simp only [splitRcpt,he,if_neg hn,Split.requeue,AList.lookup_insert]

/-- The whole loop sorts a duplicate-free list into the three classes, each in
the order of the list, and counts one more try for those to be retried. -/
theorem split_fold (hn : rcpts.Nodup) (acc : Split) :
    (rcpts.foldl (splitRcpt maxTries errs) acc).delivered =
      acc.delivered ++ classOf maxTries errs acc.triesCount .done rcpts ∧
    (rcpts.foldl (splitRcpt maxTries errs) acc).failedRcpts =
      acc.failedRcpts ++ classOf maxTries errs acc.triesCount .failed rcpts ∧
    (rcpts.foldl (splitRcpt maxTries errs) acc).newRcpts =
      acc.newRcpts ++ classOf maxTries errs acc.triesCount .retry rcpts ∧
    (∀ r, r ∉ rcpts →
      (rcpts.foldl (splitRcpt maxTries errs) acc).triesCount.lookup r = acc.triesCount.lookup r) ∧
    (∀ r ∈ classOf maxTries errs acc.triesCount .retry rcpts,
      (rcpts.foldl (splitRcpt maxTries errs) acc).triesCount.lookup r =
        some ((acc.triesCount.lookup r).getD 0 + 1)) := by
  induction rcpts generalizing acc with
  | nil => simp [classOf]
  | cons x xs ih =>
    obtain ⟨hx,hxs⟩ := nodup_cons.mp hn
    obtain ⟨hd,hf,hr,ho,ht⟩ := ih hxs (splitRcpt maxTries errs acc x)
    obtain ⟨hd',hf',hr'⟩ := splitRcpt_lists maxTries errs acc x
    have hother : ∀ r ∈ xs, (splitRcpt maxTries errs acc x).triesCount.lookup r = acc.triesCount.lookup r :=
      fun r hm => splitRcpt_other (fun he => hx (he ▸ hm))
    have happ (v : Verdict) : classOf maxTries errs acc.triesCount v [x] ++
        classOf maxTries errs acc.triesCount v xs =
        classOf maxTries errs acc.triesCount v (x :: xs) := by
      simp only [classOf,← filter_append,singleton_append]
    simp only [classOf_congr hother] at hd hf hr ht
    simp only [foldl_cons]
    refine ⟨?_,?_,?_,?_,?_⟩
    · rw [hd,hd',append_assoc,happ]
    · rw [hf,hf',append_assoc,happ]
    · rw [hr,hr',append_assoc,happ]
    · intro r hm
      simp only [mem_cons,not_or] at hm
      rw [ho r hm.2,splitRcpt_other hm.1]
    · intro r hm
      rw [← happ] at hm
      rcases mem_append.mp hm with hm | hm
      · obtain ⟨hmem,hv⟩ := mem_filter.mp hm
        have hrx : r = x := mem_singleton.mp hmem
        subst r
        rw [ho x hx,splitRcpt_tries (by simpa using hv)]
      · rw [ht r hm,hother r (mem_filter.mp hm).1]

theorem splitRcpts_spec (maxTries : Int) (errs : Errs) (hn : m.toRcpts.Nodup) :
    (splitRcpts maxTries errs m).delivered =
      classOf maxTries errs m.triesCount .done m.toRcpts ∧
    (splitRcpts maxTries errs m).failedRcpts =
      classOf maxTries errs m.triesCount .failed m.toRcpts ∧
    (splitRcpts maxTries errs m).newRcpts =
      classOf maxTries errs m.triesCount .retry m.toRcpts ∧
    ∀ r ∈ classOf maxTries errs m.triesCount .retry m.toRcpts,
      (splitRcpts maxTries errs m).triesCount.lookup r = some ((m.triesCount.lookup r).getD 0 + 1) := by
  obtain ⟨hd,hf,hr,_,ht⟩ := split_fold hn
    { rcptErrs := m.rcptErrs, triesCount := m.triesCount, newRcpts := [], failedRcpts := [],
      delivered := [], smallestTriesCount := 999999 }
  exact ⟨hd,hf,hr,ht⟩

section Run
variable (maxTries : Int) (clock : Nat → Int) (tgt : Nat → Target) (first : QueueMetadata)

def verdictAt (n : Nat) (rcpt : String) : Verdict :=
  match stateAt maxTries clock tgt first n with
  | none => .done
  | some m => verdict maxTries (deliver (tgt n) m.toRcpts).errs ((m.triesCount.lookup rcpt).getD 0) rcpt

/-- The run refines the abstract retry process: `To` is the list of pending
recipients, and each of them has been tried in every attempt so far. -/
def Refines (n : Nat) : Option QueueMetadata → Prop
  | none => pending (verdictAt maxTries clock tgt first) first.toRcpts n = []
  | some m =>
    m.toRcpts = pending (verdictAt maxTries clock tgt first) first.toRcpts n ∧
      ∀ r ∈ m.toRcpts, (m.triesCount.lookup r).getD 0 = n

variable {maxTries clock tgt first}

theorem pending_nodup (hn : first.toRcpts.Nodup) (n : Nat) :
    (pending (verdictAt maxTries clock tgt first) first.toRcpts n).Nodup := by
  induction n with
  | zero => exact hn
  | succ n ih => exact ih.filter _

theorem attempt_lists (hs : stateAt maxTries clock tgt first n = some m) (hn : m.toRcpts.Nodup) :
    (tryDelivery maxTries (clock n) (tgt n) m).delivered =
      m.toRcpts.filter (fun r => verdictAt maxTries clock tgt first n r = .done) ∧
    (tryDelivery maxTries (clock n) (tgt n) m).dsn =
      m.toRcpts.filter (fun r => verdictAt maxTries clock tgt first n r = .failed) := by
  obtain ⟨hd,hf,_⟩ := splitRcpts_spec maxTries (deliver (tgt n) m.toRcpts).errs hn
  simp [tryDelivery,hd,hf,classOf,verdictAt,hs]

theorem next_refines (hn : m.toRcpts.Nodup) (hs : stateAt maxTries clock tgt first n = some m)
    (hm : Refines maxTries clock tgt first n (some m)) :
    Refines maxTries clock tgt first (n + 1)
      (tryDelivery maxTries (clock n) (tgt n) m).next := by
  obtain ⟨hto,htries⟩ := hm
  obtain ⟨_,_,hr,ht⟩ := splitRcpts_spec maxTries (deliver (tgt n) m.toRcpts).errs hn
  have hpend : pending (verdictAt maxTries clock tgt first) first.toRcpts (n + 1) =
      classOf maxTries (deliver (tgt n) m.toRcpts).errs m.triesCount .retry m.toRcpts := by
    simp only [pending,← hto,classOf,verdictAt,hs]
  simp only [tryDelivery,hr]
  split
  · rename_i he
    simpa [Refines,hpend] using he
  · refine ⟨hpend.symm,?_⟩
    intro r hm
    have hmem : r ∈ m.toRcpts := (mem_filter.mp hm).1
    rw [ht r hm,htries r hmem]
    rfl

def countIn (list : Attempt → List String) (attempt : Option Attempt) (rcpt : String) : Nat :=
  match attempt with
  | none => 0
  | some a => (list a).count rcpt

theorem count_filter_nodup {xs : List String} (hn : xs.Nodup) :
    (xs.filter p).count r = if r ∈ xs ∧ p r = true then 1 else 0 := by
  rw [(hn.filter p).count]
  simp [mem_filter]

theorem deliver_handed (tgt : Target) (rcpts : List String) :
    (deliver tgt rcpts).handed = [] ∨ (deliver tgt rcpts).handed = rcpts := by
  unfold deliver
  cases tgt.start with
  | some err => exact Or.inl rfl
  | none =>
    right
    simp only
    split
    · rfl
    · split
      · rfl
      · cases tgt.commit <;> rfl

theorem next_nonempty {tgt : Target} (h : (tryDelivery maxTries now tgt m).next = some m') :
    m'.toRcpts ≠ [] := by
  simp only [tryDelivery] at h
  split at h
  · cases h
  · rename_i hne
    cases h
    simpa using hne

variable (hn : first.toRcpts.Nodup) (h0 : ∀ r ∈ first.toRcpts, first.triesCount.lookup r = none)
include hn h0

theorem state_refines (n : Nat) :
    Refines maxTries clock tgt first n (stateAt maxTries clock tgt first n) := by
  induction n with
  | zero =>
    refine ⟨rfl,?_⟩
    intro r hr
    simp [h0 r hr]
  | succ n ih =>
    cases hs : stateAt maxTries clock tgt first n with
    | none =>
      rw [hs] at ih
      have hp : pending (verdictAt maxTries clock tgt first) first.toRcpts n = [] := ih
      simp [stateAt,hs,Refines,pending,hp]
    | some m =>
      rw [hs] at ih
      simp only [stateAt,hs,Option.bind_some]
      exact next_refines (ih.1 ▸ pending_nodup hn n) hs ih

theorem pending_bound
    (hr : r ∈ pending (verdictAt maxTries clock tgt first) first.toRcpts (n + 1)) :
    (n : Int) + 1 < maxTries := by
  obtain ⟨hp,hv⟩ := mem_pending_succ.mp hr
  have hs := @state_refines maxTries clock tgt first hn h0 n
  cases hm : stateAt maxTries clock tgt first n with
  | none =>
    rw [hm] at hs
    have he : pending (verdictAt maxTries clock tgt first) first.toRcpts n = [] := hs
    simp [he] at hp
  | some m =>
    rw [hm] at hs
    simp only [verdictAt,hm,hs.2 r (hs.1 ▸ hp)] at hv
    exact verdict_retry_bound hv

theorem pending_exhausted (hmax : 1 ≤ maxTries) :
    pending (verdictAt maxTries clock tgt first) first.toRcpts maxTries.toNat = [] := by
  obtain ⟨k,hk⟩ : ∃ k, maxTries.toNat = k + 1 := ⟨maxTries.toNat - 1,by omega⟩
  rw [hk]
  apply eq_nil_iff_forall_not_mem.mpr
  intro r hr
  have := pending_bound hn h0 hr
  omega

theorem class_count (n : Nat) (r : String) :
    (countIn Attempt.delivered (attemptAt maxTries clock tgt first n) r =
      if r ∈ pending (verdictAt maxTries clock tgt first) first.toRcpts n ∧
        verdictAt maxTries clock tgt first n r = .done then 1 else 0) ∧
    (countIn Attempt.dsn (attemptAt maxTries clock tgt first n) r =
      if r ∈ pending (verdictAt maxTries clock tgt first) first.toRcpts n ∧
        verdictAt maxTries clock tgt first n r = .failed then 1 else 0) := by
  have hs := @state_refines maxTries clock tgt first hn h0 n
  cases hm : stateAt maxTries clock tgt first n with
  | none =>
    rw [hm] at hs
    have he : pending (verdictAt maxTries clock tgt first) first.toRcpts n = [] := hs
    simp [attemptAt,hm,countIn,he]
  | some m =>
    rw [hm] at hs
    have hnm : m.toRcpts.Nodup := hs.1 ▸ pending_nodup hn n
    obtain ⟨hd,hf⟩ := attempt_lists hm hnm
    simp [attemptAt,hm,countIn,hd,hf,count_filter_nodup hnm,← hs.1]

theorem handed_pending
    (hr : r ∉ pending (verdictAt maxTries clock tgt first) first.toRcpts n) :
    countIn Attempt.handed (attemptAt maxTries clock tgt first n) r = 0 := by
  have hs := @state_refines maxTries clock tgt first hn h0 n
  cases hm : stateAt maxTries clock tgt first n with
  | none => simp [attemptAt,hm,countIn]
  | some m =>
    rw [hm] at hs
    rw [← hs.1] at hr
    simp only [attemptAt,hm,Option.map_some,countIn,tryDelivery]
    rcases deliver_handed (tgt n) m.toRcpts with hh | hh
    · simp [hh]
    · rw [hh]
      exact count_eq_zero.mpr hr

theorem run_ends (hmax : 1 ≤ maxTries) :
    stateAt maxTries clock tgt first maxTries.toNat = none := by
  have hs := @state_refines maxTries clock tgt first hn h0 maxTries.toNat
  cases hm : stateAt maxTries clock tgt first maxTries.toNat with
  | none => rfl
  | some m =>
    -- Every state after the first has somebody left to try.
    obtain ⟨k,hk⟩ : ∃ k, maxTries.toNat = k + 1 := ⟨maxTries.toNat - 1,by omega⟩
    rw [hm] at hs
    have hto : m.toRcpts = [] := hs.1.trans (pending_exhausted hn h0 hmax)
    rw [hk] at hm
    obtain ⟨m',_,hnext⟩ := Option.bind_eq_some_iff.mp hm
    exact absurd hto (next_nonempty hnext)

end Run

/-- A recipient is settled in attempt `n`: it is counted as delivered once, in
that attempt only, and never reported; or it is reported once, in that attempt
only, and never counted as delivered. No later attempt hands it to the target. -/
structure SettledAt (attempt : Nat → Option Attempt) (n : Nat) (rcpt : String) : Prop where
  one_class :
    (countIn Attempt.delivered (attempt n) rcpt = 1 ∧
      (∀ k, k ≠ n → countIn Attempt.delivered (attempt k) rcpt = 0) ∧
      ∀ k, countIn Attempt.dsn (attempt k) rcpt = 0) ∨
    (countIn Attempt.dsn (attempt n) rcpt = 1 ∧
      (∀ k, k ≠ n → countIn Attempt.dsn (attempt k) rcpt = 0) ∧
      ∀ k, countIn Attempt.delivered (attempt k) rcpt = 0)
  not_handed : ∀ k, n < k → countIn Attempt.handed (attempt k) rcpt = 0

structure Accounted (maxTries : Int) (clock : Nat → Int) (tgt : Nat → Target)
    (first : QueueMetadata) : Prop where
  ends : stateAt maxTries clock tgt first maxTries.toNat = none
  settled : ∀ r ∈ first.toRcpts,
    ∃ n : Nat, (n : Int) < maxTries ∧ SettledAt (attemptAt maxTries clock tgt first) n r
  tries : ∀ n m, stateAt maxTries clock tgt first n = some m →
    ∀ r ∈ m.toRcpts, (m.triesCount.lookup r).getD 0 = n

theorem counted_once {c : Nat → Nat} [DecidablePred S] (hc : ∀ k, c k = if S k then 1 else 0)
    (hn : S n) (huniq : ∀ k, S k → k = n) : c n = 1 ∧ ∀ k, k ≠ n → c k = 0 := by
  refine ⟨by rw [hc,if_pos hn],fun k hk => ?_⟩
  rw [hc,if_neg (fun h => hk (huniq k h))]

theorem accounted (hmax : 1 ≤ maxTries) (hn : first.toRcpts.Nodup)
    (h0 : ∀ r ∈ first.toRcpts, first.triesCount.lookup r = none) :
    Accounted maxTries clock tgt first := by
  have hempty := @pending_exhausted maxTries clock tgt first hn h0 hmax
  have hcount := @class_count maxTries clock tgt first hn h0
  refine ⟨run_ends hn h0 hmax,?_,?_⟩
  · intro r hr
    have hend : r ∉ pending (verdictAt maxTries clock tgt first) first.toRcpts maxTries.toNat := by
      simp [hempty]
    obtain ⟨n,hlt,⟨hp,hv⟩,huniq⟩ := settled_once hr hend
    refine ⟨n,by omega,?_,fun k hk => handed_pending hn h0 (settled_gone hv hk)⟩
    have hother (k : Nat) (v : Verdict) (hv' : v ≠ .retry)
        (h : r ∈ pending (verdictAt maxTries clock tgt first) first.toRcpts k ∧
          verdictAt maxTries clock tgt first k r = v) : k = n :=
      huniq k ⟨h.1,by rw [h.2]; exact hv'⟩
    have hnever (k : Nat) (v : Verdict) (hv' : v ≠ .retry)
        (hne : verdictAt maxTries clock tgt first n r ≠ v) :
        ¬ (r ∈ pending (verdictAt maxTries clock tgt first) first.toRcpts k ∧
          verdictAt maxTries clock tgt first k r = v) := by
      intro h
      cases hother k v hv' h
      exact hne h.2
    cases hvn : verdictAt maxTries clock tgt first n r with
    | retry => exact absurd hvn hv
    | done =>
      obtain ⟨hone,hzero⟩ := counted_once (fun k => (hcount k r).1) ⟨hp,hvn⟩
        (fun k => hother k .done (by decide))
      refine Or.inl ⟨hone,hzero,fun k => ?_⟩
      rw [(hcount k r).2,if_neg (hnever k .failed (by decide) (by simp [hvn]))]
    | failed =>
      obtain ⟨hone,hzero⟩ := counted_once (fun k => (hcount k r).2) ⟨hp,hvn⟩
        (fun k => hother k .failed (by decide))
      refine Or.inr ⟨hone,hzero,fun k => ?_⟩
      rw [(hcount k r).1,if_neg (hnever k .done (by decide) (by simp [hvn]))]
  · intro n m hm r hr
    have hs := @state_refines maxTries clock tgt first hn h0 n
    rw [hm] at hs
    exact hs.2 r hr

theorem addRcpts_fields (m : QueueMetadata) (rcpts : List String) :
    (rcpts.foldl Queue.addRcpt m).toRcpts = m.toRcpts ++ rcpts ∧
    (rcpts.foldl Queue.addRcpt m).triesCount = m.triesCount := by
  induction rcpts generalizing m with
  | nil => simp
  | cons r rest ih =>
    obtain ⟨hto,ht⟩ := ih (Queue.addRcpt m r)
    simp only [foldl_cons]
    exact ⟨by rw [hto]; simp [Queue.addRcpt],ht⟩

/-- Recipient accounting: whatever the target answers in each attempt, a message
with `rcpts` as its duplicate-free recipients is off the queue after at most
`maxTries` attempts, and every recipient is settled in exactly one of them. -/
theorem recipients_accounted (maxTries : Int) (hmax : 1 ≤ maxTries) (clock : Nat → Int)
    (tgt : Nat → Target) (msgMeta : MsgMetadata) (mailFrom : String) (now : Int)
    (rcpts : List String) (hn : rcpts.Nodup) :
    (rcpts.foldl Queue.addRcpt (newDelivery msgMeta mailFrom now)).toRcpts = rcpts ∧
    Accounted maxTries clock tgt
      (rcpts.foldl Queue.addRcpt (newDelivery msgMeta mailFrom now)) := by
  obtain ⟨hto,ht⟩ := addRcpts_fields (newDelivery msgMeta mailFrom now) rcpts
  have hto' : (rcpts.foldl Queue.addRcpt (newDelivery msgMeta mailFrom now)).toRcpts = rcpts := by
    rw [hto]; rfl
  exact ⟨hto',accounted hmax (by rw [hto']; exact hn) (fun r _ => by rw [ht]; rfl)⟩

theorem recipients_accounted_three_tries :
    Accounted 3 (fun _ => 0)
      (fun n => ⟨none,fun _ => none,
        .nonAtomic (if n = 0 then [("a",some (.leaf "go away" (some true))),
          ("b",some (.leaf "no such user" (some false)))] else []),none⟩)
      (["a","b","c"].foldl Queue.addRcpt (newDelivery ⟨"id","",false,false,fun _ => none,
        ⟨false,false⟩,none,false⟩ "sender" 0)) :=
  (recipients_accounted 3 (by decide) _ _ _ _ _ ["a","b","c"] (by decide)).2

end Madmail.Proofs.QueueAccounting
