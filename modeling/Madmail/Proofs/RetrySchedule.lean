import Madmail.Proofs.QueueTally
import Madmail.Queue.Disk
import Mathlib.Order.Basic

namespace Madmail.Proofs.RetrySchedule
open Exterrors Madmail.Module Queue Disk Lib.Retry QueueAccounting QueueTally

theorem le_smallestTriesCount :
    x ≤ Disk.smallestTriesCount m ↔
      x ≤ 999999 ∧ ∀ r c, m.triesCount.lookup r = some c → x ≤ c := by
  have hfold (entries : List (Sigma fun _ : String => Nat)) (start : Nat) :
      x ≤ entries.foldl (fun smallest e => if smallest > e.2 then e.2 else smallest) start ↔
        x ≤ start ∧ ∀ e ∈ entries, x ≤ e.2 := by
    induction entries generalizing start with
    | nil => simp
    | cons e rest ih =>
      rw [List.foldl_cons,ih,List.forall_mem_cons,← and_assoc]
      apply and_congr_left'
      split <;> omega
  rw [Disk.smallestTriesCount,hfold]
  apply and_congr_right'
  constructor
  · intro h r c hc
    exact h ⟨r,c⟩ (AList.mem_lookup_iff.mp hc)
  · intro h e he
    exact h e.1 e.2 (AList.mem_lookup_iff.mpr he)

theorem le_split_smallest (hn : rcpts.Nodup) :
    x ≤ (rcpts.foldl (splitRcpt maxTries errs) acc).smallestTriesCount ↔
      x ≤ acc.smallestTriesCount ∧
        ∀ r ∈ classOf maxTries errs acc.triesCount .retry rcpts,
          x ≤ (acc.triesCount.lookup r).getD 0 + 1 := by
  induction rcpts generalizing acc with
  | nil => simp [classOf]
  | cons y ys ih =>
    obtain ⟨hy,hys⟩ := List.nodup_cons.mp hn
    have hother : ∀ r ∈ ys,
        (splitRcpt maxTries errs acc y).triesCount.lookup r = acc.triesCount.lookup r :=
      fun r hr => splitRcpt_other fun he => hy (he ▸ hr)
    have hrest : (∀ r ∈ classOf maxTries errs acc.triesCount .retry ys,
        x ≤ ((splitRcpt maxTries errs acc y).triesCount.lookup r).getD 0 + 1) ↔
        ∀ r ∈ classOf maxTries errs acc.triesCount .retry ys,
          x ≤ (acc.triesCount.lookup r).getD 0 + 1 := by
      apply forall₂_congr
      intro r hr
      rw [hother r (List.mem_filter.mp hr).1]
    rw [List.foldl_cons,ih hys,classOf_congr hother,hrest]
    cases he : errs y with
    | none => simp [splitRcpt,classOf,verdict,he,Split.markDelivered]
    | some err =>
      by_cases hc : !isTemporaryOrUnspec err ∨ maxTries ≤ (acc.triesCount.lookup y).getD 0 + 1
      · simp only [splitRcpt,he,if_pos hc,Split.markFailed,classOf,List.filter_cons,verdict]
        simp
      · simp only [splitRcpt,he,if_neg hc,Split.requeue,classOf,List.filter_cons,verdict]
        simp only [decide_true,↓reduceIte,List.forall_mem_cons,← and_assoc]
        apply and_congr_left'
        split <;> omega

/-- The tries that are counted for a recipient after its turn. Those of a delivered one stay. -/
def counted (v : Verdict) (tries : Option Nat) : Option Nat :=
  match v with
  | .done => tries
  | .failed => none
  | .retry => some (tries.getD 0 + 1)

theorem splitRcpt_lookup (maxTries : Int) (errs : Errs) (acc : Split) (rcpt : String) :
    (splitRcpt maxTries errs acc rcpt).triesCount.lookup rcpt =
      counted (verdict maxTries errs ((acc.triesCount.lookup rcpt).getD 0) rcpt)
        (acc.triesCount.lookup rcpt) := by
  cases he : errs rcpt with
  | none => simp only [splitRcpt,verdict,he,Split.markDelivered,counted]
  | some err =>
    by_cases hc : !isTemporaryOrUnspec err ∨ maxTries ≤ (acc.triesCount.lookup rcpt).getD 0 + 1
    · simp only [splitRcpt,verdict,he,if_pos hc,Split.markFailed,counted,AList.lookup_erase]
    · simp only [splitRcpt,verdict,he,if_neg hc,Split.requeue,counted,AList.lookup_insert]

theorem split_lookup {rcpts : List String} (hn : rcpts.Nodup) (acc : Split) (r : String) :
    (rcpts.foldl (splitRcpt maxTries errs) acc).triesCount.lookup r =
      if r ∈ rcpts then
        counted (verdict maxTries errs ((acc.triesCount.lookup r).getD 0) r)
          (acc.triesCount.lookup r)
      else acc.triesCount.lookup r := by
  induction rcpts generalizing acc with
  | nil => simp
  | cons y ys ih =>
    obtain ⟨hy,hys⟩ := List.nodup_cons.mp hn
    rw [List.foldl_cons,ih hys]
    by_cases hr : r = y
    · subst hr
      rw [if_neg hy,if_pos List.mem_cons_self,splitRcpt_lookup]
    · rw [splitRcpt_other hr]
      simp [hr]

section Attempt
variable {maxTries now : Int} {tgt : Target} {m next : QueueMetadata}

def verdictOf (maxTries : Int) (tgt : Target) (m : QueueMetadata) (r : String) : Verdict :=
  verdict maxTries (deliver tgt m.toRcpts).errs (triesOf m r) r

theorem mem_delivered (hn : m.toRcpts.Nodup) :
    r ∈ (tryDelivery maxTries now tgt m).delivered ↔
      r ∈ m.toRcpts ∧ verdictOf maxTries tgt m r = .done := by
  obtain ⟨hd,_⟩ := splitRcpts_spec maxTries (deliver tgt m.toRcpts).errs hn
  simp [tryDelivery,hd,classOf,verdictOf,triesOf]

theorem next_spec (hn : m.toRcpts.Nodup) (h : (tryDelivery maxTries now tgt m).next = some next) :
    next.toRcpts = m.toRcpts.filter (fun r => verdictOf maxTries tgt m r = .retry) ∧
    ∀ r, next.triesCount.lookup r =
      if r ∈ m.toRcpts then counted (verdictOf maxTries tgt m r) (m.triesCount.lookup r)
      else m.triesCount.lookup r := by
  obtain ⟨_,_,hr,_⟩ := splitRcpts_spec maxTries (deliver tgt m.toRcpts).errs hn
  simp only [tryDelivery] at h
  split at h
  · cases h
  · cases h
    exact ⟨hr,fun r => split_lookup hn _ r⟩

theorem le_attempt_smallest (hn : m.toRcpts.Nodup) (x : Nat) :
    x ≤ (tryDelivery maxTries now tgt m).smallestTriesCount ↔
      x ≤ 999999 ∧
        ∀ r ∈ m.toRcpts, verdictOf maxTries tgt m r = .retry → x ≤ triesOf m r + 1 := by
  refine (le_split_smallest hn).trans (and_congr_right' ?_)
  simp [classOf,verdictOf,triesOf]

end Attempt

section Run
variable (maxTries : Int) (clock : Nat → Int) (tgt : Nat → Target) (lost : Nat → Bool)
  (first : QueueMetadata)

def updates : Nat → Nat
  | 0 => 0
  | n + 1 => updates n + if lost n then 0 else 1

/-- The recipient was delivered in attempt number `k`, and the disk knows. -/
def DeliveredIn (k : Nat) (r : String) : Prop :=
  lost k = false ∧ ∃ a, attemptWith maxTries clock tgt lost first k = some a ∧ r ∈ a.delivered

/-- The tries in the meta-data before attempt number `n`: one for each update if the recipient is
still to be tried, and what was left behind if it is not. -/
structure Counts (n : Nat) (m : QueueMetadata) : Prop where
  nodup : m.toRcpts.Nodup
  waiting : ∀ r ∈ m.toRcpts,
    m.triesCount.lookup r = if updates lost n = 0 then none else some (updates lost n)
  undelivered : ∀ r ∈ m.toRcpts, ∀ k < n, ¬ DeliveredIn maxTries clock tgt lost first k r
  left : ∀ r ∉ m.toRcpts, ∀ c, m.triesCount.lookup r = some c ↔
    ∃ k < n, DeliveredIn maxTries clock tgt lost first k r ∧ 0 < updates lost k ∧ c = updates lost k

variable {maxTries clock tgt lost first}

theorem updates_mono (h : k ≤ n) : updates lost k ≤ updates lost n := by
  induction h with
  | refl => exact Nat.le_refl _
  | step _ ih => exact Nat.le_trans ih (Nat.le_add_right _ _)

section Counts
variable (hm : Counts maxTries clock tgt lost first n m)
include hm

theorem triesOf_waiting (hr : r ∈ m.toRcpts) : triesOf m r = updates lost n := by
  rw [triesOf,hm.waiting r hr]
  split <;> simp_all

theorem deliveredIn_iff (hs : stateWith maxTries clock tgt lost first n = some m) :
    DeliveredIn maxTries clock tgt lost first n r ↔
      lost n = false ∧ r ∈ m.toRcpts ∧ verdictOf maxTries (tgt n) m r = .done := by
  simp [DeliveredIn,attemptWith,hs,mem_delivered hm.nodup]

theorem counts_lost (hl : lost n = true) : Counts maxTries clock tgt lost first (n + 1) m := by
  have hu : updates lost (n + 1) = updates lost n := by simp [updates,hl]
  have hnot (r : String) : ¬ DeliveredIn maxTries clock tgt lost first n r := by
    simp [DeliveredIn,hl]
  refine ⟨hm.nodup,fun r hr => hu ▸ hm.waiting r hr,fun r hr k hk => ?_,fun r hr c => ?_⟩
  · obtain hlt | rfl := Nat.lt_or_eq_of_le (Nat.le_of_lt_succ hk)
    · exact hm.undelivered r hr k hlt
    · exact hnot r
  · rw [Nat.exists_lt_succ_right,hm.left r hr c]
    simp [hnot r]

theorem counts_next (hs : stateWith maxTries clock tgt lost first n = some m) (hl : lost n = false)
    (hnext : (tryDelivery maxTries (clock n) (tgt n) m).next = some next) :
    Counts maxTries clock tgt lost first (n + 1) next := by
  obtain ⟨hto,hlookup⟩ := next_spec hm.nodup hnext
  have hu : updates lost (n + 1) = updates lost n + 1 := by simp [updates,hl]
  have hmem (r : String) :
      r ∈ next.toRcpts ↔ r ∈ m.toRcpts ∧ verdictOf maxTries (tgt n) m r = .retry := by
    simp [hto]
  refine ⟨hto ▸ hm.nodup.filter _,fun r hr => ?_,fun r hr k hk => ?_,fun r hr c => ?_⟩
  · obtain ⟨hr,hv⟩ := (hmem r).mp hr
    have htries : (m.triesCount.lookup r).getD 0 = updates lost n := triesOf_waiting hm hr
    rw [hlookup,if_pos hr,hv,counted,htries,hu,if_neg (Nat.succ_ne_zero _)]
  · obtain ⟨hr,hv⟩ := (hmem r).mp hr
    obtain hlt | rfl := Nat.lt_or_eq_of_le (Nat.le_of_lt_succ hk)
    · exact hm.undelivered r hr k hlt
    · rw [deliveredIn_iff hm hs,hv]
      simp
  · rw [Nat.exists_lt_succ_right,hlookup]
    by_cases hmr : r ∈ m.toRcpts
    · -- Nobody who is still tried was delivered before.
      have hbefore : ¬ ∃ k < n, DeliveredIn maxTries clock tgt lost first k r ∧
          0 < updates lost k ∧ c = updates lost k :=
        fun ⟨k,hk,hd,_⟩ => hm.undelivered r hmr k hk hd
      rw [if_pos hmr,deliveredIn_iff hm hs,or_iff_right hbefore]
      cases hv : verdictOf maxTries (tgt n) m r with
      | retry => exact absurd ((hmem r).mpr ⟨hmr,hv⟩) hr
      | failed => simp [counted]
      | done =>
        rw [counted,hm.waiting r hmr]
        by_cases hzero : updates lost n = 0
        · simp [hzero]
        · simp only [hzero,↓reduceIte,Option.some.injEq,hl,hmr,true_and,Nat.pos_of_ne_zero hzero]
          exact eq_comm
    · rw [if_neg hmr,hm.left r hmr c,deliveredIn_iff hm hs]
      simp [hmr]

theorem smallest_of_attempt
    (hnext : (tryDelivery maxTries (clock n) (tgt n) m).next = some next) :
    (tryDelivery maxTries (clock n) (tgt n) m).smallestTriesCount =
      min (updates lost n + 1) 999999 := by
  obtain ⟨hto,_⟩ := next_spec hm.nodup hnext
  obtain ⟨r,hr⟩ := List.exists_mem_of_ne_nil _ (next_nonempty hnext)
  rw [hto,List.mem_filter,decide_eq_true_eq] at hr
  apply eq_of_forall_le_iff
  intro x
  rw [le_attempt_smallest hm.nodup,Nat.le_min,and_comm]
  apply and_congr_left'
  constructor
  · intro h
    exact triesOf_waiting hm hr.1 ▸ h r hr.1 hr.2
  · intro h r hr _
    rw [triesOf_waiting hm hr]
    exact h

theorem le_smallest_on_disk (hne : m.toRcpts ≠ []) (x : Nat) :
    x ≤ Disk.smallestTriesCount m ↔
      x ≤ 999999 ∧ (0 < updates lost n → x ≤ updates lost n) ∧
        ∀ k < n, 0 < updates lost k → ∀ r, DeliveredIn maxTries clock tgt lost first k r →
          x ≤ updates lost k := by
  rw [le_smallestTriesCount]
  apply and_congr_right'
  constructor
  · intro h
    refine ⟨fun hpos => ?_,fun k hk hpos r hd => ?_⟩
    · obtain ⟨r,hr⟩ := List.exists_mem_of_ne_nil _ hne
      apply h r
      rw [hm.waiting r hr,if_neg (Nat.ne_of_gt hpos)]
    · have hr : r ∉ m.toRcpts := fun hr => hm.undelivered r hr k hk hd
      exact h r _ ((hm.left r hr _).mpr ⟨k,hk,hd,hpos,rfl⟩)
  · rintro ⟨hwait,hleft⟩ r c hc
    by_cases hr : r ∈ m.toRcpts
    · rw [hm.waiting r hr] at hc
      split at hc
      · cases hc
      · rename_i hpos
        cases hc
        exact hwait (Nat.pos_of_ne_zero hpos)
    · obtain ⟨k,hk,hd,hpos,rfl⟩ := (hm.left r hr c).mp hc
      exact hleft k hk hpos r hd

end Counts

theorem state_succ (hs : stateWith maxTries clock tgt lost first (n + 1) = some p) :
    ∃ m next, stateWith maxTries clock tgt lost first n = some m ∧
      (tryDelivery maxTries (clock n) (tgt n) m).next = some next ∧
      p = if lost n then m else next := by
  obtain ⟨m,hm,hnext⟩ := Option.bind_eq_some_iff.mp hs
  obtain ⟨next,htry,hp⟩ := Option.map_eq_some_iff.mp hnext
  exact ⟨m,next,hm,htry,hp.symm⟩

theorem state_counts (hn : first.toRcpts.Nodup) (h0 : first.triesCount = ∅)
    (hs : stateWith maxTries clock tgt lost first n = some m) :
    Counts maxTries clock tgt lost first n m := by
  induction n generalizing m with
  | zero =>
    cases hs
    refine ⟨hn,fun r _ => ?_,fun r _ k hk => absurd hk (Nat.not_lt_zero k),fun r _ c => ?_⟩
    · rw [h0]
      rfl
    · rw [h0]
      simp
  | succ n ih =>
    obtain ⟨m',next,hm',htry,rfl⟩ := state_succ hs
    cases hl : lost n with
    | true => exact counts_lost (ih hm') hl
    | false => exact counts_next (ih hm') hm' hl htry

theorem state_succ_nonempty (hn : first.toRcpts.Nodup) (h0 : first.triesCount = ∅)
    (hs : stateWith maxTries clock tgt lost first (n + 1) = some p) : p.toRcpts ≠ [] := by
  obtain ⟨m,next,hm,htry,rfl⟩ := state_succ hs
  have hnext := next_nonempty htry
  cases lost n with
  | false => exact hnext
  | true =>
    obtain ⟨r,hr⟩ := List.exists_mem_of_ne_nil _ hnext
    rw [(next_spec (state_counts hn h0 hm).nodup htry).1] at hr
    exact List.ne_nil_of_mem (List.mem_filter.mp hr).1

theorem no_smaller_left_iff :
    (∀ k < n + 1, 0 < updates lost k → ∀ r, DeliveredIn maxTries clock tgt lost first k r →
        min (updates lost n + 1) 999999 ≤ updates lost k) ↔
      ∀ k ≤ n, lost k = false → 0 < updates lost k → updates lost k < 999999 →
        ∀ a, attemptWith maxTries clock tgt lost first k = some a → a.delivered = [] := by
  constructor
  · intro h k hk hl hpos hlt a ha
    apply List.eq_nil_iff_forall_not_mem.mpr
    intro r hr
    have hle := h k (Nat.lt_succ_of_le hk) hpos r ⟨hl,a,ha,hr⟩
    have hmono : updates lost k ≤ updates lost n := updates_mono hk
    omega
  · rintro h k hk hpos r ⟨hl,a,ha,hr⟩
    by_contra hlt
    rw [h k (Nat.le_of_lt_succ hk) hl hpos (by omega) a ha] at hr
    cases hr

/-- If the update was written, only what others have left behind can be smaller than
the count that the attempt has used. -/
theorem found_eq_of_written {Left : Nat → Prop}
    (hfound : ∀ x, x ≤ found ↔ x ≤ 999999 ∧ (0 < u + 1 → x ≤ u + 1) ∧ Left x) :
    found = min (u + 1) 999999 ↔ Left (min (u + 1) 999999) := by
  constructor
  · intro heq
    exact ((hfound _).mp heq.ge).2.2
  · intro hleft
    apply Nat.le_antisymm
    · obtain ⟨hcap,hwait, -⟩ := (hfound found).mp (Nat.le_refl found)
      exact Nat.le_min.mpr ⟨hwait (Nat.succ_pos u),hcap⟩
    · exact (hfound _).mpr ⟨Nat.min_le_right _ _,fun _ => Nat.min_le_left _ _,hleft⟩

/-- If it was lost, the count on disk is one behind, or there is none, which is read
as 999999. -/
theorem found_eq_of_lost {Left : Nat → Prop}
    (hfound : ∀ x, x ≤ found ↔ x ≤ 999999 ∧ (0 < u → x ≤ u) ∧ Left x) (hnone : u = 0 → Left 2) :
    found = min (u + 1) 999999 ↔ 999999 ≤ u ∧ Left (min (u + 1) 999999) := by
  constructor
  · intro heq
    obtain ⟨-,hwait,hleft⟩ := (hfound _).mp heq.ge
    refine ⟨?_,hleft⟩
    by_cases hzero : u = 0
    · have htwo := (hfound 2).mpr ⟨by omega,fun hpos => by omega,hnone hzero⟩
      omega
    · have := hwait (Nat.pos_of_ne_zero hzero)
      omega
  · intro h
    obtain ⟨hcap,hleft⟩ := h
    apply Nat.le_antisymm
    · have hle := ((hfound found).mp (Nat.le_refl found)).1
      omega
    · exact (hfound _).mpr ⟨Nat.min_le_right _ _,fun _ => by omega,hleft⟩

theorem schedule_kept_iff (hnodup : first.toRcpts.Nodup) (h0 : first.triesCount = ∅)
    (ha : attemptWith maxTries clock tgt lost first n = some att)
    (hp : stateWith maxTries clock tgt lost first (n + 1) = some persisted) :
    Disk.smallestTriesCount persisted = att.smallestTriesCount ↔
      (lost n = true → 999999 ≤ updates lost n) ∧
      ∀ k ≤ n, lost k = false → 0 < updates lost k → updates lost k < 999999 →
        ∀ a, attemptWith maxTries clock tgt lost first k = some a → a.delivered = [] := by
  obtain ⟨m,next,hm,htry, -⟩ := state_succ hp
  have hused := smallest_of_attempt (state_counts hnodup h0 hm) htry
  have hfound := le_smallest_on_disk (state_counts hnodup h0 hp) (state_succ_nonempty hnodup h0 hp)
  rw [attemptWith,hm] at ha
  cases ha
  rw [hused,← no_smaller_left_iff]
  cases hl : lost n with
  | false =>
    have hu : updates lost (n + 1) = updates lost n + 1 := by simp [updates,hl]
    rw [hu] at hfound
    rw [found_eq_of_written hfound]
    exact (and_iff_right fun h => absurd h Bool.false_ne_true).symm
  | true =>
    have hu : updates lost (n + 1) = updates lost n := by simp [updates,hl]
    rw [hu] at hfound
    rw [found_eq_of_lost hfound]
    · exact and_congr_left' ⟨fun h _ => h,fun h => h rfl⟩
    · -- Without an update nobody has left a count behind.
      intro hzero k hk hpos
      have hmono : updates lost k ≤ updates lost n := updates_mono (Nat.le_of_lt_succ hk)
      omega

end Run

/-- The recipients are distinct, the update of attempt `n` has reached the disk, and nobody was
delivered since the first update. From 999999 tries on all counts are the same. -/
structure CountsKept (maxTries : Int) (clock : Nat → Int) (tgt : Nat → Target) (lost : Nat → Bool)
    (first : QueueMetadata) (n : Nat) : Prop where
  distinct : first.toRcpts.Nodup
  written : lost n = true → 999999 ≤ updates lost n
  undelivered : ∀ k ≤ n, lost k = false → 0 < updates lost k → updates lost k < 999999 →
    ∀ a, attemptWith maxTries clock tgt lost first k = some a → a.delivered = []

/-- A restart after attempt `n` goes by the count that the attempt has used if the counts were kept,
and for distinct recipients only then: the tries of a delivered recipient stay in the map. -/
theorem restart_keeps_schedule_iff (maxTries : Int) (clock : Nat → Int) (tgt : Nat → Target)
    (lost : Nat → Bool) (msgMeta : MsgMetadata) (mailFrom : String) (now : Int)
    (rcpts : List String) (n : Nat) (att : Attempt) (persisted : QueueMetadata)
    (ha : attemptWith maxTries clock tgt lost (queued msgMeta mailFrom now rcpts) n = some att)
    (hp : stateWith maxTries clock tgt lost (queued msgMeta mailFrom now rcpts) (n + 1) =
      some persisted) :
    (CountsKept maxTries clock tgt lost (queued msgMeta mailFrom now rcpts) n →
      Disk.smallestTriesCount persisted = att.smallestTriesCount) ∧
    (rcpts.Nodup → Disk.smallestTriesCount persisted = att.smallestTriesCount →
      CountsKept maxTries clock tgt lost (queued msgMeta mailFrom now rcpts) n) := by
  have h0 := queued_triesCount msgMeta mailFrom now rcpts
  have hto := (queued_fields msgMeta mailFrom now rcpts).1
  generalize queued msgMeta mailFrom now rcpts = first at *
  subst hto
  refine ⟨fun h => (schedule_kept_iff h.distinct h0 ha hp).mpr ⟨h.written,h.undelivered⟩,
    fun hn heq => ?_⟩
  obtain ⟨hwritten,hnobody⟩ := (schedule_kept_iff hn h0 ha hp).mp heq
  exact ⟨hn,hwritten,hnobody⟩

def unreachableFor (down : List String) : Target :=
  { start := none
    addRcpt := fun _ => none
    body := .nonAtomic (down.map fun rcpt => (rcpt,some (.leaf "try again later" (some true))))
    commit := none }

def queuedTo (rcpts : List String) : QueueMetadata :=
  queued ⟨"id","",false,false,fun _ => none,⟨false,false⟩,none,false⟩ "sender" 0 rcpts

theorem restart_keeps_schedule_unreachable :
    ∃ att persisted,
      attemptWith 20 (fun _ => 0) (fun _ => unreachableFor ["a","b"]) (fun _ => false)
        (queuedTo ["a","b"]) 1 = some att ∧
      stateWith 20 (fun _ => 0) (fun _ => unreachableFor ["a","b"]) (fun _ => false)
        (queuedTo ["a","b"]) 2 = some persisted ∧
      Disk.smallestTriesCount persisted = att.smallestTriesCount := by
  refine ⟨_,_,rfl,rfl,?_⟩
  apply (restart_keeps_schedule_iff 20 (fun _ => 0) (fun _ => unreachableFor ["a","b"])
    (fun _ => false) _ "sender" 0 ["a","b"] 1 _ _ rfl rfl).1
  refine ⟨by decide,fun h => absurd h Bool.false_ne_true,fun k hk _ hpos _ a ha => ?_⟩
  obtain rfl | rfl := Nat.le_one_iff_eq_zero_or_eq_one.mp hk
  · exact absurd hpos (Nat.lt_irrefl 0)
  · cases ha
    rfl

def oneComesBack (n : Nat) : Target := unreachableFor (if n = 0 then ["a","b"] else ["b"])

/-- The count of an attempt, and the one found on disk after it. -/
def counts (tgt : Nat → Target) (rcpts : List String) (n : Nat) : Option Nat × Option Nat :=
  ((attemptWith 20 (fun _ => 0) tgt (fun _ => false) (queuedTo rcpts) n).map
      Attempt.smallestTriesCount,
    (stateWith 20 (fun _ => 0) tgt (fun _ => false) (queuedTo rcpts) (n + 1)).map
      Disk.smallestTriesCount)

/-- Both recipients are put off, then one of them is delivered: the queue waits for the delay of a
third try, a restart for that of a second one. And an address that stands twice in the list is
counted twice, while the loop takes its first count. -/
theorem delivered_tries_shorten_delay :
    counts oneComesBack ["a","b"] 1 = (some 2,some 1) ∧
      counts (fun _ => unreachableFor ["a"]) ["a","a"] 0 = (some 1,some 2) := by
  decide

end Madmail.Proofs.RetrySchedule
