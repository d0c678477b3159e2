import Madmail.Proofs.QueueTally

namespace Madmail.Proofs.QueueDiskErrors
open Exterrors Madmail.Module Queue QueueAccounting QueueTally Lib.Retry Function

/-- At most `maxTries` attempts are made, and a recipient that an attempt has
succeeded for is not handed to the target in a later one. -/
structure Bounded (maxTries : Int) (clock : Nat → Int) (tgt : Nat → Target) (lost : Nat → Bool)
    (first : QueueMetadata) : Prop where
  attempts : ∀ n, attemptWith maxTries clock tgt lost first n ≠ none → (n : Int) < maxTries
  not_again : ∀ n k a b, n < k → attemptWith maxTries clock tgt lost first n = some a →
    attemptWith maxTries clock tgt lost first k = some b → ∀ r ∈ a.delivered, r ∉ b.handed

/-- A number of attempts that is still needed, at the least, when `k` occurrences
of an address keep failing temporarily and `c` tries are counted for it. -/
def reserve (maxTries k c : Nat) : Nat :=
  if k = 0 then 0
  else if k = 1 then maxTries - c
  else if c + 2 ≤ maxTries then maxTries + 1
  else maxTries

section Reserve
variable (maxTries : Nat) {t : Tally}

theorem turn_cases (htemp : isTemporaryOrUnspec err = true) (t : Tally) :
    (maxTries ≤ t.tries + 1 ∧ (turn maxTries (some err) t).tries = 0 ∧
        (turn maxTries (some err) t).kept = t.kept) ∨
      (t.tries + 1 < maxTries ∧ (turn maxTries (some err) t).tries = t.tries + 1 ∧
        (turn maxTries (some err) t).kept = t.kept + 1) := by
  unfold turn
  simp only [htemp,Bool.not_true,Bool.false_eq_true,false_or]
  split <;> simp <;> omega

theorem turn_twice_kept (hmax : 2 ≤ maxTries) (htemp : isTemporaryOrUnspec err = true) (t : Tally) :
    t.kept + 1 ≤ (turn maxTries (some err) (turn maxTries (some err) t)).kept := by
  have h1 := turn_cases maxTries htemp t
  have h2 := turn_cases maxTries htemp (turn maxTries (some err) t)
  omega

theorem turns_kept_mono (htemp : isTemporaryOrUnspec err = true) (n : Nat) (t : Tally) :
    t.kept ≤ ((turn maxTries (some err))^[n] t).kept := by
  induction n with
  | zero => exact Nat.le_refl _
  | succ n ih =>
    rw [iterate_succ_apply']
    have h := turn_cases maxTries htemp ((turn maxTries (some err))^[n] t)
    omega

theorem turns_kept_three (hmax : 2 ≤ maxTries) (htemp : isTemporaryOrUnspec err = true)
    (n : Nat) (t : Tally) :
    t.kept + 2 ≤ ((turn maxTries (some err))^[n + 3] t).kept ∨
      t.kept + 1 ≤ ((turn maxTries (some err))^[n + 3] t).kept ∧
        ((turn maxTries (some err))^[n + 3] t).tries = 0 := by
  have h1 := turn_cases maxTries htemp t
  have h2 := turn_cases maxTries htemp (turn maxTries (some err) t)
  have h3 := turn_cases maxTries htemp (turn maxTries (some err) (turn maxTries (some err) t))
  cases n with
  | zero =>
    simp only [Nat.zero_add,iterate_succ_apply,iterate_zero_apply]
    omega
  | succ n =>
    left
    have h4 := turn_twice_kept maxTries hmax htemp
      (turn maxTries (some err) (turn maxTries (some err) t))
    have hmono := turns_kept_mono maxTries htemp n
      (turn maxTries (some err) (turn maxTries (some err) (turn maxTries (some err)
        (turn maxTries (some err) t))))
    rw [show n + 1 + 3 = n + 1 + 1 + 1 + 1 from rfl]
    simp only [iterate_succ_apply]
    omega

theorem turns_tries (hmax : 2 ≤ maxTries) (htemp : isTemporaryOrUnspec err = true)
    (ht : t.tries < maxTries) : ((turn maxTries (some err))^[n] t).tries < maxTries := by
  induction n with
  | zero => exact ht
  | succ n ih =>
    rw [iterate_succ_apply']
    have h := turn_cases maxTries htemp ((turn maxTries (some err))^[n] t)
    omega

theorem reserve_le (k c : Nat) : reserve maxTries k c ≤ maxTries + 1 := by
  unfold reserve
  split_ifs <;> omega

theorem le_reserve_one (hk : 1 ≤ k) (c : Nat) : maxTries - c ≤ reserve maxTries k c := by
  unfold reserve
  split_ifs <;> omega

theorem le_reserve_two (hk : 2 ≤ k) (c : Nat) : maxTries ≤ reserve maxTries k c := by
  unfold reserve
  split_ifs <;> omega

theorem reserve_turns (hmax : 2 ≤ maxTries) (htemp : isTemporaryOrUnspec err = true) (k : Nat)
    (hc : c < maxTries) :
    reserve maxTries k c ≤
      reserve maxTries ((turn maxTries (some err))^[k] ⟨c,0,0,0⟩).kept
        ((turn maxTries (some err))^[k] ⟨c,0,0,0⟩).tries + 1 := by
  have h1 := turn_cases maxTries htemp ⟨c,0,0,0⟩
  have h2 := turn_cases maxTries htemp (turn maxTries (some err) ⟨c,0,0,0⟩)
  match k with
  | 0 => simp [reserve]
  | 1 =>
    simp only [iterate_succ_apply,iterate_zero_apply]
    generalize turn maxTries (some err) ⟨c,0,0,0⟩ = u at h1 ⊢
    dsimp only at h1
    have hone : reserve maxTries 1 c = maxTries - c := rfl
    rcases h1 with ⟨hlast, -, -⟩ | ⟨hmore,htries,hkept⟩
    · omega
    · have hrest := le_reserve_one maxTries (Nat.le_of_eq hkept.symm) u.tries
      omega
  | 2 =>
    simp only [iterate_succ_apply,iterate_zero_apply]
    generalize turn maxTries (some err) ⟨c,0,0,0⟩ = u at h1 h2 ⊢
    generalize turn maxTries (some err) u = v at h2 ⊢
    dsimp only at h1
    have hle := reserve_le maxTries 2 c
    have hkept : 1 ≤ v.kept := by omega
    have hone := le_reserve_one maxTries hkept v.tries
    rcases h1 with ⟨hlast,htries,hkept⟩ | ⟨hmore,htries,hkept⟩
    · -- the first occurrence is given up, and the second one is counted from zero
      have htwo : reserve maxTries 2 c = maxTries := if_neg (show ¬ c + 2 ≤ maxTries by omega)
      omega
    · rcases h2 with ⟨-,hzero, -⟩ | ⟨-, -,hboth⟩
      · omega
      · have htwo := le_reserve_two maxTries (show 2 ≤ v.kept by omega) v.tries
        omega
  | n + 3 =>
    have hle := reserve_le maxTries (n + 3) c
    rcases turns_kept_three maxTries hmax htemp n ⟨c,0,0,0⟩ with hkept | ⟨hkept,htries⟩
    · have hrest := le_reserve_two maxTries hkept
        ((turn maxTries (some err))^[n + 3] ⟨c,0,0,0⟩).tries
      omega
    · have hrest := le_reserve_one maxTries hkept 0
      rw [htries]
      exact Nat.le_trans hle (Nat.succ_le_succ hrest)

end Reserve

def down : Target :=
  { start := some (.leaf "connection refused" (some true))
    addRcpt := fun _ => none
    body := .atomic none
    commit := none }

theorem after_down (maxTries : Int) (m : QueueMetadata) (r : String) :
    after maxTries down m r =
      (turn maxTries (some (.leaf "connection refused" (some true))))^[m.toRcpts.count r]
        ⟨triesOf m r,0,0,0⟩ := by
  by_cases hr : r ∈ m.toRcpts
  · have herr : (deliver down m.toRcpts).errs r = some (.leaf "connection refused" (some true)) := by
      simp only [deliver,down,expand_apply,if_pos hr]
    rw [after,herr]
  · rw [after_absent hr,List.count_eq_zero.mpr hr,iterate_zero_apply]

def needs (maxTries : Nat) (r : String) : Option QueueMetadata → Nat
  | none => 0
  | some m => reserve maxTries (m.toRcpts.count r) (triesOf m r)

section Run
variable {maxTries : Nat} {lost : Nat → Bool} {first : QueueMetadata} {r : String}
variable (hmax : 2 ≤ maxTries)
include hmax

theorem needs_next (now : Int) (ht : triesOf m r < maxTries) :
    needs maxTries r (some m) ≤ needs maxTries r (tryDelivery maxTries now down m).next + 1 ∧
      ∀ next, (tryDelivery maxTries now down m).next = some next → triesOf next r < maxTries := by
  obtain ⟨_,hnone,hsome⟩ := tryDelivery_tally maxTries now down m
  have htemp : isTemporaryOrUnspec (.leaf "connection refused" (some true)) = true := rfl
  have hturns := reserve_turns maxTries hmax htemp (m.toRcpts.count r) ht
  rw [← after_down] at hturns
  refine ⟨?_,fun next hnext => ?_⟩
  · cases hx : (tryDelivery maxTries now down m).next with
    | none =>
      rw [hnone.mp hx r] at hturns
      simpa [needs,reserve] using hturns
    | some next =>
      obtain ⟨hcount,htries⟩ := hsome next hx r
      simp only [needs,hcount,htries]
      exact hturns
  · rw [(hsome next hnext r).2,after_down]
    exact turns_tries maxTries hmax htemp ht

def stuck (maxTries : Nat) (lost : Nat → Bool) (first : QueueMetadata) : Nat → Option QueueMetadata :=
  stateWith maxTries (fun _ => 0) (fun _ => down) lost first

variable (h0 : triesOf first r < maxTries)
include h0

theorem stuck_tries (n : Nat) :
    ∀ m, stuck maxTries lost first n = some m → triesOf m r < maxTries := by
  induction n with
  | zero =>
    intro m hm
    cases hm
    exact h0
  | succ n ih =>
    intro next hnext
    obtain ⟨m,hm,hx⟩ := Option.bind_eq_some_iff.mp hnext
    obtain ⟨next',hnext',rfl⟩ := Option.map_eq_some_iff.mp hx
    split
    · exact ih m hm
    · exact (needs_next hmax 0 (ih m hm)).2 next' hnext'

/-- An attempt brings the end nearer by one attempt at the most, and not at all
when its update does not reach the disk. -/
theorem needs_step (n : Nat) :
    needs maxTries r (stuck maxTries lost first n) ≤
      needs maxTries r (stuck maxTries lost first (n + 1)) +
        if lost n = true ∧ 2 ≤ needs maxTries r (stuck maxTries lost first n) then 0 else 1 := by
  cases hs : stuck maxTries lost first n with
  | none => exact Nat.zero_le _
  | some m =>
    have hnext := (needs_next hmax 0 (stuck_tries hmax h0 n m hs)).1
    have hstep : stuck maxTries lost first (n + 1) =
        (tryDelivery maxTries 0 down m).next.map (fun next => if lost n then m else next) := by
      unfold stuck at hs
      simp [stuck,stateWith,hs]
    rw [hstep]
    cases hx : (tryDelivery maxTries 0 down m).next with
    | none =>
      rw [hx] at hnext
      have hle : needs maxTries r (some m) ≤ 1 := hnext
      rw [if_neg (fun h => by omega)]
      exact hnext
    | some next =>
      rw [hx] at hnext
      cases hl : lost n with
      | true =>
        simp only [Option.map_some,↓reduceIte,true_and]
        split <;> omega
      | false => simpa using hnext

theorem needs_run (n d : Nat) :
    needs maxTries r (stuck maxTries lost first n) ≤
      needs maxTries r (stuck maxTries lost first (n + d)) + d := by
  induction d with
  | zero => exact Nat.le_refl _
  | succ d ih =>
    have hstep := @needs_step maxTries lost first r hmax h0 (n + d)
    rw [Nat.add_assoc] at hstep
    split at hstep <;> omega

/-- If more than `maxTries` attempts are needed at some time, then there are
more in the whole run. -/
theorem unbounded_of_needs (n : Nat)
    (hn : n ≤ maxTries) (h : maxTries < needs maxTries r (stuck maxTries lost first n) + n) :
    ¬ Bounded maxTries (fun _ => 0) (fun _ => down) lost first := by
  intro hb
  have hrun := @needs_run maxTries lost first r hmax h0 n (maxTries - n)
  rw [Nat.add_sub_cancel' hn] at hrun
  have hlt := hb.attempts maxTries ?_
  · omega
  · intro hnone
    rw [attemptWith,Option.map_eq_none_iff] at hnone
    have hz : needs maxTries r (stuck maxTries lost first maxTries) = 0 := by
      simp only [stuck,hnone,needs]
    omega

end Run

theorem unbounded_of_duplicate {maxTries : Nat} (hmax : 2 ≤ maxTries) (lost : Nat → Bool)
    (h0 : triesOf first r = 0) (hdup : 2 ≤ first.toRcpts.count r) :
    ¬ Bounded maxTries (fun _ => 0) (fun _ => down) lost first := by
  apply @unbounded_of_needs maxTries lost first r hmax (by omega) 0 (Nat.zero_le _)
  have hneeds : needs maxTries r (stuck maxTries lost first 0) =
      reserve maxTries (first.toRcpts.count r) (triesOf first r) := rfl
  rw [hneeds,h0]
  unfold reserve
  split_ifs <;> omega

theorem unbounded_of_lost {maxTries : Nat} (hone : first.toRcpts.count r = 1)
    (h0 : triesOf first r = 0) (hn : n + 1 < maxTries) (hlost : lost n = true) :
    ¬ Bounded maxTries (fun _ => 0) (fun _ => down) lost first := by
  have hmax : 2 ≤ maxTries := by omega
  have hstart : needs maxTries r (stuck maxTries lost first 0) = maxTries := by
    have hneeds : needs maxTries r (stuck maxTries lost first 0) =
        reserve maxTries (first.toRcpts.count r) (triesOf first r) := rfl
    rw [hneeds,hone,h0]
    rfl
  have hrun := @needs_run maxTries lost first r hmax (by omega) 0 n
  have hstep := @needs_step maxTries lost first r hmax (by omega) n
  rw [Nat.zero_add,hstart] at hrun
  rw [if_pos ⟨hlost,by omega⟩] at hstep
  exact @unbounded_of_needs maxTries lost first r hmax (by omega) (n + 1) (by omega) (by omega)

section Bounded
variable {maxTries : Int} {clock : Nat → Int} {tgt : Nat → Target} {lost : Nat → Bool}
  {first : QueueMetadata}

theorem turn_only (e : Option Err) (t : Tally) : (turn 1 e t).kept = t.kept := by
  unfold turn
  split
  · rfl
  · rw [if_pos (Or.inr (by omega))]

theorem next_none (now : Int) (tgt : Target) (h : maxTries = 1 ∨ m.toRcpts = []) :
    (tryDelivery maxTries now tgt m).next = none := by
  refine (tryDelivery_tally maxTries now tgt m).2.1.mpr fun r => ?_
  rcases h with rfl | hempty
  · unfold after
    induction m.toRcpts.count r with
    | zero => rfl
    | succ n ih => rw [iterate_succ_apply',turn_only,ih]
  · rw [after_absent (by simp [hempty])]

theorem bounded_of_single (hmax : 1 ≤ maxTries) (h : maxTries = 1 ∨ first.toRcpts = []) :
    Bounded maxTries clock tgt lost first := by
  have hone (n : Nat) : stateWith maxTries clock tgt lost first (n + 1) = none := by
    induction n with
    | zero => simp only [stateWith,Option.bind_some,next_none _ _ h,Option.map_none]
    | succ n ih => rw [stateWith,ih,Option.bind_none]
  have hzero (n : Nat) (ha : attemptWith maxTries clock tgt lost first n ≠ none) : n = 0 := by
    cases n with
    | zero => rfl
    | succ n => exact absurd (by rw [attemptWith,hone,Option.map_none]) ha
  refine ⟨fun n ha => ?_,fun n k a b hlt _ hb => ?_⟩
  · have := hzero n ha
    omega
  · have := hzero k (by simp [hb])
    omega

theorem stateAt_none (hs : stateAt maxTries clock tgt first n = none) (hle : n ≤ k) :
    stateAt maxTries clock tgt first k = none := by
  induction hle with
  | refl => exact hs
  | step _ ih => simp [stateAt,ih]

/-- With the updates that matter on the disk, the run is the one without disk
errors. -/
theorem stateWith_eq (hmax : 1 ≤ maxTries) (hn : first.toRcpts.Nodup)
    (h0 : ∀ r ∈ first.toRcpts, first.triesCount.lookup r = none)
    (hlost : ∀ n : Nat, (n : Int) + 1 < maxTries → lost n = false) :
    stateWith maxTries clock tgt lost first n = stateAt maxTries clock tgt first n := by
  induction n with
  | zero => rfl
  | succ n ih =>
    by_cases hlt : (n : Int) + 1 < maxTries
    · simp [stateWith,stateAt,ih,hlost n hlt]
    · have hover : stateAt maxTries clock tgt first (n + 1) = none :=
        stateAt_none (run_ends hn h0 hmax) (by omega)
      rw [hover,stateWith,ih]
      cases hs : stateAt maxTries clock tgt first n with
      | none => rfl
      | some m =>
        rw [stateAt,hs,Option.bind_some] at hover
        rw [Option.bind_some,hover,Option.map_none]

theorem bounded_of_updates (hmax : 1 ≤ maxTries) (hn : first.toRcpts.Nodup)
    (h0 : ∀ r ∈ first.toRcpts, first.triesCount.lookup r = none)
    (hlost : ∀ n : Nat, (n : Int) + 1 < maxTries → lost n = false) :
    Bounded maxTries clock tgt lost first := by
  have heq (n : Nat) : attemptWith maxTries clock tgt lost first n =
      attemptAt maxTries clock tgt first n := by
    rw [attemptWith,stateWith_eq hmax hn h0 hlost,attemptAt]
  refine ⟨fun n ha => ?_,fun n k a b hlt ha hb r hr => ?_⟩
  · by_contra hge
    apply ha
    rw [heq,attemptAt,stateAt_none (run_ends hn h0 hmax) (by omega),Option.map_none]
  · rw [heq] at ha hb
    -- A delivered recipient is pending and done, so it is not pending later.
    have hcount := (@class_count maxTries clock tgt first hn h0 n r).1
    rw [ha] at hcount
    have hpos : 0 < countIn Attempt.delivered (some a) r := List.count_pos_iff.mpr hr
    have hdone : verdictAt maxTries clock tgt first n r = .done := by
      by_contra hne
      rw [if_neg fun h => hne h.2] at hcount
      omega
    have hgone := handed_pending hn h0 (settled_gone (by rw [hdone]; decide) hlt)
    rw [hb] at hgone
    exact List.count_eq_zero.mp hgone

end Bounded

/-- Whatever the target answers, there are at most `maxTries` attempts and none
for a recipient that an earlier one has succeeded for: exactly if there is a
first try to make, and it is the last one, or there is nobody to try, or no
recipient is listed twice and the updates after all but the last possible
attempt reach the disk. -/
theorem disk_errors_bounded_iff (maxTries : Int) (lost : Nat → Bool) (msgMeta : MsgMetadata)
    (mailFrom : String) (now : Int) (rcpts : List String) :
    (∀ clock tgt, Bounded maxTries clock tgt lost (queued msgMeta mailFrom now rcpts)) ↔
      1 ≤ maxTries ∧ (maxTries = 1 ∨ rcpts = [] ∨
        rcpts.Nodup ∧ ∀ n : Nat, (n : Int) + 1 < maxTries → lost n = false) := by
  obtain ⟨hto,htries⟩ := queued_fields msgMeta mailFrom now rcpts
  constructor
  · intro h
    have hmax : 1 ≤ maxTries := by
      have := (h (fun _ => 0) (fun _ => down)).attempts 0 (by simp [attemptWith,stateWith])
      omega
    refine ⟨hmax,?_⟩
    by_cases hone : maxTries = 1
    · exact Or.inl hone
    obtain ⟨tries,rfl⟩ := Int.eq_ofNat_of_zero_le (show 0 ≤ maxTries by omega)
    have htwo : 2 ≤ tries := by omega
    refine Or.inr ?_
    cases hr : rcpts with
    | nil => exact Or.inl rfl
    | cons first rest =>
      right
      rw [← hr]
      have hnodup : rcpts.Nodup := by
        refine List.nodup_iff_count_le_one.mpr fun r => ?_
        by_contra hdup
        exact unbounded_of_duplicate htwo lost (htries r) (by rw [hto]; omega) (h _ _)
      refine ⟨hnodup,fun n hn => ?_⟩
      by_contra hlost
      refine unbounded_of_lost ?_ (htries first) (show n + 1 < tries by omega)
        (by simpa using hlost) (h _ _)
      rw [hto]
      exact List.count_eq_one_of_mem hnodup (by simp [hr])
  · rintro ⟨hmax,hone | hempty | ⟨hnodup,hlost⟩⟩ clock tgt
    · exact bounded_of_single hmax (Or.inl hone)
    · exact bounded_of_single hmax (Or.inr (hto.trans hempty))
    · refine bounded_of_updates hmax (by rw [hto]; exact hnodup) (fun r _ => ?_) hlost
      rw [queued_triesCount]
      rfl

def secondFull : Target :=
  { start := none
    addRcpt := fun k => if k = 1 then some (.leaf "mailbox is full" (some true)) else none
    body := .atomic none
    commit := none }

/-- The update after the first attempt is lost, and the recipient that has got
the message gets it again. -/
theorem delivered_again_after_lost_update :
    ¬ ∀ (maxTries : Int) (lost : Nat → Bool) (msgMeta : MsgMetadata) (mailFrom : String)
      (now : Int) (rcpts : List String) (clock : Nat → Int) (tgt : Nat → Target),
      Bounded maxTries clock tgt lost (queued msgMeta mailFrom now rcpts) := by
  intro h
  have hagain := (h 20 (fun n => n = 0) { id := "m1" } "ann" 0 ["bob","carol"] (fun _ => 0)
    (fun _ => secondFull)).not_again 0 1 _ _ (by decide) rfl rfl "bob" (by decide)
  exact hagain (by decide)

end Madmail.Proofs.QueueDiskErrors
