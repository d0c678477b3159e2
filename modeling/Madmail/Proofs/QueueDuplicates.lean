import Madmail.Proofs.QueueTally
import Mathlib.Algebra.GroupWithZero.Nat
import Mathlib.Algebra.Order.BigOperators.Group.List
import Mathlib.Algebra.Order.Group.Nat
import Mathlib.Data.List.Dedup

namespace Madmail.Proofs.QueueDuplicates
open Exterrors Madmail.Module Queue QueueTally

/-- How the body is taken by a target that treats equal addresses equally. -/
inductive AddrBody where
  | atomic (err : Option Err)
  | nonAtomic (status : String → Option Err)

/-- What a target that treats equal addresses equally answers in one attempt. -/
structure AddrTarget where
  start : Option Err
  addRcpt : String → Option Err
  body : AddrBody
  commit : Option Err

namespace AddrTarget
variable (t : AddrTarget)

def takes (rcpts : List String) : List String := rcpts.filter (fun rcpt => (t.addRcpt rcpt).isNone)

def on (rcpts : List String) : Target :=
  { start := t.start
    addRcpt := fun k => rcpts[k]?.bind t.addRcpt
    body := match t.body with
      | .atomic err => .atomic err
      | .nonAtomic status => .nonAtomic ((t.takes rcpts).map (fun rcpt => (rcpt,status rcpt)))
    commit := t.commit }

def bodyErr (rcpt : String) : Option Err :=
  match t.body with
  | .atomic err => err
  | .nonAtomic status => status rcpt

def errOf (rcpts : List String) (rcpt : String) : Option Err :=
  match t.start with
  | some err => some err
  | none =>
    match t.addRcpt rcpt with
    | some err => some err
    | none =>
      if (t.takes rcpts).all (fun r => (t.bodyErr r).isSome) then t.bodyErr rcpt
      else t.commit <|> t.bodyErr rcpt

end AddrTarget

theorem statuses_apply {rcpts : List String} {status : String → Option Err} :
    (rcpts.map (fun r => (r,status r))).foldl (fun errs st => setStatus errs st.1 st.2) errs rcpt =
      if rcpt ∈ rcpts then status rcpt <|> errs rcpt else errs rcpt := by
  induction rcpts generalizing errs with
  | nil => simp
  | cons r rest ih =>
    rw [List.map_cons,List.foldl_cons,ih]
    by_cases h : rcpt = r
    · subst h
      cases status rcpt <;> simp [setStatus]
    · cases status r <;> simp [setStatus,h]

theorem addRcpts_on (t : AddrTarget) (before rest : List String) (errs : Errs)
    (acc : List String) :
    (addRcpts (t.on (before ++ rest)) before.length rest errs acc).2 = acc ++ t.takes rest ∧
    ∀ rcpt, (addRcpts (t.on (before ++ rest)) before.length rest errs acc).1 rcpt =
      if rcpt ∈ rest then t.addRcpt rcpt <|> errs rcpt else errs rcpt := by
  induction rest generalizing before errs acc with
  | nil => simp [addRcpts,AddrTarget.takes]
  | cons r rest ih =>
    have hnext := ih (before ++ [r])
    simp only [List.append_assoc,List.singleton_append,List.length_append,
      List.length_singleton] at hnext
    have hcall : (t.on (before ++ r :: rest)).addRcpt before.length = t.addRcpt r := by
      simp [AddrTarget.on]
    unfold addRcpts
    rw [hcall]
    cases hr : t.addRcpt r
    case' some err => obtain ⟨hacc,herrs⟩ := hnext (Function.update errs r (some err)) acc
    case' none => obtain ⟨hacc,herrs⟩ := hnext errs (acc ++ [r])
    all_goals
      refine ⟨by simpa [AddrTarget.takes,hr] using hacc,fun rcpt => ?_⟩
      rw [herrs rcpt]
      by_cases h : rcpt = r
      · subst h
        simp [hr]
      · simp [h]

theorem mem_takes {t : AddrTarget} : rcpt ∈ t.takes rcpts ↔ rcpt ∈ rcpts ∧ t.addRcpt rcpt = none := by
  simp [AddrTarget.takes]

theorem bodyErrs_on {t : AddrTarget} {errs : Errs}
    (herrs : ∀ rcpt ∈ rcpts, errs rcpt = t.addRcpt rcpt) (hmem : rcpt ∈ rcpts) :
    bodyErrs (t.takes rcpts) errs (t.on rcpts).body rcpt =
      (t.addRcpt rcpt <|> t.bodyErr rcpt) := by
  have herr := herrs rcpt hmem
  unfold AddrTarget.on AddrTarget.bodyErr
  cases t.body with
  | atomic err =>
    cases err with
    | none => cases hr : t.addRcpt rcpt <;> simp [bodyErrs,herr,hr]
    | some err =>
      simp only [bodyErrs,expand_apply,mem_takes,herr]
      cases hr : t.addRcpt rcpt <;> simp [hmem]
  | nonAtomic status =>
    simp only [bodyErrs,statuses_apply,mem_takes,herr]
    cases hr : t.addRcpt rcpt <;> simp [hmem]

theorem deliver_on {t : AddrTarget} (hmem : rcpt ∈ rcpts) :
    (deliver (t.on rcpts) rcpts).errs rcpt = t.errOf rcpts rcpt := by
  unfold deliver AddrTarget.errOf
  cases hstart : t.start with
  | some err =>
    have hs : (t.on rcpts).start = some err := hstart
    simp [hs,expand_apply,hmem]
  | none =>
    have hs : (t.on rcpts).start = none := hstart
    obtain ⟨hacc,herrs⟩ := addRcpts_on t [] rcpts (fun _ => none) []
    simp only [List.nil_append,List.length_nil] at hacc herrs
    rcases hr : addRcpts (t.on rcpts) 0 rcpts (fun _ => none) [] with ⟨errs,acc⟩
    rw [hr] at hacc herrs
    dsimp only at hacc herrs
    subst hacc
    have herrs' : ∀ r ∈ rcpts, errs r = t.addRcpt r := by
      intro r hr
      rw [herrs r,if_pos hr]
      cases t.addRcpt r <;> rfl
    have hall : (t.takes rcpts).all
          (fun r => (bodyErrs (t.takes rcpts) errs (t.on rcpts).body r).isSome) =
        (t.takes rcpts).all (fun r => (t.bodyErr r).isSome) := by
      rw [Bool.eq_iff_iff,List.all_eq_true,List.all_eq_true]
      refine forall₂_congr fun r hr => ?_
      rw [bodyErrs_on herrs' (mem_takes.mp hr).1,(mem_takes.mp hr).2]
      rfl
    simp only [hs,hall]
    by_cases hempty : t.takes rcpts = []
    · -- Nobody was accepted, so this recipient was refused.
      cases haddr : t.addRcpt rcpt with
      | none =>
        have : rcpt ∈ t.takes rcpts := mem_takes.mpr ⟨hmem,haddr⟩
        simp [hempty] at this
      | some err => simp [hempty,herrs' rcpt hmem,haddr]
    · have hbody := bodyErrs_on herrs' hmem
      have hcommit : (t.on rcpts).commit = t.commit := rfl
      rw [if_neg (by simpa using hempty)]
      cases haddr : t.addRcpt rcpt with
      | some err =>
        rw [haddr] at hbody
        have hout : rcpt ∉ t.takes rcpts := by simp [mem_takes,haddr]
        cases hc : t.commit <;> split <;> simp [hcommit,hc,hbody,expand_apply,hout]
      | none =>
        rw [haddr] at hbody
        have hin : rcpt ∈ t.takes rcpts := mem_takes.mpr ⟨hmem,haddr⟩
        cases hc : t.commit <;> split <;> simp [hcommit,hc,hbody,expand_apply,hin]

theorem errOf_congr {t : AddrTarget} (h : ∀ r, r ∈ rcpts ↔ r ∈ rcpts') :
    t.errOf rcpts rcpt = t.errOf rcpts' rcpt := by
  have hall : (t.takes rcpts).all (fun r => (t.bodyErr r).isSome) =
      (t.takes rcpts').all (fun r => (t.bodyErr r).isSome) := by
    rw [Bool.eq_iff_iff,List.all_eq_true,List.all_eq_true]
    simp only [mem_takes,h]
  simp only [AddrTarget.errOf,hall]

section Run
variable (maxTries : Int) (clock : Nat → Int) (tgt : Nat → AddrTarget)

/-- The life of a queued message, for such a target: the meta-data that attempt
number `n` starts from. -/
def stateOf (first : QueueMetadata) : Nat → Option QueueMetadata
  | 0 => some first
  | n + 1 => (stateOf first n).bind
      (fun m => (tryDelivery maxTries (clock n) ((tgt n).on m.toRcpts) m).next)

def tried (first : QueueMetadata) (n : Nat) (rcpt : String) : Bool :=
  match stateOf maxTries clock tgt first n with
  | none => false
  | some m => rcpt ∈ m.toRcpts

def reported (first : QueueMetadata) (n : Nat) (rcpt : String) : Nat :=
  match stateOf maxTries clock tgt first n with
  | none => 0
  | some m => (tryDelivery maxTries (clock n) ((tgt n).on m.toRcpts) m).dsn.count rcpt

/-- What came of an address. -/
structure Outcome where
  attempts : Nat
  reports : Nat
  -- It was tried again after it had been reported.
  again : Bool
  deriving DecidableEq

def outcome (first : QueueMetadata) (n : Nat) (rcpt : String) : Outcome :=
  { attempts := (List.range n).countP (fun k => tried maxTries clock tgt first k rcpt)
    reports := ((List.range n).map (fun k => reported maxTries clock tgt first k rcpt)).sum
    again := (List.range n).any (fun k => tried maxTries clock tgt first k rcpt &&
      (List.range k).any (fun j => reported maxTries clock tgt first j rcpt != 0)) }

/-- Both messages leave the queue, and every address has had the same outcome. -/
def SameOutcome (first first' : QueueMetadata) : Prop :=
  ∃ n, stateOf maxTries clock tgt first n = none ∧ stateOf maxTries clock tgt first' n = none ∧
    ∀ rcpt, outcome maxTries clock tgt first n rcpt = outcome maxTries clock tgt first' n rcpt

end Run

/-- A message with the recipients `rcpts`, before attempt number `n`, and the
one without the duplicates: the same addresses are left, with all their
occurrences, each of which has counted as a try in every attempt. -/
structure Related (rcpts : List String) (n : Nat) (m m' : QueueMetadata) : Prop where
  nodup : m'.toRcpts.Nodup
  same : ∀ r, r ∈ m.toRcpts ↔ r ∈ m'.toRcpts
  listed : ∀ r ∈ m'.toRcpts, m.toRcpts.count r = rcpts.count r
  tries : ∀ r ∈ m'.toRcpts, triesOf m r = rcpts.count r * n ∧ triesOf m' r = n

/-- The addresses that are listed more than once are delivered in this attempt,
or fail temporarily while the tries last for all their occurrences. -/
def Lasting (maxTries : Int) (rcpts : List String) (n : Nat) (t : AddrTarget)
    (m' : QueueMetadata) : Prop :=
  ∀ r ∈ m'.toRcpts, 2 ≤ rcpts.count r → ∀ err,
    (deliver (t.on m'.toRcpts) m'.toRcpts).errs r = some err →
      isTemporaryOrUnspec err = true ∧ ((rcpts.count r * (n + 1) : Nat) : Int) < maxTries

section Step
variable {maxTries : Int} {rcpts : List String} {t : AddrTarget} {m m' : QueueMetadata}

theorem turn_once (maxTries : Int) (e : Option Err) (n : Nat) :
    (turn maxTries e ⟨n,0,0,0⟩).kept = 0 ∨
      (turn maxTries e ⟨n,0,0,0⟩).kept = 1 ∧ (turn maxTries e ⟨n,0,0,0⟩).failed = 0 ∧
        (turn maxTries e ⟨n,0,0,0⟩).tries = n + 1 ∧ (n + 1 : Int) < maxTries := by
  unfold turn
  cases e with
  | none => exact Or.inl rfl
  | some err =>
    dsimp only
    split
    · exact Or.inl rfl
    · rename_i hn
      exact Or.inr ⟨rfl,rfl,rfl,by omega⟩

theorem turns_agree (k n : Nat) (e : Option Err) (hk : 1 ≤ k)
    (h : 2 ≤ k → ∀ err, e = some err →
      isTemporaryOrUnspec err = true ∧ ((k * (n + 1) : Nat) : Int) < maxTries) :
    ((turn maxTries e)^[k] ⟨k * n,0,0,0⟩).kept = k * (turn maxTries e ⟨n,0,0,0⟩).kept ∧
    ((turn maxTries e)^[k] ⟨k * n,0,0,0⟩).failed = (turn maxTries e ⟨n,0,0,0⟩).failed ∧
    ((turn maxTries e ⟨n,0,0,0⟩).kept ≠ 0 →
      ((turn maxTries e)^[k] ⟨k * n,0,0,0⟩).tries = k * (n + 1)) := by
  rcases Nat.eq_or_lt_of_le hk with rfl | hk
  · rcases turn_once maxTries e n with h0 | ⟨h1,h2,h3,_⟩
    · simp [h0]
    · simp [h1,h2,h3]
  · cases e with
    | none => simp [turns_delivered,turn]
    | some err =>
      obtain ⟨htemp,hlast⟩ := h hk err rfl
      have hle : n + 1 ≤ k * (n + 1) := Nat.le_mul_of_pos_left _ (by omega)
      have hn : ¬ maxTries ≤ (n : Int) + 1 := by omega
      rw [Nat.mul_succ] at hlast
      have hprod : ((k * n : Nat) : Int) + k < maxTries := by omega
      rw [turns_kept htemp k _ (Or.inr hprod)]
      simp [turn,htemp,hn,Nat.mul_succ]

theorem Related.errs_eq (h : Related rcpts n m m') (hr : r ∈ m'.toRcpts) :
    (deliver (t.on m.toRcpts) m.toRcpts).errs r = (deliver (t.on m'.toRcpts) m'.toRcpts).errs r := by
  rw [deliver_on ((h.same r).mpr hr),deliver_on hr,errOf_congr h.same]

theorem Related.after_eq (h : Related rcpts n m m') (t : AddrTarget) (hr : r ∈ m'.toRcpts) :
    after maxTries (t.on m.toRcpts) m r =
      (turn maxTries ((deliver (t.on m'.toRcpts) m'.toRcpts).errs r))^[rcpts.count r]
        ⟨rcpts.count r * n,0,0,0⟩ ∧
    after maxTries (t.on m'.toRcpts) m' r =
      turn maxTries ((deliver (t.on m'.toRcpts) m'.toRcpts).errs r) ⟨n,0,0,0⟩ := by
  obtain ⟨htries,htries'⟩ := h.tries r hr
  constructor
  · rw [after,h.errs_eq hr,h.listed r hr,htries]
  · rw [after,List.count_eq_one_of_mem h.nodup hr,htries',Function.iterate_one]

theorem Related.after_agree (h : Related rcpts n m m') (hl : Lasting maxTries rcpts n t m')
    (r : String) :
    (after maxTries (t.on m.toRcpts) m r).failed = (after maxTries (t.on m'.toRcpts) m' r).failed ∧
    ((after maxTries (t.on m.toRcpts) m r).kept = 0 ↔
      (after maxTries (t.on m'.toRcpts) m' r).kept = 0) ∧
    ((after maxTries (t.on m'.toRcpts) m' r).kept ≠ 0 →
      (after maxTries (t.on m'.toRcpts) m' r).kept = 1 ∧
      (after maxTries (t.on m.toRcpts) m r).kept = rcpts.count r ∧
      (after maxTries (t.on m.toRcpts) m r).tries = rcpts.count r * (n + 1) ∧
      (after maxTries (t.on m'.toRcpts) m' r).tries = n + 1) := by
  by_cases hr : r ∈ m'.toRcpts
  · obtain ⟨ha,ha'⟩ := @Related.after_eq maxTries rcpts m m' n r h t hr
    have hcount : 1 ≤ rcpts.count r := by
      rw [← h.listed r hr]
      exact List.count_pos_iff.mpr ((h.same r).mpr hr)
    obtain ⟨hkept,hfailed,htries⟩ := @turns_agree maxTries _ n _ hcount (hl r hr)
    rw [ha,ha']
    refine ⟨hfailed,?_,fun hne => ?_⟩
    · rw [hkept,Nat.mul_eq_zero]
      omega
    · rcases turn_once maxTries ((deliver (t.on m'.toRcpts) m'.toRcpts).errs r) n with
        h0 | ⟨h1,_,h3,_⟩
      · exact absurd h0 hne
      · exact ⟨h1,by rw [hkept,h1,Nat.mul_one],htries hne,h3⟩
  · rw [after_absent hr,after_absent fun hm => hr ((h.same r).mp hm)]
    simp

/-- The two messages stay related through an attempt, or both leave the queue. -/
def RelatedAt (rcpts : List String) (n : Nat) : Option QueueMetadata → Option QueueMetadata → Prop
  | none, none => True
  | some m, some m' => Related rcpts n m m'
  | _, _ => False

theorem RelatedAt.cases (h : RelatedAt rcpts n s s') :
    s = none ∧ s' = none ∨ ∃ m m', s = some m ∧ s' = some m' ∧ Related rcpts n m m' := by
  cases s <;> cases s'
  · exact Or.inl ⟨rfl,rfl⟩
  · cases h
  · cases h
  · exact Or.inr ⟨_,_,rfl,rfl,h⟩

theorem next_related (h : Related rcpts n m m') (hl : Lasting maxTries rcpts n t m') :
    RelatedAt rcpts (n + 1) (tryDelivery maxTries now (t.on m.toRcpts) m).next
      (tryDelivery maxTries now (t.on m'.toRcpts) m').next := by
  obtain ⟨_,hnone,hsome⟩ := tryDelivery_tally maxTries now (t.on m.toRcpts) m
  obtain ⟨_,hnone',hsome'⟩ := tryDelivery_tally maxTries now (t.on m'.toRcpts) m'
  have hagree := h.after_agree hl
  have hboth : (tryDelivery maxTries now (t.on m.toRcpts) m).next = none ↔
      (tryDelivery maxTries now (t.on m'.toRcpts) m').next = none := by
    rw [hnone,hnone']
    exact forall_congr' fun r => (hagree r).2.1
  cases hx : (tryDelivery maxTries now (t.on m.toRcpts) m).next with
  | none => rw [hboth.mp hx]; trivial
  | some next =>
    cases hx' : (tryDelivery maxTries now (t.on m'.toRcpts) m').next with
    | none => rw [hboth.mpr hx'] at hx; cases hx
    | some next' =>
      have hcount := hsome next hx
      have hcount' := hsome' next' hx'
      have hmem (r : String) : r ∈ next'.toRcpts ↔
          (after maxTries (t.on m'.toRcpts) m' r).kept ≠ 0 := by
        rw [← (hcount' r).1,← Nat.pos_iff_ne_zero,List.count_pos_iff]
      refine ⟨List.nodup_iff_count_le_one.mpr fun r => ?_,fun r => ?_,fun r hr => ?_,
        fun r hr => ?_⟩
      · rw [(hcount' r).1]
        by_cases hk : (after maxTries (t.on m'.toRcpts) m' r).kept = 0
        · omega
        · exact Nat.le_of_eq ((hagree r).2.2 hk).1
      · rw [hmem r,← List.count_pos_iff,(hcount r).1,Nat.pos_iff_ne_zero]
        exact not_congr (hagree r).2.1
      · rw [(hcount r).1]
        exact ((hagree r).2.2 ((hmem r).mp hr)).2.1
      · rw [(hcount r).2,(hcount' r).2]
        exact ((hagree r).2.2 ((hmem r).mp hr)).2.2

theorem Related.next_bound (h : Related rcpts n m m')
    (hx : (tryDelivery maxTries now (t.on m'.toRcpts) m').next ≠ none) : (n + 1 : Int) < maxTries := by
  rw [Ne,(tryDelivery_tally maxTries now (t.on m'.toRcpts) m').2.1] at hx
  obtain ⟨r,hr⟩ := not_forall.mp hx
  have hmem : r ∈ m'.toRcpts := by
    by_contra hn
    simp [after_absent hn] at hr
  rw [(@Related.after_eq maxTries rcpts m m' n r h t hmem).2] at hr
  rcases turn_once maxTries ((deliver (t.on m'.toRcpts) m'.toRcpts).errs r) n with
    h0 | ⟨_,_,_,hlt⟩
  · exact absurd h0 hr
  · exact hlt

end Step

section Runs
variable {maxTries : Int} {clock : Nat → Int} {tgt : Nat → AddrTarget} {rcpts : List String}
  {first first' : QueueMetadata}

theorem state_related (h0 : Related rcpts 0 first first') (n : Nat)
    (hl : ∀ k < n, ∀ m', stateOf maxTries clock tgt first' k = some m' →
      Lasting maxTries rcpts k (tgt k) m') :
    RelatedAt rcpts n (stateOf maxTries clock tgt first n) (stateOf maxTries clock tgt first' n) := by
  induction n with
  | zero => exact h0
  | succ n ih =>
    rcases (ih fun k hk => hl k (Nat.lt_succ_of_lt hk)).cases with
      ⟨hs,hs'⟩ | ⟨m,m',hs,hs',hrel⟩
    · simp only [stateOf,hs,hs']
      trivial
    · simp only [stateOf,hs,hs',Option.bind_some]
      exact next_related hrel (hl n (Nat.lt_succ_self n) m' hs')

theorem stateOf_none (hs : stateOf maxTries clock tgt first n = none) (hle : n ≤ k) :
    stateOf maxTries clock tgt first k = none := by
  induction hle with
  | refl => exact hs
  | step _ ih => simp [stateOf,ih]

theorem same_outcome_of_lasting (h0 : Related rcpts 0 first first')
    (hl : ∀ k m', stateOf maxTries clock tgt first' k = some m' →
      Lasting maxTries rcpts k (tgt k) m') :
    SameOutcome maxTries clock tgt first first' := by
  have hrel (n : Nat) := (state_related h0 n fun k _ => hl k).cases
  have htried (n : Nat) (r : String) :
      tried maxTries clock tgt first n r = tried maxTries clock tgt first' n r := by
    rcases hrel n with ⟨hs,hs'⟩ | ⟨m,m',hs,hs',hm⟩
    · simp only [tried,hs,hs']
    · simp only [tried,hs,hs',hm.same r]
  have hreported (n : Nat) (r : String) :
      reported maxTries clock tgt first n r = reported maxTries clock tgt first' n r := by
    rcases hrel n with ⟨hs,hs'⟩ | ⟨m,m',hs,hs',hm⟩
    · simp only [reported,hs,hs']
    · simp only [reported,hs,hs',(tryDelivery_tally ..).1]
      exact (hm.after_agree (hl n m' hs') r).1
  have hover : stateOf maxTries clock tgt first' (maxTries.toNat + 1) = none := by
    rcases hrel maxTries.toNat with ⟨_,hs'⟩ | ⟨m,m',_,hs',hm⟩
    · exact stateOf_none hs' (Nat.le_succ _)
    · simp only [stateOf,hs',Option.bind_some]
      by_contra hx
      have hlt := hm.next_bound hx
      omega
  refine ⟨maxTries.toNat + 1,?_,hover,fun r => ?_⟩
  · rcases hrel (maxTries.toNat + 1) with ⟨hs,_⟩ | ⟨m,m',_,hs',_⟩
    · exact hs
    · rw [hover] at hs'
      cases hs'
  · simp only [outcome,htried,hreported]

theorem after_nodup {tgt : Target} (hn : m.toRcpts.Nodup) :
    (after maxTries tgt m r).kept ≤ 1 ∧ (after maxTries tgt m r).failed ≤ 1 ∧
      ((after maxTries tgt m r).kept ≠ 0 →
        r ∈ m.toRcpts ∧ (after maxTries tgt m r).failed = 0) := by
  by_cases hr : r ∈ m.toRcpts
  · rw [after,List.count_eq_one_of_mem hn hr,Function.iterate_one]
    unfold turn
    split
    · simp
    · split <;> simp [hr]
  · simp [after_absent hr]

theorem tried_succ (hn : ∀ m, stateOf maxTries clock tgt first n = some m → m.toRcpts.Nodup)
    (h : tried maxTries clock tgt first (n + 1) r = true) :
    tried maxTries clock tgt first n r = true ∧ reported maxTries clock tgt first n r = 0 := by
  unfold tried reported at *
  simp only [stateOf] at h
  cases hs : stateOf maxTries clock tgt first n with
  | none => simp [hs] at h
  | some m =>
    simp only [hs,Option.bind_some] at h ⊢
    obtain ⟨hdsn,_,hsome⟩ := tryDelivery_tally maxTries (clock n) ((tgt n).on m.toRcpts) m
    cases hx : (tryDelivery maxTries (clock n) ((tgt n).on m.toRcpts) m).next with
    | none => simp [hx] at h
    | some next =>
      simp only [hx,decide_eq_true_eq] at h
      have hkept := List.count_pos_iff.mpr h
      rw [(hsome next hx r).1] at hkept
      obtain ⟨hmem,hfailed⟩ := (after_nodup (hn m hs)).2.2
        (Nat.pos_iff_ne_zero.mp hkept)
      exact ⟨by simpa using hmem,by rw [hdsn,hfailed]⟩

theorem state_nodup (hn : first.toRcpts.Nodup) :
    ∀ m, stateOf maxTries clock tgt first n = some m → m.toRcpts.Nodup := by
  induction n with
  | zero =>
    intro m hm
    cases hm
    exact hn
  | succ n ih =>
    intro next hnext
    obtain ⟨m,hm,hx⟩ := Option.bind_eq_some_iff.mp hnext
    obtain ⟨_,_,hsome⟩ := tryDelivery_tally maxTries (clock n) ((tgt n).on m.toRcpts) m
    refine List.nodup_iff_count_le_one.mpr fun r => ?_
    rw [(hsome next hx r).1]
    exact (after_nodup (ih m hm)).1

theorem tried_unreported (hn : first.toRcpts.Nodup)
    (h : tried maxTries clock tgt first n r = true) :
    ∀ k < n, reported maxTries clock tgt first k r = 0 := by
  induction n with
  | zero => exact fun k hk => absurd hk (Nat.not_lt_zero k)
  | succ n ih =>
    obtain ⟨htried,hlast⟩ := tried_succ (state_nodup hn) h
    intro k hk
    rcases Nat.lt_succ_iff_lt_or_eq.mp hk with hk | rfl
    · exact ih htried k hk
    · exact hlast

theorem reported_nodup (hn : first.toRcpts.Nodup) (n : Nat) (r : String) :
    reported maxTries clock tgt first n r ≤ 1 ∧
      (reported maxTries clock tgt first n r ≠ 0 → tried maxTries clock tgt first n r = true) := by
  unfold reported tried
  cases hs : stateOf maxTries clock tgt first n with
  | none => simp
  | some m =>
    obtain ⟨hdsn,_⟩ := tryDelivery_tally maxTries (clock n) ((tgt n).on m.toRcpts) m
    dsimp only
    rw [hdsn]
    refine ⟨(after_nodup (state_nodup hn m hs)).2.1,fun hne => ?_⟩
    by_contra hout
    rw [after_absent (by simpa using hout)] at hne
    exact hne rfl

/-- Without duplicates an address is reported at most once, and not tried again
after that. -/
theorem outcome_nodup (hn : first.toRcpts.Nodup) (n : Nat) (r : String) :
    (outcome maxTries clock tgt first n r).reports ≤ 1 ∧
      (outcome maxTries clock tgt first n r).again = false := by
  constructor
  · simp only [outcome]
    induction n with
    | zero => simp
    | succ n ih =>
      rw [List.range_succ,List.map_append,List.sum_append]
      obtain ⟨hone,htried⟩ := @reported_nodup maxTries clock tgt first hn n r
      by_cases hz : reported maxTries clock tgt first n r = 0
      · simpa [hz] using ih
      · have hbefore := tried_unreported hn (htried hz)
        have hsum : ((List.range n).map (reported maxTries clock tgt first · r)).sum = 0 := by
          apply List.sum_eq_zero_iff_forall_eq_nat.mpr
          intro x hx
          obtain ⟨k,hk,rfl⟩ := List.mem_map.mp hx
          exact hbefore k (List.mem_range.mp hk)
        simpa [hsum] using hone
  · rw [← Bool.not_eq_true]
    simp only [outcome,List.any_eq_true,Bool.and_eq_true,List.mem_range,bne_iff_ne]
    rintro ⟨k,_,htried,j,hj,hne⟩
    exact hne (tried_unreported hn htried j hj)

/-- An attempt in which an occurrence of an address fails shows in the outcome:
another one is kept, or all of them are reported. -/
theorem outcome_of_failed (hs : stateOf maxTries clock tgt first n = some m)
    (hfailed : (after maxTries ((tgt n).on m.toRcpts) m r).failed ≠ 0)
    (htwo : (after maxTries ((tgt n).on m.toRcpts) m r).kept = 0 →
      2 ≤ (after maxTries ((tgt n).on m.toRcpts) m r).failed)
    (hover : stateOf maxTries clock tgt first k = none) :
    2 ≤ (outcome maxTries clock tgt first k r).reports ∨
      (outcome maxTries clock tgt first k r).again = true := by
  obtain ⟨hdsn,hnone,hsome⟩ := tryDelivery_tally maxTries (clock n) ((tgt n).on m.toRcpts) m
  have hreported : reported maxTries clock tgt first n r =
      (after maxTries ((tgt n).on m.toRcpts) m r).failed := by
    simp only [reported,hs,hdsn]
  have hlt (j : Nat) (hj : stateOf maxTries clock tgt first j ≠ none) : j < k := by
    by_contra hle
    exact hj (stateOf_none hover (Nat.not_lt.mp hle))
  by_cases hk : (after maxTries ((tgt n).on m.toRcpts) m r).kept = 0
  · left
    have hin : reported maxTries clock tgt first n r ∈
        (List.range k).map (fun j => reported maxTries clock tgt first j r) :=
      List.mem_map.mpr ⟨n,List.mem_range.mpr (hlt n (by simp [hs])),rfl⟩
    have hle := List.single_le_sum (fun _ _ => Nat.zero_le _) _ hin
    rw [hreported] at hle
    exact Nat.le_trans (htwo hk) hle
  · right
    cases hx : (tryDelivery maxTries (clock n) ((tgt n).on m.toRcpts) m).next with
    | none => exact absurd (hnone.mp hx r) hk
    | some next =>
      have hnext : stateOf maxTries clock tgt first (n + 1) = some next := by
        simp [stateOf,hs,hx]
      have htried : tried maxTries clock tgt first (n + 1) r = true := by
        have hcount := (hsome next hx r).1
        have hmem : r ∈ next.toRcpts := List.count_pos_iff.mp (by omega)
        simp [tried,hnext,hmem]
      simp only [outcome,List.any_eq_true,Bool.and_eq_true,List.mem_range,bne_iff_ne]
      exact ⟨n + 1,hlt (n + 1) (by simp [hnext]),htried,n,Nat.lt_succ_self n,
        hreported ▸ hfailed⟩

/-- If an address that is listed more than once fails for good, or the tries do
not last for all its occurrences, then one of them fails alone or all of them
are reported. -/
theorem Related.after_spoiled (h : Related rcpts n m m') (hr : r ∈ m'.toRcpts)
    (htwo : 2 ≤ rcpts.count r) (t : AddrTarget)
    (herr : (deliver (t.on m'.toRcpts) m'.toRcpts).errs r = some err)
    (hbad : ¬ (isTemporaryOrUnspec err = true ∧
      ((rcpts.count r * (n + 1) : Nat) : Int) < maxTries)) :
    (after maxTries (t.on m.toRcpts) m r).failed ≠ 0 ∧
      ((after maxTries (t.on m.toRcpts) m r).kept = 0 →
        2 ≤ (after maxTries (t.on m.toRcpts) m r).failed) := by
  rw [(@Related.after_eq maxTries rcpts m m' n r h t hr).1,herr]
  generalize rcpts.count r = k at htwo hbad ⊢
  have htotal := @turns_total maxTries err k ⟨k * n,0,0,0⟩
  refine ⟨?_,fun hkept => by omega⟩
  cases htemp : isTemporaryOrUnspec err with
  | false =>
    have hfailed := (@turns_permanent maxTries err htemp k ⟨k * n,0,0,0⟩).2
    omega
  | true =>
    have hover : maxTries ≤ ((k * n : Nat) : Int) + k := by
      rw [Nat.mul_succ] at hbad
      simp only [htemp,true_and] at hbad
      omega
    have hfailed := turns_fails htemp k ⟨k * n,0,0,0⟩ (by omega) hover
    exact Nat.ne_of_gt hfailed

theorem lasting_of_same_outcome (h0 : Related rcpts 0 first first')
    (hsame : SameOutcome maxTries clock tgt first first') (n : Nat) :
    ∀ m', stateOf maxTries clock tgt first' n = some m' →
      Lasting maxTries rcpts n (tgt n) m' := by
  induction n using Nat.strong_induction_on with
  | _ n ih =>
    intro m' hs' r hr htwo err herr
    by_contra hbad
    rcases (state_related h0 n ih).cases with ⟨_,hnone⟩ | ⟨m,m'',hs,hs'',hrel⟩
    · rw [hs'] at hnone
      cases hnone
    · rw [hs'] at hs''
      cases hs''
      obtain ⟨k,hover,_,heq⟩ := hsame
      obtain ⟨hfailed,hall⟩ := hrel.after_spoiled hr htwo (tgt n) herr hbad
      have hout := outcome_of_failed hs hfailed hall hover
      obtain ⟨hone,hagain⟩ := @outcome_nodup maxTries clock tgt first' h0.nodup k r
      rw [heq r] at hout
      rcases hout with hout | hout
      · omega
      · rw [hagain] at hout
        cases hout

end Runs

theorem queued_related (msgMeta : MsgMetadata) (mailFrom : String) (now : Int)
    (rcpts : List String) :
    Related rcpts 0 (queued msgMeta mailFrom now rcpts)
      (queued msgMeta mailFrom now rcpts.dedup) := by
  obtain ⟨hto,htries⟩ := queued_fields msgMeta mailFrom now rcpts
  obtain ⟨hto',htries'⟩ := queued_fields msgMeta mailFrom now rcpts.dedup
  refine ⟨?_,fun r => ?_,fun r _ => ?_,fun r _ => ⟨?_,htries' r⟩⟩
  · rw [hto']
    exact List.nodup_dedup rcpts
  · rw [hto,hto',List.mem_dedup]
  · rw [hto]
  · rw [htries r,Nat.mul_zero]

/-- The outcome for a list of recipients is the outcome for the list without
its duplicates exactly if, in the attempts for the latter, every address that is
listed `k` times, twice or more, is delivered or fails temporarily with `k`
times the attempts made so far still below `maxTries`. -/
theorem duplicates_harmless_iff (maxTries : Int) (clock : Nat → Int) (tgt : Nat → AddrTarget)
    (msgMeta : MsgMetadata) (mailFrom : String) (now : Int) (rcpts : List String) :
    SameOutcome maxTries clock tgt (queued msgMeta mailFrom now rcpts)
        (queued msgMeta mailFrom now rcpts.dedup) ↔
      ∀ n m', stateOf maxTries clock tgt (queued msgMeta mailFrom now rcpts.dedup) n = some m' →
        Lasting maxTries rcpts n (tgt n) m' :=
  have h0 := queued_related msgMeta mailFrom now rcpts
  ⟨lasting_of_same_outcome h0,same_outcome_of_lasting h0⟩

def unreachable : AddrTarget :=
  { start := some (.leaf "connection refused" (some true))
    addRcpt := fun _ => none
    body := .atomic none
    commit := none }

/-- A recipient that is listed twice is reported and then tried again. -/
theorem duplicate_reported_and_retried :
    ¬ ∀ (maxTries : Int) (clock : Nat → Int) (tgt : Nat → AddrTarget) (msgMeta : MsgMetadata)
      (mailFrom : String) (now : Int) (rcpts : List String),
      SameOutcome maxTries clock tgt (queued msgMeta mailFrom now rcpts)
        (queued msgMeta mailFrom now rcpts.dedup) := by
  intro h
  have hlast := lasting_of_same_outcome (queued_related { id := "m1" } "ann" 0 ["bob","bob"])
    (h 2 (fun _ => 0) (fun _ => unreachable) { id := "m1" } "ann" 0 ["bob","bob"]) 0 _ rfl
    "bob" (by decide) (by decide) (.leaf "connection refused" (some true)) rfl
  exact absurd hlast.2 (by decide)

end Madmail.Proofs.QueueDuplicates
