import Madmail.Lib.Inquiry
import Madmail.Proofs.CheckReplay

namespace Madmail.Proofs.CheckQuestions
open Exterrors Madmail.Module Msgpipeline CheckRunner Lib.Inquiry Loops CheckReplay
open CheckCustody (Opened)

/-- Checks that decide about a recipient by its address alone, and pass at all
other stages. A rejection comes with its reason. -/
structure ByAddress (env : Env) (rejects : Nat → String → Prop) : Prop where
  state : ∀ check msgMeta, env.stateForMsg check msgMeta = none
  pass : ∀ call, (∀ a, call ≠ .checkRcpt a) → ∀ check calls,
    refuses (env.result check (calls ++ [call])) = false
  rcpt : ∀ check calls a,
    refuses (env.result check (calls ++ [.checkRcpt a])) = true ↔ rejects check a
  reason : ∀ check calls, refuses (env.result check calls) = true →
    (env.result check calls).reason ≠ none

def Noted (cr : CheckRunner) (check : Nat) (a : String) : Prop :=
  ∃ state, cr.states.lookup check = some state ∧ a ∈ cr.checkedRcptsPerCheck state

def table (cr : CheckRunner) : Table Nat String :=
  { known := fun check => cr.states.lookup check ≠ none
    asked := Noted cr
    seen := fun a => a ∈ cr.checkedRcpts }

structure Kept (cr : CheckRunner) : Prop where
  below : ∀ check state, cr.states.lookup check = some state →
    state < cr.nextState ∧ cr.owner state = check
  fresh : ∀ state, cr.nextState ≤ state → cr.checkedRcptsPerCheck state = []

section Group
variable {env : Env} {rejects : Nat → String → Prop} {cr cr' : CheckRunner}

theorem mem_tell : x ∈ (tell a l).2 ↔ x ∈ l.2 ∨ x = a := by
  unfold CheckReplay.tell
  split
  · next h =>
    refine ⟨.inl,fun hor => hor.elim (fun hx => hx) fun he => ?_⟩
    exact he ▸ h
  · simp

theorem runRcpt_none_iff (hv : ByAddress env rejects) (group : List Nat) (a : String)
    (cr : CheckRunner) :
    (runRcpt env group a cr).2 = none ↔
      ∀ state ∈ group, a ∉ cr.checkedRcptsPerCheck state → ¬ rejects (cr.owner state) a := by
  have h := merge_none_iff (f := askRcpt env a) (P := ToldGroup cr a)
    (Q := fun state => a ∉ cr.checkedRcptsPerCheck state ∧ rejects (cr.owner state) a)
    (fun _ _ res h => toldGroup_merged h res) ?_ (env.pick (.checks (.checkRcpt a)) group) cr
    (toldGroup_start cr a)
  · simp only [(env.pick_perm _ _).mem_iff,not_and] at h
    exact h
  intro before state cr' ht
  refine ⟨toldGroup_step env ht state,?_⟩
  have hlog : cr'.checkedRcptsPerCheck state =
      if state ∈ before then (tell a (log cr state)).2 else cr.checkedRcptsPerCheck state := by
    have h := congrArg Prod.snd (ht.2 state)
    rw [apply_ite Prod.snd] at h
    exact h
  unfold askRcpt
  by_cases hn : a ∈ cr'.checkedRcptsPerCheck state
  · rw [if_pos hn]
    refine ⟨iff_of_false (by simp [refuses]) fun hq => ?_,fun hr => by simp [refuses] at hr⟩
    rw [hlog,if_neg hq.1] at hn
    exact hq.2.1 hn
  · rw [if_neg hn]
    have hb : state ∉ before := fun hb => by
      rw [hlog,if_pos hb,mem_tell] at hn
      exact hn (.inr rfl)
    rw [hlog,if_neg hb] at hn
    refine ⟨?_,hv.reason _ _⟩
    simp only [ask,hv.rcpt,ht.1.owner]
    exact ⟨fun hr => ⟨hb,hn,hr⟩,fun hq => hq.2.2⟩

theorem runRcpt_noted (env : Env) (group : List Nat) (a : String) (cr : CheckRunner)
    (state : Nat) (x : String) :
    x ∈ (runRcpt env group a cr).1.checkedRcptsPerCheck state ↔
      x ∈ cr.checkedRcptsPerCheck state ∨ state ∈ group ∧ x = a := by
  have h := congrArg Prod.snd ((tell_books env a group cr).2 state)
  rw [apply_ite Prod.snd] at h
  change (runRcpt env group a cr).1.checkedRcptsPerCheck state =
    if state ∈ group then (tell a (log cr state)).2 else cr.checkedRcptsPerCheck state at h
  rw [h]
  by_cases hs : state ∈ group
  · rw [if_pos hs,mem_tell]
    simp [hs,log]
  · simp [hs]

theorem catchUp_spec (hv : ByAddress env rejects) (group : List Nat) (rcpts : List String)
    (cr : CheckRunner) :
    SameBooks cr (forEach (runRcpt env group) rcpts cr).1 ∧
    (∀ state ∉ group, (forEach (runRcpt env group) rcpts cr).1.checkedRcptsPerCheck state =
      cr.checkedRcptsPerCheck state) ∧
    ((forEach (runRcpt env group) rcpts cr).2 = none ↔ ∀ a ∈ rcpts, ∀ state ∈ group,
      a ∉ cr.checkedRcptsPerCheck state → ¬ rejects (cr.owner state) a) ∧
    ((forEach (runRcpt env group) rcpts cr).2 = none → ∀ state ∈ group, ∀ x,
      x ∈ (forEach (runRcpt env group) rcpts cr).1.checkedRcptsPerCheck state ↔
        x ∈ cr.checkedRcptsPerCheck state ∨ x ∈ rcpts) := by
  induction rcpts generalizing cr with
  | nil => exact ⟨.refl _,fun _ _ => rfl,by simp [forEach],fun _ _ _ x => by simp [forEach]⟩
  | cons a rest ih =>
    have hnone := runRcpt_none_iff hv group a cr
    have hnoted := runRcpt_noted env group a cr
    obtain ⟨hbooks,hlog⟩ := tell_books env a group cr
    have hout : ∀ state ∉ group, (runRcpt env group a cr).1.checkedRcptsPerCheck state =
        cr.checkedRcptsPerCheck state := fun state hs => by
      have h := congrArg Prod.snd (hlog state)
      rw [if_neg hs] at h
      exact h
    rw [forEach_cons]
    rcases hx : runRcpt env group a cr with ⟨cr₁,_ | e⟩ <;> rw [hx] at hnone hnoted hbooks hout
    · obtain ⟨hbooks',hout',hnone',htold'⟩ := ih cr₁
      have hfirst := hnone.mp rfl
      refine ⟨hbooks.trans hbooks',fun state hs => (hout' state hs).trans (hout state hs),
        hnone'.trans ?_,fun hdone state hs x => ?_⟩
      · rw [List.forall_mem_cons,hbooks.owner]
        refine ⟨fun h => ⟨hfirst,fun b hb state hs hn => ?_⟩,fun h b hb state hs hn => ?_⟩
        · by_cases he : b = a
          · exact he ▸ hfirst state hs (he ▸ hn)
          · exact h b hb state hs (by rw [hnoted]; exact fun hor => hor.elim hn fun h => he h.2)
        · exact h.2 b hb state hs fun hb => hn ((hnoted state b).mpr (.inl hb))
      · rw [htold' hdone state hs x,hnoted]
        simp [hs,or_assoc]
    · have hbad : ¬ ∀ state ∈ group, a ∉ cr.checkedRcptsPerCheck state →
          ¬ rejects (cr.owner state) a := fun h => by simpa using hnone.mpr h
      exact ⟨hbooks,hout,iff_of_false (by simp) fun h => hbad (h a (by simp)),
        fun h => by cases h⟩

theorem replaySender_spec (hv : ByAddress env rejects) (hn : newStates.Nodup) :
    (replaySender env cr newStates).2 = none ∧ SameBooks cr (replaySender env cr newStates).1 ∧
      ∀ state, (replaySender env cr newStates).1.checkedRcptsPerCheck state =
        cr.checkedRcptsPerCheck state := by
  by_cases hr : cr.mailFromReceived = true
  · obtain ⟨hnone,hbooks,hlog⟩ := introduce_group hv.pass newStates hn cr hr
    refine ⟨hnone,hbooks,fun state => ?_⟩
    have h := congrArg Prod.snd (hlog state)
    rw [apply_ite Prod.snd] at h
    exact h.trans (ite_self _)
  · unfold replaySender
    rw [if_neg hr]
    exact ⟨rfl,.refl _,fun _ => rfl⟩

end Group

/-- An earlier address that a check of a group is asked about, because a check of
the group is new. -/
def Recalls (cr : CheckRunner) (checks : List Nat) (check : Nat) (a : String) : Prop :=
  check ∈ checks ∧ ¬ Noted cr check a ∧ (∃ new ∈ checks, cr.states.lookup new = none) ∧
    a ∈ cr.checkedRcpts

structure StatesFor (cr : CheckRunner) (checks : List Nat) (cr' : CheckRunner)
    (group : List Nat) : Prop where
  known : ∀ check, cr'.states.lookup check ≠ none ↔ cr.states.lookup check ≠ none ∨ check ∈ checks
  noted : ∀ check a, Noted cr' check a ↔ Noted cr check a ∨ Recalls cr checks check a
  members : ∀ check state, cr'.states.lookup check = some state → (state ∈ group ↔ check ∈ checks)
  created : ∀ state ∈ group, state < cr'.nextState
  owned : ∀ state ∈ group, cr'.owner state ∈ checks ∧
    ∀ a, a ∈ cr'.checkedRcptsPerCheck state ↔ Noted cr' (cr'.owner state) a

section States
variable {env : Env} {rejects : Nat → String → Prop} {cr : CheckRunner} {checks : List Nat} {i : Init}

theorem noted_iff (hl : cr.states.lookup check = some state) :
    Noted cr check a ↔ a ∈ cr.checkedRcptsPerCheck state := by
  constructor
  · rintro ⟨other,ho,ha⟩
    rw [hl] at ho
    cases ho
    exact ha
  · exact fun ha => ⟨state,hl,ha⟩

theorem not_noted (hl : cr.states.lookup check = none) : ¬ Noted cr check a := by
  rintro ⟨other,ho, -⟩
  rw [hl] at ho
  cases ho

section Init
variable (hk : Kept cr) (hi : Opened cr checks i)
include hk hi

theorem init_owned (hs : state ∈ i.states) : i.runner.owner state ∈ checks ∧
    ∀ a, a ∈ cr.checkedRcptsPerCheck state ↔ Noted cr (i.runner.owner state) a := by
  rcases (hi.mem state).mp hs with ⟨check,hc,hl⟩ | hnew
  · obtain ⟨hlt,hown⟩ := hk.below check state hl
    rw [hi.owner state hlt,hown]
    exact ⟨hc,fun a => (noted_iff hl).symm⟩
  · obtain ⟨check,hm⟩ := hi.source state hnew
    obtain ⟨hc,hl, -,hown⟩ := hi.map check state hm
    rw [hown,hk.fresh state (hi.bounds state hnew).1]
    exact ⟨hc,fun a => iff_of_false (by simp) (not_noted hl)⟩

theorem init_covers (hc : check ∈ checks) : ∃ state ∈ i.states, i.runner.owner state = check := by
  cases hl : cr.states.lookup check with
  | some state =>
    obtain ⟨hlt,hown⟩ := hk.below check state hl
    exact ⟨state,(hi.mem state).mpr (.inl ⟨check,hc,hl⟩),(hi.owner state hlt).trans hown⟩
  | none =>
    obtain ⟨state,hm⟩ := hi.mapped hc hl
    obtain ⟨-, -,hnew,hown⟩ := hi.map check state hm
    exact ⟨state,(hi.mem state).mpr (.inr hnew),hown⟩

theorem ask_states_iff (a : String) (q : Nat → String → Prop) :
    (∀ state ∈ i.states, a ∉ cr.checkedRcptsPerCheck state → ¬ q (i.runner.owner state) a) ↔
      ∀ check ∈ checks, ¬ Noted cr check a → ¬ q check a := by
  constructor
  · intro h check hc hn
    obtain ⟨state,hs,rfl⟩ := init_covers hk hi hc
    exact h state hs fun ha => hn (((init_owned hk hi hs).2 a).mp ha)
  · intro h state hs hn
    obtain ⟨hc,hiff⟩ := init_owned hk hi hs
    exact h _ hc fun hno => hn ((hiff a).mpr hno)

theorem statesFor_known (hnone : i.newStates = []) :
    (∀ check ∈ checks, cr.states.lookup check ≠ none) ∧ Kept i.runner ∧
      StatesFor cr checks i.runner i.states := by
  have hall : ∀ check ∈ checks, cr.states.lookup check ≠ none := by
    intro check hc hl
    obtain ⟨state,hm⟩ := hi.mapped hc hl
    have hnew := (hi.map check state hm).2.2.1
    simp [hnone] at hnew
  have hnoted : ∀ check a, Noted i.runner check a ↔ Noted cr check a := by
    intro check a
    have hper : ∀ state, i.runner.checkedRcptsPerCheck state = cr.checkedRcptsPerCheck state :=
      fun state => congrArg Prod.snd (opened_log hi)
    simp only [Noted,hi.states,hper]
  refine ⟨hall,⟨opened_owned hk.below hi,fun state hs => ?_⟩,⟨fun check => ?_,fun check a => ?_,
    fun check state hl => ?_,fun state hs => opened_lt hk.below hi hs,fun state hs => ?_⟩⟩
  · exact (congrArg Prod.snd (opened_log hi)).trans (hk.fresh state (Nat.le_trans hi.next hs))
  · rw [hi.states]
    exact ⟨.inl,fun h => h.elim (fun hn => hn) (hall check)⟩
  · rw [hnoted]
    refine ⟨.inl,fun h => h.elim (fun hn => hn) ?_⟩
    rintro ⟨-, -,⟨new,hm,hl⟩, -⟩
    exact absurd hl (hall new hm)
  · rw [hi.states] at hl
    exact mem_states_old hk.below hi hl
  · obtain ⟨hc,hiff⟩ := init_owned hk hi hs
    refine ⟨hc,fun a => ?_⟩
    rw [hnoted,← hiff]
    exact iff_of_eq (congrArg (a ∈ ·) (congrArg Prod.snd (opened_log hi)))

theorem kept_closed (hb : SameBooks i.runner cr₁)
    (hout : ∀ state ∉ i.states, cr₁.checkedRcptsPerCheck state = cr.checkedRcptsPerCheck state) :
    Kept (cr₁.closeStates i.states) ∧ (cr₁.closeStates i.states).checkedRcpts = cr.checkedRcpts ∧
      (cr₁.closeStates i.states).states = cr.states := by
  obtain ⟨calls,hc⟩ := closeStates_runner
  rw [hc]
  have hmap : cr₁.states = cr.states := hb.states.trans hi.states
  refine ⟨⟨fun check state hl => ?_,fun state hs => ?_⟩,hb.checkedRcpts.trans hi.checkedRcpts,hmap⟩
  · rw [hb.states] at hl
    rw [hb.nextState,hb.owner]
    exact opened_owned hk.below hi check state hl
  · rw [hb.nextState] at hs
    rw [hout state fun hm => Nat.not_lt.mpr hs (opened_lt hk.below hi hm)]
    exact hk.fresh state (Nat.le_trans hi.next hs)

section Register
variable {cr₁ : CheckRunner} (hb : SameBooks i.runner cr₁)
include hb

variable (hout : ∀ state ∉ i.states,
  cr₁.checkedRcptsPerCheck state = cr.checkedRcptsPerCheck state)
include hout

theorem register_kept : Kept (cr₁.register i.newStatesMap) := by
  refine ⟨register_owned hk.below hi hb,fun state hs => ?_⟩
  have hnext : i.runner.nextState ≤ state := hb.nextState ▸ hs
  refine (hout state fun hm => Nat.not_lt.mpr hnext (opened_lt hk.below hi hm)).trans ?_
  exact hk.fresh state (Nat.le_trans hi.next hnext)

/-- Some check of the group is new, and no check rejects an earlier address: the
states of the group have caught up, whether they are in the map or not. -/
theorem statesFor_new (hsome : i.newStates ≠ [])
    (hin : ∀ state ∈ i.states, ∀ a, a ∈ cr₁.checkedRcptsPerCheck state ↔
      a ∈ cr.checkedRcptsPerCheck state ∨ a ∈ cr.checkedRcpts) :
    StatesFor cr checks (cr₁.register i.newStatesMap) i.states := by
  have howner : (cr₁.register i.newStatesMap).owner = i.runner.owner := hb.owner
  have hper : (cr₁.register i.newStatesMap).checkedRcptsPerCheck = cr₁.checkedRcptsPerCheck := rfl
  have hnew := hi.exists_new hsome
  have hcaught : ∀ state ∈ i.states, ∀ a, a ∈ cr₁.checkedRcptsPerCheck state ↔
      Noted cr (i.runner.owner state) a ∨ Recalls cr checks (i.runner.owner state) a := by
    intro state hs a
    obtain ⟨hc,hiff⟩ := init_owned hk hi hs
    have hrec : Recalls cr checks (i.runner.owner state) a ↔
        ¬ Noted cr (i.runner.owner state) a ∧ a ∈ cr.checkedRcpts :=
      ⟨fun h => ⟨h.2.1,h.2.2.2⟩,fun h => ⟨hc,h.1,hnew,h.2⟩⟩
    rw [hin state hs a,hiff a,hrec]
    by_cases hn : Noted cr (i.runner.owner state) a <;> simp [hn]
  have hnoted : ∀ check a, Noted (cr₁.register i.newStatesMap) check a ↔
      Noted cr check a ∨ Recalls cr checks check a := by
    intro check a
    by_cases hc : check ∈ checks
    · obtain ⟨state,hl⟩ := Option.ne_none_iff_exists'.mp
        ((register_known hi hb check).mpr (.inr hc))
      have hown : i.runner.owner state = check :=
        howner ▸ ((register_kept hk hi hb hout).below check state hl).2
      rw [noted_iff hl,hper,hcaught state ((register_members hk.below hi hb hl).mpr hc),hown]
    · have hnot : ¬ Recalls cr checks check a := fun h => hc h.1
      rw [or_iff_left hnot]
      cases hl : cr.states.lookup check with
      | some state =>
        have hl' : (cr₁.register i.newStatesMap).states.lookup check = some state := by
          rw [register_states hi hb]
          exact lookup_merged_old hi hl
        rw [noted_iff hl',noted_iff hl,hper,
          hout state fun hm => hc ((mem_states_old hk.below hi hl).mp hm)]
      | none =>
        have hl' : (cr₁.register i.newStatesMap).states.lookup check = none := by
          by_contra h
          exact ((register_known hi hb check).mp h).elim (fun h => h hl) hc
        exact iff_of_false (not_noted hl') (not_noted hl)
  refine ⟨register_known hi hb,hnoted,fun check state hl => register_members hk.below hi hb hl,
    fun state hs => hb.nextState ▸ opened_lt hk.below hi hs,fun state hs => ?_⟩
  rw [howner,hper]
  refine ⟨(init_owned hk hi hs).1,fun a => ?_⟩
  rw [hnoted,hcaught state hs]

end Register

end Init

/-- What `checkStates` comes to, by the checks. -/
theorem checkStates_spec (hv : ByAddress env rejects) (hk : Kept cr) :
    Kept (cr.checkStates env msgMeta checks).1 ∧
      (cr.checkStates env msgMeta checks).1.checkedRcpts = cr.checkedRcpts ∧
      (∀ check, cr.states.lookup check ≠ none →
        (cr.checkStates env msgMeta checks).1.states.lookup check ≠ none) ∧
      match (cr.checkStates env msgMeta checks).2 with
      | .error _ => ∃ check a, Recalls cr checks check a ∧ rejects check a
      | .ok group => StatesFor cr checks (cr.checkStates env msgMeta checks).1 group ∧
        ∀ check a, Recalls cr checks check a → ¬ rejects check a := by
  obtain ⟨hnone,hi⟩ := init_ok hv.state
  unfold checkStates
  rcases hx : forEach (initState env msgMeta) checks { runner := cr } with ⟨i,err⟩
  rw [hx] at hnone hi
  cases hnone
  dsimp only at hi ⊢
  by_cases hn : i.newStates = []
  · rw [if_pos hn]
    obtain ⟨hall,hkept,hfor⟩ := statesFor_known hk hi hn
    refine ⟨hkept,hi.checkedRcpts,fun check h => (hfor.known check).mpr (.inl h),hfor,?_⟩
    rintro check a ⟨-, -,⟨new,hm,hl⟩, -⟩
    exact absurd hl (hall new hm)
  rw [if_neg hn]
  obtain ⟨hnone,hb,hper⟩ := replaySender_spec hv hi.nodup
  rcases hx : i.runner.replaySender env i.newStates with ⟨cr₁,err⟩
  rw [hx] at hnone hb hper
  cases hnone
  dsimp only at hb hper ⊢
  have hper' : ∀ state, cr₁.checkedRcptsPerCheck state = cr.checkedRcptsPerCheck state :=
    fun state => (hper state).trans (congrArg Prod.snd (opened_log hi))
  obtain ⟨hb',hout,hnone,hcaught⟩ := catchUp_spec hv i.states cr₁.checkedRcpts cr₁
  have hrcpts : cr₁.checkedRcpts = cr.checkedRcpts := hb.checkedRcpts.trans hi.checkedRcpts
  -- The states of the group are asked about what its checks have missed.
  have hask : (forEach (runRcpt env i.states) cr₁.checkedRcpts cr₁).2 = none ↔
      ∀ check a, Recalls cr checks check a → ¬ rejects check a := by
    have hnew := hi.exists_new hn
    simp only [hper',hb.owner,hrcpts] at hnone
    rw [hrcpts,hnone]
    simp only [ask_states_iff hk hi]
    exact ⟨fun h check a hr => h a hr.2.2.2 check hr.1 hr.2.1,
      fun h a ha check hc hno => h check a ⟨hc,hno,hnew,ha⟩⟩
  have hbooks := hb.trans hb'
  have hout' : ∀ state ∉ i.states,
      (forEach (runRcpt env i.states) cr₁.checkedRcpts cr₁).1.checkedRcptsPerCheck state =
        cr.checkedRcptsPerCheck state := fun state hs => (hout state hs).trans (hper' state)
  rcases hx : forEach (runRcpt env i.states) cr₁.checkedRcpts cr₁ with ⟨cr₂,_ | e⟩ <;>
    rw [hx] at hbooks hout' hask hcaught
  · have hfor := statesFor_new hk hi hbooks hout' hn fun state hs a => by
      rw [← hper' state,← hrcpts]
      exact hcaught rfl state hs a
    exact ⟨register_kept hk hi hbooks hout',hbooks.checkedRcpts.trans hi.checkedRcpts,
      fun check h => (hfor.known check).mpr (.inl h),hfor,hask.mp rfl⟩
  · obtain ⟨hkept,hrc,hmap⟩ := kept_closed hk hi hbooks hout'
    refine ⟨hkept,hrc,fun check h => hmap ▸ h,?_⟩
    by_contra h
    have hgood : ∀ check a, Recalls cr checks check a → ¬ rejects check a :=
      fun check a hr hrej => h ⟨check,a,hr,hrej⟩
    cases hask.mpr hgood

end States

section Rounds
variable {env : Env} {rejects : Nat → String → Prop} {cr : CheckRunner}

theorem asks_iff :
    (table cr).Asks ⟨checks,a⟩ check x ↔
      Recalls cr checks check x ∨ check ∈ checks ∧ ¬ Noted cr check x ∧ x = a := by
  simp only [Table.Asks,table,Recalls,not_not]
  constructor
  · rintro ⟨hc,hn,he | ⟨hnew,hx⟩⟩
    · exact .inr ⟨hc,hn,he⟩
    · exact .inl ⟨hc,hn,hnew,hx⟩
  · rintro (⟨hc,hn,hnew,hx⟩ | ⟨hc,hn,he⟩)
    · exact ⟨hc,hn,.inr ⟨hnew,hx⟩⟩
    · exact ⟨hc,hn,.inl he⟩

theorem group_none_iff (hv : ByAddress env rejects) (hk : Kept cr₁)
    (hfor : StatesFor cr checks cr₁ group) (a : String) :
    (runRcpt env group a cr₁).2 = none ↔
      ∀ check ∈ checks, ¬ Noted cr₁ check a → ¬ rejects check a := by
  rw [runRcpt_none_iff hv]
  constructor
  · intro h check hc hn
    obtain ⟨state,hl⟩ := Option.ne_none_iff_exists'.mp ((hfor.known check).mpr (.inr hc))
    have hask := h state ((hfor.members check state hl).mpr hc) fun ha => hn ⟨state,hl,ha⟩
    rwa [(hk.below check state hl).2] at hask
  · intro h state hs hn
    obtain ⟨hc,hiff⟩ := hfor.owned state hs
    exact h _ hc fun hno => hn ((hiff a).mpr hno)

theorem group_table (hfor : StatesFor cr checks cr₁ group)
    (hrcpts : cr₁.checkedRcpts = cr.checkedRcpts) :
    table { (runRcpt env group a cr₁).1 with
      checkedRcpts := (runRcpt env group a cr₁).1.checkedRcpts ++ [a] } =
      (table cr).next ⟨checks,a⟩ := by
  obtain ⟨hbooks, -⟩ := tell_books env a group cr₁
  have hnoted := runRcpt_noted env group a cr₁
  refine Table.ext (funext fun check => propext ?_) (funext fun check => funext fun x => propext ?_)
    (funext fun x => propext ?_)
  · change (runRcpt env group a cr₁).1.states.lookup check ≠ none ↔ _
    rw [hbooks.states]
    exact hfor.known check
  · change (∃ state, (runRcpt env group a cr₁).1.states.lookup check = some state ∧
      x ∈ (runRcpt env group a cr₁).1.checkedRcptsPerCheck state) ↔
        Noted cr check x ∨ (table cr).Asks ⟨checks,a⟩ check x
    have hlast : (∃ state, (runRcpt env group a cr₁).1.states.lookup check = some state ∧
        x ∈ (runRcpt env group a cr₁).1.checkedRcptsPerCheck state) ↔
          Noted cr₁ check x ∨ check ∈ checks ∧ x = a := by
      simp only [hbooks.states,hnoted]
      constructor
      · rintro ⟨state,hl,hx | ⟨hs,he⟩⟩
        · exact .inl ⟨state,hl,hx⟩
        · exact .inr ⟨(hfor.members check state hl).mp hs,he⟩
      · rintro (⟨state,hl,hx⟩ | ⟨hc,he⟩)
        · exact ⟨state,hl,.inl hx⟩
        · obtain ⟨state,hl⟩ := Option.ne_none_iff_exists'.mp ((hfor.known check).mpr (.inr hc))
          exact ⟨state,hl,.inr ⟨(hfor.members check state hl).mpr hc,he⟩⟩
    rw [hlast,hfor.noted,asks_iff]
    by_cases hn : Noted cr check x <;> simp [hn]
  · change x ∈ (runRcpt env group a cr₁).1.checkedRcpts ++ [a] ↔ x ∈ cr.checkedRcpts ∨ x = a
    rw [hbooks.checkedRcpts,hrcpts]
    simp

/-- The runner puts the questions that its table asks for, and returns an error
exactly if one of them is rejected. -/
theorem checkRcpt_round (hv : ByAddress env rejects) (hk : Kept cr) :
    Kept (cr.checkRcpt env msgMeta checks a).1 ∧
      (∀ check, (table cr).known check →
        (table (cr.checkRcpt env msgMeta checks a).1).known check) ∧
      ((cr.checkRcpt env msgMeta checks a).2 = none ↔
        ∀ check x, (table cr).Asks ⟨checks,a⟩ check x → ¬ rejects check x) ∧
      ((cr.checkRcpt env msgMeta checks a).2 = none →
        table (cr.checkRcpt env msgMeta checks a).1 = (table cr).next ⟨checks,a⟩) := by
  obtain ⟨hkept,hrcpts,hmono,hout⟩ := checkStates_spec hv hk
  unfold checkRcpt
  rcases hx : cr.checkStates env msgMeta checks with ⟨cr₁,e | group⟩ <;>
    rw [hx] at hkept hmono hout hrcpts
  · obtain ⟨check,x,hr,hrej⟩ := hout
    refine ⟨hkept,hmono,iff_of_false (by simp) fun h => ?_,nofun⟩
    exact h check x (asks_iff.mpr (.inl hr)) hrej
  · obtain ⟨hfor,hrecalls⟩ := hout
    obtain ⟨hbooks,hlog⟩ := tell_books env a group cr₁
    have hnone := group_none_iff hv hkept hfor a
    refine ⟨⟨fun check state hl => ?_,fun state hs => ?_⟩,fun check h => ?_,hnone.trans ?_,
      fun _ => group_table hfor hrcpts⟩
    · rw [hbooks.states] at hl
      rw [hbooks.nextState,hbooks.owner]
      exact hkept.below check state hl
    · rw [hbooks.nextState] at hs
      have hout : state ∉ group := fun hm => Nat.not_lt.mpr hs (hfor.created state hm)
      refine (congrArg Prod.snd (hlog state)).trans ?_
      rw [if_neg hout]
      exact hkept.fresh state hs
    · change (runRcpt env group a cr₁).1.states.lookup check ≠ none
      rw [hbooks.states]
      exact hmono check h
    · simp only [asks_iff,hfor.noted]
      constructor
      · rintro h check x (hr | ⟨hc,hn,rfl⟩)
        · exact hrecalls check x hr
        · by_cases hr : Recalls cr checks check x
          · exact hrecalls check x hr
          · exact h check hc (fun hor => hor.elim hn hr)
      · intro h check hc hn
        exact h check a (.inr ⟨hc,fun hno => hn (.inl hno),rfl⟩)

end Rounds

end Madmail.Proofs.CheckQuestions
