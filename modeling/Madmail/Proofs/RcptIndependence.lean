import Madmail.Proofs.CheckQuestions

namespace Madmail.Proofs.RcptIndependence
open List
open Exterrors Madmail.Module Msgpipeline Msgpipeline.Delivery Lib.Inquiry Loops CheckQuestions

variable {τ δ : Type}

structure AcceptsAll (ops : Targets τ δ) : Prop where
  start : ∀ tgt msgMeta mailFrom, ∃ obj, (ops.start tgt msgMeta mailFrom).2 = .ok obj
  addRcpt : ∀ obj msgMeta rcptTo, (ops.addRcpt obj msgMeta rcptTo).2.2 = none

section Conditions
variable (ops : Targets τ δ)

def addresses (dd : Delivery τ δ) (rcptTo : String) : Except Err (List String) :=
  match dd.d.globalModifiers.rewriteRcpt rcptTo with
  | .error e => .error e
  | .ok globalTo => (dd.rewriteSource globalTo).2

/-- An address that has a block, which neither rejects it nor has modifiers that
do. -/
def Admissible (dd : Delivery τ δ) (a : String) : Prop :=
  ∃ block newTo, dd.rcptBlockForAddr a = .ok block ∧ (dd.d.blocks block).rejectErr = none ∧
    (dd.d.blocks block).modifiers.rewriteRcpt a = .ok newTo

def checksFor (dd : Delivery τ δ) (a : String) : List Nat :=
  match dd.rcptBlockForAddr a with
  | .error _ => []
  | .ok block => (dd.d.blocks block).checks

def effectiveRounds (dd : Delivery τ δ) (addrs : List String) : List (Round Nat String) :=
  addrs.map fun a => ⟨checksFor dd a,a⟩

def rounds (dd : Delivery τ δ) (rcptTo : String) (addrs : List String) : List (Round Nat String) :=
  ⟨dd.d.globalChecks,rcptTo⟩ :: ⟨dd.sourceBlock.checks,rcptTo⟩ :: effectiveRounds dd addrs

/-- The modifiers of the block of an address are not there and can not be had. -/
def NoModifiers (st : Delivery τ δ × MsgMetadata) (a : String) : Prop :=
  ∃ block, st.1.rcptBlockForAddr a = .ok block ∧ block ∉ st.1.rcptModifiersState ∧
    (st.1.d.blocks block).modifiers.modStateForMsg st.2 ≠ none

/-- `AddRcpt` gets to an address whose modifiers can not be had. The states are those of its
own loop, as the metadata they are asked with changes along it. -/
def LacksModifiers (st : Delivery τ δ × MsgMetadata) (rcptTo : String) : Prop :=
  ∃ dd' addrs, resolveRcpt st.1 st.2 rcptTo = (dd',.ok addrs) ∧
    ∃ p ∈ visits (addEffective ops rcptTo) addrs (dd',st.2), NoModifiers p.2 p.1

end Conditions

section Follow
variable {ops : Targets τ δ} {dd dd' dd'' : Delivery τ δ} {rejects : Nat → String → Prop}

/-- A later state of a delivery: the checks that have a state keep it. -/
structure Follows (dd dd' : Delivery τ δ) : Prop where
  setup : SameSetup dd dd'
  kept : Kept dd'.checkRunner
  known : ∀ check, (table dd.checkRunner).known check → (table dd'.checkRunner).known check

namespace Follows

theorem refl (hk : Kept dd.checkRunner) : Follows dd dd := ⟨.refl _,hk,fun _ h => h⟩

theorem trans (h : Follows dd dd') (h' : Follows dd' dd'') : Follows dd dd'' :=
  ⟨h.setup.trans h'.setup,h'.kept,fun check hk => h'.known check (h.known check hk)⟩

theorem of_runner (h : Follows dd dd') (hs : SameSetup dd' dd'')
    (hcr : dd''.checkRunner = dd'.checkRunner) : Follows dd dd'' :=
  ⟨h.setup.trans hs,hcr ▸ h.kept,hcr ▸ h.known⟩

end Follows

theorem checkRcpt_follows (hv : ByAddress dd.d.env rejects) (hk : Kept dd.checkRunner) :
    Follows dd (dd.checkRcpt msgMeta checks a).1 ∧
      ((dd.checkRcpt msgMeta checks a).2 = none ↔ ∀ check x,
        (table dd.checkRunner).Asks ⟨checks,a⟩ check x → ¬ rejects check x) ∧
      ((dd.checkRcpt msgMeta checks a).2 = none →
        table (dd.checkRcpt msgMeta checks a).1.checkRunner =
          (table dd.checkRunner).next ⟨checks,a⟩) := by
  obtain ⟨hkept,hknown,hnone,htable⟩ := checkRcpt_round hv hk
  exact ⟨⟨⟨rfl,rfl⟩,hkept,hknown⟩,hnone,htable⟩

theorem rewriteSource_runner (dd : Delivery τ δ) (rcpts : List String) :
    (dd.rewriteSource rcpts).1.checkRunner = dd.checkRunner :=
  rewriteSource_inv (P := fun dd' => dd'.checkRunner = dd.checkRunner) (fun _ h => h) rfl

theorem resolveRcpt_follows (hv : ByAddress dd.d.env rejects) (hk : Kept dd.checkRunner) :
    Follows dd (resolveRcpt dd msgMeta rcptTo).1 ∧
      (∀ addrs, (resolveRcpt dd msgMeta rcptTo).2 = .ok addrs ↔ addresses dd rcptTo = .ok addrs ∧
        ∀ check x, (table dd.checkRunner).Questions
          [⟨dd.d.globalChecks,rcptTo⟩,⟨dd.sourceBlock.checks,rcptTo⟩] check x →
            ¬ rejects check x) ∧
      (∀ addrs, (resolveRcpt dd msgMeta rcptTo).2 = .ok addrs →
        table (resolveRcpt dd msgMeta rcptTo).1.checkRunner =
          ((table dd.checkRunner).next ⟨dd.d.globalChecks,rcptTo⟩).next
            ⟨dd.sourceBlock.checks,rcptTo⟩) := by
  obtain ⟨hf₁,hnone₁,htable₁⟩ := checkRcpt_follows hv hk
  unfold resolveRcpt
  rcases hx : dd.checkRcpt msgMeta dd.d.globalChecks rcptTo with ⟨dd₁,_ | e⟩ <;>
    rw [hx] at hf₁ hnone₁ htable₁
  · have hv₁ : ByAddress dd₁.d.env rejects := hf₁.setup.pipeline ▸ hv
    obtain ⟨hf₂,hnone₂,htable₂⟩ := checkRcpt_follows hv₁ hf₁.kept
    dsimp only at hf₁ hnone₁ htable₁ hf₂ hnone₂ htable₂ ⊢
    rw [htable₁ rfl] at hnone₂ htable₂
    have hf := hf₁.trans hf₂
    have hsource := hf₁.setup.sourceBlock
    rcases hx : dd₁.checkRcpt msgMeta dd₁.sourceBlock.checks rcptTo with ⟨dd₂,_ | e⟩ <;>
      rw [hx] at hf hnone₂ htable₂
    · have hpass : ∀ check x, (table dd.checkRunner).Questions
          [⟨dd.d.globalChecks,rcptTo⟩,⟨dd.sourceBlock.checks,rcptTo⟩] check x →
            ¬ rejects check x := by
        rintro check x (hq | hq | hq)
        · exact hnone₁.mp rfl check x hq
        · exact hnone₂.mp rfl check x (hsource ▸ hq)
        · exact hq.elim
      have hsame : SameSetup dd (dd₂.noteMod .global .rewriteRcpt) :=
        ⟨hf.setup.pipeline,hf.setup.sourceBlock⟩
      have hnext := htable₂ rfl
      rw [hsource] at hnext
      unfold addresses
      dsimp only at hf ⊢
      rw [hsame.pipeline]
      cases dd.d.globalModifiers.rewriteRcpt rcptTo with
      | error e => exact ⟨hf.of_runner ⟨rfl,rfl⟩ rfl,fun addrs => iff_of_false nofun nofun,nofun⟩
      | ok globalTo =>
        have hrunner := rewriteSource_runner (dd₂.noteMod .global .rewriteRcpt) globalTo
        have hsetup := rewriteSource_setup (dd₂.noteMod .global .rewriteRcpt) globalTo
        refine ⟨hf.of_runner ⟨hsetup.pipeline,hsetup.sourceBlock⟩ hrunner,
          fun addrs => ?_,fun addrs _ => ?_⟩
        · rw [rewriteSource_congr hsame]
          exact ⟨fun h => ⟨h,hpass⟩,fun h => h.1⟩
        · rw [hrunner]
          exact hnext
    · refine ⟨hf,fun addrs => iff_of_false nofun fun h => ?_,nofun⟩
      have hnone := hnone₂.mpr fun check x hq => h.2 check x (.inr (.inl (hsource ▸ hq)))
      cases hnone
  · refine ⟨hf₁,fun addrs => iff_of_false nofun fun h => ?_,nofun⟩
    exact absurd (hnone₁.mpr fun check x hq => h.2 check x (.inl hq)) (by simp)

theorem admissible_congr (h : SameSetup dd dd') : Admissible dd' a ↔ Admissible dd a := by
  unfold Admissible
  rw [rcptBlockForAddr_congr h,h.pipeline]

theorem checksFor_congr (h : SameSetup dd dd') : checksFor dd' a = checksFor dd a := by
  unfold checksFor
  rw [rcptBlockForAddr_congr h,h.pipeline]

theorem getDelivery_ok (ha : AcceptsAll ops) : ∃ h, (dd.getDelivery ops msgMeta tgt).2.2 = .ok h := by
  unfold getDelivery
  cases dd.handle tgt with
  | some h => exact ⟨h,rfl⟩
  | none =>
    obtain ⟨obj,hobj⟩ := ha.start (dd.d.target tgt) msgMeta dd.sourceAddr
    rcases hs : ops.start (dd.d.target tgt) msgMeta dd.sourceAddr with ⟨msgMeta',e | obj'⟩
    · rw [hs] at hobj
      cases hobj
    · exact ⟨_,rfl⟩

theorem addToTarget_none (ha : AcceptsAll ops) : (addToTarget ops originalTo rcptTo tgt st).2 = none := by
  obtain ⟨dd,msgMeta⟩ := st
  obtain ⟨h,hh⟩ := getDelivery_ok ha
  unfold addToTarget
  dsimp only
  rcases hg : dd.getDelivery ops msgMeta tgt with ⟨dd',msgMeta',e | h'⟩
  · rw [hg] at hh
    cases hh
  · have hadd := ha.addRcpt h'.obj msgMeta' rcptTo
    dsimp only
    rcases hr : ops.addRcpt h'.obj msgMeta' rcptTo with ⟨obj,msgMeta'',_ | e⟩
    · rfl
    · rw [hr] at hadd
      cases hadd

theorem addRewritten_none (ha : AcceptsAll ops) :
    (addRewritten ops originalTo targets rcptTo st).2 = none := by
  obtain ⟨dd,msgMeta⟩ := st
  exact (forEach_done (P := fun _ _ => True)
    (fun _ tgt st _ => ⟨addToTarget_none ha,trivial⟩) targets _ trivial).1

theorem getRcptModifiers_spec :
    (dd.getRcptModifiers msgMeta block).1.checkRunner = dd.checkRunner ∧
      ((dd.getRcptModifiers msgMeta block).2 = none ↔ ¬ (block ∉ dd.rcptModifiersState ∧
        (dd.d.blocks block).modifiers.modStateForMsg msgMeta ≠ none)) := by
  unfold getRcptModifiers
  by_cases hb : block ∈ dd.rcptModifiersState
  · rw [if_pos hb]
    exact ⟨rfl,iff_of_true rfl fun h => h.1 hb⟩
  · rw [if_neg hb]
    cases hm : (dd.d.blocks block).modifiers.modStateForMsg msgMeta <;> simp [hb,noteMod]

theorem resolveEffective_follows (hv : ByAddress dd.d.env rejects) (hk : Kept dd.checkRunner) :
    Follows dd (resolveEffective dd msgMeta a).1 ∧
      ((∃ r, (resolveEffective dd msgMeta a).2 = .ok r) ↔ Admissible dd a ∧
        (∀ check x, (table dd.checkRunner).Asks ⟨checksFor dd a,a⟩ check x → ¬ rejects check x) ∧
        ¬ NoModifiers (dd,msgMeta) a) ∧
      ((∃ r, (resolveEffective dd msgMeta a).2 = .ok r) →
        table (resolveEffective dd msgMeta a).1.checkRunner =
          (table dd.checkRunner).next ⟨checksFor dd a,a⟩) := by
  unfold resolveEffective Admissible checksFor NoModifiers
  cases hblock : dd.rcptBlockForAddr a with
  | error e => exact ⟨.refl hk,iff_of_false nofun (by simp),nofun⟩
  | ok block =>
    simp only [Except.ok.injEq,exists_and_left,exists_eq_left']
    cases hrej : (dd.d.blocks block).rejectErr with
    | some e => exact ⟨.refl hk,iff_of_false nofun (by simp),nofun⟩
    | none =>
      obtain ⟨hf₁,hnone₁,htable₁⟩ := checkRcpt_follows hv hk
      have hmods : (dd.checkRcpt msgMeta (dd.d.blocks block).checks a).1.rcptModifiersState =
          dd.rcptModifiersState := rfl
      rcases hx : dd.checkRcpt msgMeta (dd.d.blocks block).checks a with ⟨dd₁,_ | e⟩ <;>
        rw [hx] at hf₁ hnone₁ htable₁ hmods
      · obtain ⟨hrunner,hget⟩ := getRcptModifiers_spec
        have hf₂ := hf₁.of_runner (getRcptModifiers_setup dd₁ msgMeta block) hrunner
        dsimp only at hf₁ hnone₁ htable₁ hmods hf₂ ⊢
        rw [hmods,hf₁.setup.pipeline] at hget
        rcases hx : dd₁.getRcptModifiers msgMeta block with ⟨dd₂,_ | e⟩ <;>
          rw [hx] at hf₂ hget hrunner
        · have hpipe : (dd₂.noteMod (.rcpt block) .rewriteRcpt).d = dd.d := hf₂.setup.pipeline
          have hnext := (congrArg table hrunner).trans (htable₁ rfl)
          dsimp only
          rw [hpipe]
          cases hw : (dd.d.blocks block).modifiers.rewriteRcpt a with
          | error e =>
            exact ⟨hf₂.of_runner ⟨rfl,rfl⟩ rfl,iff_of_false nofun (by simp),nofun⟩
          | ok newTo =>
            refine ⟨hf₂.of_runner ⟨rfl,rfl⟩ rfl,iff_of_true ⟨_,rfl⟩ ?_,fun _ => hnext⟩
            exact ⟨⟨rfl,newTo,rfl⟩,hnone₁.mp rfl,hget.mp rfl⟩
        · refine ⟨hf₂,iff_of_false nofun fun h => ?_,nofun⟩
          exact absurd (hget.mpr h.2.2) nofun
      · refine ⟨hf₁,iff_of_false nofun fun h => ?_,nofun⟩
        exact absurd (hnone₁.mpr h.2.1) nofun

theorem addEffective_follows (hv : ByAddress dd.d.env rejects) (ha : AcceptsAll ops)
    (hk : Kept dd.checkRunner) (msgMeta : MsgMetadata) (originalTo a : String) :
    Follows dd (addEffective ops originalTo a (dd,msgMeta)).1.1 ∧
      ((addEffective ops originalTo a (dd,msgMeta)).2 = none ↔ Admissible dd a ∧
        (∀ check x, (table dd.checkRunner).Asks ⟨checksFor dd a,a⟩ check x → ¬ rejects check x) ∧
        ¬ NoModifiers (dd,msgMeta) a) ∧
      ((addEffective ops originalTo a (dd,msgMeta)).2 = none →
        table (addEffective ops originalTo a (dd,msgMeta)).1.1.checkRunner =
          (table dd.checkRunner).next ⟨checksFor dd a,a⟩) := by
  obtain ⟨hf,hok,htable⟩ := resolveEffective_follows hv hk
  rw [addEffective_eq,← hok]
  rcases hx : resolveEffective dd msgMeta a with ⟨dd',e | ⟨targets,newTo⟩⟩ <;> rw [hx] at hf htable
  · exact ⟨hf,iff_of_false nofun nofun,nofun⟩
  · obtain ⟨deliveries,hloop⟩ := OnlyDeliveries.forEach (f := addRewritten ops originalTo targets)
      (.addRewritten originalTo targets) newTo (dd',msgMeta)
    have hnone := (forEach_done (f := addRewritten ops originalTo targets) (P := fun _ _ => True)
      (fun _ a st _ => ⟨addRewritten_none ha,trivial⟩) newTo (dd',msgMeta)
      trivial).1
    rw [hloop]
    exact ⟨hf.of_runner ⟨rfl,rfl⟩ rfl,iff_of_true hnone ⟨_,rfl⟩,fun _ => htable ⟨_,rfl⟩⟩

theorem effectiveRounds_congr (h : SameSetup dd dd') (addrs : List String) :
    effectiveRounds dd' addrs = effectiveRounds dd addrs :=
  map_congr_left fun a _ => by rw [checksFor_congr h]

theorem addEffectives_follows (ha : AcceptsAll ops) (originalTo : String) (addrs : List String)
    (st : Delivery τ δ × MsgMetadata) (hv : ByAddress st.1.d.env rejects)
    (hk : Kept st.1.checkRunner) :
    Follows st.1 (forEach (addEffective ops originalTo) addrs st).1.1 ∧
      ((forEach (addEffective ops originalTo) addrs st).2 = none ↔
        (∀ a ∈ addrs, Admissible st.1 a) ∧
        (∀ check x, (table st.1.checkRunner).Questions (effectiveRounds st.1 addrs) check x →
          ¬ rejects check x) ∧
        ∀ p ∈ visits (addEffective ops originalTo) addrs st, ¬ NoModifiers p.2 p.1) := by
  induction addrs generalizing st with
  | nil => exact ⟨.refl hk,iff_of_true rfl ⟨by simp,fun _ _ h => h.elim,by simp [visits]⟩⟩
  | cons a rest ih =>
    obtain ⟨hf,hnone,htable⟩ := addEffective_follows hv ha hk st.2 originalTo a
    rw [forEach_cons,visits]
    rcases hx : addEffective ops originalTo a st with ⟨st₁,_ | e⟩
    · rw [show addEffective ops originalTo a (st.1,st.2) = (st₁,none) from hx] at hf hnone htable
      obtain ⟨hfirst,hasked,hmods⟩ := hnone.mp rfl
      obtain ⟨hf',hnone'⟩ := ih st₁ (hf.setup.pipeline ▸ hv) hf.kept
      refine ⟨hf.trans hf',hnone'.trans ?_⟩
      rw [forall_mem_cons,forall_mem_cons,effectiveRounds_congr hf.setup,htable rfl]
      simp only [admissible_congr hf.setup]
      constructor
      · rintro ⟨hadm,hq,hm⟩
        exact ⟨⟨hfirst,hadm⟩,fun check x h => h.elim (hasked check x) (hq check x),hmods,hm⟩
      · rintro ⟨⟨-,hadm⟩,hq, -,hm⟩
        exact ⟨hadm,fun check x h => hq check x (.inr h),hm⟩
    · rw [show addEffective ops originalTo a (st.1,st.2) = (st₁,some e) from hx] at hf hnone
      refine ⟨hf,iff_of_false (Option.some_ne_none e) ?_⟩
      rintro ⟨hadm,hq,hm⟩
      cases hnone.mpr ⟨hadm a (by simp),fun check x h => hq check x (.inl h),
        hm (a,st) (by simp)⟩

/-- A recipient is accepted exactly if it leads to addresses that are in order,
no check rejects what it is asked, and the modifiers of the blocks are there. -/
theorem addRcpt_none_iff (ha : AcceptsAll ops) (st : Delivery τ δ × MsgMetadata)
    (hv : ByAddress st.1.d.env rejects) (hk : Kept st.1.checkRunner) (rcptTo : String) :
    Follows st.1 (st.1.addRcpt ops st.2 rcptTo).1 ∧
      ((st.1.addRcpt ops st.2 rcptTo).2.2 = none ↔
        ∃ addrs, addresses st.1 rcptTo = .ok addrs ∧ (∀ a ∈ addrs, Admissible st.1 a) ∧
          (∀ check x, (table st.1.checkRunner).Questions (rounds st.1 rcptTo addrs) check x →
            ¬ rejects check x) ∧ ¬ LacksModifiers ops st rcptTo) := by
  obtain ⟨hf,hok,htable⟩ := resolveRcpt_follows hv hk
  rw [addRcpt_eq]
  unfold LacksModifiers
  rcases hx : resolveRcpt st.1 st.2 rcptTo with ⟨dd₁,e | addrs⟩ <;> rw [hx] at hf hok htable
  · refine ⟨hf,iff_of_false nofun ?_⟩
    rintro ⟨addrs,haddrs, -,hq, -⟩
    refine absurd ((hok addrs).mpr ⟨haddrs,fun check x h => hq check x ?_⟩) nofun
    exact h.imp_right fun h => h.elim .inl (fun h => h.elim)
  · obtain ⟨haddrs,hfirst⟩ := (hok addrs).mp rfl
    obtain ⟨hf',hnone⟩ := addEffectives_follows ha rcptTo addrs (dd₁,st.2)
      (hf.setup.pipeline ▸ hv) hf.kept
    refine ⟨hf.trans hf',hnone.trans ?_⟩
    rw [htable addrs rfl,effectiveRounds_congr hf.setup]
    simp only [admissible_congr hf.setup]
    constructor
    · rintro ⟨hadm,hq,hm⟩
      refine ⟨addrs,haddrs,hadm,?_,?_⟩
      · rintro check x (h | h | h)
        · exact hfirst check x (.inl h)
        · exact hfirst check x (.inr (.inl h))
        · exact hq check x h
      · rintro ⟨_,_,hres,p,hp,hno⟩
        cases hres
        exact hm p hp hno
    · rintro ⟨addrs',haddrs',hadm,hq,hm⟩
      cases haddrs.symm.trans haddrs'
      exact ⟨hadm,fun check x h => hq check x (.inr (.inr h)),
        fun p hp hno => hm ⟨dd₁,addrs,rfl,p,hp,hno⟩⟩

end Follow

section Verdicts
variable (rejects : Nat → String → Prop) (ops : Targets τ δ) (tx : Transaction τ δ)

def Accepted (rcptTo : String) : Prop := (tx.dd.addRcpt ops tx.msgMeta rcptTo).2.2 = none

def Asked (rcptTo : String) (addrs : List String) (check : Nat) (x : String) : Prop :=
  (table tx.dd.checkRunner).Questions (rounds tx.dd rcptTo addrs) check x

/-- No check rejects what it is asked for a recipient, and the modifiers of the
blocks can be had. -/
def Passes (rcptTo : String) (addrs : List String) : Prop :=
  (∀ check x, Asked tx rcptTo addrs check x → ¬ rejects check x) ∧
    ¬ LacksModifiers ops (tx.dd,tx.msgMeta) rcptTo

/-- The same, as far as earlier recipients are asked about. -/
def PastPasses (rcptTo : String) (addrs : List String) : Prop :=
  (∀ check x, Asked tx rcptTo addrs check x → x ∈ tx.dd.checkRunner.checkedRcpts →
    ¬ rejects check x) ∧ ¬ LacksModifiers ops (tx.dd,tx.msgMeta) rcptTo

end Verdicts

section Transactions
variable {ops : Targets τ δ} {d : Pipeline τ} {rejects : Nat → String → Prop}

/-- A runner that has not been asked about any recipient. -/
structure Untold (cr : CheckRunner) : Prop where
  kept : Kept cr
  noted : ∀ check a, ¬ Noted cr check a
  rcpts : cr.checkedRcpts = []

theorem untold_connSender (hv : ByAddress env rejects) (hu : Untold cr) :
    Untold (cr.checkConnSender env msgMeta checks mailFrom).1 := by
  have hk : Kept { cr with mailFrom := mailFrom, mailFromReceived := true } :=
    ⟨hu.kept.below,hu.kept.fresh⟩
  have hnone : ∀ check a,
      ¬ Recalls { cr with mailFrom := mailFrom, mailFromReceived := true } checks check a := by
    rintro check a ⟨-, -, -,ha⟩
    rw [show CheckRunner.checkedRcpts { cr with mailFrom := mailFrom, mailFromReceived := true } = []
      from hu.rcpts] at ha
    cases ha
  obtain ⟨hkept,hrcpts, -,hout⟩ := checkStates_spec hv hk
  unfold CheckRunner.checkConnSender
  rcases hx : CheckRunner.checkStates env { cr with mailFrom := mailFrom, mailFromReceived := true }
    msgMeta checks with ⟨cr₁,e | group⟩
  · rw [hx] at hout
    obtain ⟨check,a,hr, -⟩ := hout
    exact absurd hr (hnone check a)
  · rw [hx] at hkept hrcpts hout
    refine ⟨hkept,fun check a hn => ?_,hrcpts.trans hu.rcpts⟩
    rcases (hout.1.noted check a).mp hn with hn | hr
    · exact hu.noted check a hn
    · exact hnone check a hr

theorem untold_start (hv : ByAddress d.env rejects) (h : start d msgMeta mailFrom = (dd,none)) :
    Untold dd.checkRunner ∧ dd.d = d := by
  refine StartKeeps.start (P := fun dd => Untold dd.checkRunner ∧ dd.d = d)
    ⟨fun dd checks mailFrom hu => ⟨?_,hu.2⟩,fun _ _ _ hu => hu,fun _ hu => hu,fun _ _ hu => hu,
      fun _ _ hu => hu⟩ ⟨⟨⟨nofun,fun _ _ => rfl⟩,nofun,rfl⟩,rfl⟩ h
  exact untold_connSender (hu.2.symm ▸ hv) hu.1

theorem offers_follow (hv : ByAddress d.env rejects) (ha : AcceptsAll ops) (rcpts : List String)
    (tx : Transaction τ δ) (hd : tx.dd.d.env = d.env) (hk : Kept tx.dd.checkRunner) :
    Follows tx.dd (rcpts.foldl (Transaction.offer ops) tx).dd := by
  induction rcpts generalizing tx with
  | nil => exact .refl hk
  | cons rcpt rest ih =>
    obtain ⟨hf, -⟩ := addRcpt_none_iff ha (tx.dd,tx.msgMeta) (hd.symm ▸ hv) hk rcpt
    rw [← offer_dd] at hf
    have henv : (tx.offer ops rcpt).dd.d.env = d.env := by rw [hf.setup.pipeline,hd]
    exact hf.trans (ih (tx.offer ops rcpt) henv hf.kept)

theorem addresses_congr (h : SameSetup dd dd') : addresses dd' rcptTo = addresses dd rcptTo := by
  unfold addresses
  rw [h.pipeline]
  cases dd.d.globalModifiers.rewriteRcpt rcptTo with
  | error e => rfl
  | ok globalTo => exact rewriteSource_congr h

theorem rounds_congr (h : SameSetup dd dd') : rounds dd' rcptTo addrs = rounds dd rcptTo addrs := by
  unfold rounds
  rw [h.pipeline,h.sourceBlock,effectiveRounds_congr h]

theorem accepted_iff (ha : AcceptsAll ops) (hv : ByAddress tx.dd.d.env rejects)
    (hk : Kept tx.dd.checkRunner) (rcptTo : String) :
    Accepted ops tx rcptTo ↔ ∃ addrs, addresses tx.dd rcptTo = .ok addrs ∧
      (∀ a ∈ addrs, Admissible tx.dd a) ∧ Passes rejects ops tx rcptTo addrs :=
  (addRcpt_none_iff ha (tx.dd,tx.msgMeta) hv hk rcptTo).2

theorem passes_iff_past (hu : Untold first.dd.checkRunner) (hf : Follows first.dd tx.dd)
    (hp : Passes rejects ops first rcptTo addrs) :
    Passes rejects ops tx rcptTo addrs ↔ PastPasses rejects ops tx rcptTo addrs := by
  refine ⟨fun h => ⟨fun check x hq _ => h.1 check x hq,h.2⟩,
    fun h => ⟨fun check x hq => ?_,h.2⟩⟩
  by_cases hpast : x ∈ tx.dd.checkRunner.checkedRcpts
  · exact h.1 check x hq hpast
  · unfold Asked at hq
    rw [rounds_congr hf.setup] at hq
    have halone := Table.questions_or_asked (P := fun x => x ∈ tx.dd.checkRunner.checkedRcpts)
      (s := table first.dd.checkRunner) (rounds first.dd rcptTo addrs) hf.known
      (fun _ hx => .inr hx) hq hpast
    exact hp.1 check x (halone.resolve_left (hu.noted check x))

/-- Checks decide about a recipient by its address alone, and no target refuses
one. The verdict on a recipient after others is then the one it gets alone,
exactly if one of these holds. It is refused without any check: its addresses
have no block, or a block or modifiers reject them. It passes alone, and no
check rejects an earlier address that is put to it now, because a check of its
group has no state yet. Or it does not pass alone, and there is a question now
that is rejected. The modifiers of its blocks count as one more question. -/
theorem verdict_independent_iff (hv : ByAddress d.env rejects) (ha : AcceptsAll ops)
    {first tx : Transaction τ δ} {others : List String}
    (hfirst : transaction ops d msgMeta mailFrom [] = some first)
    (htx : transaction ops d msgMeta mailFrom others = some tx) (rcptTo : String) :
    (Accepted ops tx rcptTo ↔ Accepted ops first rcptTo) ↔
      ∀ addrs, addresses first.dd rcptTo = .ok addrs → (∀ a ∈ addrs, Admissible first.dd a) →
        (Passes rejects ops first rcptTo addrs → PastPasses rejects ops tx rcptTo addrs) ∧
        (¬ Passes rejects ops first rcptTo addrs → ¬ Passes rejects ops tx rcptTo addrs) := by
  unfold transaction at hfirst htx
  rcases hs : start (δ := δ) d msgMeta mailFrom with ⟨dd,_ | e⟩ <;> rw [hs] at hfirst htx
  · cases hfirst
    cases htx
    obtain ⟨hu,hd⟩ := untold_start hv hs
    have hf := offers_follow hv ha others { dd := dd, msgMeta := msgMeta } (by rw [hd]) hu.kept
    have halone : Accepted ops { dd := dd, msgMeta := msgMeta } rcptTo ↔ _ :=
      accepted_iff ha (by rw [hd]; exact hv) hu.kept rcptTo
    generalize others.foldl (Transaction.offer ops) { dd := dd, msgMeta := msgMeta } = tx at hf
    have hafter : Accepted ops tx rcptTo ↔ _ :=
      accepted_iff ha (by rw [hf.setup.pipeline,hd]; exact hv) hf.kept rcptTo
    simp only [addresses_congr hf.setup,admissible_congr hf.setup] at hafter
    rw [foldl_nil,halone,hafter]
    cases addresses dd rcptTo with
    | error e => simp
    | ok addrs =>
      simp only [Except.ok.injEq,exists_eq_left',forall_eq']
      by_cases hadm : ∀ a ∈ addrs, Admissible dd a
      · rw [and_iff_right hadm,and_iff_right hadm,forall_prop_of_true hadm]
        by_cases hp : Passes rejects ops { dd := dd, msgMeta := msgMeta } rcptTo addrs
        · rw [passes_iff_past hu hf hp]
          exact ⟨fun h => ⟨fun _ => h.mpr hp,fun hn => absurd hp hn⟩,
            fun h => iff_of_true (h.1 hp) hp⟩
        · exact ⟨fun h => ⟨fun h' => absurd h' hp,fun _ => fun hn => hp (h.mp hn)⟩,
            fun h => iff_of_false (h.2 hp) hp⟩
      · exact iff_of_true (iff_of_false (fun h => hadm h.1) (fun h => hadm h.1))
          (fun h => absurd h hadm)
  · cases hfirst

end Transactions

def guarded : Pipeline Unit :=
  { Pipeline.plain with
    env :=
      { Env.passing with
        result := fun _ calls =>
          match calls.getLast? with
          | some (.checkRcpt a) =>
            if a = "ann@example.org" then { reject := true, reason := some (.leaf "unknown" none) }
            else {}
          | _ => {} }
    defaultSource :=
      { perRcpt := fun rcpt => if rcpt = "ann@example.org" then some 0 else none
        defaultRcpt := 1 }
    blocks := fun block => { checks := if block = 0 then [] else [7], targets := [0] } }

theorem guarded_byAddress : ByAddress guarded.env (fun _ a => a = "ann@example.org") := by
  refine ⟨fun _ _ => rfl,fun call hc check calls => ?_,fun check calls a => ?_,
    fun check calls => ?_⟩
  · simp only [guarded,getLast?_append,getLast?_singleton,Option.some_or]
    cases call with
    | checkRcpt a => exact absurd rfl (hc a)
    | _ => rfl
  · simp only [guarded,getLast?_append,getLast?_singleton,Option.some_or]
    by_cases h : a = "ann@example.org" <;> simp [h,refuses]
  · dsimp only [guarded]
    split
    · split <;> simp [refuses]
    · simp [refuses]

theorem silent_acceptsAll : AcceptsAll Targets.silent := ⟨fun _ _ _ => ⟨(),rfl⟩,fun _ _ _ => rfl⟩

/-- Two recipients of one block that the check of the block knows. -/
theorem known_rcpt_passes :
    ∃ first tx : Transaction Unit Unit,
      transaction Targets.silent guarded { id := "m1" } "eve@example.org" [] = some first ∧
      transaction Targets.silent guarded { id := "m1" } "eve@example.org" ["bob@example.org"] =
        some tx ∧
      Accepted Targets.silent tx "cal@example.org" ∧
      ∀ addrs, addresses first.dd "cal@example.org" = .ok addrs →
        (∀ a ∈ addrs, Admissible first.dd a) →
        (Passes (fun _ a => a = "ann@example.org") Targets.silent first "cal@example.org" addrs →
          PastPasses (fun _ a => a = "ann@example.org") Targets.silent tx "cal@example.org" addrs) ∧
        (¬ Passes (fun _ a => a = "ann@example.org") Targets.silent first "cal@example.org" addrs →
          ¬ Passes (fun _ a => a = "ann@example.org") Targets.silent tx "cal@example.org" addrs) := by
  refine ⟨_,_,rfl,rfl,rfl,?_⟩
  have hfirst : transaction Targets.silent guarded { id := "m1" } "eve@example.org" [] =
      some _ := rfl
  have htx : transaction Targets.silent guarded { id := "m1" } "eve@example.org"
      ["bob@example.org"] = some _ := rfl
  exact (verdict_independent_iff guarded_byAddress silent_acceptsAll hfirst htx
    "cal@example.org").mp (iff_of_true rfl rfl)

/-- A recipient whose check has no state yet is refused for the recipient before
it, which was accepted without that check. -/
theorem earlier_rcpt_refuses_later :
    ¬ ∀ (ops : Targets Unit Unit) (d : Pipeline Unit) (rejects : Nat → String → Prop)
      (msgMeta : MsgMetadata) (mailFrom rcptTo : String) (others : List String)
      (first tx : Transaction Unit Unit), ByAddress d.env rejects → AcceptsAll ops →
      transaction ops d msgMeta mailFrom [] = some first →
      transaction ops d msgMeta mailFrom others = some tx → rcptTo ∉ others →
      (Accepted ops tx rcptTo ↔ Accepted ops first rcptTo) := by
  intro h
  have hsame := h Targets.silent guarded _ { id := "m1" } "eve@example.org" "bob@example.org"
    ["ann@example.org"] _ _ guarded_byAddress silent_acceptsAll rfl rfl (by decide)
  cases hsame.mpr rfl

end Madmail.Proofs.RcptIndependence
