import Madmail.Lib.Runs
import Madmail.Msgpipeline.Nested
import Madmail.Proofs.Loops

namespace Madmail.Proofs.RefusedRcpt
open Exterrors Madmail.Module Msgpipeline Msgpipeline.Delivery Loops Lib List

variable {τ δ : Type}

/-- What deliveries hold, each address with the targets that lead to the delivery
it is at, what a call of `AddRcpt` makes them take, and for which recipients one
delivery is all there is to ask. -/
structure Holding (ops : Targets τ δ) where
  holds : δ → List Nat × String → Prop
  takes : δ → MsgMetadata → String → List Nat × String → Prop
  single : δ → String → Prop
  start_holds : ∀ tgt msgMeta mailFrom obj i,
    (ops.start tgt msgMeta mailFrom).2 = .ok obj → ¬ holds obj i
  addRcpt_holds : ∀ obj msgMeta rcptTo i,
    holds (ops.addRcpt obj msgMeta rcptTo).1 i ↔ holds obj i ∨ takes obj msgMeta rcptTo i
  refused : ∀ obj msgMeta rcptTo i, single obj rcptTo →
    (ops.addRcpt obj msgMeta rcptTo).2.2 ≠ none → ¬ takes obj msgMeta rcptTo i

/-- The contract of targets that are no pipelines: a new delivery holds nothing,
and `AddRcpt` adds the address it is given if it returns no error. -/
structure Keeps (final : Targets τ δ) where
  holds : δ → String → Prop
  start : ∀ tgt msgMeta mailFrom obj addr,
    (final.start tgt msgMeta mailFrom).2 = .ok obj → ¬ holds obj addr
  addRcpt : ∀ obj msgMeta rcptTo addr,
    holds (final.addRcpt obj msgMeta rcptTo).1 addr ↔
      holds obj addr ∨ addr = rcptTo ∧ (final.addRcpt obj msgMeta rcptTo).2.2 = none

def Holding.final {final : Targets τ δ} (k : Keeps final) : Holding final where
  holds obj i := i.1 = [] ∧ k.holds obj i.2
  takes obj msgMeta rcptTo i :=
    i.1 = [] ∧ i.2 = rcptTo ∧ (final.addRcpt obj msgMeta rcptTo).2.2 = none
  single _ _ := True
  start_holds tgt msgMeta mailFrom obj i h hi := k.start tgt msgMeta mailFrom obj i.2 h hi.2
  addRcpt_holds obj msgMeta rcptTo i := by
    rw [k.addRcpt,and_or_left]
  refused _ _ _ _ _ herr h := herr h.2.2

section Map

variable (dd : Delivery τ δ)

theorem handle_setHandle :
    (dd.setHandle tgt h).handle tgt' =
      if tgt' = tgt then (dd.handle tgt).map (fun _ => h) else dd.handle tgt' := by
  simp only [handle,setHandle]
  induction dd.deliveries with
  | nil => simp
  | cons entry rest ih =>
    rw [map_cons,lookup_cons_ite,ih,lookup_cons_ite,lookup_cons_ite]
    by_cases hk : entry.1 = tgt
    · by_cases ht : tgt' = tgt
      · simp [hk,ht]
      · simp [hk,ht]
    · have hk' : ¬ tgt = entry.1 := fun he => hk he.symm
      by_cases ht : tgt' = tgt
      · simp [hk,hk',ht]
      · simp [hk,ht]

variable (ops : Targets τ δ) (msgMeta : MsgMetadata) (tgt : Nat)

theorem getDelivery_cases :
    (∃ h, dd.handle tgt = some h ∧ dd.getDelivery ops msgMeta tgt = (dd,msgMeta,.ok h)) ∨
    dd.handle tgt = none ∧
      ((∃ m e, dd.getDelivery ops msgMeta tgt = (dd,m,.error e)) ∨
        ∃ m obj, (ops.start (dd.d.target tgt) msgMeta dd.sourceAddr).2 = .ok obj ∧
          dd.getDelivery ops msgMeta tgt =
            ({ dd with deliveries := dd.deliveries ++ [(tgt,{ obj := obj })] },m,
              .ok { obj := obj })) := by
  unfold getDelivery
  cases hh : dd.handle tgt with
  | some h => exact .inl ⟨h,rfl,rfl⟩
  | none =>
    refine .inr ⟨rfl,?_⟩
    rcases hs : ops.start (dd.d.target tgt) msgMeta dd.sourceAddr with ⟨m,e | obj⟩
    · exact .inl ⟨m,e,rfl⟩
    · exact .inr ⟨m,obj,rfl,rfl⟩

theorem handle_append (h : Handle δ) (hnone : dd.handle tgt = none) (tgt' : Nat) :
    ({ dd with deliveries := dd.deliveries ++ [(tgt,h)] } : Delivery τ δ).handle tgt' =
      if tgt' = tgt then some h else dd.handle tgt' := by
  simp only [handle] at hnone ⊢
  generalize dd.deliveries = entries at hnone ⊢
  induction entries with
  | nil => simp [lookup_cons_ite]
  | cons entry rest ih =>
    rw [lookup_cons_ite] at hnone
    by_cases hk : tgt = entry.1
    · simp [hk] at hnone
    · simp only [hk,↓reduceIte] at hnone
      rw [cons_append,lookup_cons_ite,ih hnone,lookup_cons_ite]
      by_cases ht : tgt' = tgt
      · simp [ht,hk]
      · simp [ht]

end Map

section Level
variable {ops : Targets τ δ} (inner : Holding ops)

def Held (dd : Delivery τ δ) : List Nat × String → Prop
  | ([],_) => False
  | (tgt :: via,addr) => ∃ h, dd.handle tgt = some h ∧ inner.holds h.obj (via,addr)

theorem held_congr (h : dd.deliveries = dd'.deliveries) (i : List Nat × String) :
    Held inner dd i ↔ Held inner dd' i := by
  obtain ⟨_ | ⟨tgt,via⟩,addr⟩ := i
  · exact Iff.rfl
  · simp only [Held,handle,h]

def TargetTakes (rcptTo : String) (tgt : Nat) (st : Delivery τ δ × MsgMetadata) :
    List Nat × String → Prop
  | ([],_) => False
  | (tgt' :: via,addr) =>
    tgt' = tgt ∧ ∃ dd msgMeta h, st.1.getDelivery ops st.2 tgt = (dd,msgMeta,.ok h) ∧
      inner.takes h.obj msgMeta rcptTo (via,addr)

theorem addToTarget_held (originalTo rcptTo : String) (tgt : Nat)
    (st : Delivery τ δ × MsgMetadata) (i : List Nat × String) :
    Held inner (addToTarget ops originalTo rcptTo tgt st).1.1 i ↔
      Held inner st.1 i ∨ TargetTakes inner rcptTo tgt st i := by
  obtain ⟨dd,msgMeta⟩ := st
  obtain ⟨_ | ⟨tgt',via⟩,addr⟩ := i
  · simp [Held,TargetTakes]
  -- the delivery after the call is the one before, but for the object of the target
  have hset : ∀ (dd' : Delivery τ δ) (m : MsgMetadata) (h : Handle δ),
      dd.getDelivery ops msgMeta tgt = (dd',m,.ok h) → dd'.handle tgt = some h →
      (∀ t, t ≠ tgt → dd'.handle t = dd.handle t) →
      (inner.holds h.obj (via,addr) ↔
        ∃ h, dd.handle tgt = some h ∧ inner.holds h.obj (via,addr)) →
      (Held inner (addToTarget ops originalTo rcptTo tgt (dd,msgMeta)).1.1 (tgt' :: via,addr) ↔
        Held inner dd (tgt' :: via,addr) ∨
          TargetTakes inner rcptTo tgt (dd,msgMeta) (tgt' :: via,addr)) := by
    intro dd' m h hget hself hother hsame
    have hadd := inner.addRcpt_holds h.obj m rcptTo (via,addr)
    rcases ha : ops.addRcpt h.obj m rcptTo with ⟨obj,m',err⟩
    rw [ha] at hadd
    have hafter : ∃ recipients,
        (addToTarget ops originalTo rcptTo tgt (dd,msgMeta)).1.1 =
          dd'.setHandle tgt { obj := obj, recipients := recipients } := by
      cases err with
      | none => exact ⟨h.recipients ++ [originalTo],by simp only [addToTarget,hget,ha]⟩
      | some e => exact ⟨h.recipients,by simp only [addToTarget,hget,ha]⟩
    obtain ⟨recipients,hafter⟩ := hafter
    rw [hafter]
    by_cases ht : tgt' = tgt
    · subst tgt'
      simp only [Held,handle_setHandle,hself,↓reduceIte,Option.map_some,Option.some.injEq,
        exists_eq_left',TargetTakes,hget,Prod.mk.injEq,Except.ok.injEq,true_and]
      rw [hadd,hsame]
      simp
    · simp [Held,handle_setHandle,ht,hother tgt' ht,TargetTakes]
  rcases getDelivery_cases dd ops msgMeta tgt with ⟨h,hh,hget⟩ | ⟨hnone,⟨m,e,hget⟩ | ⟨m,obj,hs,hget⟩⟩
  · refine hset dd msgMeta h hget hh (fun _ _ => rfl) ?_
    simp [hh]
  · simp [addToTarget,hget,TargetTakes,exists_false]
  · have happ := handle_append dd tgt { obj := obj } hnone
    refine hset _ m { obj := obj } hget (by rw [happ]; simp)
      (fun t ht => by rw [happ]; simp [ht]) ?_
    have hnew := inner.start_holds _ _ _ obj (via,addr) hs
    simp [hnone,hnew]

def RewrittenTakes (originalTo : String) (targets : List Nat) (rcptTo : String)
    (st : Delivery τ δ × MsgMetadata) (i : List Nat × String) : Prop :=
  ∃ p ∈ visits (addToTarget ops originalTo rcptTo) targets
      (st.1,if originalTo ≠ rcptTo then
        { st.2 with originalRcpts := Function.update st.2.originalRcpts rcptTo (some originalTo) }
        else st.2),
    TargetTakes inner rcptTo p.1 p.2 i

theorem addRewritten_held (originalTo : String) (targets : List Nat) (rcptTo : String)
    (st : Delivery τ δ × MsgMetadata) (i : List Nat × String) :
    Held inner (addRewritten ops originalTo targets rcptTo st).1.1 i ↔
      Held inner st.1 i ∨ RewrittenTakes inner originalTo targets rcptTo st i := by
  obtain ⟨dd,msgMeta⟩ := st
  exact forEach_effect (H := fun st => Held inner st.1 i)
    (fun tgt st => addToTarget_held inner originalTo rcptTo tgt st i) targets _

def EffectiveTakes (originalTo rcptTo : String) (st : Delivery τ δ × MsgMetadata)
    (i : List Nat × String) : Prop :=
  ∃ dd targets newTo, resolveEffective st.1 st.2 rcptTo = (dd,.ok (targets,newTo)) ∧
    ∃ p ∈ visits (addRewritten ops originalTo targets) newTo (dd,st.2),
      RewrittenTakes inner originalTo targets p.1 p.2 i

theorem rcptKeeps_deliveries (dd : Delivery τ δ) (msgMeta : MsgMetadata) :
    RcptKeeps (fun dd' : Delivery τ δ => dd'.deliveries = dd.deliveries) msgMeta :=
  ⟨fun _ _ _ h => h,fun _ _ _ h => h,
    fun _ _ h => getRcptModifiers_deliveries.trans h⟩

theorem addEffective_held (originalTo rcptTo : String) (st : Delivery τ δ × MsgMetadata)
    (i : List Nat × String) :
    Held inner (addEffective ops originalTo rcptTo st).1.1 i ↔
      Held inner st.1 i ∨ EffectiveTakes inner originalTo rcptTo st i := by
  have hframe := held_congr inner
    ((rcptKeeps_deliveries st.1 st.2).resolveEffective rcptTo rfl) i
  rw [addEffective_eq]
  rcases hr : resolveEffective st.1 st.2 rcptTo with ⟨dd,e | ⟨targets,newTo⟩⟩ <;> rw [hr] at hframe
  · simpa [EffectiveTakes,hr] using hframe
  · have hloop := forEach_effect (H := fun st : Delivery τ δ × MsgMetadata => Held inner st.1 i)
      (fun rcptTo st => addRewritten_held inner originalTo targets rcptTo st i) newTo (dd,st.2)
    rw [hloop,hframe]
    simp [EffectiveTakes,hr]

/-- What a call of `AddRcpt` has the target deliveries take, whether or not it
fails in the end. -/
def Takes (dd : Delivery τ δ) (msgMeta : MsgMetadata) (rcptTo : String) (i : List Nat × String) :
    Prop :=
  ∃ dd' resultTo, resolveRcpt dd msgMeta rcptTo = (dd',.ok resultTo) ∧
    ∃ p ∈ visits (addEffective ops rcptTo) resultTo (dd',msgMeta),
      EffectiveTakes inner rcptTo p.1 p.2 i

theorem addRcpt_held (dd : Delivery τ δ) (msgMeta : MsgMetadata) (rcptTo : String)
    (i : List Nat × String) :
    Held inner (dd.addRcpt ops msgMeta rcptTo).1 i ↔
      Held inner dd i ∨ Takes inner dd msgMeta rcptTo i := by
  have hframe := held_congr inner ((rcptKeeps_deliveries dd msgMeta).resolveRcpt rcptTo rfl) i
  rw [addRcpt_eq]
  rcases hr : resolveRcpt dd msgMeta rcptTo with ⟨dd',e | resultTo⟩ <;> rw [hr] at hframe
  · simpa [Takes,hr] using hframe
  · have hloop := forEach_effect (H := fun st : Delivery τ δ × MsgMetadata => Held inner st.1 i)
      (fun addr st => addEffective_held inner rcptTo addr st i) resultTo (dd',msgMeta)
    rw [hloop,hframe]
    simp [Takes,hr]

theorem start_deliveries {d : Pipeline τ} (h : Delivery.start d msgMeta mailFrom = (dd,none)) :
    dd.deliveries = [] :=
  StartKeeps.start (P := fun dd => dd.deliveries = [])
    ⟨fun _ _ _ h => h,fun _ _ _ h => h,fun _ h => h,fun _ _ h => h,fun _ _ h => h⟩ rfl h

theorem not_held_of_start {d : Pipeline τ} (h : Delivery.start d msgMeta mailFrom = (dd,none))
    (i : List Nat × String) : ¬ Held inner dd i := by
  obtain ⟨_ | ⟨tgt,via⟩,addr⟩ := i
  · exact fun hi => hi
  · rintro ⟨h',hh, -⟩
    simp [handle,start_deliveries h] at hh

/-- The delivery that a target has, or one that its `Start` gives. -/
def Serves (ops : Targets τ δ) (dd : Delivery τ δ) (tgt : Nat) (obj : δ) : Prop :=
  (∃ h, dd.handle tgt = some h ∧ h.obj = obj) ∨
    dd.handle tgt = none ∧ ∃ m, (ops.start (dd.d.target tgt) m dd.sourceAddr).2 = .ok obj

/-- The modifiers make at most one address of the recipient and its block has at
most one target, and so on in the pipeline that this target may be. -/
def OneWay (dd : Delivery τ δ) (rcptTo : String) : Prop :=
  ∀ globalTo resultTo, dd.d.globalModifiers.rewriteRcpt rcptTo = .ok globalTo →
    (dd.rewriteSource globalTo).2 = .ok resultTo → resultTo.length ≤ 1 ∧
    ∀ addr ∈ resultTo, ∀ block newTo, dd.rcptBlockForAddr addr = .ok block →
      (dd.d.blocks block).modifiers.rewriteRcpt addr = .ok newTo →
      newTo.length ≤ 1 ∧ (dd.d.blocks block).targets.length ≤ 1 ∧
      ∀ addr' ∈ newTo, ∀ tgt ∈ (dd.d.blocks block).targets, ∀ obj, Serves ops dd tgt obj →
        inner.single obj addr'

theorem oneWay_of_eq {inner : Holding ops}
    (hglobal : dd.d.globalModifiers.rewriteRcpt rcptTo = .ok globalTo)
    (hsource : (dd.rewriteSource globalTo).2 = .ok [addr])
    (hblock : dd.rcptBlockForAddr addr = .ok block)
    (hnew : (dd.d.blocks block).modifiers.rewriteRcpt addr = .ok [addr'])
    (htargets : (dd.d.blocks block).targets = [tgt])
    (hsingle : ∀ obj, Serves ops dd tgt obj → inner.single obj addr') : OneWay inner dd rcptTo := by
  intro globalTo' resultTo hg hs
  cases hglobal.symm.trans hg
  cases hsource.symm.trans hs
  refine ⟨Nat.le_refl 1,forall_mem_singleton.mpr fun block' newTo hb hn => ?_⟩
  cases hblock.symm.trans hb
  cases hnew.symm.trans hn
  simpa [htargets] using hsingle

structure SameRoute (dd dd' : Delivery τ δ) : Prop extends SameSetup dd dd' where
  deliveries : dd'.deliveries = dd.deliveries
  sourceAddr : dd'.sourceAddr = dd.sourceAddr

theorem rcptKeeps_route (dd : Delivery τ δ) (msgMeta : MsgMetadata) :
    RcptKeeps (SameRoute dd) msgMeta :=
  ⟨fun _ _ _ h => ⟨⟨h.pipeline,h.sourceBlock⟩,h.2,h.3⟩,
    fun _ _ _ h => ⟨⟨h.pipeline,h.sourceBlock⟩,h.2,h.3⟩,fun dd' block h =>
    ⟨h.1.trans (getRcptModifiers_setup dd' msgMeta block),getRcptModifiers_deliveries.trans h.2,by
      refine Eq.trans ?_ h.3
      unfold getRcptModifiers
      repeat' split
      all_goals rfl⟩⟩

theorem serves_of_getDelivery (hroute : SameRoute dd dd')
    (hget : dd'.getDelivery ops msgMeta tgt = (dd'',m,.ok h)) : Serves ops dd tgt h.obj := by
  have hsame : dd'.handle tgt = dd.handle tgt := by simp only [handle,hroute.deliveries]
  rcases getDelivery_cases dd' ops msgMeta tgt with ⟨h',hh,hg⟩ | ⟨hnone,⟨m',e,hg⟩ | ⟨m',obj,hs,hg⟩⟩ <;>
    rw [hget] at hg
  · cases hg
    exact .inl ⟨h,hsame ▸ hh,rfl⟩
  · cases hg
  · cases hg
    rw [hroute.pipeline,hroute.sourceAddr] at hs
    exact .inr ⟨hsame ▸ hnone,msgMeta,hs⟩

/-- Each of the loops makes at most one call, whose error is the one returned. -/
theorem not_takes_of_oneWay (hone : OneWay inner dd rcptTo)
    (herr : (dd.addRcpt ops msgMeta rcptTo).2.2 ≠ none) : ¬ Takes inner dd msgMeta rcptTo i := by
  rintro ⟨dd₁,resultTo,hr,p,hp,hp'⟩
  have hroute := (rcptKeeps_route dd msgMeta).resolveRcpt rcptTo ⟨.refl dd,rfl,rfl⟩
  obtain ⟨hsetup,globalTo,hglobal,hsource⟩ := resolveRcpt_ok hr
  obtain ⟨hlen,hblock⟩ := hone globalTo resultTo hglobal hsource
  rw [hr] at hroute
  simp only [addRcpt_eq,hr] at herr
  obtain ⟨addr,rfl,rfl,hcall⟩ := visits_single hlen hp
  obtain ⟨dd₂,targets,newTo,he,q,hq,hq'⟩ := hp'
  rw [hcall,addEffective_eq,he] at herr
  have hroute' := (rcptKeeps_route dd msgMeta).resolveEffective addr hroute
  rw [he] at hroute'
  obtain ⟨block,hb,rfl,hnew⟩ := resolveEffective_ok he
  rw [rcptBlockForAddr_congr hsetup] at hb
  rw [hsetup.pipeline] at hnew herr hq hq'
  obtain ⟨hlen',htargets,hsingle⟩ := hblock addr (by simp) block newTo hb hnew
  obtain ⟨addr',rfl,rfl,hcall⟩ := visits_single hlen' hq
  obtain ⟨v,hv,htakes⟩ := hq'
  obtain ⟨tgt,ht,rfl,hcall'⟩ := visits_single htargets hv
  obtain ⟨_ | ⟨tgt',via⟩,e⟩ := i
  · exact htakes
  obtain ⟨rfl,dd₃,m,h,hget,htakes⟩ := htakes
  refine inner.refused h.obj m addr' (via,e) (hsingle addr' (by simp) tgt' (by simp [ht]) h.obj
    (serves_of_getDelivery hroute' hget)) (fun hnone => herr ?_) htakes
  dsimp only
  rw [hcall]
  show (forEach (addToTarget ops rcptTo addr') _ _).2 = none
  rw [hcall',addToTarget]
  rcases ha : ops.addRcpt h.obj m addr' with ⟨obj,m',err⟩
  rw [ha] at hnone
  simp only at hnone
  simp only [hget,ha,hnone]

def Holding.pipelines : Holding ops.pipelines where
  holds := Held inner
  takes := Takes inner
  single := OneWay inner
  start_holds tgt msgMeta mailFrom obj i h := by
    rcases hx : (Delivery.start tgt.pipeline msgMeta mailFrom : Delivery τ δ × Option Err) with
      ⟨dd,_ | e⟩
    · simp only [Targets.pipelines,hx,Except.ok.injEq] at h
      subst obj
      exact not_held_of_start inner hx i
    · simp [Targets.pipelines,hx] at h
  addRcpt_holds := addRcpt_held inner
  refused _ _ _ _ := not_takes_of_oneWay inner

end Level

theorem map_ok {x : Except ε α} (h : x.map f = .ok y) : ∃ a, x = .ok a ∧ f a = y := by
  cases x with
  | error e => cases h
  | ok a => exact ⟨a,rfl,Except.ok.inj h⟩

def Holding.sum {a : Targets τ δ} {b : Targets τ' δ'} (ha : Holding a) (hb : Holding b) :
    Holding (a.sum b) where
  holds := Sum.elim ha.holds hb.holds
  takes obj msgMeta rcptTo :=
    Sum.elim (fun o => ha.takes o msgMeta rcptTo) (fun o => hb.takes o msgMeta rcptTo) obj
  single := Sum.elim ha.single hb.single
  start_holds tgt msgMeta mailFrom obj i h := by
    cases tgt with
    | inl t =>
      obtain ⟨o,ho,rfl⟩ := map_ok h
      exact ha.start_holds t msgMeta mailFrom o i ho
    | inr t =>
      obtain ⟨o,ho,rfl⟩ := map_ok h
      exact hb.start_holds t msgMeta mailFrom o i ho
  addRcpt_holds obj msgMeta rcptTo i := by
    cases obj with
    | inl o => exact ha.addRcpt_holds o msgMeta rcptTo i
    | inr o => exact hb.addRcpt_holds o msgMeta rcptTo i
  refused obj msgMeta rcptTo i hs herr := by
    cases obj with
    | inl o => exact ha.refused o msgMeta rcptTo i hs herr
    | inr o => exact hb.refused o msgMeta rcptTo i hs herr

def Holding.nested {final : Targets τ δ} (k : Keeps final) : (n : Nat) → Holding (nested final n)
  | 0 => .final k
  | n + 1 => (Holding.final k).sum (Holding.nested k n).pipelines

section Calls
variable {ops : Targets τ δ} (inner : Holding ops)

def refusal (ops : Targets τ δ) (tx : Transaction τ δ) (rcptTo : String) : Option Err :=
  (tx.dd.addRcpt ops tx.msgMeta rcptTo).2.2

/-- If the recipient is refused, no target holds an address it did not hold. -/
def NothingNew (tx : Transaction τ δ) (rcptTo : String) : Prop :=
  refusal ops tx rcptTo ≠ none →
    ∀ i, Held inner (tx.dd.addRcpt ops tx.msgMeta rcptTo).1 i → Held inner tx.dd i

/-- What the targets hold after some recipients were offered they held before, or
took for a recipient that was accepted. -/
def OnlyAccepted (tx : Transaction τ δ) (rcpts : List String) : Prop :=
  ∀ i, Held inner (rcpts.foldl (Transaction.offer ops) tx).dd i →
    Held inner tx.dd i ∨ ∃ before rcptTo rest, rcpts = before ++ rcptTo :: rest ∧
      refusal ops (before.foldl (Transaction.offer ops) tx) rcptTo = none ∧
      Takes inner (before.foldl (Transaction.offer ops) tx).dd
        (before.foldl (Transaction.offer ops) tx).msgMeta rcptTo i

theorem nothingNew_of_oneWay (hone : refusal ops tx rcptTo ≠ none → OneWay inner tx.dd rcptTo) :
    NothingNew inner tx rcptTo := fun herr i hi =>
  ((addRcpt_held inner tx.dd tx.msgMeta rcptTo i).mp hi).resolve_right
    (not_takes_of_oneWay inner (hone herr) herr)

theorem onlyAccepted_of_guarded (rcpts : List String) (tx : Transaction τ δ)
    (hg : Guarded (Transaction.offer ops) (NothingNew inner) tx rcpts) :
    OnlyAccepted inner tx rcpts := by
  induction rcpts generalizing tx with
  | nil => exact fun i hi => .inl hi
  | cons rcptTo rest ih =>
    obtain ⟨hfirst,hrest⟩ := hg
    intro i hi
    rcases ih (tx.offer ops rcptTo) hrest i hi with hheld | ⟨before,r,rest',rfl,hr⟩
    · rw [offer_dd] at hheld
      by_cases hnone : refusal ops tx rcptTo = none
      · rcases (addRcpt_held inner tx.dd tx.msgMeta rcptTo i).mp hheld with hbefore | htakes
        · exact .inl hbefore
        · exact .inr ⟨[],rcptTo,rest,rfl,hnone,htakes⟩
      · exact .inl (hfirst hnone i hheld)
    · exact .inr ⟨rcptTo :: before,r,rest',rfl,hr⟩

end Calls

/-- If every recipient that is refused stands for one address at one target, it
leaves nothing at any target, and what the targets hold in the end is for accepted
recipients. -/
theorem refused_rcpt_receives_nothing (final : Targets τ δ) (k : Keeps final) (n : Nat)
    (tx : Transaction (Tgt τ n) (Dlv τ δ n)) (rcpts : List String)
    (hone : Guarded (Transaction.offer (nested final n)) (fun tx rcptTo =>
      refusal (nested final n) tx rcptTo ≠ none → OneWay (Holding.nested k n) tx.dd rcptTo)
      tx rcpts) :
    Guarded (Transaction.offer (nested final n)) (NothingNew (Holding.nested k n)) tx rcpts ∧
      OnlyAccepted (Holding.nested k n) tx rcpts := by
  have hnothing := guarded_mono (fun _ _ => nothingNew_of_oneWay (Holding.nested k n)) hone
  exact ⟨hnothing,onlyAccepted_of_guarded (Holding.nested k n) rcpts tx hnothing⟩

def without (missing : String) : Targets Unit (List String) where
  isPipeline _ := false
  start _ msgMeta _ := (msgMeta,.ok [])
  addRcpt obj msgMeta rcptTo :=
    if rcptTo = missing then (obj,msgMeta,some (.leaf "no such user" none))
    else (rcptTo :: obj,msgMeta,none)
  body obj _ _ _ := (obj,false,none)
  isPartialDelivery _ := false
  bodyNonAtomic obj _ _ _ := (obj,[])
  commit obj := (obj,none)
  abort obj := (obj,none)

def withoutKeeps (missing : String) : Keeps (without missing) where
  holds obj addr := addr ∈ obj
  start _ _ _ obj addr h := by
    cases h
    simp
  addRcpt obj msgMeta rcptTo addr := by
    by_cases h : rcptTo = missing
    · simp [without,h]
    · simp [without,h,or_comm]

def mailingList : Pipeline Unit :=
  { Pipeline.plain with
    globalModifiers :=
      [{ modStateForMsg := fun _ => none
         rewriteSender := .ok
         rewriteRcpt := fun rcptTo => .ok (if rcptTo = "list@example.org" then
           ["ann@example.org","bob@example.org"] else [rcptTo])
         rewriteBody := fun header _ => .ok header }] }

def rerouted : Pipeline (Unit ⊕ Reroute Unit) :=
  { Pipeline.plain with target := fun _ => .inr ⟨mailingList,false⟩ }

/-- In a nested pipeline, both members of the list are taken, and Eve is refused. -/
theorem refused_after_list :
    let final := without "eve@example.org"
    let holding := Holding.nested (withoutKeeps "eve@example.org") 1
    let tx : Transaction (Tgt Unit 1) (Dlv Unit (List String) 1) :=
      { dd := (Delivery.start rerouted { id := "m1" } "joe@example.org").1, msgMeta := { id := "m1" } }
    let rcpts := ["list@example.org","eve@example.org"]
    ((rcpts.foldl (Transaction.offer (nested final 1)) tx).dd.deliveries.map (·.2.recipients) =
        [["list@example.org"]]) ∧
      Guarded (Transaction.offer (nested final 1)) (NothingNew holding) tx rcpts ∧
      OnlyAccepted holding tx rcpts := by
  refine ⟨by decide,refused_rcpt_receives_nothing _ _ 1 _ _ ⟨fun h => absurd rfl h,fun _ => ?_,
    trivial⟩⟩
  refine oneWay_of_eq rfl rfl rfl rfl rfl ?_
  rintro obj (⟨h,hh,rfl⟩ | ⟨hnone, -⟩)
  · cases Option.some.inj hh
    exact oneWay_of_eq rfl rfl rfl rfl rfl (fun _ _ => trivial)
  · cases hnone

/-- The list is refused because of its second member, and the first one gets the
message. -/
theorem refused_list_held_by_target :
    ¬ ∀ (final : Targets Unit (List String)) (k : Keeps final) (n : Nat)
      (d : Pipeline (Tgt Unit n)) (msgMeta : MsgMetadata) (mailFrom : String)
      (dd : Delivery (Tgt Unit n) (Dlv Unit (List String) n)) (rcpts : List String),
      Delivery.start d msgMeta mailFrom = (dd,none) →
      Guarded (Transaction.offer (nested final n)) (NothingNew (Holding.nested k n))
        { dd := dd, msgMeta := msgMeta } rcpts := by
  intro h
  have hlist := (h (without "bob@example.org") (withoutKeeps _) 0 mailingList { id := "m1" }
    "eve@example.org" _ ["list@example.org"] rfl).1 (by decide) ([0],"ann@example.org")
    ⟨_,rfl,rfl,mem_cons_self⟩
  obtain ⟨hd,hh, -⟩ := hlist
  cases hh

end Madmail.Proofs.RefusedRcpt
