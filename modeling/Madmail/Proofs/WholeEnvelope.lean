import Madmail.Proofs.CheckReplay

namespace Madmail.Proofs.WholeEnvelope
open Exterrors Madmail.Module Msgpipeline Msgpipeline.Delivery Loops CheckReplay List

variable {τ δ : Type} (ops : Targets τ δ)
variable {dd dd' : Delivery τ δ} {msgMeta : MsgMetadata} {mailFrom newFrom : String}
  {d : Pipeline τ}

def startCalls (d : Pipeline τ) (mailFrom : String) : List Call :=
  .connSender d.globalChecks mailFrom ::
    match d.globalModifiers.rewriteSender mailFrom with
    | .error _ => []
    | .ok mailFrom =>
      match srcBlockForAddr d mailFrom with
      | .error _ => []
      | .ok block => [.connSender block.checks mailFrom]

def blockCalls (dd : Delivery τ δ) (rcptTo : String) : List Call :=
  match dd.rcptBlockForAddr rcptTo with
  | .error _ => []
  | .ok block =>
    match (dd.d.blocks block).rejectErr with
    | some _ => []
    | none => [.rcpt (dd.d.blocks block).checks rcptTo]

def rcptCalls (dd : Delivery τ δ) (msgMeta : MsgMetadata) (rcptTo : String) : List Call :=
  .rcpt dd.d.globalChecks rcptTo :: .rcpt dd.sourceBlock.checks rcptTo ::
    match resolveRcpt dd msgMeta rcptTo with
    | (_,.error _) => []
    | (dd,.ok resultTo) =>
      (visits (addEffective ops rcptTo) resultTo (dd,msgMeta)).flatMap
        (fun visit => blockCalls visit.2.1 visit.1)

def offerCalls : List String → Transaction τ δ → List Call
  | [], _ => []
  | rcptTo :: rest, tx =>
    rcptCalls ops tx.dd tx.msgMeta rcptTo ++ offerCalls rest (tx.offer ops rcptTo)

def envelopeCalls (d : Pipeline τ) (msgMeta : MsgMetadata) (mailFrom : String)
    (rcpts : List String) : List Call :=
  match start d msgMeta mailFrom with
  | (_,some _) => []
  | (dd,none) =>
    startCalls d mailFrom ++ offerCalls ops rcpts { dd := dd, msgMeta := msgMeta }

inductive Give where
  | body
  | bodyNonAtomic
  deriving DecidableEq, Repr

namespace Give

def groups (dd : Delivery τ δ) : Give → List (List Nat)
  | body => dd.mainGroups ++ dd.rcptGroups
  | bodyNonAtomic => dd.mainGroups

def runner (tx : Transaction τ δ) (header : Header) (text : String) : Give → CheckRunner
  | body => (tx.dd.body ops tx.msgMeta header text).1.checkRunner
  | bodyNonAtomic => (tx.dd.bodyNonAtomic ops tx.msgMeta header text).dd.checkRunner

end Give

/-- One `CheckConnection`, one `CheckSender`, which is for one of the senders, and
one `CheckRcpt` for each of the recipients and for nothing else. -/
structure SeesEnvelope (senders rcpts : List String) (calls : List CheckCall) : Prop where
  connection : calls.count .checkConnection = 1
  sender : ∃ f ∈ senders, calls.filter (fun call => call matches .checkSender _) = [.checkSender f]
  rcpt : ∀ a ∈ rcpts, calls.count (.checkRcpt a) = 1
  only : ∀ a, .checkRcpt a ∈ calls → a ∈ rcpts

section Frames

structure SameRunner (dd dd' : Delivery τ δ) : Prop where
  pipeline : dd'.d = dd.d
  sourceBlock : dd'.sourceBlock = dd.sourceBlock
  checkRunner : dd'.checkRunner = dd.checkRunner
  rcptModifiersState : dd'.rcptModifiersState = dd.rcptModifiersState

theorem SameRunner.refl (dd : Delivery τ δ) : SameRunner dd dd := ⟨rfl,rfl,rfl,rfl⟩

theorem SameRunner.trans (h : SameRunner dd dd') (h' : SameRunner dd' dd'') : SameRunner dd dd'' :=
  ⟨h'.pipeline.trans h.pipeline,h'.sourceBlock.trans h.sourceBlock,h'.checkRunner.trans h.checkRunner,
    h'.rcptModifiersState.trans h.rcptModifiersState⟩

theorem noteMod_same (dd : Delivery τ δ) (ref : ModRef) (call : ModCall) :
    SameRunner dd (dd.noteMod ref call) := ⟨rfl,rfl,rfl,rfl⟩

theorem same_of_onlyDeliveries (h : OnlyDeliveries dd dd') : SameRunner dd dd' := by
  obtain ⟨_,rfl⟩ := h
  exact ⟨rfl,rfl,rfl,rfl⟩

theorem rewriteSource_same : SameRunner dd (dd.rewriteSource rcpts).1 :=
  rewriteSource_inv (P := SameRunner dd) (fun _ h => h.trans (noteMod_same _ _ _)) (.refl dd)

theorem rewriteWith_same (text : String) (mods : List (ModRef × Group)) (dd : Delivery τ δ)
    (header : Header) : SameRunner dd (rewriteWith text mods dd header).1 :=
  rewriteWith_inv (P := SameRunner dd) text (fun _ _ _ h => h.trans (noteMod_same _ _ _)) header
    (.refl dd)

end Frames

/-- The runner has made the calls, and every check that will see the body was in
the group of one of them. -/
structure Ready (d : Pipeline τ) (h : List Call) (dd : Delivery τ δ) : Prop where
  pipeline : dd.d = d
  inv : Inv h dd.checkRunner
  main : ∀ checks ∈ dd.mainGroups, ∀ check ∈ checks, Known h check
  rcpt : ∀ block ∈ dd.rcptModifiersState, ∀ check ∈ (d.blocks block).checks, Known h check

namespace Ready
variable {d : Pipeline τ} {h : List Call} {dd dd' : Delivery τ δ}

theorem same (hr : Ready d h dd) (hs : SameRunner dd dd') : Ready d h dd' := by
  refine ⟨hs.pipeline.trans hr.pipeline,hs.checkRunner ▸ hr.inv,?_,hs.rcptModifiersState ▸ hr.rcpt⟩
  unfold mainGroups
  rw [hs.pipeline,hs.sourceBlock]
  exact hr.main

theorem groups (hr : Ready d h dd) (give : Give) :
    ∀ checks ∈ give.groups dd, ∀ check ∈ checks, Known h check := by
  cases give with
  | bodyNonAtomic => exact hr.main
  | body =>
    intro checks hm
    rcases mem_append.mp hm with hm | hm
    · exact hr.main checks hm
    · obtain ⟨block,hblock,rfl⟩ := mem_map.mp hm
      rw [hr.pipeline]
      exact hr.rcpt block ((dd.d.env.pick_perm _ _).mem_iff.mp hblock)

theorem getRcptModifiers (hr : Ready d h dd) (msgMeta : MsgMetadata) (block : Nat)
    (hb : ∀ check ∈ (d.blocks block).checks, Known h check) :
    Ready d h (dd.getRcptModifiers msgMeta block).1 := by
  unfold Delivery.getRcptModifiers
  split
  · exact hr
  split
  · exact hr
  refine ⟨hr.pipeline,hr.inv,hr.main,fun block' hm => ?_⟩
  rcases mem_append.mp hm with hm | hm
  · exact hr.rcpt block' hm
  · rw [mem_singleton.mp hm]
    exact hb

variable (hp : Passing d.env)
include hp

theorem checkRcpt (hr : Ready d h dd) (msgMeta : MsgMetadata) (checks : List Nat) (a : String) :
    (dd.checkRcpt msgMeta checks a).2 = none ∧
      Ready d (.rcpt checks a :: h) (dd.checkRcpt msgMeta checks a).1 := by
  have hp' : Passing dd.d.env := hr.pipeline ▸ hp
  obtain ⟨hnone,hinv⟩ := rcpt_inv hp' hr.inv msgMeta checks a
  exact ⟨hnone,hr.pipeline,hinv,fun group hg check hm => known_cons.mpr (.inr (hr.main group hg check hm)),
    fun block hb check hm => known_cons.mpr (.inr (hr.rcpt block hb check hm))⟩

theorem resolveRcpt (hr : Ready d h dd) (msgMeta : MsgMetadata) (a : String) :
    Ready d (.rcpt dd.sourceBlock.checks a :: .rcpt dd.d.globalChecks a :: h)
      (resolveRcpt dd msgMeta a).1 := by
  unfold Loops.resolveRcpt
  obtain ⟨hnone,hfirst⟩ := hr.checkRcpt hp msgMeta dd.d.globalChecks a
  have hsource : (dd.checkRcpt msgMeta dd.d.globalChecks a).1.sourceBlock = dd.sourceBlock := rfl
  rcases hx : dd.checkRcpt msgMeta dd.d.globalChecks a with ⟨dd₁,err⟩
  rw [hx] at hnone hfirst hsource
  cases hnone
  dsimp only at hfirst hsource ⊢
  rw [← hsource]
  obtain ⟨hnone,hsecond⟩ := hfirst.checkRcpt hp msgMeta dd₁.sourceBlock.checks a
  rcases hx : dd₁.checkRcpt msgMeta dd₁.sourceBlock.checks a with ⟨dd₂,err⟩
  rw [hx] at hnone hsecond
  cases hnone
  dsimp only at hsecond ⊢
  have hnoted := hsecond.same (noteMod_same dd₂ .global .rewriteRcpt)
  split
  · exact hnoted
  · exact hnoted.same rewriteSource_same

theorem resolveEffective (hr : Ready d h dd) (msgMeta : MsgMetadata) (a : String) :
    Ready d ((blockCalls dd a).reverse ++ h) (resolveEffective dd msgMeta a).1 := by
  unfold Loops.resolveEffective blockCalls
  cases dd.rcptBlockForAddr a with
  | error e => exact hr
  | ok block =>
    dsimp only
    cases (dd.d.blocks block).rejectErr with
    | some e => exact hr
    | none =>
      obtain ⟨hnone,hfirst⟩ := hr.checkRcpt hp msgMeta (dd.d.blocks block).checks a
      rcases hx : dd.checkRcpt msgMeta (dd.d.blocks block).checks a with ⟨dd₁,err⟩
      rw [hx] at hnone hfirst
      cases hnone
      dsimp only at hfirst ⊢
      have hmods := hfirst.getRcptModifiers msgMeta block
        fun check hm => known_cons.mpr (.inl (by rw [Call.checks,hr.pipeline]; exact hm))
      rcases hx : dd₁.getRcptModifiers msgMeta block with ⟨dd₂,_ | e⟩ <;> rw [hx] at hmods
      · dsimp only at hmods ⊢
        have hnoted := hmods.same (noteMod_same dd₂ (.rcpt block) .rewriteRcpt)
        split
        · exact hnoted.same (noteMod_same _ _ _)
        · exact hnoted
      · exact hmods

theorem addEffective (originalTo a : String)
    (st : Delivery τ δ × MsgMetadata) (hr : Ready d h st.1) :
    Ready d ((blockCalls st.1 a).reverse ++ h) (addEffective ops originalTo a st).1.1 := by
  have hres := hr.resolveEffective hp st.2 a
  rw [addEffective_eq]
  rcases hx : Loops.resolveEffective st.1 st.2 a with ⟨dd',e | ⟨targets,newTo⟩⟩ <;> rw [hx] at hres
  · exact hres
  · exact hres.same (same_of_onlyDeliveries
      (OnlyDeliveries.forEach (.addRewritten originalTo targets) newTo (dd',st.2)))

theorem addEffectives (originalTo : String) (as : List String)
    (st : Delivery τ δ × MsgMetadata) (hr : Ready d h st.1) :
    Ready d (((visits (Delivery.addEffective ops originalTo) as st).flatMap
        (fun visit => blockCalls visit.2.1 visit.1)).reverse ++ h)
      (forEach (Delivery.addEffective ops originalTo) as st).1.1 := by
  induction as generalizing st h with
  | nil => exact hr
  | cons a as ih =>
    have ha := hr.addEffective ops hp originalTo a st
    rw [forEach_cons,visits]
    rcases hx : Delivery.addEffective ops originalTo a st with ⟨st',_ | e⟩ <;> rw [hx] at ha
    · have hrest := ih st' ha
      rw [flatMap_cons,reverse_append,append_assoc]
      exact hrest
    · simpa using ha

theorem addRcpt (hr : Ready d h dd) (msgMeta : MsgMetadata) (a : String) :
    Ready d ((rcptCalls ops dd msgMeta a).reverse ++ h) (dd.addRcpt ops msgMeta a).1 := by
  have hres := hr.resolveRcpt hp msgMeta a
  rw [addRcpt_eq]
  unfold rcptCalls
  rcases hx : Loops.resolveRcpt dd msgMeta a with ⟨dd',e | resultTo⟩ <;> rw [hx] at hres
  · exact hres
  · have hloop := hres.addEffectives ops hp a resultTo (dd',msgMeta)
    simpa using hloop

theorem offers (rcpts : List String) (tx : Transaction τ δ) (hr : Ready d h tx.dd) :
    Ready d ((offerCalls ops rcpts tx).reverse ++ h)
      (rcpts.foldl (Transaction.offer ops) tx).dd := by
  induction rcpts generalizing tx h with
  | nil => exact hr
  | cons a rest ih =>
    have ha := hr.addRcpt ops hp tx.msgMeta a
    rw [← offer_dd] at ha
    rw [offerCalls,reverse_append,append_assoc]
    exact ih (tx.offer ops a) ha

end Ready

theorem start_first (d : Pipeline τ) (hp : Passing d.env) (msgMeta : MsgMetadata)
    (mailFrom : String) :
    (({ d := d, checkRunner := { doDMARC := d.doDMARC } } : Delivery τ δ).checkConnSender msgMeta
        d.globalChecks mailFrom).2 = none ∧
      Inv [.connSender d.globalChecks mailFrom]
        (({ d := d, checkRunner := { doDMARC := d.doDMARC } } : Delivery τ δ).checkConnSender msgMeta
          d.globalChecks mailFrom).1.checkRunner :=
  connSender_inv hp core_new (fun a => by simp [passed])

theorem initRunGlobalModifiers_ok
    (h : dd.initRunGlobalModifiers msgMeta mailFrom = (dd',.ok newFrom)) :
    SameRunner dd dd' ∧ dd.d.globalModifiers.rewriteSender mailFrom = .ok newFrom := by
  unfold initRunGlobalModifiers at h
  cases hm : dd.d.globalModifiers.modStateForMsg msgMeta with
  | some e =>
    rw [hm] at h
    cases h
  | none =>
    rw [hm] at h
    dsimp only [noteMod] at h
    cases hw : dd.d.globalModifiers.rewriteSender mailFrom with
    | error e =>
      rw [hw] at h
      cases h
    | ok f =>
      rw [hw] at h
      cases h
      exact ⟨⟨rfl,rfl,rfl,rfl⟩,rfl⟩

theorem startSource_ready (hp : Passing d.env) (hd : dd.d = d)
    (hinv : Inv [.connSender d.globalChecks mailFrom] dd.checkRunner)
    (hnone : dd.rcptModifiersState = []) (h : dd.startSource msgMeta newFrom = (dd',none)) :
    Ready d [.connSender dd.sourceBlock.checks newFrom,.connSender d.globalChecks mailFrom] dd' := by
  have hp' : Passing dd.d.env := hd ▸ hp
  obtain ⟨herr,hnext⟩ := call_inv hp' hinv
  have hready : Ready d [.connSender dd.sourceBlock.checks newFrom,
      .connSender d.globalChecks mailFrom]
      (dd.checkConnSender msgMeta dd.sourceBlock.checks newFrom).1 := by
    refine ⟨hd,hnext,fun checks hm check hc => ?_,fun block hm => ?_⟩
    · simp only [mainGroups,mem_cons,not_mem_nil,or_false] at hm
      rcases hm with rfl | rfl
      · exact known_cons.mpr (.inr (known_cons.mpr (.inl (hd ▸ hc))))
      · exact known_cons.mpr (.inl hc)
    · have hempty : (dd.checkConnSender msgMeta dd.sourceBlock.checks newFrom).1.rcptModifiersState =
          dd.rcptModifiersState := rfl
      rw [hempty,hnone] at hm
      cases hm
  unfold startSource at h
  have herr' : (dd.checkConnSender msgMeta dd.sourceBlock.checks newFrom).2 = none := herr
  rcases hx : dd.checkConnSender msgMeta dd.sourceBlock.checks newFrom with ⟨dd₁,err⟩
  rw [hx] at h hready herr'
  cases herr'
  dsimp only at h hready
  split at h
  · cases h
  split at h
  · cases h
  · cases h
    exact hready.same ⟨rfl,rfl,rfl,rfl⟩

theorem start_ready (hp : Passing d.env) (h : start d msgMeta mailFrom = (dd,none)) :
    Ready d (startCalls d mailFrom).reverse dd := by
  obtain ⟨herr,hfirst⟩ := start_first (δ := δ) d hp msgMeta mailFrom
  unfold start startSender at h
  rcases hx : ({ d := d, checkRunner := { doDMARC := d.doDMARC } } : Delivery τ δ).checkConnSender
    msgMeta d.globalChecks mailFrom with ⟨dd₁,err⟩
  have hd : dd₁.d = d := (congrArg (fun r => r.1.d) hx).symm
  have hstate : dd₁.rcptModifiersState = [] := (congrArg (fun r => r.1.rcptModifiersState) hx).symm
  rw [hx] at h herr hfirst
  cases herr
  dsimp only at h hfirst
  rcases hx : dd₁.initRunGlobalModifiers msgMeta mailFrom with ⟨dd₂,e | newFrom⟩
  · rw [hx] at h
    cases h
  obtain ⟨hsame,hrewrite⟩ := initRunGlobalModifiers_ok hx
  rw [hd] at hrewrite
  have hd₂ : dd₂.d = d := hsame.pipeline.trans hd
  rw [hx] at h
  dsimp only at h
  unfold startCalls
  rw [hrewrite]
  dsimp only
  cases hblock : srcBlockForAddr dd₂.d newFrom with
  | error e =>
    rw [hblock] at h
    cases h
  | ok block =>
    rw [hblock] at h
    rw [hd₂] at hblock
    rw [hblock]
    dsimp only at h
    cases hrej : block.rejectErr with
    | some e =>
      rw [hrej] at h
      cases h
    | none =>
      rw [hrej] at h
      rcases hx : ({ dd₂ with sourceBlock := block }).startSource msgMeta newFrom with ⟨dd₃,_ | e⟩ <;>
        rw [hx] at h
      · cases h
        have hblock : ({ dd₂ with sourceBlock := block } : Delivery τ δ).d = d := hd₂
        exact startSource_ready hp hblock
          (hsame.checkRunner ▸ hfirst) (hsame.rcptModifiersState.trans hstate) hx
      · cases h

theorem transaction_ready (hp : Passing d.env)
    (h : transaction ops d msgMeta mailFrom rcpts = some tx) :
    Ready d (envelopeCalls ops d msgMeta mailFrom rcpts).reverse tx.dd := by
  unfold transaction at h
  unfold envelopeCalls
  rcases hs : start (δ := δ) d msgMeta mailFrom with ⟨dd,_ | e⟩ <;> rw [hs] at h
  · cases h
    rw [reverse_append]
    exact (start_ready hp hs).offers ops hp rcpts { dd := dd, msgMeta := msgMeta }
  · cases h

section Body
variable (tx : Transaction τ δ) (header : Header) (text : String)
variable (dd : Delivery τ δ) (msgMeta : MsgMetadata)

theorem checkBodies_calls :
    (dd.checkBodies msgMeta groups header text).1.checkRunner =
      (forEach (fun checks (cr : CheckRunner) => cr.checkBody dd.d.env msgMeta checks header text)
        groups dd.checkRunner).1 := rfl

theorem applyResults_calls (cr : CheckRunner) (env : Env) (msgMeta : MsgMetadata)
    (hostname : String) :
    (cr.applyResults env msgMeta hostname header).1.calls = cr.calls := by
  obtain ⟨merged,hm⟩ := applyResults_runner env cr msgMeta hostname header
  rw [hm]

theorem body_calls :
    (dd.body ops msgMeta header text).1.checkRunner.calls =
      (dd.checkBodies msgMeta (dd.mainGroups ++ dd.rcptGroups) header text).1.checkRunner.calls := by
  have hpolicy : (dd.applyPolicy msgMeta header text).1.checkRunner.calls =
      (dd.checkBodies msgMeta (dd.mainGroups ++ dd.rcptGroups) header text).1.checkRunner.calls := by
    unfold applyPolicy
    rcases dd.checkBodies msgMeta (dd.mainGroups ++ dd.rcptGroups) header text with ⟨dd,_ | e⟩
    · dsimp only
      cases dd.addReceived msgMeta header with
      | error e => rfl
      | ok header =>
        have happly := applyResults_calls header dd.checkRunner dd.d.env msgMeta dd.d.hostname
        dsimp only
        rcases hx : dd.checkRunner.applyResults dd.d.env msgMeta dd.d.hostname header with
          ⟨cr,msgMeta',e | header⟩ <;> (rw [hx] at happly; exact happly)
    · rfl
  rw [← hpolicy]
  unfold Delivery.body
  rcases dd.applyPolicy msgMeta header text with ⟨dd,msgMeta,stop | header⟩
  · rfl
  · have hrewrite := rewriteWith_same text dd.bodyModifiers dd header
    dsimp only
    unfold Delivery.rewriteBody
    rcases hx : rewriteWith text dd.bodyModifiers dd header with ⟨dd',e | header⟩ <;>
      rw [hx] at hrewrite
    · exact congrArg CheckRunner.calls hrewrite.checkRunner
    · have hloop := hrewrite.trans (same_of_onlyDeliveries (OnlyDeliveries.forEach
        (f := bodyOf ops header text) (.bodyOf header text)
        (dd'.d.env.pick .body dd'.keys) (dd',msgMeta)))
      exact congrArg CheckRunner.calls hloop.checkRunner

theorem bodyNonAtomic_calls :
    (dd.bodyNonAtomic ops msgMeta header text).dd.checkRunner.calls =
      (dd.checkBodies msgMeta dd.mainGroups header text).1.checkRunner.calls := by
  unfold Delivery.bodyNonAtomic
  rcases dd.checkBodies msgMeta dd.mainGroups header text with ⟨dd,_ | e⟩
  · have hrewrite := rewriteWith_same text dd.bodyModifiers dd header
    dsimp only
    unfold Delivery.rewriteBody
    rcases hx : rewriteWith text dd.bodyModifiers dd header with ⟨dd',e | header⟩ <;>
      rw [hx] at hrewrite
    · exact congrArg CheckRunner.calls hrewrite.checkRunner
    · exact congrArg CheckRunner.calls (hrewrite.trans (same_of_onlyDeliveries
        (OnlyDeliveries.handNonAtomic ops header text (dd'.d.env.pick .body dd'.keys)
          { dd := dd', msgMeta := msgMeta }))).checkRunner
  · rfl

theorem runner_calls {give : Give} :
    (give.runner ops tx header text).calls =
      (tx.dd.checkBodies tx.msgMeta (give.groups tx.dd) header text).1.checkRunner.calls := by
  cases give with
  | body => exact body_calls ops header text tx.dd tx.msgMeta
  | bodyNonAtomic => exact bodyNonAtomic_calls ops header text tx.dd tx.msgMeta

end Body

theorem calls_before_body {post : List CheckCall}
    (hbase : ∀ header text, .checkBody header text ∉ base)
    (h : base ++ List.replicate n (.checkBody header text) = pre ++ .checkBody header' text' :: post) :
    0 < n ∧ ∃ k, pre = base ++ List.replicate k (.checkBody header text) := by
  rcases append_eq_append_iff.mp h with ⟨rest,hpre,hrest⟩ | ⟨rest,hpre,hrest⟩
  · have hrep : rest = List.replicate rest.length (.checkBody header text) := by
      refine eq_replicate_iff.mpr ⟨rfl,fun call hm => ?_⟩
      have hmem : call ∈ List.replicate n (.checkBody header text) :=
        hrest ▸ mem_append_left _ hm
      exact eq_of_mem_replicate hmem
    refine ⟨?_,rest.length,by rw [← hrep]; exact hpre⟩
    have hlen := congrArg List.length hrest
    simp only [length_replicate,length_append,length_cons] at hlen
    omega
  · cases rest with
    | nil =>
      refine ⟨?_,0,by simpa using hpre.symm⟩
      have hlen := congrArg List.length hrest
      simp only [length_replicate,length_append,length_cons,length_nil] at hlen
      omega
    | cons call rest =>
      obtain ⟨rfl, -⟩ := List.cons.inj hrest
      exact absurd (by rw [hpre]; simp) (hbase header' text')

theorem SeesEnvelope.append_body (h : SeesEnvelope S rcpts calls) :
    SeesEnvelope S rcpts (calls ++ List.replicate k (.checkBody header text)) := by
  refine ⟨?_,by simpa using h.sender,fun a ha => ?_,fun a ha => h.only a (by simpa using ha)⟩
  · rw [count_append,h.connection,count_replicate]
    simp
  · rw [count_append,h.rcpt a ha,count_replicate]
    simp

theorem seesEnvelope_iff (he : Exact (senders h) (Told h check) l) :
    SeesEnvelope (senders h) (passed h) l.1 ↔ ∀ a ∈ passed h, Told h check a := by
  constructor
  · intro hs a ha
    have hone := hs.rcpt a ha
    rw [he.rcpt a] at hone
    by_contra hn
    rw [if_neg (fun hm => hn ((he.noted a).mp hm))] at hone
    omega
  · intro hall
    refine ⟨he.connection,he.sender,fun a ha => ?_,fun a ha => ?_⟩
    · rw [he.rcpt a,if_pos ((he.noted a).mpr (hall a ha))]
    · have hpos := count_pos_iff.mpr ha
      rw [he.rcpt a] at hpos
      by_cases hm : a ∈ l.2
      · exact passed_of_told ((he.noted a).mp hm)
      · rw [if_neg hm] at hpos
        omega

/-- Whatever gets the body has seen the whole envelope by then, just if every
check that gets it was told of every address. -/
theorem body_sees_envelope_iff {d : Pipeline τ} (hp : Passing d.env) {msgMeta : MsgMetadata}
    {mailFrom : String} {rcpts : List String} {tx : Transaction τ δ}
    (htx : transaction ops d msgMeta mailFrom rcpts = some tx) (give : Give) (header : Header)
    (text : String) :
    (∀ state pre header' text' post,
      (give.runner ops tx header text).calls state = pre ++ .checkBody header' text' :: post →
      SeesEnvelope (senders (envelopeCalls ops d msgMeta mailFrom rcpts).reverse)
        (passed (envelopeCalls ops d msgMeta mailFrom rcpts).reverse) pre) ↔
    ∀ checks ∈ give.groups tx.dd, ∀ check ∈ checks,
      ∀ a ∈ passed (envelopeCalls ops d msgMeta mailFrom rcpts).reverse,
        Told (envelopeCalls ops d msgMeta mailFrom rcpts).reverse check a := by
  have hr := transaction_ready ops hp htx
  generalize (envelopeCalls ops d msgMeta mailFrom rcpts).reverse = h at hr ⊢
  have hknown := hr.groups give
  have hcore := hr.inv.core
  have hp' : Passing tx.dd.d.env := hr.pipeline ▸ hp
  have hbody := body_groups hp' tx.msgMeta (give.groups tx.dd) header text tx.dd.checkRunner
    fun checks hg check hm => (hcore.known check).mpr (hknown checks hg check hm)
  rw [runner_calls,checkBodies_calls]
  constructor
  · intro hsees checks hg check hm
    obtain ⟨state,hlook⟩ := Option.ne_none_iff_exists'.mp
      ((hcore.known check).mpr (hknown checks hg check hm))
    obtain ⟨n,hcalls,hpos⟩ := hbody state
    obtain ⟨k,rfl⟩ := Nat.exists_eq_succ_of_ne_zero
      (Nat.pos_iff_ne_zero.mp (hpos.mpr ⟨checks,hg,check,hm,hlook⟩))
    rw [replicate_succ] at hcalls
    exact (seesEnvelope_iff (hcore.told check state hlook)).mp (hsees state _ _ _ _ hcalls)
  · intro hall state pre header' text' post hpre
    obtain ⟨n,hcalls,hpos⟩ := hbody state
    rw [hcalls] at hpre
    obtain ⟨hn,k,rfl⟩ := calls_before_body (hcore.bodyless state) hpre
    obtain ⟨checks,hg,check,hm,hlook⟩ := hpos.mp hn
    exact ((seesEnvelope_iff (hcore.told check state hlook)).mpr
      (hall checks hg check hm)).append_body

theorem passing_env : Passing Env.passing := ⟨fun _ _ => rfl,fun _ _ => rfl⟩

def twoBlocks : Pipeline Unit :=
  { Pipeline.plain with
    defaultSource :=
      { perRcpt := fun rcpt => if rcpt = "ann@example.org" then some 1 else none
        defaultRcpt := 2 }
    blocks := fun block => { checks := [block], targets := [0] } }

/-- The check of one block sees both recipients of the block. -/
theorem block_sees_its_rcpts :
    Passing twoBlocks.env ∧ ∃ tx,
      transaction Targets.silent twoBlocks { id := "m1" } "eve@example.org"
        ["bob@example.org","cal@example.org"] = some tx ∧
      ∀ state pre header' text' post,
        (Give.body.runner Targets.silent tx [] "").calls state =
          pre ++ .checkBody header' text' :: post →
        SeesEnvelope
          (senders (envelopeCalls Targets.silent twoBlocks { id := "m1" } "eve@example.org"
            ["bob@example.org","cal@example.org"]).reverse)
          (passed (envelopeCalls Targets.silent twoBlocks { id := "m1" } "eve@example.org"
            ["bob@example.org","cal@example.org"]).reverse) pre :=
  ⟨passing_env,_,rfl,
    (body_sees_envelope_iff Targets.silent passing_env rfl .body [] "").mpr (by decide)⟩

/-- The check of the first recipient's block does not see the second recipient. -/
theorem later_rcpt_not_seen :
    ¬ ∀ (d : Pipeline Unit) (msgMeta : MsgMetadata) (mailFrom : String) (rcpts : List String)
      (tx : Transaction Unit Unit), Passing d.env →
      transaction Targets.silent d msgMeta mailFrom rcpts = some tx →
      ∀ (give : Give) header text state pre header' text' post,
        (give.runner Targets.silent tx header text).calls state =
          pre ++ .checkBody header' text' :: post →
        SeesEnvelope
          (senders (envelopeCalls Targets.silent d msgMeta mailFrom rcpts).reverse)
          (passed (envelopeCalls Targets.silent d msgMeta mailFrom rcpts).reverse) pre := by
  intro h
  have hsees := h twoBlocks { id := "m1" } "eve@example.org" ["ann@example.org","bob@example.org"] _
    passing_env rfl .body [] "" 0
    [.checkConnection,.checkSender "eve@example.org",.checkRcpt "ann@example.org"] [] "" [] rfl
  have hbob := hsees.rcpt "bob@example.org" (by decide)
  exact absurd hbob (by decide)

end Madmail.Proofs.WholeEnvelope
