import Madmail.Lib.Runs
import Madmail.Proofs.CheckCustody

namespace Madmail.Proofs.StatesClosed
open List
open Exterrors Madmail.Module Msgpipeline Msgpipeline.Delivery Lib Lib.Custody Loops CheckCustody

variable {τ δ : Type}

/-- The calls that a modifier state has had. The first one is made as soon as
there is a state. -/
def modLog (dd : Delivery τ δ) (ref : ModRef) : List ModCall :=
  (dd.modCalls.filter fun entry => entry.1 = ref).map Prod.snd

/-- Every state of a check or of modifiers that was obtained is closed once, and
`Close` is the last call on it. -/
def AllClosed (dd : Delivery τ δ) : Prop :=
  (∀ state < dd.checkRunner.nextState, ClosedOnce .close (dd.checkRunner.calls state)) ∧
    ∀ ref, modLog dd ref ≠ [] → ClosedOnce .close (modLog dd ref)

inductive Step where
  | rcpt (rcptTo : String)
  | body (header : Header) (text : String)
  | bodyNonAtomic (header : Header) (text : String)

inductive End where
  | commit | abort

section Run
variable (ops : Targets τ δ)

def step (st : Delivery τ δ × MsgMetadata) : Step → Delivery τ δ × MsgMetadata
  | .rcpt rcptTo =>
    let (dd,msgMeta,_) := st.1.addRcpt ops st.2 rcptTo
    (dd,msgMeta)
  | .body header text =>
    let (dd,msgMeta,_) := st.1.body ops st.2 header text
    (dd,msgMeta)
  | .bodyNonAtomic header text =>
    let r := st.1.bodyNonAtomic ops st.2 header text
    (r.dd,r.msgMeta)

def finish (dd : Delivery τ δ) : End → Delivery τ δ
  | .commit => (dd.commit ops).1
  | .abort => (dd.abort ops).1

/-- A message, from `start` to its end. It ends at once if it is not started. -/
def message (d : Pipeline τ) (msgMeta : MsgMetadata) (mailFrom : String) (steps : List Step)
    (last : End) : Delivery τ δ :=
  match start d msgMeta mailFrom with
  | (dd,some _) => dd
  | (dd,none) => finish ops (steps.foldl (step ops) (dd,msgMeta)).1 last

end Run

section Conditions
variable (ops : Targets τ δ)

/-- The condition on a group of checks that a call is about to run. -/
def ChecksOK (dd : Delivery τ δ) (msgMeta : MsgMetadata) (checks : List Nat) : Prop :=
  GroupOK dd.d.env msgMeta checks dd.checkRunner

def SenderOK (dd : Delivery τ δ) (msgMeta : MsgMetadata) (checks : List Nat) (mailFrom : String) :
    Prop :=
  GroupOK dd.d.env msgMeta checks (withSender dd.checkRunner mailFrom)

def SourceOK (dd : Delivery τ δ) (msgMeta : MsgMetadata) (mailFrom : String) : Prop :=
  SenderOK dd msgMeta dd.sourceBlock.checks mailFrom ∧
    ((dd.checkConnSender msgMeta dd.sourceBlock.checks mailFrom).2 = none →
      dd.sourceBlock.modifiers.modStateForMsg msgMeta = none →
        ∃ newFrom, dd.sourceBlock.modifiers.rewriteSender mailFrom = .ok newFrom)

/-- The part of `start` before the block of the sender is chosen. -/
def resolveSender (dd : Delivery τ δ) (msgMeta : MsgMetadata) (mailFrom : String) :
    Delivery τ δ × Except Err String :=
  match dd.checkConnSender msgMeta dd.d.globalChecks mailFrom with
  | (dd,some e) => (dd,.error e)
  | (dd,none) =>
    match dd.initRunGlobalModifiers msgMeta mailFrom with
    | (dd,.error e) => (dd,.error e)
    | (dd,.ok mailFrom) =>
      match srcBlockForAddr dd.d mailFrom with
      | .error e => (dd,.error e)
      | .ok block =>
        match block.rejectErr with
        | some e => (dd,.error e)
        | none => ({ dd with sourceBlock := block },.ok mailFrom)

def StartOK (dd : Delivery τ δ) (msgMeta : MsgMetadata) (mailFrom : String) : Prop :=
  SenderOK dd msgMeta dd.d.globalChecks mailFrom ∧
    ∀ dd₁ newFrom, resolveSender dd msgMeta mailFrom = (dd₁,.ok newFrom) →
      SourceOK dd₁ msgMeta newFrom

def EffectiveOK (dd : Delivery τ δ) (msgMeta : MsgMetadata) (rcptTo : String) : Prop :=
  ∀ block, dd.rcptBlockForAddr rcptTo = .ok block → (dd.d.blocks block).rejectErr = none →
    ChecksOK dd msgMeta (dd.d.blocks block).checks ∧
      ∀ dd₁ dd₂, dd.checkRcpt msgMeta (dd.d.blocks block).checks rcptTo = (dd₁,none) →
        dd₁.getRcptModifiers msgMeta block = (dd₂,none) →
          ∃ newTo, (dd.d.blocks block).modifiers.rewriteRcpt rcptTo = .ok newTo

def RcptOK (st : Delivery τ δ × MsgMetadata) (rcptTo : String) : Prop :=
  ChecksOK st.1 st.2 st.1.d.globalChecks ∧
    (∀ dd₁, st.1.checkRcpt st.2 st.1.d.globalChecks rcptTo = (dd₁,none) →
      ChecksOK dd₁ st.2 dd₁.sourceBlock.checks) ∧
    ∀ dd₁ resultTo, resolveRcpt st.1 st.2 rcptTo = (dd₁,.ok resultTo) →
      ∀ p ∈ visits (addEffective ops rcptTo) resultTo (dd₁,st.2), EffectiveOK p.2.1 p.2.2 p.1

def BodiesOK (dd : Delivery τ δ) (msgMeta : MsgMetadata) (groups : List (List Nat))
    (header : Header) (text : String) : Prop :=
  ∀ p ∈ visits (fun checks (cr : CheckRunner) => cr.checkBody dd.d.env msgMeta checks header text)
    groups dd.checkRunner, GroupOK dd.d.env msgMeta p.1 p.2

def StepOK (st : Delivery τ δ × MsgMetadata) : Step → Prop
  | .rcpt rcptTo => RcptOK ops st rcptTo
  | .body header text => BodiesOK st.1 st.2 (st.1.mainGroups ++ st.1.rcptGroups) header text
  | .bodyNonAtomic header text => BodiesOK st.1 st.2 st.1.mainGroups header text

def fresh (d : Pipeline τ) : Delivery τ δ := { d := d, checkRunner := { doDMARC := d.doDMARC } }

def MessageOK (d : Pipeline τ) (msgMeta : MsgMetadata) (mailFrom : String) (steps : List Step) :
    Prop :=
  StartOK (fresh d : Delivery τ δ) msgMeta mailFrom ∧
    ∀ dd : Delivery τ δ, start d msgMeta mailFrom = (dd,none) →
      Guarded (step ops) (StepOK ops) (dd,msgMeta) steps

end Conditions

section Books
variable {dd dd' : Delivery τ δ} {ref : ModRef} {call : ModCall}

/-- The delivery refers to the state, so it will close it. -/
def Held (dd : Delivery τ δ) : ModRef → Prop
  | .global => dd.globalModifiersState = true
  | .source => dd.sourceModifiersState = true
  | .rcpt block => block ∈ dd.rcptModifiersState

def ModsOK (dd : Delivery τ δ) : Prop :=
  ∀ ref, InOrder .close (modLog dd ref ≠ []) (Held dd ref) (modLog dd ref)

/-- A state that is held is open, and any other that was obtained is closed. -/
def BooksOK (dd : Delivery τ δ) : Prop := StatesOK dd.checkRunner ∧ ModsOK dd

/-- A delivery that was started: it holds the states of the global modifiers and of the source. -/
structure Running (dd : Delivery τ δ) : Prop where
  numbered : Numbered dd.checkRunner
  distinct : dd.rcptModifiersState.Nodup
  global : dd.globalModifiersState = true
  source : dd.sourceModifiersState = true
  absent : ∀ block ∉ dd.rcptModifiersState, modLog dd (.rcpt block) = []

theorem modLog_noteMod (dd : Delivery τ δ) (ref : ModRef) (call : ModCall) (other : ModRef) :
    modLog (dd.noteMod ref call) other =
      if other = ref then modLog dd ref ++ [call] else modLog dd other := by
  unfold modLog noteMod
  by_cases h : other = ref
  · subst h
    simp
  · simp [h,Ne.symm h]

theorem noteMods_frame (refs : List ModRef) (dd : Delivery τ δ) :
    (refs.foldl (fun dd ref => dd.noteMod ref .close) dd).checkRunner = dd.checkRunner ∧
      ∀ ref, modLog (refs.foldl (fun dd ref => dd.noteMod ref .close) dd) ref =
        modLog dd ref ++ List.replicate (refs.count ref) .close := by
  induction refs generalizing dd with
  | nil => simp
  | cons first rest ih =>
    obtain ⟨hcr,hlog⟩ := ih (dd.noteMod first .close)
    refine ⟨hcr,fun ref => ?_⟩
    rw [foldl_cons,hlog ref,modLog_noteMod]
    by_cases h : ref = first
    · subst h
      simp [replicate_succ]
    · simp [h,Ne.symm h]

/-- `close` closes what is held. -/
theorem close_allClosed_iff (hn : Numbered dd.checkRunner) (hd : dd.rcptModifiersState.Nodup) :
    AllClosed dd.close ↔ BooksOK dd := by
  have hperm := dd.d.env.pick_perm .closeModifiers dd.rcptModifiersState
  unfold Delivery.close
  generalize hrefs : (if dd.globalModifiersState then [ModRef.global] else []) ++
    (if dd.sourceModifiersState then [ModRef.source] else []) ++
    (dd.d.env.pick .closeModifiers dd.rcptModifiersState).map ModRef.rcpt = refs
  have hmem : ∀ ref, ref ∈ refs ↔ Held dd ref := by
    intro ref
    rw [← hrefs]
    cases ref <;> simp [Held,hperm.mem_iff]
  have hnodup : refs.Nodup := by
    have hblocks : ((dd.d.env.pick .closeModifiers dd.rcptModifiersState).map ModRef.rcpt).Nodup :=
      (hperm.nodup_iff.mpr hd).map fun _ _ h => by cases h; rfl
    rw [← hrefs]
    cases dd.globalModifiersState <;> cases dd.sourceModifiersState <;>
      simp [hblocks]
  obtain ⟨hcr,hlog⟩ := noteMods_frame refs { dd with checkRunner := dd.checkRunner.close dd.d.env }
  unfold AllClosed BooksOK
  rw [hcr]
  refine and_congr (close_closed_iff hn dd.d.env) (forall_congr' fun ref => ?_)
  rw [hlog ref]
  change (modLog dd ref ++ List.replicate (refs.count ref) .close ≠ [] →
    ClosedOnce .close (modLog dd ref ++ List.replicate (refs.count ref) .close)) ↔ _
  by_cases hh : Held dd ref
  · rw [count_eq_one_of_mem hnodup ((hmem ref).mpr hh),inOrder_held hh,replicate_one,
      closedOnce_concat]
    simp
  · rw [count_eq_zero_of_not_mem fun hm => hh ((hmem ref).mp hm)]
    simp only [replicate_zero,append_nil,InOrder,hh,false_imp_iff,true_and,
      not_false_eq_true,true_imp_iff]

/-- A call that keeps the books right exactly if a condition holds. -/
structure Keeps (dd dd' : Delivery τ δ) (ok : Prop) : Prop where
  running : Running dd'
  books : BooksOK dd' ↔ BooksOK dd ∧ ok

theorem Keeps.refl (hr : Running dd) : Keeps dd dd True := ⟨hr,by simp⟩

theorem Keeps.trans (h : Keeps dd dd' first) (h' : Keeps dd' dd'' second) :
    Keeps dd dd'' (first ∧ second) :=
  ⟨h'.running,by rw [h'.books,h.books,and_assoc]⟩

theorem Keeps.quiet (h : Keeps dd dd' ok) (h' : Keeps dd' dd'' True) : Keeps dd dd'' ok :=
  ⟨h'.running,by rw [h'.books,h.books,and_true]⟩

theorem Keeps.congr (h : Keeps dd dd' ok) (he : ok ↔ ok') : Keeps dd dd' ok' :=
  ⟨h.running,by rw [h.books,he]⟩

variable (hr : Running dd)
include hr

theorem keeps_onlyDeliveries (h : OnlyDeliveries dd dd') : Keeps dd dd' True := by
  obtain ⟨_,rfl⟩ := h
  exact ⟨⟨hr.numbered,hr.distinct,hr.global,hr.source,hr.absent⟩,
    by simp only [and_true]; exact Iff.rfl⟩

theorem keeps_runner (hn : Numbered cr) (hs : StatesOK cr ↔ StatesOK dd.checkRunner ∧ ok) :
    Keeps dd { dd with checkRunner := cr } ok := by
  refine ⟨⟨hn,hr.distinct,hr.global,hr.source,hr.absent⟩,?_⟩
  have hmods : ModsOK { dd with checkRunner := cr } ↔ ModsOK dd := Iff.rfl
  unfold BooksOK
  rw [hs,hmods,and_right_comm]

theorem running_noteMod (hh : Held dd ref) : Running (dd.noteMod ref call) := by
  refine ⟨hr.numbered,hr.distinct,hr.global,hr.source,fun block hb => ?_⟩
  rw [modLog_noteMod,if_neg]
  · exact hr.absent block hb
  · rintro rfl
    exact hb hh

theorem keeps_use (ref : ModRef) (call : ModCall) (hh : Held dd ref) (hc : call ≠ .close) :
    Keeps dd (dd.noteMod ref call) True := by
  refine ⟨running_noteMod hr hh,?_⟩
  rw [and_true]
  refine and_congr Iff.rfl (forall_congr' fun other => ?_)
  have hheld : Held (dd.noteMod ref call) other = Held dd other := rfl
  rw [modLog_noteMod,hheld]
  by_cases he : other = ref
  · subst he
    rw [if_pos rfl,inOrder_held hh,inOrder_held hh]
    simp [hc.symm]
  · rw [if_neg he]

/-- A state that is closed while it is held will be closed twice. -/
theorem keeps_early_close (ref : ModRef) (hh : Held dd ref) :
    Keeps dd (dd.noteMod ref .close) False := by
  refine ⟨running_noteMod hr hh,iff_of_false (fun h => ?_) (fun h => h.2)⟩
  refine (h.2 ref).1 hh ?_
  rw [modLog_noteMod,if_pos rfl]
  simp

end Books

section Rcpt
variable {ops : Targets τ δ} {dd dd' : Delivery τ δ} {block : Nat}

section Resolve
variable (hr : Running dd)
include hr

theorem keeps_checkRcpt (msgMeta : MsgMetadata) (checks : List Nat) (rcptTo : String) :
    Keeps dd (dd.checkRcpt msgMeta checks rcptTo).1 (ChecksOK dd msgMeta checks) := by
  obtain ⟨hn,hok⟩ := checkRcpt_ok_iff hr.numbered
  exact keeps_runner hr hn hok

theorem keeps_new_state (hout : block ∉ dd.rcptModifiersState)
    (hcr : dd'.checkRunner = dd.checkRunner)
    (hglobal : dd'.globalModifiersState = dd.globalModifiersState)
    (hsource : dd'.sourceModifiersState = dd.sourceModifiersState)
    (hmap : dd'.rcptModifiersState = dd.rcptModifiersState ++ [block])
    (hcalls : dd'.modCalls = dd.modCalls ++ [(.rcpt block,.rewriteSender)]) :
    Keeps dd dd' True := by
  have hlog : ∀ ref, modLog dd' ref =
      if ref = .rcpt block then [.rewriteSender] else modLog dd ref := by
    intro ref
    have hnoted := modLog_noteMod dd (.rcpt block) .rewriteSender ref
    rw [hr.absent block hout] at hnoted
    unfold modLog at hnoted ⊢
    rw [hcalls]
    exact hnoted
  refine ⟨⟨hcr ▸ hr.numbered,?_,hglobal.trans hr.global,hsource.trans hr.source,
    fun other ho => ?_⟩,?_⟩
  · rw [hmap]
    refine nodup_append.mpr ⟨hr.distinct,by simp,fun a ha b hb => ?_⟩
    cases mem_singleton.mp hb
    rintro rfl
    exact hout ha
  · simp only [hmap,mem_append,mem_singleton,not_or] at ho
    rw [hlog,if_neg (by simpa using ho.2)]
    exact hr.absent other ho.1
  · unfold BooksOK
    rw [and_true,hcr]
    refine and_congr Iff.rfl (forall_congr' fun ref => ?_)
    rw [hlog]
    by_cases he : ref = .rcpt block
    · subst he
      rw [if_pos rfl]
      have hnew : Held dd' (.rcpt block) := by simp [Held,hmap]
      refine iff_of_true ((inOrder_held hnew).mpr (by simp)) ?_
      rw [hr.absent block hout]
      exact inOrder_absent (by simp) hout
    · have hheld : Held dd' ref ↔ Held dd ref := by
        cases ref with
        | global => simp [Held,hglobal]
        | source => simp [Held,hsource]
        | rcpt other =>
          have hne : other ≠ block := fun h => he (by rw [h])
          simp [Held,hmap,hne]
      rw [if_neg he,propext hheld]

theorem keeps_getRcptModifiers :
    Keeps dd (dd.getRcptModifiers msgMeta block).1 True ∧
      ((dd.getRcptModifiers msgMeta block).2 = none →
        Held (dd.getRcptModifiers msgMeta block).1 (.rcpt block)) := by
  unfold getRcptModifiers
  split
  · next hin => exact ⟨.refl hr,fun _ => hin⟩
  · next hout =>
    cases (dd.d.blocks block).modifiers.modStateForMsg msgMeta with
    | some e => exact ⟨.refl hr,nofun⟩
    | none => exact ⟨keeps_new_state hr hout rfl rfl rfl rfl rfl,fun _ => by simp [Held]⟩

theorem keeps_rewriteSource : Keeps dd (dd.rewriteSource rcpts).1 True :=
  rewriteSource_inv (P := fun dd' => Keeps dd dd' True) (fun _ h =>
    h.quiet (keeps_use h.running .source .rewriteRcpt h.running.source (by simp))) (.refl hr)

theorem keeps_resolveRcpt (msgMeta : MsgMetadata) (rcptTo : String) :
    Keeps dd (resolveRcpt dd msgMeta rcptTo).1 (ChecksOK dd msgMeta dd.d.globalChecks ∧
      ∀ dd₁, dd.checkRcpt msgMeta dd.d.globalChecks rcptTo = (dd₁,none) →
        ChecksOK dd₁ msgMeta dd₁.sourceBlock.checks) := by
  have hglobal := keeps_checkRcpt hr msgMeta dd.d.globalChecks rcptTo
  unfold resolveRcpt
  rcases hx : dd.checkRcpt msgMeta dd.d.globalChecks rcptTo with ⟨dd₁,_ | e⟩ <;> rw [hx] at hglobal
  · have hsource := hglobal.trans
      (keeps_checkRcpt hglobal.running msgMeta dd₁.sourceBlock.checks rcptTo)
    suffices h : Keeps dd _ (ChecksOK dd msgMeta dd.d.globalChecks ∧
        ChecksOK dd₁ msgMeta dd₁.sourceBlock.checks) from h.congr (by simp)
    dsimp only
    rcases hx : dd₁.checkRcpt msgMeta dd₁.sourceBlock.checks rcptTo with ⟨dd₂,_ | e⟩ <;>
      rw [hx] at hsource
    · have hnote := hsource.quiet
        (keeps_use hsource.running .global .rewriteRcpt hsource.running.global (by simp))
      dsimp only
      cases (dd₂.noteMod .global .rewriteRcpt).d.globalModifiers.rewriteRcpt rcptTo with
      | error e => exact hnote
      | ok resultTo => exact hnote.quiet (keeps_rewriteSource hnote.running)
    · exact hsource
  · exact hglobal.congr (by simp)

theorem keeps_resolveEffective (msgMeta : MsgMetadata) (rcptTo : String) :
    Keeps dd (resolveEffective dd msgMeta rcptTo).1 (EffectiveOK dd msgMeta rcptTo) := by
  unfold resolveEffective EffectiveOK
  cases dd.rcptBlockForAddr rcptTo with
  | error e => exact (Keeps.refl hr).congr (by simp)
  | ok block =>
    dsimp only
    cases hrej : (dd.d.blocks block).rejectErr with
    | some e => exact (Keeps.refl hr).congr (by simp [hrej])
    | none =>
      simp only [Except.ok.injEq,forall_eq',hrej,true_imp_iff]
      have hcheck := keeps_checkRcpt hr msgMeta (dd.d.blocks block).checks rcptTo
      have hsame := checkRcpt_setup dd msgMeta (dd.d.blocks block).checks rcptTo
      rcases hx : dd.checkRcpt msgMeta (dd.d.blocks block).checks rcptTo with ⟨dd₁,_ | e⟩ <;>
        rw [hx] at hcheck hsame
      · obtain ⟨hget,hheld⟩ := keeps_getRcptModifiers hcheck.running
        have hsame' := hsame.trans (getRcptModifiers_setup dd₁ msgMeta block)
        have hboth := hcheck.quiet hget
        dsimp only
        rcases hx : dd₁.getRcptModifiers msgMeta block with ⟨dd₂,_ | e⟩ <;>
          rw [hx] at hboth hheld hsame'
        · have hnote := hboth.quiet
            (keeps_use hboth.running (.rcpt block) .rewriteRcpt (hheld rfl) (by simp))
          have hpipe : (dd₂.noteMod (.rcpt block) .rewriteRcpt).d = dd.d := hsame'.pipeline
          dsimp only
          rw [hpipe]
          cases hw : (dd.d.blocks block).modifiers.rewriteRcpt rcptTo with
          | error e =>
            refine (hnote.trans (keeps_early_close hnote.running (.rcpt block) (hheld rfl))).congr
              (iff_of_false (fun h => h.2) fun h => ?_)
            obtain ⟨newTo,hok⟩ := h.2 dd₁ dd₂ rfl hx
            cases hok
          | ok newTo => exact hnote.congr (by simp)
        · refine hboth.congr ⟨fun h => ⟨h,fun dd₁' dd₂' h₁ h₂ => ?_⟩,fun h => h.1⟩
          cases h₁
          rw [hx] at h₂
          cases h₂
      · exact hcheck.congr (by simp)

end Resolve

theorem keeps_addEffective (hr : Running st.1) :
    Keeps st.1 (addEffective ops originalTo rcptTo st).1.1 (EffectiveOK st.1 st.2 rcptTo) := by
  have hres := keeps_resolveEffective hr st.2 rcptTo
  rw [addEffective_eq]
  rcases hx : resolveEffective st.1 st.2 rcptTo with ⟨dd',e | ⟨targets,newTo⟩⟩ <;> rw [hx] at hres
  · exact hres
  · exact hres.quiet (keeps_onlyDeliveries hres.running
      (OnlyDeliveries.forEach (.addRewritten originalTo targets) newTo (dd',st.2)))

theorem keeps_addRcpt (hr : Running st.1) :
    Keeps st.1 (st.1.addRcpt ops st.2 rcptTo).1 (RcptOK ops st rcptTo) := by
  have hres := keeps_resolveRcpt hr st.2 rcptTo
  unfold RcptOK
  rw [addRcpt_eq]
  rcases hx : resolveRcpt st.1 st.2 rcptTo with ⟨dd',e | resultTo⟩ <;> rw [hx] at hres
  · exact hres.congr (by simp)
  · obtain ⟨hrun,hbooks⟩ := forEach_iff (I := fun st : Delivery τ δ × MsgMetadata => Running st.1)
      (P := fun st => BooksOK st.1) (C := fun a st => EffectiveOK st.1 st.2 a)
      (fun a st hi => ⟨(keeps_addEffective hi).running,
        (keeps_addEffective hi).books⟩) resultTo (dd',st.2) hres.running
    exact (hres.trans ⟨hrun,hbooks⟩).congr (by simp [and_assoc])

end Rcpt

section Body
variable {ops : Targets τ δ} {dd : Delivery τ δ}

theorem keeps_checkBodies (hr : Running dd) (msgMeta : MsgMetadata) (groups : List (List Nat))
    (header : Header) (text : String) :
    Keeps dd (dd.checkBodies msgMeta groups header text).1
      (BodiesOK dd msgMeta groups header text) := by
  obtain ⟨hn,hok⟩ := forEach_iff (I := Numbered) (P := StatesOK)
    (fun checks cr hi => checkBody_ok_iff hi) groups
    dd.checkRunner hr.numbered
  exact keeps_runner hr hn hok

theorem keeps_applyResults (hr : Running dd) (msgMeta : MsgMetadata) (hostname : String)
    (header : Header) :
    Keeps dd { dd with
      checkRunner := (dd.checkRunner.applyResults dd.d.env msgMeta hostname header).1 } True := by
  obtain ⟨merged,hm⟩ := applyResults_runner dd.d.env dd.checkRunner msgMeta hostname header
  rw [hm]
  refine keeps_runner hr ⟨hr.numbered.distinct,hr.numbered.created,hr.numbered.fresh⟩ ?_
  rw [and_true]
  exact Iff.rfl

theorem keeps_rewriteWith (hr : Running dd) (hm : ∀ entry ∈ mods, Held dd entry.1) :
    Keeps dd (rewriteWith text mods dd header).1 True := by
  have hnote : ∀ entry ∈ mods, ∀ dd', (Keeps dd dd' True ∧ ∀ entry ∈ mods, Held dd' entry.1) →
      Keeps dd (dd'.noteMod entry.1 .rewriteBody) True ∧
        ∀ other ∈ mods, Held (dd'.noteMod entry.1 .rewriteBody) other.1 := fun entry he dd' h =>
    ⟨h.1.quiet (keeps_use h.1.running entry.1 .rewriteBody (h.2 entry he) (by simp)),h.2⟩
  exact (rewriteWith_inv text hnote header ⟨.refl hr,hm⟩).1

theorem keeps_rewriteBody (hr : Running dd) (header : Header) (text : String) :
    Keeps dd (dd.rewriteBody header text).1 True := by
  refine keeps_rewriteWith hr (fun entry he => ?_)
  have hperm := dd.d.env.pick_perm .rewriteBody dd.rcptModifiersState
  simp only [bodyModifiers,mem_cons,mem_map] at he
  rcases he with rfl | rfl | ⟨block,hb,rfl⟩
  · exact hr.global
  · exact hr.source
  · exact hperm.mem_iff.mp hb

theorem keeps_body (st : Delivery τ δ × MsgMetadata) (hr : Running st.1) (header : Header)
    (text : String) :
    Keeps st.1 (st.1.body ops st.2 header text).1
      (BodiesOK st.1 st.2 (st.1.mainGroups ++ st.1.rcptGroups) header text) := by
  obtain ⟨dd,msgMeta⟩ := st
  have hchecks := keeps_checkBodies hr msgMeta (dd.mainGroups ++ dd.rcptGroups) header text
  unfold Delivery.body applyPolicy
  rcases hx : dd.checkBodies msgMeta (dd.mainGroups ++ dd.rcptGroups) header text with ⟨dd₁,_ | e⟩ <;>
    rw [hx] at hchecks
  · dsimp only
    cases dd₁.addReceived msgMeta header with
    | error e => exact hchecks
    | ok header₁ =>
      have happlied := hchecks.quiet
        (keeps_applyResults hchecks.running msgMeta dd₁.d.hostname header₁)
      dsimp only at happlied ⊢
      rcases hx : dd₁.checkRunner.applyResults dd₁.d.env msgMeta dd₁.d.hostname header₁ with
        ⟨cr,msgMeta₁,e | header₂⟩
      · rw [hx] at happlied
        exact happlied
      · rw [hx] at happlied
        have hrewrite := happlied.quiet (keeps_rewriteBody happlied.running header₂ text)
        dsimp only at hrewrite ⊢
        rcases hx : ({ dd₁ with checkRunner := cr } : Delivery τ δ).rewriteBody header₂ text with
          ⟨dd₂,e | header₃⟩
        · rw [hx] at hrewrite
          exact hrewrite
        · rw [hx] at hrewrite
          exact hrewrite.quiet (keeps_onlyDeliveries hrewrite.running
            (OnlyDeliveries.forEach (.bodyOf header₃ text) _ (dd₂,msgMeta₁)))
  · exact hchecks

theorem keeps_bodyNonAtomic {st : Delivery τ δ × MsgMetadata} (hr : Running st.1) :
    Keeps st.1 (st.1.bodyNonAtomic ops st.2 header text).dd
      (BodiesOK st.1 st.2 st.1.mainGroups header text) := by
  obtain ⟨dd,msgMeta⟩ := st
  have hchecks := keeps_checkBodies hr msgMeta dd.mainGroups header text
  unfold Delivery.bodyNonAtomic
  rcases hx : dd.checkBodies msgMeta dd.mainGroups header text with ⟨dd₁,_ | e⟩ <;>
    rw [hx] at hchecks
  · have hrewrite := hchecks.quiet (keeps_rewriteBody hchecks.running header text)
    dsimp only at hrewrite ⊢
    rcases hx : dd₁.rewriteBody header text with ⟨dd₂,e | header₁⟩ <;> rw [hx] at hrewrite
    · exact hrewrite
    · exact hrewrite.quiet (keeps_onlyDeliveries hrewrite.running
        (OnlyDeliveries.handNonAtomic ops header₁ text _ { dd := dd₂, msgMeta := msgMeta }))
  · exact hchecks

end Body

section End
variable (ops : Targets τ δ) {dd : Delivery τ δ}

/-- A call keeps the books exactly if its condition holds. -/
theorem keeps_step (st : Delivery τ δ × MsgMetadata) (hr : Running st.1) (s : Step) :
    Keeps st.1 (step ops st s).1 (StepOK ops st s) := by
  cases s with
  | rcpt rcptTo => exact keeps_addRcpt hr
  | body header text => exact keeps_body st hr header text
  | bodyNonAtomic header text => exact keeps_bodyNonAtomic hr

theorem keeps_steps (st : Delivery τ δ × MsgMetadata) (hr : Running st.1) (steps : List Step) :
    Keeps st.1 (steps.foldl (step ops) st).1 (Guarded (step ops) (StepOK ops) st steps) := by
  refine ⟨?_,foldl_iff_guarded (I := fun st => Running st.1) (P := fun st => BooksOK st.1)
    (fun st s hi => (keeps_step ops st hi s).running)
    (fun st s hi => (keeps_step ops st hi s).books) hr⟩
  exact List.foldlRecOn steps (step ops) hr fun st hi s _ => (keeps_step ops st hi s).running

theorem finish_onlyDeliveries : OnlyDeliveries dd.close (finish ops dd last) := by
  cases last with
  | commit =>
    refine forEach_inv (P := fun dd' => OnlyDeliveries dd.close dd') (fun tgt dd' h => ?_) _ _
      (.refl _)
    cases dd'.handle tgt with
    | none => exact h
    | some _ => exact h.trans (.setHandle _ _ _)
  | abort =>
    refine List.foldlRecOn (motive := fun st : Delivery τ δ × Option Err =>
      OnlyDeliveries dd.close st.1) _ _ (.refl _) fun st h tgt _ => ?_
    cases st.1.handle tgt with
    | none => exact h
    | some _ => exact h.trans (.setHandle _ _ _)

theorem finish_allClosed_iff (hn : Numbered dd.checkRunner) (hd : dd.rcptModifiersState.Nodup)
    (last : End) : AllClosed (finish ops dd last) ↔ BooksOK dd := by
  rw [← close_allClosed_iff hn hd]
  obtain ⟨_,heq⟩ := finish_onlyDeliveries ops
  rw [heq]
  exact Iff.rfl

end End

section Start
variable {dd dd' : Delivery τ δ}

structure Starting (dd : Delivery τ δ) : Prop where
  numbered : Numbered dd.checkRunner
  blocks : dd.rcptModifiersState = []
  source : dd.sourceModifiersState = false
  absent : ∀ ref, ref ≠ .global → modLog dd ref = []

/-- Where a call of `start` leaves the delivery: still without the states of the
source block and of the recipient blocks, or running. -/
structure Leaves (dd dd' : Delivery τ δ) (ok : Prop) : Prop where
  numbered : Numbered dd'.checkRunner
  distinct : dd'.rcptModifiersState.Nodup
  books : BooksOK dd' ↔ BooksOK dd ∧ ok

theorem startSender_eq :
    dd.startSender msgMeta mailFrom =
      match resolveSender dd msgMeta mailFrom with
      | (dd,.error e) => (dd,some e)
      | (dd,.ok mailFrom) => dd.startSource msgMeta mailFrom := by
  unfold startSender resolveSender
  rcases dd.checkConnSender msgMeta dd.d.globalChecks mailFrom with ⟨dd₁,_ | e⟩
  · dsimp only
    rcases dd₁.initRunGlobalModifiers msgMeta mailFrom with ⟨dd₂,e | newFrom⟩
    · rfl
    · dsimp only
      cases srcBlockForAddr dd₂.d newFrom with
      | error e => rfl
      | ok block =>
        dsimp only
        cases block.rejectErr <;> rfl
  · rfl

variable (hs : Starting dd)
include hs

theorem Starting.leaves (hb : BooksOK dd ↔ BooksOK dd₀ ∧ ok) : Leaves dd₀ dd ok :=
  ⟨hs.numbered,by rw [hs.blocks]; exact nodup_nil,hb⟩

theorem starting_checkConnSender {checks : List Nat} :
    Starting (dd.checkConnSender msgMeta checks mailFrom).1 ∧
      (BooksOK (dd.checkConnSender msgMeta checks mailFrom).1 ↔
        BooksOK dd ∧ SenderOK dd msgMeta checks mailFrom) := by
  obtain ⟨hn,hok⟩ := checkConnSender_ok_iff hs.numbered
  have hmods : ModsOK (dd.checkConnSender msgMeta checks mailFrom).1 ↔ ModsOK dd := Iff.rfl
  refine ⟨⟨hn,hs.blocks,hs.source,hs.absent⟩,?_⟩
  unfold BooksOK
  rw [hmods,and_right_comm]
  exact and_congr_left' hok

theorem starting_global (hout : dd.globalModifiersState = false)
    (hlog : modLog dd .global = []) (dd' : Delivery τ δ) (hcr : dd'.checkRunner = dd.checkRunner)
    (hblocks : dd'.rcptModifiersState = dd.rcptModifiersState)
    (hsource : dd'.sourceModifiersState = dd.sourceModifiersState)
    (hrest : ∀ ref, ref ≠ .global → modLog dd' ref = modLog dd ref)
    (hin : InOrder .close (modLog dd' .global ≠ []) (Held dd' .global) (modLog dd' .global)) :
    Starting dd' ∧ (BooksOK dd' ↔ BooksOK dd) := by
  refine ⟨⟨hcr ▸ hs.numbered,hblocks.trans hs.blocks,hsource.trans hs.source,
    fun ref hne => (hrest ref hne).trans (hs.absent ref hne)⟩,?_⟩
  unfold BooksOK
  rw [hcr]
  refine and_congr Iff.rfl (forall_congr' fun ref => ?_)
  cases ref with
  | global =>
    refine iff_of_true hin ?_
    rw [hlog]
    exact inOrder_absent (by simp) (by simp [Held,hout])
  | source =>
    rw [hrest .source (by simp)]
    simp only [Held,hsource]
  | rcpt block =>
    rw [hrest (.rcpt block) (by simp)]
    simp only [Held,hblocks]

theorem starting_globalModifiers (hout : dd.globalModifiersState = false)
    (hlog : modLog dd .global = []) :
    Starting (dd.initRunGlobalModifiers msgMeta mailFrom).1 ∧
      (BooksOK (dd.initRunGlobalModifiers msgMeta mailFrom).1 ↔ BooksOK dd) ∧
      ∀ newFrom, (dd.initRunGlobalModifiers msgMeta mailFrom).2 = .ok newFrom →
        (dd.initRunGlobalModifiers msgMeta mailFrom).1.globalModifiersState = true := by
  have hnoted := modLog_noteMod dd .global .rewriteSender
  unfold initRunGlobalModifiers
  cases dd.d.globalModifiers.modStateForMsg msgMeta with
  | some e => exact ⟨hs,Iff.rfl,nofun⟩
  | none =>
    dsimp only
    cases (dd.noteMod .global .rewriteSender).d.globalModifiers.rewriteSender mailFrom with
    | error e =>
      have hclosed := modLog_noteMod (dd.noteMod .global .rewriteSender) .global .close
      obtain ⟨hstart,hbooks⟩ := starting_global hs hout hlog
        ((dd.noteMod .global .rewriteSender).noteMod .global .close) rfl rfl rfl
        (fun ref hne => by rw [hclosed,if_neg hne,hnoted,if_neg hne])
        (by
          rw [hclosed,if_pos rfl,hnoted,if_pos rfl,hlog]
          refine (inOrder_given_up (by simp) (by simp [Held,noteMod,hout])).mpr ?_
          exact closedOnce_concat.mpr (by simp))
      exact ⟨hstart,hbooks,nofun⟩
    | ok newFrom =>
      obtain ⟨hstart,hbooks⟩ := starting_global hs hout hlog
        { dd.noteMod .global .rewriteSender with globalModifiersState := true } rfl rfl rfl
        (fun ref hne => (hnoted ref).trans (if_neg hne))
        (by
          refine (inOrder_held rfl).mpr ?_
          change .close ∉ modLog (dd.noteMod .global .rewriteSender) .global
          rw [hnoted,if_pos rfl,hlog]
          simp)
      exact ⟨hstart,hbooks,fun _ _ => rfl⟩

theorem running_of_source (hg : dd.globalModifiersState = true) :
    let dd' := { dd.noteMod .source .rewriteSender with
      sourceModifiersState := true, sourceAddr := mailFrom }
    Running dd' ∧ (BooksOK dd' ↔ BooksOK dd) := by
  intro dd'
  have hlog : ∀ ref, modLog dd' ref =
      if ref = .source then modLog dd .source ++ [.rewriteSender] else modLog dd ref :=
    modLog_noteMod dd .source .rewriteSender
  have hsource := hs.absent .source (by simp)
  refine ⟨⟨hs.numbered,by rw [show dd'.rcptModifiersState = [] from hs.blocks]; exact nodup_nil,
    hg,rfl,fun block _ => ?_⟩,and_congr Iff.rfl (forall_congr' fun ref => ?_)⟩
  · rw [hlog,if_neg (by simp)]
    exact hs.absent _ (by simp)
  · rw [hlog]
    by_cases he : ref = .source
    · subst he
      rw [if_pos rfl,hsource]
      exact iff_of_true ((inOrder_held rfl).mpr (by simp))
        (inOrder_absent (by simp) (by simp [Held,hs.source]))
    · rw [if_neg he]
      have hheld : Held dd' ref ↔ Held dd ref := by
        cases ref with
        | global | rcpt block => exact Iff.rfl
        | source => exact absurd rfl he
      rw [propext hheld]

/-- The state of source modifiers that refuse the sender is not noted, and never closed. -/
theorem books_lost_source : ¬ BooksOK (dd.noteMod .source .rewriteSender) := by
  intro h
  have hin := h.2 .source
  rw [modLog_noteMod,if_pos rfl,hs.absent .source (by simp)] at hin
  have hclosed := hin.2 (by simp) (by simp [Held,noteMod,hs.source])
  simpa using hclosed.mem

theorem leaves_startSource (hg : dd.globalModifiersState = true) :
    Leaves dd (dd.startSource msgMeta mailFrom).1 (SourceOK dd msgMeta mailFrom) ∧
      ((dd.startSource msgMeta mailFrom).2 = none → Running (dd.startSource msgMeta mailFrom).1) := by
  obtain ⟨hs₁,hbooks⟩ := starting_checkConnSender hs
  have hg₁ : (dd.checkConnSender msgMeta dd.sourceBlock.checks mailFrom).1.globalModifiersState =
      true := hg
  have hsame : (dd.checkConnSender msgMeta dd.sourceBlock.checks mailFrom).1.sourceBlock =
      dd.sourceBlock := rfl
  unfold startSource SourceOK
  rcases hx : dd.checkConnSender msgMeta dd.sourceBlock.checks mailFrom with ⟨dd₁,_ | e⟩ <;>
    rw [hx] at hs₁ hbooks hg₁ hsame
  · dsimp only at hs₁ hbooks hg₁ hsame ⊢
    rw [hsame]
    cases hm : dd.sourceBlock.modifiers.modStateForMsg msgMeta with
    | some e => exact ⟨hs₁.leaves (by simpa using hbooks),nofun⟩
    | none =>
      have hnote : (dd₁.noteMod .source .rewriteSender).sourceBlock = dd.sourceBlock := hsame
      have hnoted : dd.sourceBlock.modifiers.rewriteSender mailFrom =
          (dd₁.noteMod .source .rewriteSender).sourceBlock.modifiers.rewriteSender mailFrom := by
        rw [hnote]
      rw [hnoted]
      cases (dd₁.noteMod .source .rewriteSender).sourceBlock.modifiers.rewriteSender mailFrom with
      | error e =>
        refine ⟨⟨hs₁.numbered,?_,iff_of_false (books_lost_source hs₁) (by simp)⟩,nofun⟩
        exact Eq.mpr (congrArg Nodup hs₁.blocks) nodup_nil
      | ok newFrom =>
        obtain ⟨hrun,hsource⟩ := running_of_source hs₁ hg₁
        exact ⟨⟨hrun.numbered,hrun.distinct,hsource.trans (by simpa using hbooks)⟩,fun _ => hrun⟩
  · exact ⟨hs₁.leaves (by simpa using hbooks),nofun⟩

theorem starting_resolveSender (hout : dd.globalModifiersState = false)
    (hlog : modLog dd .global = []) :
    Starting (resolveSender dd msgMeta mailFrom).1 ∧
      (BooksOK (resolveSender dd msgMeta mailFrom).1 ↔
        BooksOK dd ∧ SenderOK dd msgMeta dd.d.globalChecks mailFrom) ∧
      ∀ newFrom, (resolveSender dd msgMeta mailFrom).2 = .ok newFrom →
        (resolveSender dd msgMeta mailFrom).1.globalModifiersState = true := by
  obtain ⟨hs₁,hbooks₁⟩ := starting_checkConnSender hs
  have hout₁ : (dd.checkConnSender msgMeta dd.d.globalChecks mailFrom).1.globalModifiersState =
      false := hout
  have hlog₁ : modLog (dd.checkConnSender msgMeta dd.d.globalChecks mailFrom).1 .global = [] := hlog
  unfold resolveSender
  rcases hx₁ : dd.checkConnSender msgMeta dd.d.globalChecks mailFrom with ⟨dd₁,_ | e⟩ <;>
    rw [hx₁] at hs₁ hbooks₁ hout₁ hlog₁
  · obtain ⟨hs₂,hbooks₂,hg⟩ := starting_globalModifiers hs₁ hout₁ hlog₁
    have hbooks := hbooks₂.trans hbooks₁
    dsimp only at hs₂ hbooks hg ⊢
    rcases hx₂ : dd₁.initRunGlobalModifiers msgMeta mailFrom with ⟨dd₂,e | newFrom⟩ <;>
      rw [hx₂] at hs₂ hbooks hg
    · exact ⟨hs₂,hbooks,nofun⟩
    · dsimp only
      cases srcBlockForAddr dd₂.d newFrom with
      | error e => exact ⟨hs₂,hbooks,nofun⟩
      | ok block =>
        dsimp only
        cases block.rejectErr with
        | some e => exact ⟨hs₂,hbooks,nofun⟩
        | none =>
          exact ⟨⟨hs₂.numbered,hs₂.blocks,hs₂.source,hs₂.absent⟩,hbooks,
            fun _ _ => hg newFrom rfl⟩
  · exact ⟨hs₁,hbooks₁,nofun⟩

theorem leaves_startSender (hout : dd.globalModifiersState = false)
    (hlog : modLog dd .global = []) (msgMeta : MsgMetadata) (mailFrom : String) :
    Leaves dd (dd.startSender msgMeta mailFrom).1 (StartOK dd msgMeta mailFrom) ∧
      ((dd.startSender msgMeta mailFrom).2 = none → Running (dd.startSender msgMeta mailFrom).1) := by
  obtain ⟨hs₁,hbooks,hg⟩ := starting_resolveSender hs hout hlog
  unfold StartOK
  rw [startSender_eq]
  rcases hx : resolveSender dd msgMeta mailFrom with ⟨dd₁,e | newFrom⟩ <;> rw [hx] at hs₁ hbooks hg
  · exact ⟨hs₁.leaves (by simpa using hbooks),nofun⟩
  · obtain ⟨hleaves,hrun⟩ := leaves_startSource hs₁ (hg newFrom rfl)
    exact ⟨⟨hleaves.numbered,hleaves.distinct,by rw [hleaves.books,hbooks]; simp [and_assoc]⟩,hrun⟩

end Start

section Main
variable (ops : Targets τ δ)

theorem starting_fresh (d : Pipeline τ) :
    Starting (fresh d : Delivery τ δ) ∧ BooksOK (fresh d : Delivery τ δ) := by
  refine ⟨⟨⟨nodup_nil,nofun,fun _ _ => rfl⟩,rfl,rfl,fun _ _ => rfl⟩,
    fun state => inOrder_absent nofun nofun,fun ref => inOrder_absent (fun h => h rfl) ?_⟩
  cases ref <;> nofun

/-- In a run of a pipeline, from `Start` to `Commit` or `Abort`, every check state
and every modifier state is closed once and not used afterwards, exactly if each
call of the run meets these conditions in the state it is made in: when the
states of a group of checks can not all be had, or one of the checks rejects
what is replayed to it, no check of the group has a state from before; no check
without a state is listed twice in a group; and the modifiers of a source block
refuse no sender, and those of a recipient block no recipient. -/
theorem states_closed_once_iff (d : Pipeline τ) (msgMeta : MsgMetadata) (mailFrom : String)
    (steps : List Step) (last : End) :
    AllClosed (message ops d msgMeta mailFrom steps last) ↔
      MessageOK ops d msgMeta mailFrom steps := by
  obtain ⟨hs,hfresh⟩ := starting_fresh (δ := δ) d
  obtain ⟨hleaves,hrun⟩ := leaves_startSender hs rfl rfl msgMeta mailFrom
  have hstart := hleaves.books.trans (and_iff_right hfresh)
  have hdef : start (δ := δ) d msgMeta mailFrom =
      match (fresh d : Delivery τ δ).startSender msgMeta mailFrom with
      | (dd,some e) => (dd.close,some e)
      | (dd,none) => (dd,none) := rfl
  unfold message MessageOK
  rw [hdef]
  rcases hx : (fresh d : Delivery τ δ).startSender msgMeta mailFrom with ⟨dd,_ | e⟩ <;>
    rw [hx] at hstart hrun hleaves
  · have hkeeps := keeps_steps ops (dd,msgMeta) (hrun rfl) steps
    rw [finish_allClosed_iff ops hkeeps.running.numbered hkeeps.running.distinct,hkeeps.books,hstart]
    simp
  · rw [close_allClosed_iff hleaves.numbered hleaves.distinct,hstart]
    simp

end Main

def refusing : Pipeline Unit :=
  { Pipeline.plain with
    blocks := fun _ =>
      { modifiers :=
          [{ modStateForMsg := fun _ => none
             rewriteSender := .ok
             rewriteRcpt := fun rcptTo => .error (.leaf rcptTo none)
             rewriteBody := fun header _ => .ok header }]
        targets := [0] } }

/-- The modifier state of a block that has refused a recipient is closed then,
and closed again at the end. -/
theorem refused_rcpt_closes_twice :
    ¬ ∀ (d : Pipeline Unit) (msgMeta : MsgMetadata) (mailFrom : String) (steps : List Step)
      (last : End), AllClosed (message Targets.silent d msgMeta mailFrom steps last) := by
  intro h
  have hclosed := (h refusing { id := "m1" } "eve@example.org" [.rcpt "ann@example.org"] .abort).2
    (.rcpt 0) (by decide)
  have hlog : modLog (message Targets.silent refusing { id := "m1" } "eve@example.org"
      [.rcpt "ann@example.org"] .abort) (.rcpt 0) =
      [.rewriteSender,.rewriteRcpt,.close] ++ [.close] := by decide
  rw [hlog,closedOnce_concat] at hclosed
  simp at hclosed

end Madmail.Proofs.StatesClosed
