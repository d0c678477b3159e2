import Madmail.Msgpipeline.Pipeline

namespace Madmail.Proofs.Loops
open Exterrors Madmail.Module Msgpipeline Msgpipeline.Delivery

section ForEach
variable {α σ ε : Type} {f : α → σ → σ × Option ε}

def visits (f : α → σ → σ × Option ε) : List α → σ → List (α × σ)
  | [], _ => []
  | a :: as, s =>
    (a,s) :: match f a s with
      | (_,some _) => []
      | (t,none) => visits f as t

theorem forEach_cons (f : α → σ → σ × Option ε) (a : α) (as : List α) (s : σ) :
    forEach f (a :: as) s =
      match f a s with
      | (t,some e) => (t,some e)
      | (t,none) => forEach f as t := rfl

theorem visits_single (hlen : as.length ≤ 1) (hp : p ∈ visits f as s) :
    ∃ a, as = [a] ∧ p = (a,s) ∧ forEach f as s = f a s := by
  cases as with
  | nil => simp [visits] at hp
  | cons a rest =>
    obtain rfl : rest = [] := List.eq_nil_of_length_eq_zero (by simpa using hlen)
    refine ⟨a,rfl,?_,?_⟩
    · rcases hf : f a s with ⟨t,_ | e⟩ <;> simpa [visits,hf] using hp
    · rw [forEach_cons]
      rcases f a s with ⟨t,_ | e⟩ <;> rfl

/-- If each call of a loop keeps `P` exactly where it meets a condition, and never
brings it back, the loop keeps it exactly if all its calls meet the condition. -/
theorem forEach_iff {I P : σ → Prop} {C : α → σ → Prop}
    (hstep : ∀ a s, I s → I (f a s).1 ∧ (P (f a s).1 ↔ P s ∧ C a s)) (as : List α) (s : σ)
    (hi : I s) :
    I (forEach f as s).1 ∧ (P (forEach f as s).1 ↔ P s ∧ ∀ p ∈ visits f as s, C p.1 p.2) := by
  induction as generalizing s with
  | nil => exact ⟨hi,by simp [forEach,visits]⟩
  | cons a as ih =>
    obtain ⟨hia,ha⟩ := hstep a s hi
    rw [forEach_cons,visits]
    rcases hf : f a s with ⟨t,_ | e⟩ <;> rw [hf] at hia ha
    · obtain ⟨hit,ht⟩ := ih t hia
      refine ⟨hit,?_⟩
      rw [List.forall_mem_cons,ht,ha,and_assoc]
    · exact ⟨hia,by simpa using ha⟩

/-- If each call of a loop adds its effect to what holds already, so does the
loop with the effects of the calls it makes. -/
theorem forEach_effect {H : σ → Prop} {E : α → σ → Prop}
    (hstep : ∀ a s, H (f a s).1 ↔ H s ∨ E a s) (as : List α) (s : σ) :
    H (forEach f as s).1 ↔ H s ∨ ∃ p ∈ visits f as s, E p.1 p.2 := by
  have hnot := (forEach_iff (I := fun _ => True) (P := fun s => ¬ H s) (C := fun a s => ¬ E a s)
    (fun a s _ => ⟨trivial,by rw [hstep,not_or]⟩) as s trivial).2
  rw [← not_iff_not,hnot]
  simp

theorem visits_done (h : (forEach f as s).2 = none) (ha : a ∈ as) :
    ∃ t, (a,t) ∈ visits f as s ∧ (f a t).2 = none := by
  induction as generalizing s with
  | nil => cases ha
  | cons b as ih =>
    rw [forEach_cons] at h
    rw [visits]
    rcases hf : f b s with ⟨t,_ | e⟩ <;> rw [hf] at h
    · rcases List.mem_cons.mp ha with rfl | ha
      · exact ⟨s,by simp,by rw [hf]⟩
      · obtain ⟨u,hu,hnone⟩ := ih h ha
        exact ⟨u,List.mem_cons_of_mem _ hu,hnone⟩
    · cases h

theorem visits_inv {P : σ → Prop} (hstep : ∀ a s, P s → P (f a s).1) (hs : P s) :
    ∀ p ∈ visits f as s, P p.2 := by
  induction as generalizing s with
  | nil => nofun
  | cons a as ih =>
    have ha := hstep a s hs
    rw [visits]
    rintro p hp
    rcases List.mem_cons.mp hp with rfl | hp
    · exact hs
    · rcases hf : f a s with ⟨t,_ | e⟩ <;> rw [hf] at ha hp
      · exact ih ha p hp
      · cases hp

theorem forEach_inv {P : σ → Prop} (hstep : ∀ a s, P s → P (f a s).1) (as : List α) (s : σ)
    (hs : P s) : P (forEach f as s).1 := by
  induction as generalizing s with
  | nil => exact hs
  | cons a as ih =>
    have ha := hstep a s hs
    rw [forEach_cons]
    rcases hf : f a s with ⟨t,_ | e⟩ <;> rw [hf] at ha
    · exact ih t ha
    · exact ha

/-- A loop whose calls do not fail goes through all its elements. What holds may
speak of those that are done. -/
theorem forEach_done {P : List α → σ → Prop}
    (hstep : ∀ before a s, P before s → (f a s).2 = none ∧ P (before ++ [a]) (f a s).1)
    (as : List α) (s : σ) (hs : P [] s) :
    (forEach f as s).2 = none ∧ P as (forEach f as s).1 := by
  suffices h : ∀ before s, P before s →
      (forEach f as s).2 = none ∧ P (before ++ as) (forEach f as s).1 from h [] s hs
  induction as with
  | nil => exact fun before s hs => ⟨rfl,by simpa [forEach] using hs⟩
  | cons a as ih =>
    intro before s hs
    obtain ⟨hnone,hnext⟩ := hstep before a s hs
    rcases hf : f a s with ⟨t,err⟩
    rw [hf] at hnone hnext
    cases hnone
    rw [forEach_cons,hf]
    simpa using ih (before ++ [a]) t hnext

end ForEach

section Merge
variable {f : CheckRunner → Nat → CheckRunner × CheckResult}
variable {P : List Nat → CheckRunner → Prop} (m : CheckRunner.Merge)

def refuses (res : CheckResult) : Bool := res.reject && !res.quarantine

/-- The goroutines of a group finish one after the other. What holds may speak of
those that have. -/
theorem merge_fold {P : List Nat → CheckRunner.Merge → Prop}
    (hstep : ∀ before state m, P before m → P (before ++ [state])
      (({ m with runner := (f m.runner state).1 } : CheckRunner.Merge).add (f m.runner state).2))
    (states : List Nat) (m : CheckRunner.Merge) (hm : P [] m) :
    P states (states.foldl (fun (m : CheckRunner.Merge) state =>
      ({ m with runner := (f m.runner state).1 }).add (f m.runner state).2) m) := by
  suffices h : ∀ before m, P before m → P (before ++ states)
      (states.foldl (fun (m : CheckRunner.Merge) state =>
        ({ m with runner := (f m.runner state).1 }).add (f m.runner state).2) m) from h [] m hm
  induction states with
  | nil => exact fun before m hm => by simpa using hm
  | cons state rest ih =>
    intro before m hm
    simpa using ih (before ++ [state]) _ (hstep before state m hm)

theorem add_runner (res : CheckResult) :
    ∃ merged, (m.add res).runner = { m.runner with mergedRes := merged } := by
  unfold CheckRunner.Merge.add
  split
  · exact ⟨_,rfl⟩
  · split <;> exact ⟨_,rfl⟩

theorem add_rejectErr (res : CheckResult) :
    (m.add res).rejectErr =
      if refuses res then some (m.rejectErr.getD res.reason) else m.rejectErr := by
  unfold CheckRunner.Merge.add refuses
  cases res.quarantine <;> cases res.reject <;> rfl

theorem result_runner : ∃ merged, m.result.1 = { m.runner with mergedRes := merged } := by
  unfold CheckRunner.Merge.result
  repeat' split
  all_goals exact ⟨_,rfl⟩

theorem result_none_iff (h : m.rejectErr ≠ some none) : m.result.2 = none ↔ m.rejectErr = none := by
  unfold CheckRunner.Merge.result
  rcases hr : m.rejectErr with _ | _ | e
  · dsimp only
    repeat' split
    all_goals simp
  · exact absurd hr h
  · simp

theorem merge_inv (hmerged : ∀ before cr res, P before cr → P before { cr with mergedRes := res })
    (hstep : ∀ before state cr, P before cr → P (before ++ [state]) (f cr state).1)
    (states : List Nat) (hcr : P [] cr) : P states (cr.runAndMergeResults states f).1 := by
  have hfold := merge_fold (f := f) (P := fun before m => P before m.runner)
    (fun before state m hm => by
      obtain ⟨merged,he⟩ := add_runner { m with runner := (f m.runner state).1 } (f m.runner state).2
      rw [he]
      exact hmerged _ _ _ (hstep before state m.runner hm)) states { runner := cr } hcr
  unfold CheckRunner.runAndMergeResults
  obtain ⟨merged,he⟩ := result_runner (states.foldl (fun (m : CheckRunner.Merge) state =>
    ({ m with runner := (f m.runner state).1 }).add (f m.runner state).2) { runner := cr })
  rw [he]
  exact hmerged _ _ _ hfold

/-- The group ends in an error exactly if one of the goroutines refuses, when a
refusal comes with its reason. A state that is asked again is silent. -/
theorem merge_none_iff {Q : Nat → Prop}
    (hmerged : ∀ before cr res, P before cr → P before { cr with mergedRes := res })
    (hstep : ∀ before state cr, P before cr → P (before ++ [state]) (f cr state).1 ∧
      (refuses (f cr state).2 = true ↔ state ∉ before ∧ Q state) ∧
      (refuses (f cr state).2 = true → (f cr state).2.reason ≠ none))
    (states : List Nat) (cr : CheckRunner) (hcr : P [] cr) :
    (cr.runAndMergeResults states f).2 = none ↔ ∀ state ∈ states, ¬ Q state := by
  obtain ⟨-,hreason,hnone⟩ := merge_fold (f := f)
    (P := fun before m => P before m.runner ∧ m.rejectErr ≠ some none ∧
      (m.rejectErr = none ↔ ∀ state ∈ before, ¬ Q state))
    (fun before state m hm => by
      obtain ⟨hp,hne,hiff⟩ := hm
      obtain ⟨hnext,href,hreason⟩ := hstep before state m.runner hp
      obtain ⟨merged,he⟩ := add_runner { m with runner := (f m.runner state).1 } (f m.runner state).2
      rw [he,add_rejectErr]
      refine ⟨hmerged _ _ _ hnext,?_⟩
      by_cases hr : refuses (f m.runner state).2 = true
      · rw [if_pos hr]
        refine ⟨?_,iff_of_false (by simp) fun h => h state (by simp) (href.mp hr).2⟩
        rcases hm : m.rejectErr with _ | _ | e
        · simpa [hm] using hreason hr
        · exact absurd hm hne
        · simp
      · rw [if_neg hr]
        refine ⟨hne,hiff.trans ?_⟩
        rw [List.forall_mem_append]
        refine ⟨fun h => ⟨h,fun other ho hq => ?_⟩,fun h => h.1⟩
        cases List.mem_singleton.mp ho
        by_cases hb : state ∈ before
        · exact h state hb hq
        · exact hr (href.mpr ⟨hb,hq⟩)) states { runner := cr }
    ⟨hcr,by simp,by simp⟩
  exact (result_none_iff _ hreason).trans hnone

end Merge

theorem lookup_cons_ite {rest : List (Nat × β)} :
    (entry :: rest).lookup key = if key = entry.1 then some entry.2 else rest.lookup key := by
  obtain ⟨k,v⟩ := entry
  rw [List.lookup_cons]
  by_cases h : key = k
  · simp [h]
  · simp [h,beq_eq_false_iff_ne.mpr h]

theorem closeStates_runner {cr : CheckRunner} :
    ∃ calls, cr.closeStates group = { cr with calls := calls } := by
  refine List.foldlRecOn (motive := fun cr' : CheckRunner => ∃ calls, cr' = { cr with calls := calls })
    group _ ⟨cr.calls,rfl⟩ fun cr' h state _ => ?_
  obtain ⟨calls,rfl⟩ := h
  exact ⟨_,rfl⟩

theorem applyResults_runner (env : Env) (cr : CheckRunner) (msgMeta : MsgMetadata)
    (hostname : String) (header : Header) :
    ∃ merged, (cr.applyResults env msgMeta hostname header).1 = { cr with mergedRes := merged } := by
  unfold CheckRunner.applyResults
  repeat' split
  all_goals exact ⟨_,rfl⟩

section Pipeline
variable {τ δ : Type} (ops : Targets τ δ)

def resolveRcpt (dd : Delivery τ δ) (msgMeta : MsgMetadata) (rcptTo : String) :
    Delivery τ δ × Except Err (List String) :=
  match dd.checkRcpt msgMeta dd.d.globalChecks rcptTo with
  | (dd,some e) => (dd,.error e)
  | (dd,none) =>
    match dd.checkRcpt msgMeta dd.sourceBlock.checks rcptTo with
    | (dd,some e) => (dd,.error e)
    | (dd,none) =>
      let dd := dd.noteMod .global .rewriteRcpt
      match dd.d.globalModifiers.rewriteRcpt rcptTo with
      | .error e => (dd,.error e)
      | .ok resultTo => dd.rewriteSource resultTo

theorem addRcpt_eq :
    dd.addRcpt ops msgMeta rcptTo =
      match resolveRcpt dd msgMeta rcptTo with
      | (dd,.error e) => (dd,msgMeta,some e)
      | (dd,.ok resultTo) =>
        let r := forEach (addEffective ops rcptTo) resultTo (dd,msgMeta)
        (r.1.1,r.1.2,r.2) := by
  unfold addRcpt resolveRcpt
  rcases dd.checkRcpt msgMeta dd.d.globalChecks rcptTo with ⟨dd,_ | e⟩
  · dsimp only
    rcases dd.checkRcpt msgMeta dd.sourceBlock.checks rcptTo with ⟨dd,_ | e⟩
    · dsimp only
      cases (dd.noteMod .global .rewriteRcpt).d.globalModifiers.rewriteRcpt rcptTo with
      | error e => rfl
      | ok resultTo =>
        rcases hs : (dd.noteMod .global .rewriteRcpt).rewriteSource resultTo with
          ⟨dd',e | effective⟩
        · simp only [hs]
        · simp only [hs]
    · rfl
  · rfl

/-- The turn of one address up to its loop: the targets of its block and the
addresses that the modifiers of the block give. -/
def resolveEffective (dd : Delivery τ δ) (msgMeta : MsgMetadata) (rcptTo : String) :
    Delivery τ δ × Except Err (List Nat × List String) :=
  match dd.rcptBlockForAddr rcptTo with
  | .error e => (dd,.error (wrapErr rcptTo e))
  | .ok block =>
    match (dd.d.blocks block).rejectErr with
    | some e => (dd,.error (wrapErr rcptTo e))
    | none =>
      match dd.checkRcpt msgMeta (dd.d.blocks block).checks rcptTo with
      | (dd,some e) => (dd,.error (wrapErr rcptTo e))
      | (dd,none) =>
        match dd.getRcptModifiers msgMeta block with
        | (dd,some e) => (dd,.error (wrapErr rcptTo e))
        | (dd,none) =>
          let dd := dd.noteMod (.rcpt block) .rewriteRcpt
          match (dd.d.blocks block).modifiers.rewriteRcpt rcptTo with
          | .error e => (dd.noteMod (.rcpt block) .close,.error (wrapErr rcptTo e))
          | .ok newTo => (dd,.ok ((dd.d.blocks block).targets,newTo))

theorem addEffective_eq (originalTo rcptTo : String) (st : Delivery τ δ × MsgMetadata) :
    addEffective ops originalTo rcptTo st =
      match resolveEffective st.1 st.2 rcptTo with
      | (dd,.error e) => ((dd,st.2),some e)
      | (dd,.ok (targets,newTo)) =>
        forEach (addRewritten ops originalTo targets) newTo (dd,st.2) := by
  obtain ⟨dd,msgMeta⟩ := st
  unfold addEffective resolveEffective
  dsimp only
  cases dd.rcptBlockForAddr rcptTo with
  | error e => rfl
  | ok block =>
    dsimp only
    cases (dd.d.blocks block).rejectErr with
    | some e => rfl
    | none =>
      rcases dd.checkRcpt msgMeta (dd.d.blocks block).checks rcptTo with ⟨dd,_ | e⟩
      · dsimp only
        rcases dd.getRcptModifiers msgMeta block with ⟨dd,_ | e⟩
        · dsimp only
          cases ((dd.noteMod (.rcpt block) .rewriteRcpt).d.blocks block).modifiers.rewriteRcpt
            rcptTo <;> rfl
        · rfl
      · rfl

theorem getRcptModifiers_deliveries {dd : Delivery τ δ} :
    (dd.getRcptModifiers m block).1.deliveries = dd.deliveries := by
  unfold getRcptModifiers
  repeat' split
  all_goals rfl

structure StartKeeps (P : Delivery τ δ → Prop) (msgMeta : MsgMetadata) : Prop where
  sender : ∀ dd checks mailFrom, P dd → P (dd.checkConnSender msgMeta checks mailFrom).1
  note : ∀ dd ref call, P dd → P (dd.noteMod ref call)
  global : ∀ dd, P dd → P { dd with globalModifiersState := true }
  block : ∀ dd block, P dd → P { dd with sourceBlock := block }
  source : ∀ dd addr, P dd → P { dd with sourceModifiersState := true, sourceAddr := addr }

namespace StartKeeps
variable {P : Delivery τ δ → Prop} {msgMeta : MsgMetadata} {dd : Delivery τ δ}

theorem globalModifiers (hk : StartKeeps P msgMeta) (mailFrom : String) (h : P dd) :
    P (dd.initRunGlobalModifiers msgMeta mailFrom).1 := by
  have hnote := hk.note dd .global .rewriteSender h
  unfold initRunGlobalModifiers
  cases dd.d.globalModifiers.modStateForMsg msgMeta with
  | some e => exact h
  | none =>
    dsimp only
    cases (dd.noteMod .global .rewriteSender).d.globalModifiers.rewriteSender mailFrom with
    | error e => exact hk.note _ .global .close hnote
    | ok newFrom => exact hk.global _ hnote

theorem startSource (hk : StartKeeps P msgMeta) (mailFrom : String) (h : P dd) :
    P (dd.startSource msgMeta mailFrom).1 := by
  have hsender := hk.sender dd dd.sourceBlock.checks mailFrom h
  unfold Delivery.startSource
  rcases hx : dd.checkConnSender msgMeta dd.sourceBlock.checks mailFrom with ⟨dd₁,_ | e⟩ <;>
    rw [hx] at hsender
  · have hnote := hk.note dd₁ .source .rewriteSender hsender
    dsimp only
    cases dd₁.sourceBlock.modifiers.modStateForMsg msgMeta with
    | some e => exact hsender
    | none =>
      cases (dd₁.noteMod .source .rewriteSender).sourceBlock.modifiers.rewriteSender mailFrom with
      | error e => exact hnote
      | ok newFrom => exact hk.source _ newFrom hnote
  · exact hsender

theorem startSender (hk : StartKeeps P msgMeta) (mailFrom : String) (h : P dd) :
    P (dd.startSender msgMeta mailFrom).1 := by
  have hsender := hk.sender dd dd.d.globalChecks mailFrom h
  unfold Delivery.startSender
  rcases hx : dd.checkConnSender msgMeta dd.d.globalChecks mailFrom with ⟨dd₁,_ | e⟩ <;>
    rw [hx] at hsender
  · have hmods := hk.globalModifiers mailFrom hsender
    dsimp only at hmods ⊢
    rcases hx : dd₁.initRunGlobalModifiers msgMeta mailFrom with ⟨dd₂,e | newFrom⟩ <;>
      rw [hx] at hmods
    · exact hmods
    · dsimp only
      cases srcBlockForAddr dd₂.d newFrom with
      | error e => exact hmods
      | ok block =>
        dsimp only
        cases block.rejectErr with
        | some e => exact hmods
        | none => exact hk.startSource newFrom (hk.block dd₂ block hmods)
  · exact hsender

theorem start (hk : StartKeeps P msgMeta) {d : Pipeline τ}
    (hnew : P { d := d, checkRunner := { doDMARC := d.doDMARC } })
    (h : Delivery.start d msgMeta mailFrom = (dd,none)) : P dd := by
  have hs := hk.startSender mailFrom hnew
  unfold Delivery.start at h
  rcases hx : ({ d := d, checkRunner := { doDMARC := d.doDMARC } } : Delivery τ δ).startSender
    msgMeta mailFrom with ⟨dd',_ | e⟩
  · rw [hx] at h hs
    cases h
    exact hs
  · rw [hx] at h
    cases h

end StartKeeps

theorem rewriteSource_inv {P : Delivery τ δ → Prop}
    (hnote : ∀ dd, P dd → P (dd.noteMod .source .rewriteRcpt)) (h : P dd) :
    P (dd.rewriteSource rcpts).1 := by
  induction rcpts generalizing dd with
  | nil => exact h
  | cons rcpt rest ih =>
    have hrest := ih (hnote dd h)
    unfold rewriteSource
    cases dd.sourceBlock.modifiers.rewriteRcpt rcpt with
    | error e => exact hnote dd h
    | ok newTo =>
      rcases hr : (dd.noteMod .source .rewriteRcpt).rewriteSource rest with ⟨dd',e | more⟩ <;>
        (rw [hr] at hrest; exact hrest)

theorem rewriteWith_inv {P : Delivery τ δ → Prop} (text : String)
    (hnote : ∀ entry ∈ mods, ∀ dd, P dd → P (dd.noteMod entry.1 .rewriteBody)) (header : Header)
    (h : P dd) : P (rewriteWith text mods dd header).1 := by
  induction mods generalizing dd header with
  | nil => exact h
  | cons entry rest ih =>
    have hfirst := hnote entry (by simp) dd h
    unfold rewriteWith
    cases entry.2.rewriteBody header text with
    | error e => exact hfirst
    | ok header => exact ih (fun entry he => hnote entry (by simp [he])) header hfirst

structure RcptKeeps (P : Delivery τ δ → Prop) (msgMeta : MsgMetadata) : Prop where
  check : ∀ dd checks rcptTo, P dd → P (dd.checkRcpt msgMeta checks rcptTo).1
  note : ∀ dd ref call, P dd → P (dd.noteMod ref call)
  modifiers : ∀ dd block, P dd → P (dd.getRcptModifiers msgMeta block).1

namespace RcptKeeps
variable {P : Delivery τ δ → Prop} {msgMeta : MsgMetadata} {dd : Delivery τ δ}

theorem resolveRcpt (hk : RcptKeeps P msgMeta) (rcptTo : String) (h : P dd) :
    P (resolveRcpt dd msgMeta rcptTo).1 := by
  unfold Loops.resolveRcpt
  have hglobal := hk.check dd dd.d.globalChecks rcptTo h
  rcases hx : dd.checkRcpt msgMeta dd.d.globalChecks rcptTo with ⟨dd₁,_ | e⟩ <;> rw [hx] at hglobal
  · have hsource := hk.check dd₁ dd₁.sourceBlock.checks rcptTo hglobal
    dsimp only
    rcases hx : dd₁.checkRcpt msgMeta dd₁.sourceBlock.checks rcptTo with ⟨dd₂,_ | e⟩ <;>
      rw [hx] at hsource
    · have hnoted := hk.note dd₂ .global .rewriteRcpt hsource
      dsimp only
      cases (dd₂.noteMod .global .rewriteRcpt).d.globalModifiers.rewriteRcpt rcptTo with
      | error e => exact hnoted
      | ok globalTo => exact rewriteSource_inv (fun dd => hk.note dd .source .rewriteRcpt) hnoted
    · exact hsource
  · exact hglobal

theorem resolveEffective (hk : RcptKeeps P msgMeta) (rcptTo : String) (h : P dd) :
    P (resolveEffective dd msgMeta rcptTo).1 := by
  unfold Loops.resolveEffective
  cases dd.rcptBlockForAddr rcptTo with
  | error e => exact h
  | ok block =>
    dsimp only
    cases (dd.d.blocks block).rejectErr with
    | some e => exact h
    | none =>
      have hcheck := hk.check dd (dd.d.blocks block).checks rcptTo h
      rcases hx : dd.checkRcpt msgMeta (dd.d.blocks block).checks rcptTo with ⟨dd₁,_ | e⟩ <;>
        rw [hx] at hcheck
      · have hmods := hk.modifiers dd₁ block hcheck
        dsimp only
        rcases hx : dd₁.getRcptModifiers msgMeta block with ⟨dd₂,_ | e⟩ <;> rw [hx] at hmods
        · have hnoted := hk.note dd₂ (.rcpt block) .rewriteRcpt hmods
          dsimp only
          cases ((dd₂.noteMod (.rcpt block) .rewriteRcpt).d.blocks block).modifiers.rewriteRcpt
            rcptTo with
          | error e => exact hk.note _ _ _ hnoted
          | ok newTo => exact hnoted
        · exact hmods
      · exact hcheck

end RcptKeeps

section Handed
variable {ops : Targets τ δ} {dd dd' dd'' : Delivery τ δ}

theorem setHandle_keys (dd : Delivery τ δ) (tgt : Nat) (h : Handle δ) :
    (dd.setHandle tgt h).keys = dd.keys := by
  simp only [keys,setHandle,List.map_map]
  apply List.map_congr_left
  intro entry _
  by_cases he : entry.1 = tgt <;> simp [he]

def OnlyDeliveries (dd dd' : Delivery τ δ) : Prop :=
  ∃ deliveries, dd' = { dd with deliveries := deliveries }

namespace OnlyDeliveries

theorem refl (dd : Delivery τ δ) : OnlyDeliveries dd dd := ⟨dd.deliveries,rfl⟩

theorem trans (h : OnlyDeliveries dd dd') (h' : OnlyDeliveries dd' dd'') :
    OnlyDeliveries dd dd'' := by
  obtain ⟨first,rfl⟩ := h
  obtain ⟨last,rfl⟩ := h'
  exact ⟨last,rfl⟩

theorem setHandle (dd : Delivery τ δ) (tgt : Nat) (h : Handle δ) :
    OnlyDeliveries dd (dd.setHandle tgt h) := ⟨_,rfl⟩

theorem forEach {α : Type}
    {f : α → Delivery τ δ × MsgMetadata → (Delivery τ δ × MsgMetadata) × Option Err}
    (hstep : ∀ a st, OnlyDeliveries st.1 (f a st).1.1) (as : List α)
    (st : Delivery τ δ × MsgMetadata) :
    OnlyDeliveries st.1 (Msgpipeline.forEach f as st).1.1 :=
  forEach_inv (P := fun st' => OnlyDeliveries st.1 st'.1) (fun a st' h => h.trans (hstep a st')) as
    st (.refl _)

theorem addToTarget (originalTo rcptTo : String) (tgt : Nat) (st : Delivery τ δ × MsgMetadata) :
    OnlyDeliveries st.1 (addToTarget ops originalTo rcptTo tgt st).1.1 := by
  obtain ⟨dd,msgMeta⟩ := st
  have hget : OnlyDeliveries dd (dd.getDelivery ops msgMeta tgt).1 := by
    unfold getDelivery
    repeat' split
    all_goals exact ⟨_,rfl⟩
  unfold Delivery.addToTarget
  dsimp only
  rcases hg : dd.getDelivery ops msgMeta tgt with ⟨dd',msgMeta',e | h⟩ <;> rw [hg] at hget
  · exact hget
  · dsimp only
    rcases ops.addRcpt h.obj msgMeta' rcptTo with ⟨obj,msgMeta'',_ | e⟩
    · exact hget.trans (setHandle _ _ _)
    · exact hget.trans (setHandle _ _ _)

theorem addRewritten (originalTo : String) (targets : List Nat) (rcptTo : String)
    (st : Delivery τ δ × MsgMetadata) :
    OnlyDeliveries st.1 (addRewritten ops originalTo targets rcptTo st).1.1 := by
  obtain ⟨dd,msgMeta⟩ := st
  unfold Delivery.addRewritten
  dsimp only
  generalize (if originalTo ≠ rcptTo then _ else msgMeta) = msgMeta'
  exact forEach (addToTarget originalTo rcptTo) targets (dd,msgMeta')

theorem bodyOf (header : Header) (text : String) (tgt : Nat) (st : Delivery τ δ × MsgMetadata) :
    OnlyDeliveries st.1 (bodyOf ops header text tgt st).1.1 := by
  obtain ⟨dd,msgMeta⟩ := st
  unfold Delivery.bodyOf
  dsimp only
  cases dd.handle tgt with
  | none => exact .refl _
  | some h => exact setHandle _ _ _

theorem handNonAtomic (ops : Targets τ δ) (header : Header) (text : String) (tgts : List Nat)
    (r : NonAtomic τ δ) :
    OnlyDeliveries r.dd (tgts.foldl (handNonAtomic ops header text) r).dd := by
  induction tgts generalizing r with
  | nil => exact .refl _
  | cons tgt rest ih =>
    refine trans ?_ (ih _)
    unfold Delivery.handNonAtomic
    cases r.dd.handle tgt with
    | none => exact .refl _
    | some h =>
      dsimp only
      split <;> exact setHandle _ _ _

end OnlyDeliveries

end Handed

section Setup
variable {ops : Targets τ δ} {dd dd' : Delivery τ δ}

/-- The pipeline and the source block of a delivery do not change once it has
started. -/
structure SameSetup (dd dd' : Delivery τ δ) : Prop where
  pipeline : dd'.d = dd.d
  sourceBlock : dd'.sourceBlock = dd.sourceBlock

theorem SameSetup.refl (dd : Delivery τ δ) : SameSetup dd dd := ⟨rfl,rfl⟩

theorem SameSetup.trans (h : SameSetup dd dd') (h' : SameSetup dd' dd'') : SameSetup dd dd'' :=
  ⟨h'.pipeline.trans h.pipeline,h'.sourceBlock.trans h.sourceBlock⟩

theorem OnlyDeliveries.setup (h : OnlyDeliveries dd dd') : SameSetup dd dd' := by
  obtain ⟨_,rfl⟩ := h
  exact ⟨rfl,rfl⟩

theorem checkRcpt_setup (dd : Delivery τ δ) (m : MsgMetadata) (checks : List Nat)
    (rcptTo : String) : SameSetup dd (dd.checkRcpt m checks rcptTo).1 := ⟨rfl,rfl⟩

theorem getRcptModifiers_setup (dd : Delivery τ δ) (m : MsgMetadata) (block : Nat) :
    SameSetup dd (dd.getRcptModifiers m block).1 := by
  unfold getRcptModifiers
  repeat' split
  all_goals exact ⟨rfl,rfl⟩

theorem rewriteSource_setup (dd : Delivery τ δ) (rcpts : List String) :
    SameSetup dd (dd.rewriteSource rcpts).1 :=
  rewriteSource_inv (P := SameSetup dd) (fun _ h => ⟨h.pipeline,h.sourceBlock⟩) (.refl dd)

theorem rewriteSource_congr (h : SameSetup dd dd') :
    (dd'.rewriteSource rcpts).2 = (dd.rewriteSource rcpts).2 := by
  induction rcpts generalizing dd dd' with
  | nil => rfl
  | cons rcpt rest ih =>
    have hnoted : SameSetup (dd.noteMod .source .rewriteRcpt) (dd'.noteMod .source .rewriteRcpt) :=
      ⟨h.pipeline,h.sourceBlock⟩
    have hrest := ih hnoted
    unfold rewriteSource
    rw [h.sourceBlock]
    cases dd.sourceBlock.modifiers.rewriteRcpt rcpt with
    | error e => rfl
    | ok newTo =>
      rcases hx' : (dd'.noteMod .source .rewriteRcpt).rewriteSource rest with ⟨_,e' | more'⟩ <;>
        rcases hx : (dd.noteMod .source .rewriteRcpt).rewriteSource rest with ⟨_,e | more⟩ <;>
        (rw [hx,hx'] at hrest; cases hrest <;> rfl)

theorem rcptBlockForAddr_congr (h : SameSetup dd dd') :
    dd'.rcptBlockForAddr rcptTo = dd.rcptBlockForAddr rcptTo := by
  unfold rcptBlockForAddr
  rw [h.pipeline,h.sourceBlock]

theorem rcptKeeps_setup (dd : Delivery τ δ) (msgMeta : MsgMetadata) :
    RcptKeeps (SameSetup dd) msgMeta :=
  ⟨fun dd' checks rcptTo h => h.trans (checkRcpt_setup dd' msgMeta checks rcptTo),
    fun _ _ _ h => ⟨h.pipeline,h.sourceBlock⟩,
    fun dd' block h => h.trans (getRcptModifiers_setup dd' msgMeta block)⟩

theorem resolveRcpt_ok (h : resolveRcpt dd msgMeta rcptTo = (dd',.ok resultTo)) :
    SameSetup dd dd' ∧ ∃ globalTo, dd.d.globalModifiers.rewriteRcpt rcptTo = .ok globalTo ∧
      (dd.rewriteSource globalTo).2 = .ok resultTo := by
  unfold resolveRcpt at h
  have h₁ := checkRcpt_setup dd msgMeta dd.d.globalChecks rcptTo
  rcases hx : dd.checkRcpt msgMeta dd.d.globalChecks rcptTo with ⟨dd₁,_ | e⟩ <;> rw [hx] at h h₁
  · dsimp only at h
    have h₂ := checkRcpt_setup dd₁ msgMeta dd₁.sourceBlock.checks rcptTo
    rcases hy : dd₁.checkRcpt msgMeta dd₁.sourceBlock.checks rcptTo with ⟨dd₂,_ | e⟩ <;>
      rw [hy] at h h₂
    · have hnoted : SameSetup dd (dd₂.noteMod .global .rewriteRcpt) := h₁.trans (h₂.trans ⟨rfl,rfl⟩)
      dsimp only at h
      rw [hnoted.pipeline] at h
      cases hg : dd.d.globalModifiers.rewriteRcpt rcptTo with
      | error e => rw [hg] at h; cases h
      | ok globalTo =>
        rw [hg] at h
        dsimp only at h
        have hsetup := rewriteSource_setup (dd₂.noteMod .global .rewriteRcpt) globalTo
        rw [h] at hsetup
        refine ⟨hnoted.trans hsetup,globalTo,rfl,?_⟩
        rw [← rewriteSource_congr hnoted,h]
    · cases h
  · cases h

theorem resolveEffective_ok (h : resolveEffective dd msgMeta rcptTo = (dd',.ok (targets,newTo))) :
    ∃ block, dd.rcptBlockForAddr rcptTo = .ok block ∧ targets = (dd.d.blocks block).targets ∧
      (dd.d.blocks block).modifiers.rewriteRcpt rcptTo = .ok newTo := by
  unfold resolveEffective at h
  cases hb : dd.rcptBlockForAddr rcptTo with
  | error e => rw [hb] at h; cases h
  | ok block =>
    rw [hb] at h
    dsimp only at h
    cases hrej : (dd.d.blocks block).rejectErr with
    | some e => rw [hrej] at h; cases h
    | none =>
      rw [hrej] at h
      have h₁ := checkRcpt_setup dd msgMeta (dd.d.blocks block).checks rcptTo
      rcases hx : dd.checkRcpt msgMeta (dd.d.blocks block).checks rcptTo with ⟨dd₁,_ | e⟩ <;>
        rw [hx] at h h₁
      · dsimp only at h
        have h₂ := getRcptModifiers_setup dd₁ msgMeta block
        rcases hy : dd₁.getRcptModifiers msgMeta block with ⟨dd₂,_ | e⟩ <;> rw [hy] at h h₂
        · have hd : (dd₂.noteMod (.rcpt block) .rewriteRcpt).d = dd.d := h₂.pipeline.trans h₁.pipeline
          dsimp only at h
          rw [hd] at h
          cases hm : (dd.d.blocks block).modifiers.rewriteRcpt rcptTo with
          | error e => rw [hm] at h; cases h
          | ok newTo' =>
            rw [hm] at h
            cases h
            exact ⟨block,rfl,rfl,hm⟩
        · cases h
      · cases h

theorem addEffective_setup : SameSetup st.1 (addEffective ops originalTo rcptTo st).1.1 := by
  have hres := (rcptKeeps_setup st.1 st.2).resolveEffective rcptTo (.refl _)
  rw [addEffective_eq]
  rcases hx : resolveEffective st.1 st.2 rcptTo with ⟨dd',e | ⟨targets,newTo⟩⟩ <;> rw [hx] at hres
  · exact hres
  · exact hres.trans
      (OnlyDeliveries.forEach (.addRewritten originalTo targets) newTo (dd',st.2)).setup

end Setup

end Pipeline

end Madmail.Proofs.Loops
