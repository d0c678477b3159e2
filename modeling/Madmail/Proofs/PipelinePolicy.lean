import Madmail.Proofs.Loops

namespace Madmail.Proofs.PipelinePolicy
open Exterrors Madmail.Module Msgpipeline Msgpipeline.Delivery Loops

variable {τ δ : Type}

/-- `Body` would return an error because of a check or of DMARC. -/
def PolicyRejects (dd : Delivery τ δ) (msgMeta : MsgMetadata) (header : Header) (body : String) :
    Prop :=
  ∃ e, (dd.applyPolicy msgMeta header body).2.2 = .error (.policy e)

/-- `Body` would come to hand over the message, with the quarantine flag set. -/
def Quarantines (dd : Delivery τ δ) (msgMeta : MsgMetadata) (header : Header) (body : String) :
    Prop :=
  ∃ h h', (dd.applyPolicy msgMeta header body).2.2 = .ok h ∧
    ((dd.applyPolicy msgMeta header body).1.rewriteBody h body).2 = .ok h' ∧
    (dd.applyPolicy msgMeta header body).2.1.quarantine = true

/-- `BodyNonAtomic` enforces what `Body` would: a rejected message is reported
for every accepted recipient and handed to no target, and the targets find a
quarantined message to be so. -/
def SamePolicy (ops : Targets τ δ) (dd : Delivery τ δ) (msgMeta : MsgMetadata) (header : Header)
    (body : String) (accepted : List String) : Prop :=
  (PolicyRejects dd msgMeta header body →
    (∀ rcpt ∈ accepted, ∃ st ∈ (dd.bodyNonAtomic ops msgMeta header body).statuses,
      st.rcpt = rcpt ∧ st.err.isSome = true) ∧
    (dd.bodyNonAtomic ops msgMeta header body).handed = []) ∧
  (Quarantines dd msgMeta header body →
    ∀ h ∈ (dd.bodyNonAtomic ops msgMeta header body).handed, h.2 = true)

/-- The global or the source checks reject the body, or a modifier fails on the
header as it was received. -/
def StopsEarly (dd : Delivery τ δ) (msgMeta : MsgMetadata) (header : Header) (body : String) :
    Prop :=
  (∃ e, (dd.checkBodies msgMeta dd.mainGroups header body).2 = some e) ∨
    ∃ e, (dd.rewriteBody header body).2 = .error e

/-- Every accepted recipient went to some target. -/
def Covered (dd : Delivery τ δ) (accepted : List String) : Prop :=
  ∀ rcpt ∈ accepted, ∃ tgt h, dd.handle tgt = some h ∧ rcpt ∈ h.recipients

/-- When the two agree: where `Body` rejects, `BodyNonAtomic` stops for a reason
it shares and has a target to name every recipient by, or there is nobody to
deliver to; where `Body` quarantines, the flag was set before, or nothing is
handed over. -/
def PolicyOK (dd : Delivery τ δ) (msgMeta : MsgMetadata) (header : Header) (body : String)
    (accepted : List String) : Prop :=
  (PolicyRejects dd msgMeta header body →
    (StopsEarly dd msgMeta header body ∧ Covered dd accepted) ∨
      (¬ StopsEarly dd msgMeta header body ∧ dd.deliveries = [] ∧ accepted = [])) ∧
  (Quarantines dd msgMeta header body →
    StopsEarly dd msgMeta header body ∨ dd.deliveries = [] ∨ msgMeta.quarantine = true)

theorem rewriteWith_frame (body : String) (ms : List (ModRef × Group)) (dd : Delivery τ δ)
    (header : Header) : (rewriteWith body ms dd header).1.deliveries = dd.deliveries :=
  rewriteWith_inv (P := fun dd' => dd'.deliveries = dd.deliveries) body (fun _ _ _ h => h) header rfl

theorem rewriteWith_result (body : String) (ms : List (ModRef × Group)) (dd dd' : Delivery τ δ)
    (header : Header) : (rewriteWith body ms dd header).2 = (rewriteWith body ms dd' header).2 := by
  induction ms generalizing dd dd' header with
  | nil => rfl
  | cons m ms ih =>
    simp only [rewriteWith]
    split
    · rfl
    · exact ih _ _ _

theorem mem_keys_iff (dd : Delivery τ δ) (tgt : Nat) :
    tgt ∈ dd.keys ↔ ∃ h, dd.handle tgt = some h := by
  unfold keys handle
  induction dd.deliveries with
  | nil => simp
  | cons entry rest ih =>
    obtain ⟨key,h⟩ := entry
    by_cases hk : tgt = key
    · simp [hk]
    · simp only [List.map_cons,List.mem_cons,hk,false_or,ih,List.lookup_cons,
        beq_eq_false_iff_ne.mpr hk]

theorem handNonAtomic_handed (ops : Targets τ δ) (header : Header) (body : String)
    (ht : tgt ∈ r.dd.keys) :
    (handNonAtomic ops header body r tgt).dd.keys = r.dd.keys ∧
      (handNonAtomic ops header body r tgt).handed = r.handed ++ [(tgt,r.msgMeta.quarantine)] ∧
      (r.msgMeta.quarantine = true →
        (handNonAtomic ops header body r tgt).msgMeta.quarantine = true) := by
  obtain ⟨h,hh⟩ := (mem_keys_iff r.dd tgt).mp ht
  unfold handNonAtomic
  simp only [hh]
  split
  · exact ⟨setHandle_keys _ _ _,rfl,fun hq => hq⟩
  · exact ⟨setHandle_keys _ _ _,rfl,fun hq => by simp [hq]⟩

theorem handNonAtomic_fold (ops : Targets τ δ) (header : Header) (body : String) (l : List Nat)
    (r : NonAtomic τ δ) (hl : ∀ tgt ∈ l, tgt ∈ r.dd.keys) :
    ∃ rest, (l.foldl (handNonAtomic ops header body) r).handed = r.handed ++ rest ∧
      rest.map Prod.fst = l ∧ (∀ h, rest.head? = some h → h.2 = r.msgMeta.quarantine) ∧
      (r.msgMeta.quarantine = true → ∀ h ∈ rest, h.2 = true) := by
  induction l generalizing r with
  | nil => exact ⟨[],by simp⟩
  | cons tgt l ih =>
    obtain ⟨hkeys,hhanded,hq⟩ := handNonAtomic_handed ops header body (hl tgt (by simp))
    obtain ⟨rest,heq,hfst,_,hall⟩ := ih (handNonAtomic ops header body r tgt)
      (fun t ht => hkeys ▸ hl t (by simp [ht]))
    refine ⟨(tgt,r.msgMeta.quarantine) :: rest,?_,by simp [hfst],by simp,?_⟩
    · rw [List.foldl_cons,heq,hhanded]
      simp
    · intro hset h hh
      rcases List.mem_cons.mp hh with rfl | hh
      · exact hset
      · exact hall (hq hset) h hh

theorem setStatusAll_covers (dd : Delivery τ δ) (e : Err) (accepted : List String) :
    (∀ rcpt ∈ accepted, ∃ st ∈ dd.setStatusAll e, st.rcpt = rcpt ∧ st.err.isSome = true) ↔
      Covered dd accepted := by
  refine forall₂_congr fun rcpt _ => ?_
  constructor
  · rintro ⟨st,hst,rfl,_⟩
    obtain ⟨tgt,_,hmem⟩ := List.mem_flatMap.mp hst
    cases hh : dd.handle tgt with
    | none => simp [hh] at hmem
    | some h =>
      simp only [hh,List.mem_map] at hmem
      obtain ⟨rcpt,hr,rfl⟩ := hmem
      exact ⟨tgt,h,hh,hr⟩
  · rintro ⟨tgt,h,hh,hr⟩
    refine ⟨.own rcpt (some e),List.mem_flatMap.mpr ⟨tgt,?_,?_⟩,rfl,rfl⟩
    · exact (dd.d.env.pick_perm .setStatusAll dd.keys).mem_iff.mpr ((mem_keys_iff dd tgt).mpr ⟨h,hh⟩)
    · simpa [hh] using ⟨rcpt,hr,rfl⟩

theorem bodyNonAtomic_cases (ops : Targets τ δ) (dd : Delivery τ δ) (msgMeta : MsgMetadata)
    (header : Header) (body : String) :
    ∃ dd' : Delivery τ δ, dd'.deliveries = dd.deliveries ∧
      ((StopsEarly dd msgMeta header body ∧ ∃ e, dd.bodyNonAtomic ops msgMeta header body =
          { dd := dd', msgMeta := msgMeta, statuses := dd'.setStatusAll e }) ∨
        (¬ StopsEarly dd msgMeta header body ∧ ∃ header', dd.bodyNonAtomic ops msgMeta header body =
          (dd'.d.env.pick .body dd'.keys).foldl (handNonAtomic ops header' body)
            { dd := dd', msgMeta := msgMeta })) := by
  unfold StopsEarly bodyNonAtomic
  cases hc : dd.checkBodies msgMeta dd.mainGroups header body with
  | mk dd₁ err =>
    have hdd₁ : dd₁ = { dd with checkRunner := dd₁.checkRunner } := by
      rw [show dd₁ = (dd.checkBodies msgMeta dd.mainGroups header body).1 by rw [hc]]
      rfl
    cases err with
    | some e => exact ⟨dd₁,by rw [hdd₁],.inl ⟨.inl ⟨e,rfl⟩,e,rfl⟩⟩
    | none =>
      have hsame : (dd₁.rewriteBody header body).2 = (dd.rewriteBody header body).2 := by
        rw [hdd₁]
        exact rewriteWith_result _ _ _ _ _
      have hdel : (dd₁.rewriteBody header body).1.deliveries = dd.deliveries := by
        rw [hdd₁]
        exact rewriteWith_frame _ _ _ _
      rw [← hsame]
      cases hr : dd₁.rewriteBody header body with
      | mk dd₂ res =>
        rw [hr] at hdel
        cases res with
        | error e => exact ⟨dd₂,hdel,.inl ⟨.inr ⟨e,rfl⟩,e,by simp only [hr]⟩⟩
        | ok header' => exact ⟨dd₂,hdel,.inr ⟨by simp,header',by simp only [hr]⟩⟩

section NonAtomic
variable {dd : Delivery τ δ} {msgMeta : MsgMetadata} {header : Header} {body : String}

theorem nonAtomic_stops (ops : Targets τ δ) (accepted : List String)
    (hs : StopsEarly dd msgMeta header body) :
    ((∀ rcpt ∈ accepted, ∃ st ∈ (dd.bodyNonAtomic ops msgMeta header body).statuses,
        st.rcpt = rcpt ∧ st.err.isSome = true) ↔ Covered dd accepted) ∧
      (dd.bodyNonAtomic ops msgMeta header body).handed = [] := by
  obtain ⟨dd',hdel,⟨_,e,heq⟩ | ⟨hn,_⟩⟩ := bodyNonAtomic_cases ops dd msgMeta header body
  · have hc : Covered dd' accepted ↔ Covered dd accepted := by
      simp only [Covered,handle,hdel]
    rw [heq]
    exact ⟨(setStatusAll_covers dd' e accepted).trans hc,rfl⟩
  · exact absurd hs hn

theorem nonAtomic_hands (ops : Targets τ δ) (hs : ¬ StopsEarly dd msgMeta header body) :
    ((dd.bodyNonAtomic ops msgMeta header body).handed = [] ↔ dd.deliveries = []) ∧
      (dd.deliveries = [] → (dd.bodyNonAtomic ops msgMeta header body).statuses = []) ∧
      ((∀ h ∈ (dd.bodyNonAtomic ops msgMeta header body).handed, h.2 = true) ↔
        dd.deliveries = [] ∨ msgMeta.quarantine = true) := by
  obtain ⟨dd',hdel,⟨hn,_⟩ | ⟨_,header',heq⟩⟩ := bodyNonAtomic_cases ops dd msgMeta header body
  · exact absurd hn hs
  have hperm := dd'.d.env.pick_perm .body dd'.keys
  have hempty : dd'.d.env.pick .body dd'.keys = [] ↔ dd.deliveries = [] := by
    rw [← hdel,← List.perm_nil,hperm.congr_left,List.perm_nil]
    exact List.map_eq_nil_iff
  obtain ⟨rest,hh,hfst,hhead,hall⟩ := handNonAtomic_fold ops header' body
    (dd'.d.env.pick .body dd'.keys) { dd := dd', msgMeta := msgMeta }
    (fun tgt ht => hperm.mem_iff.mp ht)
  rw [← hfst,List.map_eq_nil_iff] at hempty
  rw [heq,hh,List.nil_append]
  refine ⟨hempty,fun hd => ?_,fun hq => ?_,fun hq => ?_⟩
  · rw [← hfst,hempty.mpr hd]
    rfl
  · cases rest with
    | nil => exact .inl (hempty.mp rfl)
    | cons h rest => exact .inr ((hhead h rfl).symm.trans (hq h (by simp)))
  · rcases hq with hd | hq
    · simp [hempty.mpr hd]
    · exact hall hq

/-- `BodyNonAtomic` enforces the policy of `Body` exactly in the states that
`PolicyOK` describes. -/
theorem same_policy_iff (ops : Targets τ δ) (dd : Delivery τ δ) (msgMeta : MsgMetadata)
    (header : Header) (body : String) (accepted : List String) :
    SamePolicy ops dd msgMeta header body accepted ↔ PolicyOK dd msgMeta header body accepted := by
  unfold SamePolicy PolicyOK
  by_cases hs : StopsEarly dd msgMeta header body
  · obtain ⟨hcov,hnone⟩ := nonAtomic_stops ops accepted hs
    simp [hcov,hnone,hs]
  · obtain ⟨hnone,hstat,hflag⟩ := nonAtomic_hands ops hs
    refine and_congr (imp_congr_right fun _ => ?_) (imp_congr_right fun _ => ?_)
    · rw [hnone]
      constructor
      · rintro ⟨hall,hd⟩
        refine .inr ⟨hs,hd,List.eq_nil_iff_forall_not_mem.mpr fun rcpt hr => ?_⟩
        obtain ⟨st,hst,_⟩ := hall rcpt hr
        simp [hstat hd] at hst
      · rintro (⟨h,_⟩ | ⟨_,hd,rfl⟩)
        · exact absurd h hs
        · exact ⟨by simp,hd⟩
    · rw [hflag]
      simp [hs]

end NonAtomic

def strictBlock : Pipeline Unit :=
  { Pipeline.plain with
    env := { Env.passing with
      result := fun _ calls =>
        match calls.getLast? with
        | some (.checkBody _ _) => { reason := some (.leaf "spam" none), reject := true }
        | _ => {} }
    blocks := fun _ => { checks := [0], targets := [0] } }

/-- What the check of a recipient block rejects, `BodyNonAtomic` delivers. -/
theorem block_check_skipped :
    ¬ ∀ (d : Pipeline Unit) (ops : Targets Unit Unit) (msgMeta : MsgMetadata) (mailFrom : String)
        (rcpts : List String) (tx : Transaction Unit Unit),
      transaction ops d msgMeta mailFrom rcpts = some tx → ∀ header body,
        SamePolicy ops tx.dd tx.msgMeta header body tx.accepted := by
  intro h
  obtain ⟨hrej,_⟩ := h strictBlock .silent { id := "m1" } "ann@example.org" ["bob@example.org"] _ rfl
    [("Subject","hi")] "hello"
  have hhanded := (hrej ⟨_,rfl⟩).2
  exact absurd hhanded (by decide)

end Madmail.Proofs.PipelinePolicy
