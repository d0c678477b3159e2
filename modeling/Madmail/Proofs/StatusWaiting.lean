import Madmail.Lib.Holdings
import Madmail.Proofs.PipelineStatuses
import Madmail.Proofs.RefusedRcpt
import Mathlib.Algebra.BigOperators.Group.List.Basic
import Mathlib.Algebra.Order.Group.Multiset

namespace Madmail.Proofs.StatusWaiting
open Exterrors Madmail.Module Msgpipeline Msgpipeline.Delivery Loops PipelineStatuses RefusedRcpt

variable {τ δ : Type}

/-- The contract of targets that are no pipelines, with the addresses that a
delivery has accepted. -/
structure Accepts (final : Targets τ δ) where
  accepted : δ → List String
  start : ∀ tgt msgMeta mailFrom obj,
    (final.start tgt msgMeta mailFrom).2 = .ok obj → accepted obj = []
  addRcpt : ∀ obj msgMeta rcptTo,
    accepted (final.addRcpt obj msgMeta rcptTo).1 =
      accepted obj ++ if (final.addRcpt obj msgMeta rcptTo).2.2.isNone then [rcptTo] else []

/-- How the deliveries of targets that are no pipelines answer to a body. -/
structure Answers (δ : Type) where
  body : δ → MsgMetadata → Header → String → δ × Bool × Option Err
  bodyNonAtomic : δ → MsgMetadata → Header → String → δ × List Status

def answering (final : Targets τ δ) (a : Answers δ) : Targets τ δ :=
  { final with body := a.body, bodyNonAtomic := a.bodyNonAtomic }

/-- The contract of `StatusCollector`: statuses are for accepted addresses, and
there is one at most for each of them. Only pipelines set the quarantine flag. -/
structure Answers.Valid {final : Targets τ δ} (k : Accepts final) (a : Answers δ) : Prop where
  flag : ∀ obj msgMeta header body, (a.body obj msgMeta header body).2.1 = false
  once : ∀ obj msgMeta header body,
    ((a.bodyNonAtomic obj msgMeta header body).2.map Status.rcpt).Nodup
  known : ∀ obj msgMeta header body, ∀ st ∈ (a.bodyNonAtomic obj msgMeta header body).2,
    st.rcpt ∈ k.accepted obj

abbrev Waits (δ : Type) := δ → MsgMetadata → Header → String → Multiset String

section Level
variable (part : δ → Bool) (w : Waits δ)

def recipientsOf (dd : Delivery τ δ) (tgt : Nat) : Multiset String :=
  match dd.handle tgt with
  | none => 0
  | some h => h.recipients

def turn (dd : Delivery τ δ) (msgMeta : MsgMetadata) (header : Header) (body : String)
    (tgt : Nat) : Multiset String :=
  match dd.handle tgt with
  | none => 0
  | some h =>
    if part h.obj then
      (w h.obj msgMeta header body).map (track msgMeta.originalRcpts)
    else h.recipients

/-- The recipients, with repetitions, for which `BodyNonAtomic` may set a status:
if the message is stopped, the recipients of all targets. -/
def waiting : Waits (Delivery τ δ) := fun dd msgMeta header body =>
  match dd.checkBodies msgMeta dd.mainGroups header body with
  | (dd,some _) => (dd.keys.map (recipientsOf dd)).sum
  | (dd,none) =>
    match dd.rewriteBody header body with
    | (dd,.error _) => (dd.keys.map (recipientsOf dd)).sum
    | (dd,.ok header) => (dd.keys.map (turn part w dd msgMeta header body)).sum

end Level

def nestedWaits {final : Targets τ δ} (k : Accepts final) : (n : Nat) → Waits (Dlv τ δ n)
  | 0 => fun obj _ _ _ => ((k.accepted obj).dedup : List String)
  | n + 1 => fun obj msgMeta header body =>
    match obj with
    | .inl o => ((k.accepted o).dedup : List String)
    | .inr dd => waiting (nested final n).isPartialDelivery (nestedWaits k n) dd msgMeta header body

/-- Each target has one entry in the map of deliveries. -/
structure Tidy (wf : δ → Prop) (dd : Delivery τ δ) : Prop where
  nodup : dd.keys.Nodup
  objs : ∀ tgt h, dd.handle tgt = some h → wf h.obj

def TidyObj (τ δ : Type) : (n : Nat) → Dlv τ δ n → Prop
  | 0, _ => True
  | _ + 1, .inl _ => True
  | n + 1, .inr dd => Tidy (TidyObj τ δ n) dd

structure Orderly (ops : Targets τ δ) (wf : δ → Prop) : Prop where
  start : ∀ tgt msgMeta mailFrom obj, (ops.start tgt msgMeta mailFrom).2 = .ok obj → wf obj
  addRcpt : ∀ obj msgMeta rcptTo, wf obj → wf (ops.addRcpt obj msgMeta rcptTo).1

section Tidy
variable {ops : Targets τ δ} {wf : δ → Prop} {dd : Delivery τ δ}

theorem tidy_congr (h : dd'.deliveries = dd.deliveries) (ht : Tidy wf dd) : Tidy wf dd' := by
  refine ⟨?_,?_⟩
  · rw [keys,h]
    exact ht.nodup
  · intro tgt hd hh
    rw [handle,h] at hh
    exact ht.objs tgt hd hh

theorem tidy_setHandle (ht : Tidy wf dd) (hw : wf h.obj) : Tidy wf (dd.setHandle tgt h) := by
  refine ⟨setHandle_keys dd tgt h ▸ ht.nodup,?_⟩
  intro tgt' hd hh
  rw [handle_setHandle] at hh
  split at hh
  · obtain ⟨_,_,rfl⟩ := Option.map_eq_some_iff.mp hh
    exact hw
  · exact ht.objs tgt' hd hh

theorem not_mem_keys (h : dd.handle tgt = none) : tgt ∉ dd.keys := by
  intro hmem
  obtain ⟨⟨_,hd⟩,hin,rfl⟩ := List.mem_map.mp hmem
  exact Lib.not_mem_of_lookup h _ hin rfl

theorem addToTarget_tidy (ho : Orderly ops wf) (ht : Tidy wf dd) :
    Tidy wf (addToTarget ops originalTo rcptTo tgt (dd,msgMeta)).1.1 := by
  have hadd : ∀ (dd' : Delivery τ δ) (m : MsgMetadata) (h : Handle δ),
      dd.getDelivery ops msgMeta tgt = (dd',m,.ok h) → Tidy wf dd' → wf h.obj →
      Tidy wf (addToTarget ops originalTo rcptTo tgt (dd,msgMeta)).1.1 := by
    intro dd' m h hget ht' hw
    have hw' := ho.addRcpt h.obj m rcptTo hw
    rcases ha : ops.addRcpt h.obj m rcptTo with ⟨obj,m',_ | e⟩
    all_goals
      rw [ha] at hw'
      simp only [addToTarget,hget,ha]
      exact tidy_setHandle ht' hw'
  rcases getDelivery_cases dd ops msgMeta tgt with
    ⟨h,hh,hget⟩ | ⟨hnone,⟨m,e,hget⟩ | ⟨m,obj,hs,hget⟩⟩
  · exact hadd dd msgMeta h hget ht (ht.objs tgt h hh)
  · simpa only [addToTarget,hget] using ht
  · have hw := ho.start _ _ _ obj hs
    refine hadd _ m { obj := obj } hget ⟨?_,?_⟩ hw
    · have hnew := not_mem_keys hnone
      simp only [keys,List.map_append,List.map_cons,List.map_nil] at hnew ⊢
      exact List.Nodup.append ht.nodup (List.nodup_singleton tgt)
        (List.disjoint_singleton.mpr hnew)
    · intro tgt' hd hh
      rw [handle_append dd tgt _ hnone] at hh
      split at hh
      · cases hh
        exact hw
      · exact ht.objs tgt' hd hh

theorem addRcpt_tidy (ho : Orderly ops wf) (msgMeta : MsgMetadata) (rcptTo : String)
    (ht : Tidy wf dd) : Tidy wf (dd.addRcpt ops msgMeta rcptTo).1 := by
  have hrewritten : ∀ targets addr (st : Delivery τ δ × MsgMetadata), Tidy wf st.1 →
      Tidy wf (addRewritten ops rcptTo targets addr st).1.1 := by
    rintro targets addr ⟨dd,m⟩ hst
    exact forEach_inv (P := fun st : Delivery τ δ × MsgMetadata => Tidy wf st.1)
      (fun tgt st hst => addToTarget_tidy ho hst) targets _ hst
  have heffective : ∀ addr (st : Delivery τ δ × MsgMetadata), Tidy wf st.1 →
      Tidy wf (addEffective ops rcptTo addr st).1.1 := by
    intro addr st hst
    have hframe := (rcptKeeps_deliveries st.1 st.2).resolveEffective addr rfl
    rw [addEffective_eq]
    rcases hr : resolveEffective st.1 st.2 addr with ⟨dd',e | ⟨targets,newTo⟩⟩ <;> rw [hr] at hframe
    · exact tidy_congr hframe hst
    · exact forEach_inv (P := fun st : Delivery τ δ × MsgMetadata => Tidy wf st.1)
        (fun addr st hst => hrewritten targets addr st hst) newTo _ (tidy_congr hframe hst)
  have hframe := (rcptKeeps_deliveries dd msgMeta).resolveRcpt rcptTo rfl
  rw [addRcpt_eq]
  rcases hr : resolveRcpt dd msgMeta rcptTo with ⟨dd',e | resultTo⟩ <;> rw [hr] at hframe
  · exact tidy_congr hframe ht
  · exact forEach_inv (P := fun st : Delivery τ δ × MsgMetadata => Tidy wf st.1)
      (fun addr st hst => heffective addr st hst) resultTo _ (tidy_congr hframe ht)

theorem start_tidy {d : Pipeline τ} (h : Delivery.start d msgMeta mailFrom = (dd,none)) :
    Tidy wf dd := by
  have hempty := start_deliveries h
  refine ⟨by simp [keys,hempty],?_⟩
  intro tgt hd hh
  simp [handle,hempty] at hh

theorem transaction_tidy (ho : Orderly ops wf) {d : Pipeline τ}
    (h : transaction ops d msgMeta mailFrom rcpts = some tx) : Tidy wf tx.dd := by
  have hoffer : ∀ (tx : Transaction τ δ) rcptTo, Tidy wf tx.dd → Tidy wf (tx.offer ops rcptTo).dd := by
    intro tx rcptTo ht
    rw [offer_dd]
    exact addRcpt_tidy ho tx.msgMeta rcptTo ht
  unfold transaction at h
  rcases hs : Delivery.start (δ := δ) d msgMeta mailFrom with ⟨dd',_ | e⟩ <;> rw [hs] at h
  · cases h
    have hstart : Tidy wf dd' := start_tidy hs
    generalize htx : ({ dd := dd', msgMeta := msgMeta } : Transaction τ δ) = tx
    have ht : Tidy wf tx.dd := htx ▸ hstart
    clear htx hstart
    induction rcpts generalizing tx with
    | nil => exact ht
    | cons rcptTo rest ih => exact ih (tx.offer ops rcptTo) (hoffer tx rcptTo ht)
  · cases h

end Tidy

theorem nested_orderly (final : Targets τ δ) (n : Nat) :
    Orderly (nested final n) (TidyObj τ δ n) := by
  induction n with
  | zero => exact ⟨fun _ _ _ _ _ => trivial,fun _ _ _ _ => trivial⟩
  | succ n ih =>
    refine ⟨?_,?_⟩
    · rintro (tgt | tgt) msgMeta mailFrom (obj | dd) h
      · trivial
      · simp only [nested,Targets.sum] at h
        cases hs : (final.start tgt msgMeta mailFrom).2 <;> (simp only [hs,Except.map] at h; cases h)
      · trivial
      · simp only [nested,Targets.sum,Targets.pipelines] at h
        rcases hs : Delivery.start (δ := Dlv τ δ n) tgt.pipeline msgMeta mailFrom with ⟨dd',_ | e⟩ <;>
          simp only [hs,Except.map] at h
        · cases h
          exact start_tidy hs
        · cases h
    · rintro (obj | dd) msgMeta rcptTo h
      · trivial
      · exact addRcpt_tidy ih msgMeta rcptTo h

/-- Comparisons of how often recipients occur: at most as often, or as often. -/
structure Comparison (R : Multiset String → Multiset String → Prop) : Prop where
  refl : ∀ a, R a a
  add : ∀ {a b c d}, R a b → R c d → R (a + c) (b + d)
  map : ∀ {a b} (f : String → String), R a b → R (a.map f) (b.map f)

theorem comparison_le : Comparison (· ≤ ·) :=
  ⟨fun _ => le_refl _,fun h h' => add_le_add h h',fun _ h => Multiset.map_le_map h⟩

theorem comparison_eq : Comparison (· = ·) :=
  ⟨fun _ => rfl,fun h h' => by rw [h,h'],fun _ h => by rw [h]⟩

def reported (statuses : List Status) : Multiset String := (statuses.map Status.rcpt : List String)

theorem reported_append (a b : List Status) : reported (a ++ b) = reported a + reported b := by
  simp [reported]

theorem reported_collect (m : String → Option String) (tgt : Nat) (statuses : List Status) :
    reported (statuses.map (collectStatus m tgt)) = (reported statuses).map (track m) := by
  simp only [reported,Multiset.map_coe,List.map_map]
  rfl

theorem reported_own (rcpts : List String) (err : Err) :
    reported (rcpts.map (fun rcpt => .own rcpt (some err))) = rcpts := by
  have hid : Status.rcpt ∘ (fun rcpt => Status.own rcpt (some err)) = fun rcpt => rcpt := rfl
  simp [reported,hid]

/-- What the deliveries of a target type report, compared with what waits. -/
structure Reports (R : Multiset String → Multiset String → Prop) (ops : Targets τ δ) (w : Waits δ)
    (wf : δ → Prop) : Prop where
  part : ∀ obj msgMeta header body, wf obj → ops.isPartialDelivery obj = true →
    R (reported (ops.bodyNonAtomic obj msgMeta header body).2) (w obj msgMeta header body)
  flag : ∀ obj msgMeta header body, ops.isPartialDelivery obj = false →
    (ops.body obj msgMeta header body).2.1 = false
  whole : ∀ obj msgMeta header body, ops.isPartialDelivery obj = false →
    (ops.body obj msgMeta header body).2.2 = none → ∀ rcpts, R 0 rcpts

section Statuses
variable {R : Multiset String → Multiset String → Prop} {ops : Targets τ δ} {w : Waits δ}
  {wf : δ → Prop} {dd : Delivery τ δ}

theorem hand_reported (hR : Comparison R) (hr : Reports R ops w wf) (header : Header)
    (body : String) (r : NonAtomic τ δ) (tgt : Nat) (hh : r.dd.handle tgt = dd.handle tgt)
    (hw : ∀ h, dd.handle tgt = some h → wf h.obj) :
    (handNonAtomic ops header body r tgt).msgMeta = r.msgMeta ∧
      (∀ other, other ≠ tgt →
        (handNonAtomic ops header body r tgt).dd.handle other = r.dd.handle other) ∧
      ∃ new, (handNonAtomic ops header body r tgt).statuses = r.statuses ++ new ∧
        R (reported new) (turn ops.isPartialDelivery w dd r.msgMeta header body tgt) := by
  unfold handNonAtomic turn
  rw [hh]
  cases hd : dd.handle tgt with
  | none => exact ⟨rfl,fun _ _ => rfl,[],by simp,hR.refl 0⟩
  | some h =>
    have hother : ∀ (h' : Handle δ) other, other ≠ tgt →
        (r.dd.setHandle tgt h').handle other = r.dd.handle other := by
      intro h' other hne
      rw [handle_setHandle,if_neg hne]
    cases hp : ops.isPartialDelivery h.obj with
    | true =>
      simp only [hp,↓reduceIte]
      refine ⟨trivial,hother _,_,rfl,?_⟩
      rw [reported_collect]
      exact hR.map _ (hr.part h.obj r.msgMeta header body (hw h hd) hp)
    | false =>
      have hflag := hr.flag h.obj r.msgMeta header body hp
      have hwhole := hr.whole h.obj r.msgMeta header body hp
      rcases hb : ops.body h.obj r.msgMeta header body with ⟨obj,quarantined,err⟩
      rw [hb] at hflag hwhole
      cases hflag
      simp only [hp,hb,Bool.false_eq_true,↓reduceIte,Bool.or_false]
      refine ⟨trivial,hother _,_,rfl,?_⟩
      cases err with
      | none => exact hwhole rfl h.recipients
      | some e =>
        rw [reported_own]
        exact hR.refl _

theorem hand_all (hR : Comparison R) (hr : Reports R ops w wf) (header : Header) (body : String)
    (hw : ∀ tgt h, dd.handle tgt = some h → wf h.obj) (tgts : List Nat) (hn : tgts.Nodup)
    (r : NonAtomic τ δ) (hh : ∀ tgt ∈ tgts, r.dd.handle tgt = dd.handle tgt) :
    ∃ new, (tgts.foldl (handNonAtomic ops header body) r).statuses = r.statuses ++ new ∧
      R (reported new) (tgts.map (turn ops.isPartialDelivery w dd r.msgMeta header body)).sum := by
  induction tgts generalizing r with
  | nil => exact ⟨[],by simp,hR.refl 0⟩
  | cons tgt tgts ih =>
    obtain ⟨hfirst,hrest⟩ := List.nodup_cons.mp hn
    obtain ⟨hmeta,hother,new,hnew,hle⟩ :=
      hand_reported hR hr header body r tgt (hh tgt (by simp)) (hw tgt)
    obtain ⟨more,hmore,hle'⟩ := ih hrest (handNonAtomic ops header body r tgt) (by
      intro other hmem
      rw [hother other (fun he => hfirst (he ▸ hmem))]
      exact hh other (List.mem_cons_of_mem _ hmem))
    refine ⟨new ++ more,by rw [List.foldl_cons,hmore,hnew,List.append_assoc],?_⟩
    rw [reported_append,List.map_cons,List.sum_cons]
    rw [hmeta] at hle'
    exact hR.add hle hle'

theorem reported_setStatusAll (dd : Delivery τ δ) (e : Err) :
    reported (dd.setStatusAll e) = (dd.keys.map (recipientsOf dd)).sum := by
  have hall : ∀ tgts : List Nat, reported (tgts.flatMap (fun tgt =>
      match dd.handle tgt with
      | none => []
      | some h => h.recipients.map (fun rcpt => .own rcpt (some e)))) =
      (tgts.map (recipientsOf dd)).sum := by
    intro tgts
    induction tgts with
    | nil => rfl
    | cons tgt tgts ih =>
      rw [List.flatMap_cons,reported_append,ih,List.map_cons,List.sum_cons,recipientsOf]
      cases dd.handle tgt with
      | none => rfl
      | some h => rw [reported_own]
  refine (hall _).trans ?_
  exact ((dd.d.env.pick_perm .setStatusAll dd.keys).map _).sum_eq

theorem checkBodies_deliveries (dd : Delivery τ δ) (msgMeta : MsgMetadata)
    (groups : List (List Nat)) (header : Header) (body : String) :
    (dd.checkBodies msgMeta groups header body).1.deliveries = dd.deliveries := rfl

theorem rewriteBody_deliveries (dd : Delivery τ δ) (header : Header) (body : String) :
    (dd.rewriteBody header body).1.deliveries = dd.deliveries :=
  rewriteWith_inv (P := fun dd' => dd'.deliveries = dd.deliveries) body (fun _ _ _ h => h) header rfl

/-- What `BodyNonAtomic` reports, compared with what waits. -/
theorem bodyNonAtomic_reported (hR : Comparison R) (hr : Reports R ops w wf) (ht : Tidy wf dd)
    (msgMeta : MsgMetadata) (header : Header) (body : String) :
    R (reported (dd.bodyNonAtomic ops msgMeta header body).statuses)
      (waiting ops.isPartialDelivery w dd msgMeta header body) := by
  have hc := checkBodies_deliveries dd msgMeta dd.mainGroups header body
  unfold bodyNonAtomic waiting
  rcases hx : dd.checkBodies msgMeta dd.mainGroups header body with ⟨dd₁,_ | e⟩
  · have hb := rewriteBody_deliveries dd₁ header body
    rw [hx] at hc
    dsimp only
    rcases hy : dd₁.rewriteBody header body with ⟨dd₂,e | header'⟩
    · rw [reported_setStatusAll]
      exact hR.refl _
    · rw [hy] at hb
      have ht' : Tidy wf dd₂ := tidy_congr (hb.trans hc) ht
      have hperm := dd₂.d.env.pick_perm .body dd₂.keys
      obtain ⟨new,hnew,hle⟩ := hand_all hR hr header' body ht'.objs _
        (hperm.nodup_iff.mpr ht'.nodup) { dd := dd₂, msgMeta := msgMeta } (fun _ _ => rfl)
      dsimp only
      rw [hnew,List.nil_append,← (hperm.map _).sum_eq]
      exact hle
  · rw [reported_setStatusAll]
    exact hR.refl _

end Statuses

section Nested
variable {R : Multiset String → Multiset String → Prop} {final : Targets τ δ}
variable {a : Answers δ} {n : Nat} {d : Pipeline (Tgt τ n)} {tx : Transaction (Tgt τ n) (Dlv τ δ n)}

theorem nested_isPartialDelivery :
    (nested final (n + 1)).isPartialDelivery = Sum.elim final.isPartialDelivery (fun _ => true) :=
  rfl

theorem answering_isPartialDelivery (a : Answers δ) (n : Nat) :
    (nested (answering final a) n).isPartialDelivery = (nested final n).isPartialDelivery := by
  cases n with
  | zero => rfl
  | succ n =>
    rw [nested_isPartialDelivery,nested_isPartialDelivery]
    rfl

/-- A comparison that holds for the targets that are no pipelines holds for
pipelines nested to any depth. -/
theorem nested_reports (hR : Comparison R) (k : Accepts final)
    (hr : Reports R (answering final a) (nestedWaits k 0) (TidyObj τ δ 0)) (n : Nat) :
    Reports R (nested (answering final a) n) (nestedWaits k n) (TidyObj τ δ n) := by
  induction n with
  | zero => exact hr
  | succ n ih =>
    refine ⟨?_,?_,?_⟩
    · rintro (obj | dd) msgMeta header body ht hp
      · exact hr.part obj msgMeta header body trivial hp
      · have hinner := bodyNonAtomic_reported hR ih ht msgMeta header body
        rw [answering_isPartialDelivery] at hinner
        exact hinner
    · rintro (obj | dd) msgMeta header body hp
      · exact hr.flag obj msgMeta header body hp
      · cases hp
    · rintro (obj | dd) msgMeta header body hp hnone rcpts
      · exact hr.whole obj msgMeta header body hp hnone rcpts
      · cases hp

def waitingIn (k : Accepts final) (n : Nat) : Waits (Delivery (Tgt τ n) (Dlv τ δ n)) :=
  waiting (nested final n).isPartialDelivery (nestedWaits k n)

theorem reported_of (hR : Comparison R) (k : Accepts final)
    (hr : Reports R (answering final a) (nestedWaits k 0) (TidyObj τ δ 0))
    (h : transaction (nested final n) d msgMeta mailFrom rcpts = some tx) (m : MsgMetadata)
    (header : Header) (body : String) :
    R (reported (tx.dd.bodyNonAtomic (nested (answering final a) n) m header body).statuses)
      (waitingIn k n tx.dd m header body) := by
  have ht := transaction_tidy (nested_orderly final n) h
  have hle := bodyNonAtomic_reported hR (nested_reports hR k hr n) ht m header body
  rw [answering_isPartialDelivery] at hle
  exact hle

theorem reported_le {k : Accepts final} (ha : a.Valid k)
    (h : transaction (nested final n) d msgMeta mailFrom rcpts = some tx) (m : MsgMetadata)
    (header : Header) (body : String) :
    reported (tx.dd.bodyNonAtomic (nested (answering final a) n) m header body).statuses ≤
      waitingIn k n tx.dd m header body := by
  refine reported_of comparison_le k ⟨?_,fun obj m header body _ => ha.flag obj m header body,
    fun _ _ _ _ _ _ _ => Multiset.zero_le _⟩ h m header body
  intro obj m header body _ _
  refine (Multiset.le_iff_subset (Multiset.coe_nodup.mpr (ha.once obj m header body))).mpr ?_
  intro rcpt hmem
  obtain ⟨st,hst,rfl⟩ := List.mem_map.mp (Multiset.mem_coe.mp hmem)
  exact Multiset.mem_coe.mpr (List.mem_dedup.mpr (ha.known obj m header body st hst))

def Accepts.failing (k : Accepts final) : Answers δ :=
  { body := fun obj _ _ _ => (obj,false,some (.leaf "write failed" none))
    bodyNonAtomic := fun obj _ _ _ =>
      (obj,(k.accepted obj).dedup.map (fun rcpt => .own rcpt (some (.leaf "write failed" none)))) }

theorem failing_valid {k : Accepts final} : k.failing.Valid k := by
  have hrcpts : ∀ obj m header body,
      (k.failing.bodyNonAtomic obj m header body).2.map Status.rcpt = (k.accepted obj).dedup := by
    intro obj m header body
    simp only [Accepts.failing,List.map_map]
    exact List.map_id' _
  refine ⟨fun _ _ _ _ => rfl,?_,?_⟩
  · intro obj m header body
    rw [hrcpts]
    exact List.nodup_dedup _
  · intro obj m header body st hst
    have hmem := List.mem_map_of_mem (f := Status.rcpt) hst
    rw [hrcpts] at hmem
    exact List.mem_dedup.mp hmem

theorem reported_failing (k : Accepts final)
    (h : transaction (nested final n) d msgMeta mailFrom rcpts = some tx) (m : MsgMetadata)
    (header : Header) (body : String) :
    reported (tx.dd.bodyNonAtomic (nested (answering final k.failing) n) m header body).statuses =
      waitingIn k n tx.dd m header body := by
  refine reported_of comparison_eq k ⟨?_,fun _ _ _ _ _ => rfl,?_⟩ h m header body
  · intro obj m header body _ _
    exact reported_own (k.accepted obj).dedup _
  · intro obj m header body _ hnone
    cases hnone

end Nested

def mailboxes : Targets Unit (List String) :=
  { isPipeline := fun _ => false
    start := fun _ msgMeta _ => (msgMeta,.ok [])
    addRcpt := fun held msgMeta rcptTo => (held ++ [rcptTo],msgMeta,none)
    body := fun held _ _ _ => (held,false,none)
    isPartialDelivery := fun _ => true
    bodyNonAtomic := fun held _ _ _ => (held,[])
    commit := fun held => (held,none)
    abort := fun held => (held,none) }

def mailboxesAccept : Accepts mailboxes :=
  { accepted := fun held => held
    start := by
      intro _ _ _ obj h
      cases h
      rfl
    addRcpt := fun _ _ _ => rfl }

end Madmail.Proofs.StatusWaiting
