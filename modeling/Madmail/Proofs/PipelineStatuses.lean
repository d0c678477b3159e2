import Madmail.Msgpipeline.Nested
import Mathlib.Logic.Function.Iterate

namespace Madmail.Proofs.PipelineStatuses
open Exterrors Madmail.Module Msgpipeline Msgpipeline.Delivery List

variable {τ δ : Type} {ops : Targets τ δ} {r : NonAtomic τ δ} {m : String → Option String}

def track (originalRcpts : String → Option String) (rcpt : String) : String :=
  (originalRcpts rcpt).getD rcpt

/-- What arrives is the reported address, tracked back once for every target on
the way. -/
def Traced (originalRcpts : String → Option String) (st : Status) : Prop :=
  st.rcpt = (track originalRcpts)^[st.via.length] st.addr

def TracedBy (ops : Targets τ δ) : Prop :=
  ∀ obj msgMeta header body, ∀ st ∈ (ops.bodyNonAtomic obj msgMeta header body).2,
    Traced msgMeta.originalRcpts st

def ReportsOwn (final : Targets τ δ) : Prop :=
  ∀ obj msgMeta header body, ∀ st ∈ (final.bodyNonAtomic obj msgMeta header body).2,
    st.via = [] ∧ st.rcpt = st.addr

theorem traced_own (m : String → Option String) (rcpt : String) (err : Option Err) :
    Traced m (.own rcpt err) := rfl

theorem traced_collect (h : Traced m st) : Traced m (collectStatus m tgt st) := by
  unfold Traced at h ⊢
  simp only [collectStatus,length_cons,Function.iterate_succ_apply',← h]
  rfl

theorem traced_setStatusAll (dd : Delivery τ δ) (m : String → Option String) (e : Err) :
    ∀ st ∈ dd.setStatusAll e, Traced m st := by
  intro st hst
  obtain ⟨tgt,_,hmem⟩ := mem_flatMap.mp hst
  split at hmem
  · cases hmem
  · obtain ⟨rcpt,_,rfl⟩ := mem_map.mp hmem
    exact traced_own m rcpt (some e)

theorem traced_hand (hops : TracedBy ops) (header : Header) (body : String) (tgt : Nat)
    (hm : r.msgMeta.originalRcpts = m) (hr : ∀ st ∈ r.statuses, Traced m st) :
    (handNonAtomic ops header body r tgt).msgMeta.originalRcpts = m ∧
      ∀ st ∈ (handNonAtomic ops header body r tgt).statuses, Traced m st := by
  unfold handNonAtomic
  split
  · exact ⟨hm,hr⟩
  · rename_i h _
    split
    · refine ⟨hm,fun st hst => ?_⟩
      rcases mem_append.mp hst with hst | hst
      · exact hr st hst
      · obtain ⟨st',hst',rfl⟩ := mem_map.mp hst
        rw [hm]
        exact traced_collect (hm ▸ hops h.obj r.msgMeta header body st' hst')
    · refine ⟨hm,fun st hst => ?_⟩
      rcases mem_append.mp hst with hst | hst
      · exact hr st hst
      · split at hst
        · cases hst
        · obtain ⟨rcpt,_,rfl⟩ := mem_map.mp hst
          exact traced_own m rcpt _

theorem traced_fold (hops : TracedBy ops) (header : Header) (body : String) (tgts : List Nat)
    (hm : r.msgMeta.originalRcpts = m) (hr : ∀ st ∈ r.statuses, Traced m st) :
    ∀ st ∈ (tgts.foldl (handNonAtomic ops header body) r).statuses, Traced m st := by
  induction tgts generalizing r with
  | nil => exact hr
  | cons tgt tgts ih =>
    obtain ⟨hm',hr'⟩ := traced_hand hops header body tgt hm hr
    exact ih hm' hr'

theorem traced_bodyNonAtomic (hops : TracedBy ops) (dd : Delivery τ δ) (msgMeta : MsgMetadata)
    (header : Header) (body : String) :
    ∀ st ∈ (dd.bodyNonAtomic ops msgMeta header body).statuses, Traced msgMeta.originalRcpts st := by
  unfold bodyNonAtomic
  split
  · exact traced_setStatusAll _ _ _
  · split
    · exact traced_setStatusAll _ _ _
    · exact traced_fold hops _ body _ rfl (by simp)

theorem traced_sum (ha : TracedBy a) (hb : TracedBy b) : TracedBy (a.sum b) := by
  intro obj msgMeta header body st hst
  cases obj with
  | inl o => exact ha o msgMeta header body st hst
  | inr o => exact hb o msgMeta header body st hst

theorem traced_nested (hfinal : ReportsOwn final) (n : Nat) : TracedBy (nested final n) := by
  have hown : TracedBy final := by
    intro obj msgMeta header body st hst
    obtain ⟨hvia,hrcpt⟩ := hfinal obj msgMeta header body st hst
    simpa [Traced,hvia] using hrcpt
  induction n with
  | zero => exact hown
  | succ n ih => exact traced_sum hown (fun dd => traced_bodyNonAtomic ih dd)

/-- The caller's collector gets a failure for the recipient when the target at
the end of the path reports one for the address `e`. -/
def Reported (statuses : List Status) (via : List Nat) (e rcpt : String) : Prop :=
  ∃ st ∈ statuses, st.via = via ∧ st.addr = e ∧ st.err.isSome = true ∧ st.rcpt = rcpt

instance (statuses : List Status) (via : List Nat) (e rcpt : String) :
    Decidable (Reported statuses via e rcpt) :=
  inferInstanceAs (Decidable (∃ st ∈ statuses, _))

theorem reported_iff (ht : ∀ st ∈ statuses, Traced m st)
    (hrep : ∃ rcpt, Reported statuses via e rcpt) (rcpt : String) :
    Reported statuses via e rcpt ↔ rcpt = (track m)^[via.length] e := by
  have hback : ∀ rcpt, Reported statuses via e rcpt → rcpt = (track m)^[via.length] e := by
    rintro _ ⟨st,hst,rfl,rfl,_,rfl⟩
    exact ht st hst
  obtain ⟨first,hfirst⟩ := hrep
  constructor
  · exact hback rcpt
  · rintro rfl
    exact hback first hfirst ▸ hfirst

/-- A failure that a target reports for an address reaches exactly the accepted
recipients it stands for, if and only if there is one such recipient alone, and
the map of original recipients leads back to it from the address, looked up
once for every pipeline between that target and the caller. -/
theorem failure_reaches_originals_iff (final : Targets τ δ) (hfinal : ReportsOwn final) (n : Nat)
    (dd : Delivery (Tgt τ n) (Dlv τ δ n)) (msgMeta : MsgMetadata) (header : Header) (body : String)
    (accepted : List String) (via : List Nat) (e : String)
    (hrep : ∃ rcpt,
      Reported (dd.bodyNonAtomic (nested final n) msgMeta header body).statuses via e rcpt) :
    (∀ rcpt, Reported (dd.bodyNonAtomic (nested final n) msgMeta header body).statuses via e rcpt ↔
        rcpt ∈ accepted ∧ Expands n dd via rcpt e) ↔
      ∃ origin, (∀ rcpt, rcpt ∈ accepted ∧ Expands n dd via rcpt e ↔ rcpt = origin) ∧
        (track msgMeta.originalRcpts)^[via.length] e = origin := by
  have htraced := traced_bodyNonAtomic (traced_nested hfinal n) dd msgMeta header body
  simp only [reported_iff htraced hrep,exists_eq_right']
  exact forall_congr' fun rcpt => Iff.comm

def mailboxFull (addr : String) : Targets Unit Unit :=
  { Targets.silent with
    bodyNonAtomic := fun _ _ _ _ => ((),[.own addr (some (.leaf "mailbox is full" none))]) }

theorem mailboxFull_own : ReportsOwn (mailboxFull addr) := by
  intro _ _ _ _ st hst
  cases mem_singleton.mp hst
  exact ⟨rfl,rfl⟩

def aliasOf (addr : String) : Modifier :=
  { modStateForMsg := fun _ => none
    rewriteSender := .ok
    rewriteRcpt := fun _ => .ok [addr]
    rewriteBody := fun header _ => .ok header }

def sharedMailbox : Pipeline Unit :=
  { Pipeline.plain with globalModifiers := [aliasOf "carol@example.org"] }

def reroutedMailbox : Pipeline (Tgt Unit 1) :=
  { Pipeline.plain with target := fun _ => .inr ⟨sharedMailbox,false⟩ }

/-- The failure at an alias behind two pipelines comes back to its owner. -/
theorem rerouted_failure_returned :
    ∃ tx : Transaction (Tgt Unit 1) (Dlv Unit Unit 1),
      transaction (nested (mailboxFull "carol@example.org") 1) reroutedMailbox { id := "m1" }
        "ann@example.org" ["bob@example.org"] = some tx ∧
      ∀ rcpt, Reported (tx.dd.bodyNonAtomic (nested (mailboxFull "carol@example.org") 1) tx.msgMeta
          [] "hello").statuses [0,0] "carol@example.org" rcpt ↔
        rcpt ∈ tx.accepted ∧ Expands 1 tx.dd [0,0] rcpt "carol@example.org" := by
  refine ⟨_,rfl,(failure_reaches_originals_iff _ mailboxFull_own 1 _ _ _ _ _ _ _
    ⟨"bob@example.org",by decide⟩).mpr ⟨"bob@example.org",fun rcpt => ⟨?_,?_⟩,by decide⟩⟩
  · rintro ⟨hmem,_⟩
    exact mem_singleton.mp hmem
  · rintro rfl
    exact ⟨by decide,"bob@example.org",by decide,rfl,by decide⟩

/-- Of two recipients with one mailbox, only the last hears of its failure. -/
theorem shared_mailbox_failure_lost :
    ¬ ∀ (final : Targets Unit Unit), ReportsOwn final →
      ∀ (n : Nat) (d : Pipeline (Tgt Unit n)) (msgMeta : MsgMetadata) (mailFrom : String)
        (rcpts : List String) (tx : Transaction (Tgt Unit n) (Dlv Unit Unit n)),
      transaction (nested final n) d msgMeta mailFrom rcpts = some tx →
      ∀ (header : Header) (body : String) (via : List Nat) (e : String),
      (∃ rcpt, Reported (tx.dd.bodyNonAtomic (nested final n) tx.msgMeta header body).statuses
        via e rcpt) →
      ∀ rcpt, Reported (tx.dd.bodyNonAtomic (nested final n) tx.msgMeta header body).statuses
          via e rcpt ↔
        rcpt ∈ tx.accepted ∧ Expands n tx.dd via rcpt e := by
  intro h
  have hbob := h (mailboxFull "carol@example.org") mailboxFull_own 0 sharedMailbox
    { id := "m1" } "ann@example.org" ["bob@example.org","dan@example.org"] _ rfl [] "hello" [0]
    "carol@example.org" ⟨"dan@example.org",by decide⟩ "bob@example.org"
  exact absurd (hbob.mpr ⟨by decide,rfl,by decide⟩) (by decide)

end Madmail.Proofs.PipelineStatuses
