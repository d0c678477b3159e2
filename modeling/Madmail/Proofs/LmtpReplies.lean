import Madmail.Endpoint.Lmtp
import Madmail.Proofs.StatusWaiting

namespace Madmail.Proofs.LmtpReplies
open Exterrors Madmail.Module Smtp Lib StatusWaiting List
open Msgpipeline.Delivery (Transaction transaction)

/-- The collector has a slot for every status it is given. -/
def Collected (slots rcpts : List String) : Prop := (run setStatus slots rcpts).isSome = true

theorem collected_iff : Collected slots rcpts ↔ (rcpts : Multiset String) ≤ slots := by
  induction rcpts generalizing slots with
  | nil => exact iff_of_true rfl (Multiset.zero_le _)
  | cons rcpt rcpts ih =>
    unfold Collected at ih ⊢
    rw [run,setStatus]
    by_cases hmem : rcpt ∈ slots
    · rw [if_pos hmem,Option.bind_some,ih,← Multiset.cons_coe,← Multiset.coe_erase,
        ← Multiset.cons_le_cons_iff rcpt,Multiset.cons_erase (Multiset.mem_coe.mpr hmem)]
    · rw [if_neg hmem]
      simp only [Option.bind_none,Option.isSome_none,Bool.false_eq_true,false_iff]
      intro hle
      exact hmem (Multiset.mem_coe.mp (Multiset.mem_of_le hle (by simp)))

def normalized (endp : Endpoint) (opts : MailOptions) (rcptTo : String) : Option String :=
  if !Address.isASCII rcptTo ∧ !opts.utf8 then none
  else (Address.cleanDomain endp.idna rcptTo).toOption

def offered (endp : Endpoint) (opts : MailOptions) (inputs : List (Env × String)) : List String :=
  inputs.filterMap (fun input => normalized endp opts input.2)

section Rcpt
variable {τ δ : Type} {ops : Msgpipeline.Targets τ δ} {pipeline : Msgpipeline.Pipeline τ}
  {endp : Endpoint}

theorem addRcpt_cases (endp : Endpoint) (env : Env) (s : Session) (dl : Delivery)
    (rcptTo : String) :
    (normalized endp s.opts rcptTo = none ∧ ∃ e, addRcpt endp env s dl rcptTo = (s,some e)) ∨
      ∃ cleanTo, normalized endp s.opts rcptTo = some cleanTo ∧
        addRcpt endp env s dl rcptTo =
          ({ s with
              rcpts := s.rcpts ++ [cleanTo]
              delivery := some { dl with
                envelope := { dl.envelope with rcpts := dl.envelope.rcpts ++ [cleanTo] } } },
            env.addRcpt dl.envelope cleanTo) := by
  unfold addRcpt normalized
  split
  · exact .inl ⟨rfl,_,rfl⟩
  · cases Address.cleanDomain endp.idna rcptTo with
    | error e => exact .inl ⟨rfl,_,rfl⟩
    | ok cleanTo => exact .inr ⟨cleanTo,rfl,rfl⟩

structure Under (ops : Msgpipeline.Targets τ δ) (pipeline : Msgpipeline.Pipeline τ) (dl : Delivery)
    (rcpts : List String) : Prop where
  rcpts : dl.envelope.rcpts = rcpts
  started : (Msgpipeline.Delivery.start (δ := δ) pipeline dl.envelope.msgMeta
    dl.envelope.mailFrom).2 = none

structure After (ops : Msgpipeline.Targets τ δ) (pipeline : Msgpipeline.Pipeline τ)
    (endp : Endpoint) (opts : MailOptions) (inputs : List (Env × String)) (l : Lmtp) : Prop where
  sameOpts : l.session.opts = opts
  accepted : l.accepted.length ≤ l.session.rcpts.length
  idle : l.session.delivery = none →
    l.session.rcpts = [] ∧ (inputs = [] ∨ l.session.deliveryErr ≠ none)
  under : ∀ dl, l.session.delivery = some dl →
    l.session.rcpts = offered endp opts inputs ∧ Under ops pipeline dl l.session.rcpts

theorem offered_append (endp : Endpoint) (opts : MailOptions) (inputs : List (Env × String))
    (input : Env × String) :
    offered endp opts (inputs ++ [input]) =
      offered endp opts inputs ++ (normalized endp opts input.2).toList := by
  simp only [offered,filterMap_append,filterMap_cons,filterMap_nil]
  cases normalized endp opts input.2 <;> rfl

theorem rcptStarted_after {l : Lmtp} (hd : s.delivery = some dl) (hopts : s.opts = opts)
    (hacc : l.accepted.length ≤ s.rcpts.length) (hoff : s.rcpts = offered endp opts inputs)
    (hu : Under ops pipeline dl s.rcpts) :
    After ops pipeline endp opts (inputs ++ [input])
      (match rcptStarted endp (input.1.withPipeline ops pipeline) s input.2 with
        | (s,some _) => { l with session := s }
        | (s,none) => { session := s, accepted := l.accepted ++ [input.2] }) := by
  unfold rcptStarted
  rw [hd]
  dsimp only
  rcases addRcpt_cases endp (input.1.withPipeline ops pipeline) s dl input.2 with
    ⟨hnone,e,ha⟩ | ⟨cleanTo,hsome,ha⟩
  · rw [hopts] at hnone
    rw [ha]
    refine ⟨hopts,hacc,fun h => by simp [hd] at h,?_⟩
    intro dl' h'
    cases hd.symm.trans h'
    rw [offered_append,hnone]
    exact ⟨by simpa using hoff,hu⟩
  · rw [hopts] at hsome
    rw [ha]
    have hunder : ∀ dl', some { dl with
          envelope := { dl.envelope with rcpts := dl.envelope.rcpts ++ [cleanTo] } } = some dl' →
        s.rcpts ++ [cleanTo] = offered endp opts (inputs ++ [input]) ∧
          Under ops pipeline dl' (s.rcpts ++ [cleanTo]) := by
      intro dl' h'
      cases h'
      rw [offered_append,hsome,← hoff]
      exact ⟨rfl,by rw [← hu.rcpts],hu.started⟩
    cases (input.1.withPipeline ops pipeline).addRcpt dl.envelope cleanTo with
    | some e =>
      refine ⟨hopts,?_,nofun,hunder⟩
      simp only [Option.map_some,length_append,length_cons,length_nil]
      omega
    | none =>
      refine ⟨hopts,?_,nofun,hunder⟩
      simp only [Option.map_none,length_append,length_cons,length_nil]
      omega

theorem rcpt_after (h : After ops pipeline endp opts inputs l) :
    After ops pipeline endp opts (inputs ++ [input]) (l.rcpt ops pipeline endp input) := by
  unfold Lmtp.rcpt Smtp.rcpt
  cases hd : l.session.delivery with
  | some dl =>
    obtain ⟨hoff,hu⟩ := h.under dl hd
    exact rcptStarted_after hd h.sameOpts h.accepted hoff hu
  | none =>
    obtain ⟨hrcpts,hstart⟩ := h.idle hd
    cases he : l.session.deliveryErr with
    | some e =>
      refine ⟨h.sameOpts,h.accepted,fun _ => ⟨hrcpts,.inr (by simp [he])⟩,?_⟩
      intro dl hdl
      simp [hd] at hdl
    | none =>
      have hinputs : inputs = [] := hstart.resolve_right (fun hne => hne he)
      subst inputs
      rcases startDelivery_cases endp (input.1.withPipeline ops pipeline) l.session
          l.session.mailFrom l.session.opts with
        ⟨events,e,hs⟩ | ⟨events,dl,hempty,hok,hs⟩
      · rw [hs]
        refine ⟨h.sameOpts,h.accepted,fun _ => ⟨hrcpts,.inr nofun⟩,?_⟩
        intro dl hdl
        cases hd.symm.trans hdl
      · rw [hs]
        exact rcptStarted_after rfl h.sameOpts h.accepted hrcpts ⟨hempty.trans hrcpts.symm,hok⟩

theorem mail_after {env : Env} (hd : s.delivery = none) (hr : s.rcpts = [])
    (hm : mail endp (env.withPipeline ops pipeline) s sender opts = (s',none)) :
    After ops pipeline endp opts [] { session := s' } := by
  unfold mail at hm
  split at hm
  · cases hm
  · split at hm
    · cases hm
      exact ⟨rfl,by simp,fun _ => ⟨hr,.inl rfl⟩,fun dl h => by simp [hd] at h⟩
    · rcases startDelivery_cases endp (env.withPipeline ops pipeline) s sender opts with
        ⟨events,e,hs⟩ | ⟨events,dl,hempty,hok,hs⟩
      · rw [hs] at hm
        cases hm
      · rw [hs] at hm
        cases hm
        refine ⟨rfl,by simp,fun h => by simp at h,?_⟩
        intro dl' h'
        cases h'
        exact ⟨hr,hempty.trans hr.symm,hok⟩

theorem run_after (h : After ops pipeline endp opts done l) (inputs : List (Env × String)) :
    After ops pipeline endp opts (done ++ inputs) (inputs.foldl (Lmtp.rcpt ops pipeline endp) l) := by
  induction inputs generalizing l done with
  | nil => simpa using h
  | cons input inputs ih => simpa using ih (rcpt_after h)

theorem under_transaction (h : Under ops pipeline dl rcpts) :
    ∃ tx, dl.envelope.transaction ops pipeline = some tx := by
  have hs := h.started
  unfold Envelope.transaction transaction
  rcases hx : Msgpipeline.Delivery.start (δ := δ) pipeline dl.envelope.msgMeta
    dl.envelope.mailFrom with ⟨dd,_ | e⟩
  · exact ⟨_,rfl⟩
  · rw [hx] at hs
    cases hs

end Rcpt

theorem data_recipients (hl : endp.lmtp = true) :
    ((data endp (env.withBody ops tx) s dl).2.recipients : Multiset String) =
      match prepareBody endp env dl.envelope.msgMeta with
      | .error _ => 0
      | .ok (msgMeta,header,body) =>
        match pgpGate env header body with
        | .error _ => 0
        | .ok false => s.rcpts
        | .ok true =>
          match checkRoutingLoops endp header with
          | some _ => 0
          | none =>
            reported (tx.dd.bodyNonAtomic ops (sharedMeta (tlsOverride header msgMeta) tx) header
              body).statuses := by
  have hprep : prepareBody endp (env.withBody ops tx) dl.envelope.msgMeta =
      prepareBody endp env dl.envelope.msgMeta := rfl
  have hgate : pgpGate (env.withBody ops tx) = pgpGate env := rfl
  unfold data
  rw [hprep]
  rcases prepareBody endp env dl.envelope.msgMeta with e | ⟨msgMeta,header,body⟩
  · rfl
  · simp only [hl,↓reduceIte,deliverBodyLMTP,hgate]
    cases pgpGate env header body with
    | error e => rfl
    | ok pass =>
      cases pass with
      | false => simp [Reply.recipients,Function.comp_def]
      | true =>
        cases checkRoutingLoops endp header with
        | some e => rfl
        | none => simp [Reply.recipients,Env.withBody,reported,Function.comp_def]

/-- A message that the PGP gate refuses needs the addresses given to the pipeline
to be, up to their order, the accepted ones; one that goes to the pipeline needs
a slot for every status that may be set there. -/
def RepliesOK (endp : Endpoint) (env : Env) (dl : Delivery) (rcpts accepted : List String)
    (waits : MsgMetadata → Header → String → Multiset String) : Prop :=
  ∀ msgMeta header body, prepareBody endp env dl.envelope.msgMeta = .ok (msgMeta,header,body) →
    (pgpGate env header body = .ok false → rcpts.Perm accepted) ∧
    (pgpGate env header body = .ok true → checkRoutingLoops endp header = none →
      waits (tlsOverride header msgMeta) header body ≤ accepted)

theorem perm_iff_le {rcpts accepted : List String} (h : accepted.length ≤ rcpts.length) :
    (rcpts : Multiset String) ≤ accepted ↔ rcpts.Perm accepted := by
  rw [Multiset.coe_le]
  exact ⟨fun hsub => hsub.perm_of_length_le h,fun hperm => hperm.subperm⟩

/-- However the body of an LMTP transaction is judged and however the targets
answer, every status is for a recipient that was accepted and not yet reported,
if and only if the condition holds for the body. -/
theorem lmtp_replies_iff {τ δ : Type} (final : Msgpipeline.Targets τ δ) (k : Accepts final)
    (n : Nat) (pipeline : Msgpipeline.Pipeline (Msgpipeline.Tgt τ n)) (endp : Endpoint)
    (hl : endp.lmtp = true) (s s' : Session) (hd : s.delivery = none) (hr : s.rcpts = [])
    (env₀ : Env) (sender : String) (opts : MailOptions)
    (hmail : mail endp (env₀.withPipeline (Msgpipeline.nested final n) pipeline) s sender opts =
      (s',none))
    (inputs : List (Env × String)) (l : Lmtp)
    (hrun : inputs.foldl (Lmtp.rcpt (Msgpipeline.nested final n) pipeline endp)
      { session := s' } = l)
    (dl : Delivery) (hdl : l.session.delivery = some dl) (env : Env) :
    ∃ tx, dl.envelope.transaction (Msgpipeline.nested final n) pipeline = some tx ∧
      ((∀ a : Answers δ, a.Valid k →
          Collected l.accepted (data endp
            (env.withBody (Msgpipeline.nested (answering final a) n) tx) l.session
            dl).2.recipients) ↔
        RepliesOK endp env dl (offered endp opts inputs) l.accepted
          (fun msgMeta => waitingIn k n tx.dd (sharedMeta msgMeta tx))) := by
  have hafter := run_after (mail_after hd hr hmail) inputs
  rw [hrun,nil_append] at hafter
  obtain ⟨hoff,hu⟩ := hafter.under dl hdl
  obtain ⟨tx,htx⟩ := under_transaction hu
  refine ⟨tx,htx,?_⟩
  have hlen := hafter.accepted
  rw [hoff] at hlen
  simp only [collected_iff,data_recipients hl,hoff]
  constructor
  · intro h msgMeta header body hp
    have hworst := h k.failing failing_valid
    rw [hp] at hworst
    refine ⟨fun hg => ?_,fun hg hloop => ?_⟩
    · simp only [hg] at hworst
      exact (perm_iff_le hlen).mp hworst
    · simp only [hg,hloop] at hworst
      rw [reported_failing k htx] at hworst
      exact hworst
  · intro h a ha
    rcases hp : prepareBody endp env dl.envelope.msgMeta with e | ⟨msgMeta,header,body⟩
    · exact Multiset.zero_le _
    · obtain ⟨hgate,hpass⟩ := h msgMeta header body hp
      dsimp only
      rcases hg : pgpGate env header body with e | pass
      · exact Multiset.zero_le _
      · cases pass with
        | false => exact (perm_iff_le hlen).mpr (hgate hg)
        | true =>
          cases hloop : checkRoutingLoops endp header with
          | some e => exact Multiset.zero_le _
          | none => exact (reported_le ha htx _ header body).trans (hpass hg hloop)

section Runs

def lmtpPlain : Endpoint := { Endpoint.plain with lmtp := true }

def afterMail : Session :=
  { connState := ⟨"mx.example.org",none,""⟩, mailFrom := "eve@example.org" }

/-- Everything that RCPT was answered positively for is reported once. -/
theorem replies_to_accepted :
    let l := [(Env.accepting "m1","ann@example.org"),(Env.accepting "m1","bob@example.org")].foldl
      (Lmtp.rcpt mailboxes Msgpipeline.Pipeline.plain lmtpPlain) { session := afterMail }
    l.accepted = ["ann@example.org","bob@example.org"] ∧
    ∃ dl tx, l.session.delivery = some dl ∧
      dl.envelope.transaction mailboxes Msgpipeline.Pipeline.plain = some tx ∧
      ∀ a : Answers (List String), a.Valid mailboxesAccept →
        Collected l.accepted (data lmtpPlain
          ((Env.accepting "m1").withBody (answering mailboxes a) tx) l.session dl).2.recipients := by
  refine ⟨by decide +kernel,?_⟩
  obtain ⟨tx,htx,hiff⟩ := lmtp_replies_iff mailboxes mailboxesAccept 0 Msgpipeline.Pipeline.plain
    lmtpPlain rfl { connState := ⟨"mx.example.org",none,""⟩ } afterMail rfl rfl (Env.accepting "m1")
    "eve@example.org" {} rfl
    [(Env.accepting "m1","ann@example.org"),(Env.accepting "m1","bob@example.org")] _ rfl _ rfl
    (Env.accepting "m1")
  refine ⟨_,tx,rfl,htx,hiff.mpr ?_⟩
  cases htx
  intro msgMeta header body hp
  cases hp
  refine ⟨nofun,fun _ _ => ?_⟩
  decide +kernel

def closedMailbox : Msgpipeline.Pipeline Unit :=
  { Msgpipeline.Pipeline.plain with
    defaultSource := { perRcpt := fun rcpt => if rcpt = "bob@example.org" then some 1 else none }
    blocks := fun block =>
      if block = 1 then { rejectErr := some (.leaf "mailbox is closed" none) }
      else { targets := [0] } }

/-- A recipient that was refused gets a status when the body is not encrypted. -/
theorem refused_rcpt_reported :
    ¬ ∀ (final : Msgpipeline.Targets Unit (List String)) (k : Accepts final) (n : Nat)
      (pipeline : Msgpipeline.Pipeline (Msgpipeline.Tgt Unit n)) (endp : Endpoint),
      endp.lmtp = true → ∀ (s s' : Session), s.delivery = none → s.rcpts = [] →
      ∀ (env₀ : Env) (sender : String) (opts : MailOptions),
      mail endp (env₀.withPipeline (Msgpipeline.nested final n) pipeline) s sender opts =
        (s',none) →
      ∀ (inputs : List (Env × String)) (l : Lmtp),
      inputs.foldl (Lmtp.rcpt (Msgpipeline.nested final n) pipeline endp) { session := s' } = l →
      ∀ dl, l.session.delivery = some dl →
      ∀ tx, dl.envelope.transaction (Msgpipeline.nested final n) pipeline = some tx →
      ∀ (env : Env) (a : Answers (List String)), a.Valid k →
        Collected l.accepted (data endp
          (env.withBody (Msgpipeline.nested (answering final a) n) tx) l.session
          dl).2.recipients := by
  intro h
  have hpanic := h mailboxes mailboxesAccept 0 closedMailbox lmtpPlain rfl
    { connState := ⟨"mx.example.org",none,""⟩ } afterMail rfl rfl (Env.accepting "m1")
    "eve@example.org" {} rfl
    [(Env.accepting "m1","ann@example.org"),(Env.accepting "m1","bob@example.org")] _ rfl _ rfl
    _ rfl { Env.accepting "m1" with isAcceptedMessage := fun _ _ => .ok false } _
    failing_valid
  exact absurd hpanic (by unfold Collected; decide +kernel)

end Runs

end Madmail.Proofs.LmtpReplies
