import Madmail.Endpoint.Session
import Madmail.Lib.Ledger
import Madmail.Lib.Runs

namespace Madmail.Proofs.SessionDeliveries
open Lib Exterrors Madmail.Module Smtp

def terminalCalls (s : Session) (num : Nat) : Nat :=
  s.events.count (.abort num) + s.events.count (.commit num)

/-- Every delivery that was started had one terminal call, but for the one the
session still refers to, which had none. -/
def FinishedOnce (s : Session) : Prop :=
  ∀ num < s.started, terminalCalls s num = if s.delivery.map Delivery.num = some num then 0 else 1

/-- The sender is well-formed, the limits admit it, and the pipeline takes it. -/
def Starts (endp : Endpoint) (env : Env) (conn : ConnState) (sender : String)
    (opts : MailOptions) : Prop :=
  ∃ msgID cleanFrom domain,
    checkSender endp env sender opts = .ok (msgID,cleanFrom,domain) ∧
      env.takeMsg (limitIP conn) domain = none ∧
      env.start { id := msgID, originalFrom := sender, smtpOpts := opts, conn := some conn }
        cleanFrom = none

/-- The buffered message passes the PGP gate, the limit on `Received` fields
and, over SMTP, the `Body` of its delivery. -/
def Passes (endp : Endpoint) (env : Env) (envelope : Envelope) (header : Header)
    (body : String) : Prop :=
  pgpGate env header body = .ok true ∧ checkRoutingLoops endp header = none ∧
    (endp.lmtp = true ∨
      env.body { envelope with msgMeta := tlsOverride header envelope.msgMeta } header body = none)

/-- What a command needs so that no delivery is lost: MAIL starts none while
one is open, and a message body that was read passes. -/
def FinishOK (endp : Endpoint) (c : Conn) (input : Env × Command) : Prop :=
  match input.2 with
  | .mail sender opts =>
    c.closed = true ∨ c.session.delivery = none ∨ endp.deferServerReject = true ∨
      (endp.authAlwaysRequired = true ∧ c.session.connState.authUser = "") ∨
      ¬ Starts endp input.1 c.session.connState sender opts
  | .data =>
    c.closed = true ∨ c.fromReceived = false ∨ c.recipients = 0 ∨
      ∀ d, c.session.delivery = some d → ∀ msgMeta header body,
        prepareBody endp input.1 d.envelope.msgMeta = .ok (msgMeta,header,body) →
        Passes endp input.1 { d.envelope with msgMeta := msgMeta } header body
  | .auth _ | .rcpt _ | .rset | .quit => True

def senderDomain (addr : String) : Option String :=
  if addr = "" then some ""
  else
    match Address.split addr with
    | .error _ => none
    | .ok (_,domain) => some domain

/-- The sender that the session has noted has the domain of the one that the
open delivery was started with. -/
def SameDomain (s : Session) : Prop :=
  ∀ d, s.delivery = some d → senderDomain s.mailFrom = senderDomain d.envelope.mailFrom

/-- What a command needs so that permits come back as they were taken: MAIL
starts no delivery while one is open, and a command that ends one finds a sender
of the same domain. -/
def LimitsOK (endp : Endpoint) (c : Conn) (input : Env × Command) : Prop :=
  match input.2 with
  | .mail _ _ => FinishOK endp c input
  | .data => c.closed = true ∨ c.fromReceived = false ∨ c.recipients = 0 ∨ SameDomain c.session
  | .rset | .quit => c.closed = true ∨ SameDomain c.session
  | .auth _ | .rcpt _ => True

/-- The sessions agree on what deliveries and permits are counted by. -/
structure Alike (s t : Session) : Prop where
  started : t.started = s.started
  events : t.events = s.events
  ip : limitIP t.connState = limitIP s.connState
  delivery : t.delivery.map (fun d => (d.num,d.envelope.mailFrom)) =
    s.delivery.map (fun d => (d.num,d.envelope.mailFrom))

theorem Alike.refl : Alike s s := ⟨rfl,rfl,rfl,rfl⟩

variable (finish limits : Prop) (s : Session) in
/-- What a command does to a session, and whether it loses no delivery and gives the permit
back as it was taken. -/
inductive Moves : Session → Prop where
  | kept (h : Alike s t) (hok : finish ∧ limits) : Moves t
  | passed (domain : String)
      (h : Alike ((s.note (.takeMsg (limitIP s.connState) domain)).note
        (.releaseMsg (limitIP s.connState) domain)) t)
      (hok : finish ∧ limits) : Moves t
  | started (d : Delivery) (domain : String) (hnum : d.num = s.started)
      (hdomain : senderDomain d.envelope.mailFrom = some domain)
      (h : Alike
        { s.note (.takeMsg (limitIP s.connState) domain) with
          delivery := some d
          started := s.started + 1 } t)
      (hok : (finish ↔ s.delivery = none) ∧ (limits ↔ s.delivery = none)) :
      Moves t
  | reset (hfinish : finish) (hlimits : limits ↔ SameDomain s) :
      Moves (Smtp.reset s)
  | ended (d : Delivery) (committed : Bool) (hd : s.delivery = some d)
      (hfinish : finish ↔ committed = true) (hlimits : limits ↔ SameDomain s) :
      Moves
        (cleanSession (if committed then s.note (.commit d.num) else s))

theorem checkSender_domain (h : checkSender endp env sender opts = .ok (msgID,cleanFrom,domain)) :
    senderDomain cleanFrom = some domain := by
  unfold checkSender at h
  repeat' split at h
  all_goals cases h
  · rfl
  · rename_i hne hsplit
    simp [senderDomain,hne,hsplit]

/-- A call of `startDelivery` is refused, with the permit returned at once if it was taken, or
it starts the delivery. -/
theorem startDelivery_spec (endp : Endpoint) (env : Env) (s : Session) (sender : String)
    (opts : MailOptions) :
    (¬ Starts endp env s.connState sender opts ∧ ∃ t e,
      startDelivery endp env s sender opts = (t,some e) ∧
      ∀ t', Alike t t' → Moves True True s t') ∨
    Starts endp env s.connState sender opts ∧ ∃ t,
      startDelivery endp env s sender opts = (t,none) ∧
      ∀ t', Alike t t' → Moves (s.delivery = none) (s.delivery = none) s t' := by
  unfold Starts
  fun_cases startDelivery endp env s sender opts
  case case1 e hc =>
    exact .inl ⟨by simp [hc],_,_,rfl,fun t' h => .kept h ⟨trivial,trivial⟩⟩
  case case2 hc _ _ ht =>
    refine .inl ⟨?_,_,_,rfl,fun t' h => .kept h ⟨trivial,trivial⟩⟩
    rintro ⟨_,_,_,hc',ht',_⟩
    cases hc.symm.trans hc'
    cases ht.symm.trans ht'
  case case3 hc _ _ ht _ hs =>
    refine .inl ⟨?_,_,_,rfl,fun t' h => .passed _ h ⟨trivial,trivial⟩⟩
    rintro ⟨_,_,_,hc',_,hs'⟩
    cases hc.symm.trans hc'
    cases hs.symm.trans hs'
  case case4 msgID cleanFrom domain hc msgMeta _ ht hs =>
    exact .inr ⟨⟨msgID,cleanFrom,domain,hc,ht,hs⟩,_,rfl,
      fun t' h => .started ⟨s.started,msgMeta,cleanFrom,[]⟩ domain rfl (checkSender_domain hc)
        ⟨h.started,h.events,h.ip,h.delivery⟩ ⟨Iff.rfl,Iff.rfl⟩⟩

theorem alike_rcptStarted : Alike s (rcptStarted endp env s rcptTo).1 := by
  unfold rcptStarted
  cases hd : s.delivery with
  | none => exact .refl
  | some d =>
    simp only [addRcpt]
    split
    · exact .refl
    · split
      · exact .refl
      · exact ⟨rfl,rfl,rfl,by simp [hd]⟩

theorem rcpt_moves : Moves True True s (rcpt endp env s rcptTo).1 := by
  unfold rcpt
  cases hd : s.delivery with
  | some d => exact .kept alike_rcptStarted ⟨trivial,trivial⟩
  | none =>
    cases he : s.deliveryErr with
    | some e => exact .kept .refl ⟨trivial,trivial⟩
    | none =>
      rcases startDelivery_spec endp env s s.mailFrom s.opts with
        ⟨_,t,e,heq,hmoves⟩ | ⟨_,t,heq,hmoves⟩ <;> rw [heq]
      · exact hmoves _ ⟨rfl,rfl,rfl,rfl⟩
      · simp only [hd] at hmoves
        simpa using hmoves _ alike_rcptStarted

theorem mail_moves {ok : Prop}
    (hok : ok ↔ s.delivery = none ∨ endp.deferServerReject = true ∨
      (endp.authAlwaysRequired = true ∧ s.connState.authUser = "") ∨
      ¬ Starts endp env s.connState sender opts) :
    Moves ok ok s (mail endp env s sender opts).1 := by
  unfold mail
  by_cases ha : endp.authAlwaysRequired = true ∧ s.connState.authUser = ""
  · rw [if_pos ha]
    exact .kept .refl (and_self_iff.mpr (hok.mpr (.inr (.inr (.inl ha)))))
  rw [if_neg ha]
  by_cases hdefer : endp.deferServerReject = true
  · rw [if_pos hdefer]
    exact .kept ⟨rfl,rfl,rfl,rfl⟩ (and_self_iff.mpr (hok.mpr (.inr (.inl hdefer))))
  rw [if_neg hdefer]
  rcases startDelivery_spec endp env s sender opts with
    ⟨hno,t,e,heq,hmoves⟩ | ⟨hstarts,t,heq,hmoves⟩ <;> rw [heq]
  · rw [eq_true (hok.mpr (.inr (.inr (.inr hno))))]
    exact hmoves _ .refl
  · have hopen : ok = (s.delivery = none) := propext (hok.trans (by simp [ha,hdefer,hstarts]))
    rw [hopen]
    exact hmoves _ ⟨rfl,rfl,rfl,rfl⟩

def ledger (s : Session) : Ledger := ⟨s.started,s.delivery.map Delivery.num,terminalCalls s⟩

theorem ledger_congr (h : Alike s t) : ledger t = ledger s := by
  have hnum (u : Session) : u.delivery.map Delivery.num =
      (u.delivery.map (fun d => (d.num,d.envelope.mailFrom))).map Prod.fst := by simp [Function.comp_def]
  simp [ledger,h.started,hnum,h.delivery,funext_iff,terminalCalls,h.events]

@[simp]
theorem ledger_note_takeMsg : ledger (s.note (.takeMsg ip domain)) = ledger s := by
  simp [ledger,terminalCalls,Session.note,funext_iff]

@[simp]
theorem ledger_note_releaseMsg : ledger (s.note (.releaseMsg ip domain)) = ledger s := by
  simp [ledger,terminalCalls,Session.note,funext_iff]

theorem ledger_releaseLimits (s : Session) : ledger (releaseLimits s) = ledger s := by
  unfold releaseLimits
  split
  · exact ledger_note_releaseMsg
  · split
    · rfl
    · exact ledger_note_releaseMsg

theorem ledger_cleanSession (s : Session) :
    ledger (cleanSession s) = (ledger s).apply .drop := by
  have h := ledger_releaseLimits s
  simp only [ledger,Ledger.mk.injEq] at h
  obtain ⟨hstarted,_,hcalls⟩ := h
  simp only [ledger,cleanSession,Ledger.apply,Option.map_none,Ledger.mk.injEq,true_and]
  exact ⟨hstarted,hcalls⟩

theorem ledger_finish (hd : s.delivery = some d) (he : e = .abort d.num ∨ e = .commit d.num) :
    ledger (cleanSession (s.note e)) = (ledger s).apply .close := by
  rw [ledger_cleanSession]
  ext1
  · simp [Ledger.apply,ledger,Session.note,hd]
  · simp [Ledger.apply,ledger,hd]
  · funext num
    by_cases hn : num = d.num
    · subst hn
      rcases he with rfl | rfl <;>
        simp [Ledger.apply,ledger,terminalCalls,Session.note,hd] <;> omega
    · rcases he with rfl | rfl <;>
        simp [Ledger.apply,ledger,terminalCalls,Session.note,hd,hn,Ne.symm hn]

theorem ledger_reset (s : Session) : ledger (reset s) = (ledger s).apply .close := by
  unfold reset
  cases hd : s.delivery with
  | none => simp [Ledger.apply,ledger,hd]
  | some d => exact ledger_finish hd (.inl rfl)

theorem deliverBody_committed (endp : Endpoint) (env : Env) (rcpts : List String)
    (envelope : Envelope) (header : Header) (body : String) :
    (if endp.lmtp then deliverBodyLMTP endp env rcpts envelope header body
      else deliverBody endp env envelope header body).committed = true ↔
      Passes endp env envelope header body := by
  unfold deliverBodyLMTP deliverBody Passes
  cases endp.lmtp <;>
  · cases hg : pgpGate env header body with
    | error e => simp
    | ok accepted =>
      cases accepted with
      | false => simp
      | true =>
        cases hl : checkRoutingLoops endp header with
        | some e => simp
        | none =>
          cases hb : env.body { envelope with msgMeta := tlsOverride header envelope.msgMeta }
            header body <;> simp [hb]

theorem mail_session (endp : Endpoint) (c : Conn) (env : Env) (sender : String)
    (opts : MailOptions) :
    (c.command endp env (.mail sender opts)).1.session = (mail endp env c.session sender opts).1 := by
  simp only [Conn.command]
  split <;> rename_i h <;> rw [h]

theorem rcpt_session {c : Conn} (endp : Endpoint) (env : Env) (rcptTo : String) (hf : c.fromReceived = true) :
    (c.command endp env (.rcpt rcptTo)).1.session = (rcpt endp env c.session rcptTo).1 := by
  simp only [Conn.command,hf,Bool.not_true,Bool.false_eq_true,↓reduceIte]
  split <;> rename_i h <;> rw [h]

theorem data_moves (endp : Endpoint) (env : Env) (hd : s.delivery = some d) :
    Moves (∀ msgMeta header body, prepareBody endp env d.envelope.msgMeta = .ok (msgMeta,header,body) →
        Passes endp env { d.envelope with msgMeta := msgMeta } header body)
      (SameDomain s) s (reset (data endp env s d).1) := by
  unfold data
  cases hp : prepareBody endp env d.envelope.msgMeta with
  | error e => exact .reset nofun Iff.rfl
  | ok prepared =>
    obtain ⟨msgMeta,header,body⟩ := prepared
    refine .ended d _ hd ?_ Iff.rfl
    rw [deliverBody_committed]
    simp

/-- What a command does to the deliveries and the permits of the session. -/
theorem step_moves (endp : Endpoint) (c : Conn) (input : Env × Command) :
    Moves (FinishOK endp c input) (LimitsOK endp c input) c.session
      (c.step endp input).session := by
  obtain ⟨env,cmd⟩ := input
  unfold Conn.step Conn.handle
  by_cases hcl : c.closed = true
  · rw [if_pos hcl]
    exact .kept .refl (by cases cmd <;> simp [FinishOK,LimitsOK,hcl])
  rw [if_neg hcl]
  cases cmd with
  | auth result =>
    refine .kept ?_ ⟨trivial,trivial⟩
    simp only [Conn.command]
    split
    · exact .refl
    · split
      · exact .refl
      · exact ⟨rfl,rfl,rfl,by simp [authenticate,Function.comp_def]⟩
  | mail sender opts =>
    rw [mail_session]
    exact mail_moves (by simp [FinishOK,hcl])
  | rcpt rcptTo =>
    by_cases hf : c.fromReceived = true
    · rw [rcpt_session endp env rcptTo hf]
      exact rcpt_moves
    · have hsame : (c.command endp env (.rcpt rcptTo)).1 = c := by simp [Conn.command,hf]
      rw [hsame]
      exact .kept .refl ⟨trivial,trivial⟩
  | data =>
    by_cases hr : c.fromReceived = false ∨ c.recipients = 0
    · have hsame : (c.command endp env .data).1 = c := by simp [Conn.command,hr]
      rw [hsame]
      exact .kept .refl (by rcases hr with h | h <;> simp [FinishOK,LimitsOK,h])
    · rw [not_or] at hr
      cases hd : c.session.delivery with
      | none =>
        have hsame : (c.command endp env .data).1 = c := by simp [Conn.command,hr,hd]
        rw [hsame]
        exact .kept .refl (by simp [FinishOK,LimitsOK,SameDomain,hd])
      | some d =>
        simpa [Conn.command,Conn.reset,FinishOK,LimitsOK,hcl,hr,hd] using data_moves endp env hd
  | rset | quit => exact .reset trivial (by simp [LimitsOK,hcl])

theorem Moves.ledger_effect (h : Moves finish limits s t) :
    ∃ e, ledger t = (ledger s).apply e ∧ ((ledger s).Lawful e ↔ finish) := by
  cases h with
  | kept h hok => exact ⟨.keep,ledger_congr h,iff_of_true trivial hok.1⟩
  | passed domain h hok =>
    exact ⟨.keep,(ledger_congr h).trans (by simp [Ledger.apply]),iff_of_true trivial hok.1⟩
  | started d domain hnum hdomain h hok =>
    refine ⟨.acquire,(ledger_congr h).trans ?_,by simp [Ledger.Lawful,ledger,hok.1]⟩
    rw [← @ledger_note_takeMsg s (limitIP s.connState) domain]
    simp [ledger,Ledger.apply,hnum,Session.note]
    rfl
  | reset hfinish hlimits => exact ⟨.close,ledger_reset s,iff_of_true trivial hfinish⟩
  | ended d committed hd hfinish hlimits =>
    cases committed with
    | true => exact ⟨.close,ledger_finish hd (.inr rfl),iff_of_true trivial (hfinish.mpr rfl)⟩
    | false =>
      exact ⟨.drop,ledger_cleanSession s,by simp [Ledger.Lawful,ledger,hd,hfinish]⟩

theorem valid_open (conn : ConnState) : (ledger (Conn.open conn).session).Valid :=
  ⟨fun _ h => (nomatch h),fun _ _ => rfl⟩

/-- In a session from its first command on, every delivery that was started is
finished by one call of `Commit` or `Abort` before the session drops it, exactly
if no MAIL starts a delivery while one is open, and no message that was read is
turned away by the PGP gate, as a loop, or by the `Body` of its delivery. -/
theorem finished_once_iff (endp : Endpoint) (conn : ConnState) (inputs : List (Env × Command)) :
    (∀ c ∈ visited (Conn.step endp) (Conn.open conn) inputs, FinishedOnce c.session) ↔
      Guarded (Conn.step endp) (FinishOK endp) (Conn.open conn) inputs := by
  apply visited_iff_guarded_of_inv (I := fun c => (ledger c.session).Valid)
  · intro c input hv
    obtain ⟨e,he,_⟩ := (step_moves endp c input).ledger_effect
    rw [he]
    exact hv.apply e
  · intro c input hv hc
    obtain ⟨e,he,hlaw⟩ := (step_moves endp c input).ledger_effect
    have hiff := Ledger.closedOnce_apply_iff hv hc e
    rw [← he,hlaw] at hiff
    exact hiff
  · exact valid_open conn
  · exact fun _ h => (nomatch h)

/-- No order of commands makes the session finish a delivery twice, or one that it still
refers to. -/
theorem finished_at_most_once (endp : Endpoint) (conn : ConnState) (inputs : List (Env × Command))
    (num : Nat) :
    terminalCalls (inputs.foldl (Conn.step endp) (Conn.open conn)).session num ≤
      if (inputs.foldl (Conn.step endp) (Conn.open conn)).session.delivery.map Delivery.num =
        some num then 0 else 1 := by
  have h := List.foldlRecOn inputs (Conn.step endp)
    (motive := fun c => (ledger c.session).Valid ∧ (ledger c.session).AtMostOnce)
    ⟨valid_open conn,fun _ => Nat.zero_le _⟩ fun c hc input _ => by
      obtain ⟨e,he,_⟩ := (step_moves endp c input).ledger_effect
      rw [he]
      exact ⟨hc.1.apply e,hc.2.apply hc.1 e⟩
  exact h.2 num

def unencrypted : Env := { Env.accepting "m1" with isAcceptedMessage := fun _ _ => .ok false }

/-- A message the PGP gate rejects: the delivery is dropped without a call. -/
theorem rejected_delivery_dropped :
    ¬ ∀ (endp : Endpoint) (conn : ConnState) (inputs : List (Env × Command)),
      ∀ c ∈ visited (Conn.step endp) (Conn.open conn) inputs, FinishedOnce c.session := by
  intro h
  have hall := h .plain ⟨"mx.example.org",none,""⟩
    [(unencrypted,.mail "ann@example.org" {}),(unencrypted,.rcpt "bob@example.org"),
      (unencrypted,.data)]
  simp only [visited,List.forall_mem_cons] at hall
  obtain ⟨_,_,_,hlast,_⟩ := hall
  exact absurd (hlast 0 (by decide)) (by decide)

end Madmail.Proofs.SessionDeliveries
