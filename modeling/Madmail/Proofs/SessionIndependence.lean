import Madmail.Endpoint.Session

namespace Madmail.Proofs.SessionIndependence
open Exterrors Madmail.Module Smtp List

/-- The sessions differ at most in what a client cannot notice: the numbers of
their deliveries, the calls they made, and an old sender argument when `b` does
not hold. -/
structure Alike (b : Prop) (s t : Session) : Prop where
  conn : s.connState = t.connState
  deliveryErr : s.deliveryErr = t.deliveryErr
  rcpts : s.rcpts = t.rcpts
  envelope : s.delivery.map Delivery.envelope = t.delivery.map Delivery.envelope
  mailFrom : b → s.mailFrom = t.mailFrom
  opts : b → s.opts = t.opts

structure SameView (c d : Conn) : Prop where
  session : Alike (c.fromReceived = true) c.session d.session
  fromReceived : c.fromReceived = d.fromReceived
  recipients : c.recipients = d.recipients
  didAuth : c.didAuth = d.didAuth
  closed : c.closed = d.closed

theorem Alike.mono (h : Alike b s t) (hb : b' → b) : Alike b' s t :=
  ⟨h.conn,h.deliveryErr,h.rcpts,h.envelope,fun hb' => h.mailFrom (hb hb'),
    fun hb' => h.opts (hb hb')⟩

theorem alike_cleanSession (h : s.connState = t.connState) :
    Alike b (cleanSession s) (cleanSession t) := by
  have hconn : ∀ u : Session, (releaseLimits u).connState = u.connState := by
    intro u
    unfold releaseLimits
    split
    · rfl
    · split <;> rfl
  exact ⟨(hconn s).trans (h.trans (hconn t).symm),rfl,rfl,rfl,fun _ => rfl,fun _ => rfl⟩

theorem Alike.reset (h : Alike b s t) : Alike b (reset s) (reset t) := by
  have he := h.envelope
  unfold Smtp.reset
  cases hs : s.delivery <;> cases ht : t.delivery <;> simp only [hs,ht,Option.map] at he
  · exact h
  · cases he
  · cases he
  · exact alike_cleanSession h.conn

def Matched {σ ρ : Type} (R : σ → σ → Prop) (x y : σ × ρ) : Prop := x.2 = y.2 ∧ R x.1 y.1

theorem Matched.cases (h : Matched R x y) : ∃ s t r, x = (s,r) ∧ y = (t,r) ∧ R s t :=
  ⟨x.1,y.1,x.2,rfl,Prod.ext rfl h.1.symm,h.2⟩

section Calls
variable (endp : Endpoint) (env : Env)

theorem Alike.startDelivery (h : Alike b s t) (sender : String) (opts : MailOptions) :
    Matched (Alike b) (startDelivery endp env s sender opts) (startDelivery endp env t sender opts) := by
  unfold Smtp.startDelivery
  cases checkSender endp env sender opts with
  | error e => exact ⟨rfl,h⟩
  | ok sent =>
    obtain ⟨msgID,cleanFrom,domain⟩ := sent
    simp only [h.conn]
    cases env.takeMsg (limitIP t.connState) domain with
    | some e => exact ⟨rfl,h⟩
    | none =>
      simp only
      split
      · exact ⟨rfl,h.conn,h.deliveryErr,h.rcpts,h.envelope,h.mailFrom,h.opts⟩
      · exact ⟨rfl,h.conn,h.deliveryErr,h.rcpts,rfl,fun _ => rfl,h.opts⟩

theorem Alike.mail (h : Alike b s t) (sender : String) (opts : MailOptions) :
    Matched (Alike (b ∨ (mail endp env s sender opts).2 = none)) (mail endp env s sender opts)
      (mail endp env t sender opts) := by
  unfold Smtp.mail
  rw [h.conn]
  split
  · exact ⟨rfl,h.mono (by simp)⟩
  · split
    · exact ⟨rfl,h.conn,h.deliveryErr,h.rcpts,h.envelope,fun _ => rfl,fun _ => rfl⟩
    · obtain ⟨s',t',r,hs,ht,ha⟩ := (h.startDelivery endp env sender opts).cases
      rw [hs,ht]
      cases r with
      | some err => exact ⟨rfl,ha.mono (by simp)⟩
      | none => exact ⟨rfl,ha.conn,ha.deliveryErr,ha.rcpts,ha.envelope,fun _ => rfl,fun _ => rfl⟩

theorem Alike.rcptStarted (h : Alike True s t) (rcptTo : String) :
    Matched (Alike True) (rcptStarted endp env s rcptTo) (rcptStarted endp env t rcptTo) := by
  have he := h.envelope
  unfold Smtp.rcptStarted addRcpt
  cases hs : s.delivery <;> cases ht : t.delivery <;>
    simp only [hs,ht,Option.map,Option.some.injEq,reduceCtorEq] at he
  · exact ⟨rfl,h⟩
  · simp only [h.opts trivial,he,h.rcpts]
    split
    · exact ⟨by simp [h.opts trivial],h⟩
    · split
      · exact ⟨by simp [h.opts trivial],h⟩
      · exact ⟨rfl,h.conn,h.deliveryErr,rfl,rfl,h.mailFrom,fun _ => rfl⟩

theorem Alike.rcpt (h : Alike True s t) (rcptTo : String) :
    Matched (Alike True) (rcpt endp env s rcptTo) (rcpt endp env t rcptTo) := by
  have he := h.envelope
  unfold Smtp.rcpt
  cases hs : s.delivery <;> cases ht : t.delivery <;>
    simp only [hs,ht,Option.map,reduceCtorEq] at he
  · simp only [← h.deliveryErr,← h.mailFrom trivial,← h.opts trivial]
    cases s.deliveryErr with
    | some e => exact ⟨rfl,h⟩
    | none =>
      obtain ⟨s',t',r,hs,ht,ha⟩ := (h.startDelivery endp env s.mailFrom s.opts).cases
      rw [hs,ht]
      cases r with
      | some err =>
        have hopts : s'.opts = t'.opts := ha.opts trivial
        simp only [hopts]
        exact ⟨rfl,ha.conn,rfl,ha.rcpts,ha.envelope,ha.mailFrom,fun _ => rfl⟩
      | none => exact ha.rcptStarted endp env rcptTo
  · exact h.rcptStarted endp env rcptTo

theorem Alike.data (h : Alike True s t) (he : d.envelope = d'.envelope) :
    Matched (Alike True) (data endp env s d) (data endp env t d') := by
  unfold Smtp.data
  rw [he,h.opts trivial,h.rcpts]
  cases prepareBody endp env d'.envelope.msgMeta with
  | error e => exact ⟨rfl,h⟩
  | ok prepared =>
    have hnote : ∀ p : Bool, (if p then s.note (.commit d.num) else s).connState =
        (if p then t.note (.commit d'.num) else t).connState := by
      intro p
      cases p <;> exact h.conn
    exact ⟨rfl,alike_cleanSession (hnote _)⟩

theorem Alike.authenticate (h : Alike b s t) (identity : String) :
    Alike b (authenticate s identity) (authenticate t identity) := by
  refine ⟨by simp [Smtp.authenticate,h.conn],h.deliveryErr,h.rcpts,?_,h.mailFrom,h.opts⟩
  have he := h.envelope
  simp only [Smtp.authenticate,h.conn]
  cases hs : s.delivery <;> cases ht : t.delivery <;>
    simp only [hs,ht,Option.map,Option.some.injEq,reduceCtorEq] at he ⊢
  rw [he]

theorem SameView.reset (h : SameView c d) : SameView c.reset d.reset :=
  ⟨h.session.reset.mono nofun,rfl,rfl,h.didAuth,h.closed⟩

theorem SameView.mail (h : SameView c d) (sender : String) (opts : MailOptions) :
    Matched SameView (c.command endp env (.mail sender opts))
      (d.command endp env (.mail sender opts)) := by
  have hm := h.session.mail endp env sender opts
  obtain ⟨s,t,r,hc,hd,ha⟩ := hm.cases
  rw [hc] at ha
  simp only [Conn.command,hc,hd]
  cases r with
  | some e => exact ⟨rfl,ha.mono .inl,h.fromReceived,h.recipients,h.didAuth,h.closed⟩
  | none => exact ⟨rfl,ha.mono (fun _ => .inr rfl),rfl,h.recipients,h.didAuth,h.closed⟩

theorem SameView.rcpt (h : SameView c d) (rcptTo : String) :
    Matched SameView (c.command endp env (.rcpt rcptTo)) (d.command endp env (.rcpt rcptTo)) := by
  cases hf : c.fromReceived with
  | false =>
    simp only [Conn.command,← h.fromReceived,hf]
    exact ⟨rfl,h⟩
  | true =>
    -- The sender argument is read here, and after MAIL it is the same.
    have hm := (h.session.mono (fun _ => hf)).rcpt endp env rcptTo
    obtain ⟨s,t,r,hc,hd,ha⟩ := hm.cases
    simp only [Conn.command,← h.fromReceived,hf,hc,hd]
    cases r with
    | some e => exact ⟨rfl,ha.mono (fun _ => trivial),rfl,h.recipients,h.didAuth,h.closed⟩
    | none =>
      exact ⟨rfl,ha.mono (fun _ => trivial),rfl,congrArg (· + 1) h.recipients,h.didAuth,h.closed⟩

theorem SameView.data (h : SameView c d) :
    Matched SameView (c.command endp env .data) (d.command endp env .data) := by
  have he := h.session.envelope
  simp only [Conn.command,← h.fromReceived,← h.recipients]
  split
  · exact ⟨rfl,h⟩
  · rename_i hsent
    have hf : c.fromReceived = true := by simp_all
    cases hs : c.session.delivery <;> cases ht : d.session.delivery <;>
      simp only [hs,ht,Option.map,Option.some.injEq,reduceCtorEq] at he
    · exact ⟨rfl,h⟩
    · obtain ⟨hr,ha⟩ := (h.session.mono (fun _ => hf)).data endp env he
      exact ⟨hr,SameView.reset ⟨ha.mono (fun _ => trivial),rfl,rfl,h.didAuth,h.closed⟩⟩

theorem SameView.command (h : SameView c d) (cmd : Command) :
    Matched SameView (c.command endp env cmd) (d.command endp env cmd) := by
  cases cmd with
  | auth result =>
    simp only [Conn.command,h.didAuth]
    split
    · exact ⟨rfl,h⟩
    · cases result with
      | error e => exact ⟨rfl,h⟩
      | ok identity =>
        exact ⟨rfl,h.session.authenticate identity,h.fromReceived,h.recipients,rfl,h.closed⟩
  | mail sender opts => exact h.mail endp env sender opts
  | rcpt rcptTo => exact h.rcpt endp env rcptTo
  | data => exact h.data endp env
  | rset => exact ⟨rfl,h.reset⟩
  | quit => exact ⟨rfl,h.session.reset,h.fromReceived,h.recipients,h.didAuth,rfl⟩

end Calls

theorem SameView.handle (h : SameView c d) (endp : Endpoint) (input : Env × Command) :
    (c.handle endp input).2 = (d.handle endp input).2 ∧
      SameView (c.step endp input) (d.step endp input) := by
  unfold Conn.step Conn.handle
  rw [h.closed]
  split
  · exact ⟨rfl,h⟩
  · exact h.command endp input.1 input.2

theorem SameView.replies (h : SameView c d) (endp : Endpoint) (inputs : List (Env × Command)) :
    c.replies endp inputs = d.replies endp inputs := by
  induction inputs generalizing c d with
  | nil => rfl
  | cons input rest ih =>
    obtain ⟨hr,hs⟩ := h.handle endp input
    simp only [Conn.replies,hr,ih hs]

structure Transaction where
  mailEnv : Env
  sender : String
  opts : MailOptions
  rcpts : List (Env × String)
  data : Option Env

def rcptInputs (rcpts : List (Env × String)) : List (Env × Command) :=
  rcpts.map (fun r => (r.1,.rcpt r.2))

def dataInput (data : Option Env) : List (Env × Command) :=
  data.toList.map (fun env => (env,.data))

def Transaction.inputs (tx : Transaction) : List (Env × Command) :=
  (tx.mailEnv,.mail tx.sender tx.opts) :: (rcptInputs tx.rcpts ++ dataInput tx.data)

def renewed (c : Conn) : Conn :=
  { session := { connState := c.session.connState }, didAuth := c.didAuth }

/-- The recipients are refused one by one with the error `e`. -/
def RcptsRefused (endp : Endpoint) (e : GoSmtpError) : Session → List (Env × String) → Prop
  | _, [] => True
  | s, (env,rcptTo) :: rest =>
    ∃ d err, s.delivery = some d ∧ (addRcpt endp env s d rcptTo).2 = some err ∧
      wrapErr d.envelope.msgMeta.id (!s.opts.utf8) err = e ∧
      RcptsRefused endp e (addRcpt endp env s d rcptTo).1 rest

/-- On its own, the transaction has no recipient, or its sender is refused with
the error `e`, or every recipient is. -/
def RefusedAlike (endp : Endpoint) (e : GoSmtpError) (conn : ConnState) (tx : Transaction) : Prop :=
  match tx.rcpts with
  | [] => True
  | (env,_) :: _ =>
    match startDelivery endp env { connState := conn, mailFrom := tx.sender, opts := tx.opts }
        tx.sender tx.opts with
    | (_,some (msgID,err)) => wrapErr msgID (!tx.opts.utf8) err = e
    | (s,none) => RcptsRefused endp e s tx.rcpts

/-- No error of an earlier sender is left, or it makes no difference to the
transaction: MAIL is not allowed anyway, or the same error comes up again. -/
def NoStaleError (endp : Endpoint) (c : Conn) (tx : Transaction) : Prop :=
  ∀ e, c.session.deliveryErr = some e →
    (endp.authAlwaysRequired = true ∧ c.session.connState.authUser = "") ∨
      RefusedAlike endp e c.session.connState tx

/-- Recipients are kept for a delivery only. -/
def Tidy (s : Session) : Prop := s.delivery = none → s.rcpts = []

theorem tidy_cleanSession : Tidy (cleanSession s) := fun _ => rfl

theorem tidy_reset (h : Tidy s) : Tidy (reset s) := by
  unfold reset
  split
  · exact h
  · exact tidy_cleanSession

section Tidy
variable (endp : Endpoint) (env : Env)

theorem tidy_startDelivery (h : Tidy s) (hst : startDelivery endp env s sender opts = (s',r)) :
    Tidy s' := by
  rcases startDelivery_cases endp env s sender opts with ⟨_,_,heq⟩ | ⟨_,_, -, -,heq⟩ <;>
    cases heq.symm.trans hst
  · exact h
  · exact nofun

theorem tidy_mail (h : Tidy s) (hm : mail endp env s sender opts = (s',r)) : Tidy s' := by
  revert hm
  fun_cases mail endp env s sender opts <;> intro hm <;> cases hm
  · exact h
  · exact h
  · exact tidy_startDelivery endp env h ‹_›
  · rename_i hst
    have ht := tidy_startDelivery endp env h hst
    exact ht

theorem tidy_rcptStarted (h : Tidy s) : Tidy (rcptStarted endp env s rcptTo).1 := by
  unfold rcptStarted
  split
  · exact h
  · simp only [addRcpt]
    split
    · exact h
    · split
      · exact h
      · exact nofun

theorem tidy_rcpt (h : Tidy s) (hr : rcpt endp env s rcptTo = (s',r)) : Tidy s' := by
  obtain rfl : (rcpt endp env s rcptTo).1 = s' := congrArg Prod.fst hr
  fun_cases rcpt endp env s rcptTo
  · exact tidy_rcptStarted endp env h
  · exact h
  · rename_i hst _
    have ht := tidy_startDelivery endp env h hst
    exact ht
  · exact tidy_rcptStarted endp env (tidy_startDelivery endp env h ‹_›)

theorem tidy_data (h : Tidy s) (hd : data endp env s d = (s',r)) : Tidy s' := by
  revert hd
  fun_cases data endp env s d <;> intro hd <;> cases hd
  · exact h
  · exact tidy_cleanSession

theorem tidy_command {c : Conn} (h : Tidy c.session) :
    Tidy (c.command endp env cmd).1.session := by
  fun_cases Conn.command endp c env cmd
  case case3 => exact fun hd => h (Option.map_eq_none_iff.mp hd)
  case case4 => exact tidy_mail endp env h ‹_›
  case case5 => exact tidy_mail endp env h ‹_›
  case case7 => exact tidy_rcpt endp env h ‹_›
  case case8 => exact tidy_rcpt endp env h ‹_›
  case case11 => exact tidy_reset (tidy_data endp env h ‹_›)
  case case12 => exact tidy_reset h
  case case13 => exact tidy_reset h
  all_goals exact h

theorem tidy_step (c : Conn) (input : Env × Command) (h : Tidy c.session) :
    Tidy (c.step endp input).session := by
  unfold Conn.step Conn.handle
  split
  · exact h
  · exact tidy_command endp input.1 h

end Tidy

theorem tidy_run (endp : Endpoint) (c : Conn) (inputs : List (Env × Command)) (h : Tidy c.session) :
    Tidy (inputs.foldl (Conn.step endp) c).session := by
  induction inputs generalizing c with
  | nil => exact h
  | cons input rest ih => exact ih _ (tidy_step endp c input h)

section Stale
variable {c : Conn} {endp : Endpoint}

theorem reset_sameView (ht : Tidy c.session) (hopen : c.closed = false)
    (he : c.reset.session.deliveryErr = none) : SameView c.reset (renewed c.reset) := by
  have hd : c.reset.session.delivery = none := reset_delivery c.session
  refine ⟨⟨rfl,he,tidy_reset ht hd,?_,?_,?_⟩,rfl,rfl,rfl,hopen⟩
  · rw [hd]
    rfl
  · exact nofun
  · exact nofun

theorem handle_rcpt_refused (hopen : c.closed = false) (hfrom : c.fromReceived = true)
    (hr : rcpt endp env c.session rcptTo = (s,some e)) :
    c.handle endp (env,.rcpt rcptTo) = ({ c with session := s },.answer (some e) []) := by
  simp [Conn.handle,Conn.command,hopen,hfrom,hr]

theorem handle_data_refused (hopen : c.closed = false)
    (hnone : c.fromReceived = false ∨ c.recipients = 0) :
    c.handle endp (env,.data) = (c,.refused) := by
  rcases hnone with hnone | hnone <;> simp [Conn.handle,Conn.command,hopen,hnone]

theorem replies_data (hdata : ∀ env, c.handle endp (env,.data) = (c,.refused)) {data : Option Env} :
    c.replies endp (dataInput data) = data.toList.map (fun _ => .refused) := by
  cases data with
  | none => rfl
  | some env => simp [dataInput,Conn.replies,hdata]

theorem steady_replies (hrcpt : ∀ env rcptTo, c.handle endp (env,.rcpt rcptTo) = (c,reply))
    (hdata : ∀ env, c.handle endp (env,.data) = (c,.refused))
    (rcpts : List (Env × String)) (data : Option Env) :
    c.replies endp (rcptInputs rcpts ++ dataInput data) =
      rcpts.map (fun _ => reply) ++ data.toList.map (fun _ => .refused) := by
  induction rcpts with
  | nil => exact replies_data hdata
  | cons r rest ih =>
    simp only [rcptInputs,map_cons,cons_append,Conn.replies,Conn.step,hrcpt] at ih ⊢
    rw [ih]

/-- As long as the error is kept, it answers every recipient, and no data is
taken. -/
theorem stale_replies (hopen : c.closed = false) (hfrom : c.fromReceived = true)
    (hnone : c.recipients = 0) (hd : c.session.delivery = none)
    (he : c.session.deliveryErr = some e) (rcpts : List (Env × String)) (data : Option Env) :
    c.replies endp (rcptInputs rcpts ++ dataInput data) =
      rcpts.map (fun _ => .answer (some e) []) ++ data.toList.map (fun _ => .refused) := by
  refine steady_replies (fun env rcptTo => ?_) (fun _ => handle_data_refused hopen (.inr hnone)) _ _
  exact handle_rcpt_refused hopen hfrom (by simp [rcpt,hd,he])

theorem refused_replies_iff (hopen : c.closed = false) (hfrom : c.fromReceived = true)
    (hnone : c.recipients = 0) {rcpts : List (Env × String)} {data : Option Env} :
    c.replies endp (rcptInputs rcpts ++ dataInput data) =
        rcpts.map (fun _ => .answer (some e) []) ++ data.toList.map (fun _ => .refused) ↔
      c.replies endp (rcptInputs rcpts) = rcpts.map (fun _ => .answer (some e) []) := by
  induction rcpts generalizing c with
  | nil =>
    exact iff_of_true (replies_data (fun _ => handle_data_refused hopen (.inr hnone))) rfl
  | cons r rest ih =>
    obtain ⟨env,rcptTo⟩ := r
    simp only [rcptInputs,map_cons,cons_append,Conn.replies,List.cons.injEq] at ih ⊢
    refine and_congr_right fun hreply => ?_
    cases hr : rcpt endp env c.session rcptTo with
    | mk s err =>
      cases err with
      | none => simp [Conn.handle,Conn.command,hopen,hfrom,hr] at hreply
      | some e' =>
        rw [Conn.step,handle_rcpt_refused hopen hfrom hr]
        exact ih hopen hfrom hnone

theorem not_received_replies (hopen : c.closed = false) (hfrom : c.fromReceived = false)
    (rcpts : List (Env × String)) (data : Option Env) :
    c.replies endp (rcptInputs rcpts ++ dataInput data) =
      rcpts.map (fun _ => .refused) ++ data.toList.map (fun _ => .refused) := by
  refine steady_replies (fun env rcptTo => ?_) (fun _ => handle_data_refused hopen (.inl hfrom)) _ _
  simp [Conn.handle,Conn.command,hopen,hfrom]

theorem addRcpt_frame (hd : s.delivery = some d) :
    (addRcpt endp env s d rcptTo).1.opts = s.opts ∧
      (addRcpt endp env s d rcptTo).1.delivery.isSome = true := by
  unfold addRcpt
  split
  · exact ⟨rfl,by simp [hd]⟩
  · split
    · exact ⟨rfl,by simp [hd]⟩
    · exact ⟨rfl,rfl⟩

theorem rcptStarted_eq (endp : Endpoint) (env : Env) (rcptTo : String) (hd : s.delivery = some d) :
    rcptStarted endp env s rcptTo = ((addRcpt endp env s d rcptTo).1,
      (addRcpt endp env s d rcptTo).2.map (wrapErr d.envelope.msgMeta.id (!s.opts.utf8))) := by
  simp [rcptStarted,hd,(addRcpt_frame hd).1]

theorem rcpt_eq (endp : Endpoint) (env : Env) (rcptTo : String)
    (hd : s.delivery.isSome = true) : rcpt endp env s rcptTo = rcptStarted endp env s rcptTo := by
  obtain ⟨d,hd⟩ := Option.isSome_iff_exists.mp hd
  simp [rcpt,hd]

theorem started_replies_iff (hopen : c.closed = false) (hfrom : c.fromReceived = true)
    (hd : c.session.delivery.isSome = true) :
    c.replies endp (rcptInputs rcpts) = rcpts.map (fun _ => .answer (some e) []) ↔
      RcptsRefused endp e c.session rcpts := by
  induction rcpts generalizing c with
  | nil => exact iff_of_true rfl trivial
  | cons r rest ih =>
    obtain ⟨env,rcptTo⟩ := r
    have hr := rcpt_eq endp env rcptTo hd
    obtain ⟨d,hd⟩ := Option.isSome_iff_exists.mp hd
    rw [rcptStarted_eq endp env rcptTo hd] at hr
    simp only [rcptInputs,map_cons,Conn.replies,List.cons.injEq,RcptsRefused,hd,
      Option.some.injEq] at ih ⊢
    cases ha : (addRcpt endp env c.session d rcptTo).2 with
    | none => simp [Conn.handle,Conn.command,hopen,hfrom,hr,ha]
    | some err =>
      rw [ha] at hr
      have hh := handle_rcpt_refused hopen hfrom hr
      have hrest := @ih { c with session := (addRcpt endp env c.session d rcptTo).1 } hopen hfrom
        (addRcpt_frame hd).2
      simp only [Conn.step,hh,hrest]
      constructor
      · rintro ⟨he,hall⟩
        cases he
        exact ⟨d,err,rfl,ha,rfl,hall⟩
      · rintro ⟨_,_,rfl,herr,rfl,hall⟩
        cases ha.symm.trans herr
        exact ⟨rfl,hall⟩

theorem startDelivery_started (hst : startDelivery endp env s sender opts = (t,none)) :
    t.delivery.isSome = true := by
  rcases startDelivery_cases endp env s sender opts with ⟨_,_,heq⟩ | ⟨_,_, -, -,heq⟩ <;>
    cases heq.symm.trans hst
  rfl

theorem startDelivery_refused (hst : startDelivery endp env s sender opts = (t,some r)) :
    t.delivery = s.delivery ∧ t.opts = s.opts := by
  rcases startDelivery_cases endp env s sender opts with ⟨_,_,heq⟩ | ⟨_,_, -, -,heq⟩ <;>
    cases heq.symm.trans hst
  exact ⟨rfl,rfl⟩

theorem sender_refused_replies (hopen : c.closed = false) (hfrom : c.fromReceived = true)
    (hnone : c.recipients = 0) (hd : c.session.delivery = none)
    (he : c.session.deliveryErr = none)
    (hst : startDelivery endp env c.session c.session.mailFrom c.session.opts =
      (t,some (msgID,err))) :
    c.replies endp (rcptInputs ((env,rcptTo) :: rest)) = ((env,rcptTo) :: rest).map
      (fun _ => .answer (some (wrapErr msgID (!c.session.opts.utf8) err)) []) := by
  obtain ⟨hdel,hopts⟩ := startDelivery_refused hst
  generalize hw : wrapErr msgID (!c.session.opts.utf8) err = w
  have hr : rcpt endp env c.session rcptTo = ({ t with deliveryErr := some w },some w) := by
    simp [rcpt,hd,he,hst,hopts,hw]
  have hrest := @stale_replies { c with session := { t with deliveryErr := some w } } endp w
    hopen hfrom hnone (hdel.trans hd) rfl rest none
  simp only [dataInput,Option.toList_none,map_nil,append_nil] at hrest
  rw [map_cons,← hrest]
  simp [rcptInputs,Conn.replies,Conn.step,handle_rcpt_refused hopen hfrom hr]

theorem sender_taken_replies (hopen : c.closed = false) (hfrom : c.fromReceived = true)
    (hd : c.session.delivery = none) (he : c.session.deliveryErr = none)
    (hst : startDelivery endp env c.session c.session.mailFrom c.session.opts = (t,none)) :
    c.replies endp (rcptInputs ((env,rcptTo) :: rest)) =
      ({ c with session := t }).replies endp (rcptInputs ((env,rcptTo) :: rest)) := by
  have hr : rcpt endp env c.session rcptTo = rcpt endp env t rcptTo := by
    rw [rcpt_eq endp env rcptTo (startDelivery_started hst)]
    simp [rcpt,hd,he,hst]
  simp [rcptInputs,Conn.replies,Conn.step,Conn.handle,Conn.command,hopen,hfrom,hr]

theorem fresh_replies_iff (hopen : c.closed = false) (hfrom : c.fromReceived = true)
    (hnone : c.recipients = 0)
    (hs : c.session = { connState := conn, mailFrom := tx.sender, opts := tx.opts }) :
    c.replies endp (rcptInputs tx.rcpts) = tx.rcpts.map (fun _ => .answer (some e) []) ↔
      RefusedAlike endp e conn tx := by
  have hd : c.session.delivery = none := by rw [hs]
  have he : c.session.deliveryErr = none := by rw [hs]
  have hfromArg : c.session.mailFrom = tx.sender := by rw [hs]
  have hopts : c.session.opts = tx.opts := by rw [hs]
  unfold RefusedAlike
  cases hrcpts : tx.rcpts with
  | nil => exact iff_of_true rfl trivial
  | cons r rest =>
    obtain ⟨env,rcptTo⟩ := r
    simp only [← hs]
    cases hst : startDelivery endp env c.session tx.sender tx.opts with
    | mk t err =>
      have hst' := hst
      rw [← hfromArg,← hopts] at hst'
      cases err with
      | some refusal =>
        obtain ⟨msgID,err⟩ := refusal
        rw [sender_refused_replies hopen hfrom hnone hd he hst',hopts]
        simp +contextual
      | none =>
        rw [sender_taken_replies hopen hfrom hd he hst']
        exact started_replies_iff (c := { c with session := t }) hopen hfrom
          (startDelivery_started hst)

def mailed (c : Conn) (tx : Transaction) : Conn :=
  { c with
    session := { c.session with mailFrom := tx.sender, opts := tx.opts }
    fromReceived := true }

theorem replies_deferred (hdefer : endp.deferServerReject = true) (hopen : c.closed = false)
    (hauth : ¬ (endp.authAlwaysRequired = true ∧ c.session.connState.authUser = ""))
    (tx : Transaction) :
    c.replies endp tx.inputs =
      .answer none [] :: (mailed c tx).replies endp (rcptInputs tx.rcpts ++ dataInput tx.data) := by
  have hm : c.handle endp (tx.mailEnv,.mail tx.sender tx.opts) =
      (mailed c tx,.answer none []) := by
    simp [Conn.handle,Conn.command,mail,hopen,hauth,hdefer,mailed]
  simp only [Transaction.inputs,Conn.replies,Conn.step,hm]

theorem replies_unauthenticated (hopen : c.closed = false) (hfrom : c.fromReceived = false)
    (hauth : endp.authAlwaysRequired = true ∧ c.session.connState.authUser = "")
    {tx : Transaction} :
    c.replies endp tx.inputs = .answer (some errAuthRequired) [] ::
      (tx.rcpts.map (fun _ => .refused) ++ tx.data.toList.map (fun _ => .refused)) := by
  have hm : c.handle endp (tx.mailEnv,.mail tx.sender tx.opts) =
      (c,.answer (some errAuthRequired) []) := by
    rw [Conn.handle,if_neg (by simp [hopen])]
    simp only [Conn.command,mail,if_pos hauth]
  simp only [Transaction.inputs,Conn.replies,Conn.step,hm,not_received_replies hopen hfrom]

/-- With an error left over, the replies are those of a new session exactly if
they are nothing but that error. -/
theorem stale_replies_iff (hdefer : endp.deferServerReject = true) (hopen : c.closed = false)
    (hauth : ¬ (endp.authAlwaysRequired = true ∧ c.session.connState.authUser = ""))
    (hnone : c.recipients = 0) (hd : c.session.delivery = none)
    (he : c.session.deliveryErr = some e) (tx : Transaction) :
    c.replies endp tx.inputs = (renewed c).replies endp tx.inputs ↔
      RefusedAlike endp e c.session.connState tx := by
  rw [replies_deferred hdefer hopen hauth,replies_deferred (c := renewed c) hdefer rfl hauth,
    stale_replies (c := mailed c tx) hopen rfl hnone hd he,List.cons.injEq,eq_self,true_and,
    eq_comm,refused_replies_iff (c := mailed (renewed c) tx) rfl rfl rfl]
  exact fresh_replies_iff rfl rfl rfl rfl

end Stale

/-- A transaction after a reset of a session that defers the rejection of
senders is answered as in a new session, exactly if no refused sender of an
earlier transaction is remembered, or its error is what the transaction would
get anyway. -/
theorem transactions_independent_iff (endp : Endpoint) (hdefer : endp.deferServerReject = true)
    (conn : ConnState) (first : List (Env × Command))
    (hopen : (first.foldl (Conn.step endp) (Conn.open conn)).closed = false) (tx : Transaction) :
    (first.foldl (Conn.step endp) (Conn.open conn)).reset.replies endp tx.inputs =
        (renewed (first.foldl (Conn.step endp) (Conn.open conn)).reset).replies endp tx.inputs ↔
      NoStaleError endp (first.foldl (Conn.step endp) (Conn.open conn)).reset tx := by
  have htidy := tidy_run endp (Conn.open conn) first (fun _ => rfl)
  generalize first.foldl (Conn.step endp) (Conn.open conn) = c at hopen htidy
  cases he : c.reset.session.deliveryErr with
  | none =>
    refine iff_of_true ((reset_sameView htidy hopen he).replies endp tx.inputs) fun e hsome => ?_
    cases he.symm.trans hsome
  | some e =>
    by_cases hauth : endp.authAlwaysRequired = true ∧ c.reset.session.connState.authUser = ""
    · refine iff_of_true ?_ (fun _ _ => .inl hauth)
      rw [replies_unauthenticated (c := c.reset) hopen rfl hauth,
        replies_unauthenticated (c := renewed c.reset) rfl rfl hauth]
    · rw [stale_replies_iff (c := c.reset) hdefer hopen hauth rfl (reset_delivery _) he]
      constructor
      · intro h e' he'
        cases he.symm.trans he'
        exact .inr h
      · intro h
        exact (h e he).resolve_left hauth

def peer : ConnState := ⟨"mx.example.org",none,""⟩

def blocked : Env :=
  { Env.accepting "m1" with start := fun _ _ => some (.leaf "sender is blocked" none) }

def oneRcpt : Transaction :=
  ⟨.accepting "m2","cat@example.org",{},[(.accepting "m2","bob@example.org")],
    some (.accepting "m2")⟩

/-- After a message that went through, the next one is on its own. -/
theorem second_message_independent :
    ((oneRcpt.inputs.foldl (Conn.step .plain) (Conn.open peer)).reset.replies .plain oneRcpt.inputs =
        (renewed (oneRcpt.inputs.foldl (Conn.step .plain) (Conn.open peer)).reset).replies .plain
          oneRcpt.inputs ↔
      NoStaleError .plain (oneRcpt.inputs.foldl (Conn.step .plain) (Conn.open peer)).reset oneRcpt) ∧
    (oneRcpt.inputs.foldl (Conn.step .plain) (Conn.open peer)).closed = false :=
  ⟨transactions_independent_iff .plain rfl peer oneRcpt.inputs (by decide) oneRcpt,by decide⟩

/-- After a sender that was refused, a good one gets the old error. -/
theorem refused_sender_remembered :
    ¬ ∀ (endp : Endpoint) (conn : ConnState) (first : List (Env × Command)) (tx : Transaction),
      endp.deferServerReject = true →
      (first.foldl (Conn.step endp) (Conn.open conn)).closed = false →
      (first.foldl (Conn.step endp) (Conn.open conn)).reset.replies endp tx.inputs =
        (renewed (first.foldl (Conn.step endp) (Conn.open conn)).reset).replies endp tx.inputs := by
  intro h
  have hsame := h .plain peer
    [(blocked,.mail "ann@example.org" {}),(blocked,.rcpt "bob@example.org")] oneRcpt rfl
    (by decide)
  exact absurd hsame (by decide)

end Madmail.Proofs.SessionIndependence
