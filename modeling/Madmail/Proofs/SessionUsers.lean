import Madmail.Endpoint.Session

namespace Madmail.Proofs.SessionUsers
open Exterrors Madmail.Module Smtp

variable {s t : Session} {conn : ConnState} {c : Conn} {endp : Endpoint}
  {inputs : List (Env × Command)}

/-- The session is that of the connection, and so is the delivery that it has. -/
structure Carries (conn : ConnState) (s : Session) : Prop where
  state : s.connState = conn
  delivery : ∀ d, s.delivery = some d → d.envelope.msgMeta.conn = some conn

theorem carries_cleanSession (h : s.connState = conn) : Carries conn (cleanSession s) := by
  refine ⟨?_,fun _ hd => by cases hd⟩
  unfold cleanSession releaseLimits
  repeat' split
  all_goals exact h

theorem carries_reset (h : Carries conn s) : Carries conn (reset s) := by
  fun_cases reset s
  · exact h
  · exact carries_cleanSession h.state

section Commands
variable (endp) (env : Env) (h : Carries conn s)
include h

theorem carries_startDelivery (hst : startDelivery endp env s sender opts = (t,r)) :
    Carries conn t := by
  revert hst
  fun_cases startDelivery endp env s sender opts <;> intro hst <;> cases hst
  case case4 =>
    refine ⟨h.state,fun d hd => ?_⟩
    cases hd
    exact congrArg some h.state
  all_goals exact ⟨h.state,h.delivery⟩

theorem carries_mail (hm : mail endp env s sender opts = (t,r)) : Carries conn t := by
  revert hm
  fun_cases mail endp env s sender opts <;> intro hm <;> cases hm
  · exact h
  · exact ⟨h.state,h.delivery⟩
  all_goals
    have ht := carries_startDelivery endp env h ‹_›
    exact ⟨ht.state,ht.delivery⟩

theorem carries_rcptStarted : Carries conn (rcptStarted endp env s rcptTo).1 := by
  unfold rcptStarted
  split
  · exact h
  · next d hd =>
    fun_cases addRcpt endp env s d rcptTo
    · exact h
    · exact h
    · refine ⟨h.state,fun d' hd' => ?_⟩
      cases hd'
      exact h.delivery d hd

theorem carries_rcpt (hr : rcpt endp env s rcptTo = (t,r)) : Carries conn t := by
  obtain rfl : (rcpt endp env s rcptTo).1 = t := congrArg Prod.fst hr
  fun_cases rcpt endp env s rcptTo
  · exact carries_rcptStarted endp env h
  · exact h
  · next hst _ =>
    have ht := carries_startDelivery endp env h hst
    exact ⟨ht.state,ht.delivery⟩
  · exact carries_rcptStarted endp env (carries_startDelivery endp env h ‹_›)

theorem carries_data (hd : data endp env s d = (t,r)) : Carries conn t := by
  revert hd
  fun_cases data endp env s d <;> intro hd <;> cases hd
  · exact h
  · next res after =>
    refine carries_cleanSession ?_
    dsimp only [after]
    split <;> exact h.state

end Commands

/-- What is known of a client after some of its commands. Without a user nothing
was started. -/
structure Known (inputs : List (Env × Command)) (c : Conn) : Prop where
  carries : Carries c.session.connState c.session
  named : c.session.connState.authUser = "" ∨ c.didAuth = true ∧
    ∃ env, (env,.auth (.ok c.session.connState.authUser)) ∈ inputs
  idle : c.session.connState.authUser = "" →
    c.session.started = 0 ∧ c.session.delivery = none ∧ c.fromReceived = false

theorem known_of_session (h : Known inputs c) (hs : Carries c.session.connState c'.session)
    (hauth : c'.didAuth = c.didAuth)
    (hidle : c.session.connState.authUser = "" →
      c'.session = c.session ∧ c'.fromReceived = false) : Known inputs c' := by
  refine ⟨?_,?_,fun hu => ?_⟩
  · rw [hs.state]
    exact hs
  · rw [hs.state,hauth]
    exact h.named
  · rw [hs.state] at hu
    obtain ⟨hsession,hfrom⟩ := hidle hu
    rw [hsession]
    exact ⟨(h.idle hu).1,(h.idle hu).2.1,hfrom⟩

theorem known_step (hreq : endp.authAlwaysRequired = true) (h : Known inputs c)
    (hin : input ∈ inputs) : Known inputs (c.step endp input) := by
  obtain ⟨env,command⟩ := input
  unfold Conn.step Conn.handle
  split
  · exact h
  · dsimp only
    fun_cases Conn.command endp c env command
    case case3 hdid user =>
      -- Nothing is under way that the new user could take over.
      have hidle := h.idle (h.named.resolve_right fun hn => hdid hn.1)
      refine ⟨⟨rfl,fun d hd => ?_⟩,.inr ⟨rfl,env,hin⟩,fun _ => ⟨hidle.1,?_,hidle.2.2⟩⟩
      · simp [authenticate,hidle.2.1] at hd
      · simp [authenticate,hidle.2.1]
    case case4 hm | case5 hm =>
      refine known_of_session h (carries_mail endp env h.carries hm) rfl fun hu => ?_
      rw [mail,if_pos ⟨hreq,hu⟩] at hm
      cases hm <;> exact ⟨rfl,(h.idle hu).2.2⟩
    case case7 hfrom _ _ hr | case8 hfrom _ hr =>
      exact known_of_session h (carries_rcpt endp env h.carries hr) rfl
        fun hu => by simp [(h.idle hu).2.2] at hfrom
    case case11 hfrom _ _ _ _ hd =>
      exact known_of_session h (carries_reset (carries_data endp env h.carries hd)) rfl
        fun hu => by simp [(h.idle hu).2.2] at hfrom
    case case12 | case13 =>
      exact known_of_session h (carries_reset h.carries) rfl fun hu => by
        simp [Conn.reset,logout,reset,h.idle hu]
    all_goals exact h

/-- Where a user is always required, no order of commands starts a delivery before
a client has authenticated. The delivery names the connection with that user. -/
theorem started_by_user (hreq : endp.authAlwaysRequired = true) (hconn : conn.authUser = "")
    (hrun : inputs.foldl (Conn.step endp) (Conn.open conn) = c) :
    (0 < c.session.started → ∃ env user, user ≠ "" ∧ (env,.auth (.ok user)) ∈ inputs ∧
      c.session.connState.authUser = user) ∧
    ∀ d, c.session.delivery = some d → d.envelope.msgMeta.conn = some c.session.connState := by
  have hopen : Known inputs (Conn.open conn) :=
    ⟨⟨rfl,fun _ hd => by cases hd⟩,.inl hconn,fun _ => ⟨rfl,rfl,rfl⟩⟩
  have h := List.foldlRecOn inputs (Conn.step endp) hopen
    fun _ hc _ hin => known_step hreq hc hin
  rw [hrun] at h
  refine ⟨fun hstarted => ?_,h.carries.delivery⟩
  have huser : c.session.connState.authUser ≠ "" := fun hu =>
    Nat.ne_of_gt hstarted (h.idle hu).1
  obtain ⟨env,henv⟩ := (h.named.resolve_left huser).2
  exact ⟨env,_,huser,henv,rfl⟩

def submitter : Endpoint :=
  { Endpoint.plain with authAlwaysRequired := true, deferServerReject := false }

def submission : List (Env × Command) :=
  [(.accepting "m1",.auth (.ok "ann")),(.accepting "m1",.mail "ann@example.org" {})]

theorem started_after_auth :
    ∃ env user, user ≠ "" ∧ (env,.auth (.ok user)) ∈ submission ∧
      (submission.foldl (Conn.step submitter)
        (Conn.open ⟨"mx.example.org",none,""⟩)).session.connState.authUser = user :=
  (started_by_user (show submitter.authAlwaysRequired = true from rfl) rfl rfl).1 Nat.one_pos

end Madmail.Proofs.SessionUsers
