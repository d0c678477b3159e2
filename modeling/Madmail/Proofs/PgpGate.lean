import Madmail.Endpoint.Ingress
import Madmail.Proofs.SessionDeliveries

namespace Madmail.Proofs.PgpGate
open Exterrors Madmail.Module Ingress

section Smtp
open Smtp

theorem pgpGate_passed (h : pgpGate env header body = .ok true) :
    env.isAcceptedMessage header body = .ok true := by
  unfold pgpGate at h
  cases ho : env.openBuffer with
  | some e => simp [ho] at h
  | none =>
    cases ha : env.isAcceptedMessage header body with
    | error e => simp [ho,ha] at h
    | ok accepted => simpa [ho,ha] using h

theorem data_accepted (h : Conn.handed endp c env = some (header,body)) :
    env.isAcceptedMessage header body = .ok true := by
  unfold Conn.handed at h
  split at h
  · cases h
  cases hd : c.session.delivery with
  | none => simp [hd] at h
  | some d =>
    cases hp : prepareBody endp env d.envelope.msgMeta with
    | error e => simp [hd,hp] at h
    | ok prepared =>
      obtain ⟨msgMeta,header',body'⟩ := prepared
      simp only [hd,hp,Option.ite_none_right_eq_some,Option.some.injEq,Prod.mk.injEq] at h
      obtain ⟨hcommitted,rfl,rfl⟩ := h
      exact pgpGate_passed ((SessionDeliveries.deliverBody_committed _ _ _ _ _ _).mp hcommitted).1

end Smtp

theorem append_accepted (h : (Imap.createMessage accepted env mbox flags date).handed = some text)
    (hread : env.readMessage text = .ok (header,body)) : accepted header body = .ok true := by
  unfold Imap.createMessage at h
  cases hall : env.readAll with
  | error e => simp [hall] at h
  | ok res =>
    cases hr : env.readMessage res with
    | error e => simp [hall,hr] at h
    | ok parsed =>
      obtain ⟨header',body'⟩ := parsed
      cases ha : accepted header' body' with
      | error e => simp [hall,hr,ha] at h
      | ok isAccepted =>
        cases isAccepted with
        | false => simp [hall,hr,ha] at h
        | true =>
          simp only [hall,hr,ha,Option.some.injEq] at h
          subst res
          obtain ⟨rfl,rfl⟩ := Prod.mk.inj (Except.ok.inj (hr.symm.trans hread))
          exact ha

section Mxdeliv
open Chatmail
variable {τ δ : Type} (accepted : Header → String → Except Err Bool) (r : Receiver τ δ)
  (req : Request)

def MessageOK : Prop :=
  ∀ data dt msgMeta d header body, req.method = "POST" → req.mailTo ≠ [] →
    req.body = .ok data → r.storage = some dt →
    r.ops.start dt { id := r.msgID } req.mailFrom = (msgMeta,.ok d) →
    (addRcpts r.ops req.mailTo d msgMeta).2.2 ≠ [] → r.readHeader data = .ok (header,body) →
    accepted header body = .ok true

theorem receive_handed_iff :
    (receiveMessage r rcpts data d m).handed = some (header,body) ↔
      (addRcpts r.ops rcpts d m).2.2 ≠ [] ∧ r.readHeader data = .ok (header,body) := by
  unfold receiveMessage
  obtain ⟨d',m',taken⟩ := addRcpts r.ops rcpts d m
  by_cases ha : taken = []
  · simp [ha]
  · cases hh : r.readHeader data with
    | error e => simp [ha]
    | ok parsed =>
      rcases hb : r.ops.body d' m' parsed.1 parsed.2 with ⟨d₁,q,err⟩
      cases err with
      | some e => simp [ha,hb,Prod.ext_iff]
      | none =>
        rcases hc : r.ops.commit d₁ with ⟨d₂,err⟩
        cases err <;> simp [ha,hb,hc,Prod.ext_iff]

theorem mxdeliv_accepted_iff :
    (∀ header body, (handleReceiveEmail r req).handed = some (header,body) →
      accepted header body = .ok true) ↔ MessageOK accepted r req := by
  constructor
  · intro h data dt msgMeta d header body hpost hto hbody hst hs htaken hread
    refine h header body ?_
    have hhandle : handleReceiveEmail r req = receiveMessage r req.mailTo data d msgMeta := by
      simp [handleReceiveEmail,hpost,hto,hbody,hst,hs]
    rw [hhandle]
    exact (receive_handed_iff r).mpr ⟨htaken,hread⟩
  · intro h header body hhanded
    unfold handleReceiveEmail at hhanded
    split at hhanded
    · cases hhanded
    rename_i hpost
    split at hhanded
    · cases hhanded
    rename_i hto
    cases hbody : req.body with
    | error e => simp [hbody] at hhanded
    | ok data =>
      cases hst : r.storage with
      | none => simp [hbody,hst] at hhanded
      | some dt =>
        rcases hs : r.ops.start dt { id := r.msgID } req.mailFrom with ⟨msgMeta,e | d⟩
        · simp [hbody,hst,hs] at hhanded
        · simp only [hbody,hst,hs] at hhanded
          obtain ⟨htaken,hread⟩ := (receive_handed_iff r).mp hhanded
          exact h data dt msgMeta d header body (not_not.mp hpost) hto hbody hst hs htaken hread

end Mxdeliv

/-- Only accepted messages are handed on exactly when the message does not come
in through `/mxdeliv`, or is accepted, or does not get as far as `Body` there. -/
theorem no_unencrypted_mail_iff (accepted : Header → String → Except Err Bool)
    (entry : Entry τ δ) :
    (∀ header body, entry.handed accepted = some (header,body) →
      accepted header body = .ok true) ↔
      ∀ r req, entry = .mxdeliv r req → MessageOK accepted r req := by
  cases entry with
  | data endp c env =>
    refine iff_of_true (fun header body h => ?_) nofun
    have haccepted : ({ env with isAcceptedMessage := accepted } : Smtp.Env).isAcceptedMessage header
        body = .ok true := data_accepted h
    exact haccepted
  | append env mbox flags date =>
    refine iff_of_true (fun header body h => ?_) nofun
    obtain ⟨text,htext,hread⟩ := Option.bind_eq_some_iff.mp h
    refine append_accepted htext ?_
    cases hr : env.readMessage text with
    | error e => simp [hr,Except.toOption] at hread
    | ok parsed => simpa [hr,Except.toOption] using hread
  | mxdeliv r req =>
    refine (mxdeliv_accepted_iff accepted r req).trans ⟨fun h r' req' he => ?_,fun h => h r req rfl⟩
    cases he
    exact h

/-- A plain-text message that is posted to a server where anyone has an account. -/
theorem plain_text_handed_on :
    ¬ ∀ (accepted : Header → String → Except Err Bool) (entry : Entry Unit Unit) header body,
      entry.handed accepted = some (header,body) → accepted header body = .ok true := by
  intro h
  have := h (fun _ _ => .ok false)
    (.mxdeliv ⟨Msgpipeline.Targets.silent,some (),"0",fun data => .ok ([],data)⟩
      ⟨"POST","eve@a.example",["ann@b.example"],.ok "hello"⟩) [] "hello" rfl
  cases this

end Madmail.Proofs.PgpGate
