import Madmail.Remote.Http

namespace Madmail.Proofs.HttpRelay
open Exterrors Madmail.Module Msgpipeline Chatmail Remote List

section Receiver
variable {τ δ : Type} (r : Receiver τ δ)

theorem receive_committed_iff :
    (receiveMessage r rcpts data d m).committed = true ↔
      (receiveMessage r rcpts data d m).response.code = 200 := by
  unfold receiveMessage
  repeat' split
  all_goals simp [internalServerError]

theorem committed_iff :
    (handleReceiveEmail r req).committed = true ↔
      (handleReceiveEmail r req).response.code = 200 := by
  unfold handleReceiveEmail
  repeat' split
  all_goals first
    | exact receive_committed_iff r
    | simp [internalServerError]

/-- The storage takes all the recipients or none of them, or it does not take the
message. -/
def AllOrNothing (mailFrom : String) (rcpts : List String) (data : String) : Prop :=
  ∀ dt msgMeta d, r.storage = some dt →
    r.ops.start dt { id := r.msgID } mailFrom = (msgMeta,.ok d) →
    (∀ rcpt ∈ rcpts, rcpt ∈ (addRcpts r.ops rcpts d msgMeta).2.2) ∨
    (addRcpts r.ops rcpts d msgMeta).2.2 = [] ∨
    ∀ header body, r.readHeader data = .ok (header,body) →
      let added := addRcpts r.ops rcpts d msgMeta
      (r.ops.body added.1 added.2.1 header body).2.2 = none →
      (r.ops.commit (r.ops.body added.1 added.2.1 header body).1).2 ≠ none

theorem receive_ok_iff :
    (receiveMessage r rcpts data d m).response.code = 200 ↔
      (addRcpts r.ops rcpts d m).2.2 ≠ [] ∧
      ∃ header body, r.readHeader data = .ok (header,body) ∧
        let added := addRcpts r.ops rcpts d m
        (r.ops.body added.1 added.2.1 header body).2.2 = none ∧
        (r.ops.commit (r.ops.body added.1 added.2.1 header body).1).2 = none := by
  unfold receiveMessage
  obtain ⟨d',m',accepted⟩ := addRcpts r.ops rcpts d m
  by_cases ha : accepted = []
  · simp [ha]
  · cases hh : r.readHeader data with
    | error e => simp [ha]
    | ok parsed =>
      obtain ⟨header,body⟩ := parsed
      rcases hb : r.ops.body d' m' header body with ⟨d₁,q,err⟩
      cases err with
      | some e => simp [ha,hb,internalServerError]
      | none =>
        rcases hc : r.ops.commit d₁ with ⟨d₂,err⟩
        cases err <;> simp [ha,hb,hc,internalServerError]

theorem receive_accepted :
    (receiveMessage r rcpts data d m).accepted = (addRcpts r.ops rcpts d m).2.2 := by
  unfold receiveMessage
  obtain ⟨d',m',accepted⟩ := addRcpts r.ops rcpts d m
  repeat' split
  all_goals simp_all

theorem handle_started (hne : rcpts ≠ []) (hst : r.storage = some dt)
    (hs : r.ops.start dt { id := r.msgID } mailFrom = (msgMeta,.ok d)) :
    handleReceiveEmail r ⟨"POST",mailFrom,rcpts,.ok data⟩ =
      receiveMessage r rcpts data d msgMeta := by
  simp [handleReceiveEmail,hne,hst,hs]

theorem allOrNothing_iff :
    AllOrNothing r mailFrom rcpts data ↔
      ((handleReceiveEmail r ⟨"POST",mailFrom,rcpts,.ok data⟩).response.code = 200 →
        ∀ rcpt ∈ rcpts,
          rcpt ∈ (handleReceiveEmail r ⟨"POST",mailFrom,rcpts,.ok data⟩).accepted) := by
  by_cases hne : rcpts = []
  · simp [AllOrNothing,hne]
  constructor
  · intro h hok rcpt hrcpt
    -- an answer of 200 comes from a delivery that was started
    cases hst : r.storage with
    | none => simp [handleReceiveEmail,hne,hst,internalServerError] at hok
    | some dt =>
      rcases hs : r.ops.start dt { id := r.msgID } mailFrom with ⟨msgMeta,e | d⟩
      · simp [handleReceiveEmail,hne,hst,hs,internalServerError] at hok
      rw [handle_started r hne hst hs] at hok ⊢
      rw [receive_accepted]
      obtain ⟨hsome,header,body,hh,hb,hc⟩ := (receive_ok_iff r).mp hok
      rcases h dt msgMeta d hst hs with hall | hnone | hfail
      · exact hall rcpt hrcpt
      · exact absurd hnone hsome
      · exact absurd hc (hfail header body hh hb)
  · intro h dt msgMeta d hst hs
    rw [handle_started r hne hst hs,receive_ok_iff,receive_accepted] at h
    by_cases hnone : (addRcpts r.ops rcpts d msgMeta).2.2 = []
    · exact .inr (.inl hnone)
    by_cases hall : ∀ rcpt ∈ rcpts, rcpt ∈ (addRcpts r.ops rcpts d msgMeta).2.2
    · exact .inl hall
    exact .inr (.inr fun header body hh hb hc => hall (h ⟨hnone,header,body,hh,hb,hc⟩))

end Receiver

section Sender
variable (env : HttpEnv) (mailFrom : String) (rcpts : List String) (msg : Message)

theorem tryURLs_spec :
    (∀ url sent, (url,sent) ∈ (tryURLs env mailFrom rcpts msg urls).requests →
      (doHTTPRequestURL env mailFrom rcpts msg url).1 = sent ∧
      ((doHTTPRequestURL env mailFrom rcpts msg url).2 = none →
        (tryURLs env mailFrom rcpts msg urls).err = none ∧
        (tryURLs env mailFrom rcpts msg urls).requests.getLast? = some (url,sent))) ∧
    ((tryURLs env mailFrom rcpts msg urls).err = none →
      ∃ url sent, (url,sent) ∈ (tryURLs env mailFrom rcpts msg urls).requests ∧
        (doHTTPRequestURL env mailFrom rcpts msg url).2 = none) := by
  induction urls with
  | nil => simp [tryURLs]
  | cons first rest ih =>
    rcases hfirst : doHTTPRequestURL env mailFrom rcpts msg first with ⟨sent,err⟩
    cases err with
    | none => simp [tryURLs,hfirst]
    | some e =>
      cases rest with
      | nil => simp [tryURLs,hfirst]
      | cons second rest =>
        obtain ⟨hall,hlast⟩ := ih
        have htry : tryURLs env mailFrom rcpts msg (first :: second :: rest) =
            { requests := (first,sent) :: (tryURLs env mailFrom rcpts msg (second :: rest)).requests
              err := (tryURLs env mailFrom rcpts msg (second :: rest)).err } := by
          conv_lhs => unfold tryURLs
          simp [hfirst]
        rw [htry]
        constructor
        · intro url b hmem
          rcases mem_cons.mp hmem with heq | hmem
          · obtain ⟨rfl,rfl⟩ := Prod.mk.inj heq
            simp [hfirst]
          · obtain ⟨hb,hok⟩ := hall url b hmem
            refine ⟨hb,fun h => ⟨(hok h).1,?_⟩⟩
            rw [getLast?_cons,(hok h).2]
            rfl
        · intro h
          obtain ⟨url,b,hmem,hok⟩ := hlast h
          exact ⟨url,b,mem_cons_of_mem _ hmem,hok⟩

end Sender

section Relay
variable {τ δ : Type}

def connected (peer : String → Except Err (Receiver τ δ)) (env : HttpEnv) : HttpEnv :=
  { env with
    send := fun url req =>
      match peer url with
      | .error err => ⟨false,.error err⟩
      | .ok r => ⟨true,.ok (handleReceiveEmail r req).response.code⟩ }

variable (cfg : HttpConfig) (env : HttpEnv) (peer : String → Except Err (Receiver τ δ))
  (mailFrom domain : String) (rcpts : List String) (msg : Message)

def relayed : Tried := tryHTTP cfg (connected peer env) mailFrom domain rcpts msg

/-- Every recipient that the sender reports as delivered by HTTP was taken by a
receiver that a request went to, and the message was committed there. -/
def Agree : Prop :=
  ∀ rcpt, (rcpt,none) ∈ httpStatuses (relayed cfg env peer mailFrom domain rcpts msg) rcpts →
    ∃ url r, (url,true) ∈ (relayed cfg env peer mailFrom domain rcpts msg).requests ∧
      peer url = .ok r ∧
      rcpt ∈ (handleReceiveEmail r (httpRequest env mailFrom rcpts msg)).accepted ∧
      (handleReceiveEmail r (httpRequest env mailFrom rcpts msg)).committed = true

variable {env peer mailFrom rcpts msg}

theorem request_ok_iff :
    (doHTTPRequestURL (connected peer env) mailFrom rcpts msg url).2 = none ↔
      env.openBody url = none ∧ ∃ r, peer url = .ok r ∧
        (handleReceiveEmail r (httpRequest env mailFrom rcpts msg)).response.code = 200 := by
  cases ho : env.openBody url with
  | some err => simp [doHTTPRequestURL,connected,ho]
  | none => cases hp : peer url <;> simp [doHTTPRequestURL,connected,ho,hp,httpRequest]

theorem transmitted_iff :
    (doHTTPRequestURL (connected peer env) mailFrom rcpts msg url).1 = true ↔
      env.openBody url = none ∧ ∃ r, peer url = .ok r := by
  cases ho : env.openBody url with
  | some err => simp [doHTTPRequestURL,connected,ho]
  | none => cases hp : peer url <;> simp [doHTTPRequestURL,connected,ho,hp]

/-- The two ends of the relay agree on the recipients exactly when the storage
behind every receiver that is asked takes them all or none, or not the message. -/
theorem relay_agrees_iff (cfg : HttpConfig) (env : HttpEnv)
    (peer : String → Except Err (Receiver τ δ)) (mailFrom domain : String) (rcpts : List String)
    (msg : Message) :
    Agree cfg env peer mailFrom domain rcpts msg ↔
      ∀ url r, (url,true) ∈ (relayed cfg env peer mailFrom domain rcpts msg).requests →
        peer url = .ok r →
        AllOrNothing r mailFrom rcpts (env.writeHeader msg.header ++ msg.body) := by
  obtain ⟨hall,hlast⟩ := tryURLs_spec (connected peer env) mailFrom rcpts msg
  constructor
  · intro hagree url r hmem hp
    refine (allOrNothing_iff r).mpr fun hok rcpt hrcpt => ?_
    obtain ⟨hsent,hstop⟩ := hall url true hmem
    obtain ⟨hopen, -⟩ := transmitted_iff.mp hsent
    -- this request succeeded, so it was the last one and speaks for all recipients
    obtain ⟨herr,hurl⟩ := hstop (request_ok_iff.mpr ⟨hopen,r,hp,hok⟩)
    have hstatus : (rcpt,none) ∈
        httpStatuses (relayed cfg env peer mailFrom domain rcpts msg) rcpts := by
      have herr' : (relayed cfg env peer mailFrom domain rcpts msg).err = none := herr
      simp [httpStatuses,herr',hrcpt]
    obtain ⟨url',r',hmem',hp',hacc,hcommit⟩ := hagree rcpt hstatus
    obtain ⟨hsent',hstop'⟩ := hall url' true hmem'
    obtain ⟨hopen', -⟩ := transmitted_iff.mp hsent'
    have hok' := (committed_iff r').mp hcommit
    obtain ⟨-,hurl'⟩ := hstop' (request_ok_iff.mpr ⟨hopen',r',hp',hok'⟩)
    obtain ⟨rfl, -⟩ := Prod.mk.inj (Option.some.inj (hurl.symm.trans hurl'))
    cases hp.symm.trans hp'
    exact hacc
  · intro hcond rcpt hstatus
    have herr : (relayed cfg env peer mailFrom domain rcpts msg).err = none := by
      cases he : (relayed cfg env peer mailFrom domain rcpts msg).err with
      | none => rfl
      | some e => simp [httpStatuses,he] at hstatus
    have hrcpt : rcpt ∈ rcpts := by simpa [httpStatuses,herr] using hstatus
    obtain ⟨url,sent,hmem,hok⟩ := hlast herr
    obtain ⟨hopen,r,hp,hcode⟩ := request_ok_iff.mp hok
    obtain ⟨hsent, -⟩ := hall url sent hmem
    rw [transmitted_iff.mpr ⟨hopen,r,hp⟩] at hsent
    subst sent
    exact ⟨url,r,hmem,hp,
      (allOrNothing_iff r).mp (hcond url r hmem hp) hcode rcpt hrcpt,
      (committed_iff r).mpr hcode⟩

def oneAccount : Receiver Unit Unit where
  ops := { Targets.silent with
    addRcpt := fun _ msgMeta rcptTo =>
      ((),msgMeta,if rcptTo = "ann@b.example" then none else some (.leaf "no such user" none)) }
  storage := some ()
  msgID := "0"
  readHeader data := .ok ([],data)

/-- An address without an account is reported as delivered. -/
theorem refused_recipient_reported_delivered :
    ¬ ∀ (cfg : HttpConfig) (env : HttpEnv) (peer : String → Except Err (Receiver Unit Unit))
      (mailFrom domain : String) (rcpts : List String) (msg : Message),
      Agree cfg env peer mailFrom domain rcpts msg := by
  intro h
  obtain ⟨url,r, -,hp,hacc, -⟩ := h ⟨"",none⟩ ⟨fun _ => none,fun _ => "",fun _ _ => ⟨false,.ok 0⟩⟩
    (fun _ => .ok oneAccount) "eve@a.example" "b.example" ["ann@b.example","bob@b.example"]
    ⟨[],"hello"⟩ "bob@b.example" (mem_cons_of_mem _ (mem_singleton.mpr rfl))
  cases hp
  simp [handleReceiveEmail,httpRequest,receiveMessage,addRcpts,oneAccount,Targets.silent] at hacc

end Relay

end Madmail.Proofs.HttpRelay
