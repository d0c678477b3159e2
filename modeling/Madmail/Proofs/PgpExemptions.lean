import Madmail.Endpoint.Session
import Madmail.Pgp.Encryption

namespace Madmail.Proofs.PgpExemptions
open Exterrors Madmail.Module Msgpipeline Lib.Strings PgpVerify PgpEncryption List

variable {txt : PgpEncryption.Text} {s : State} {header : Header} {env : Smtp.Env}
  {readErr : Option Err} {body : String}

section Check

def stateFor (c : Check) (envelope : Smtp.Envelope) : State :=
  envelope.rcpts.foldl State.checkRcpt (c.checkStateForMsg.checkSender envelope.mailFrom)

/-- The check lets the message through for who it is from or to: the sender is on the
list, it is a bounce, or the `From` field is in order and all recipients match. -/
def Exempt (txt : PgpEncryption.Text) (s : State) (header : Header) : Prop :=
  s.mailFrom ∈ s.c.passthroughSenders ∨ isBounce txt header = true ∨
    (s.validateFrom txt header = none ∧
      ∀ rcpt ∈ s.rcptTos, s.recipientMatchesPassthrough txt rcpt = true)

theorem checkRcpts_passed (h : ∀ rcpt ∈ rcpts, s.recipientMatchesPassthrough txt rcpt = true) :
    (s.checkRcpts txt header buf rcpts).reject = false := by
  induction rcpts with
  | nil => rfl
  | cons rcpt rest ih =>
    obtain ⟨hrcpt,hrest⟩ := forall_mem_cons.mp h
    rw [State.checkRcpts,if_pos hrcpt]
    exact ih hrest

def lost : Buffer where
  opened _ := .error (.leaf "no such file" none)
  reopened _ := .error (.leaf "no such file" none)

theorem matches_of_lost (h : (s.checkRcpts txt header lost rcpts).reject = false) :
    ∀ rcpt ∈ rcpts, s.recipientMatchesPassthrough txt rcpt = true := by
  induction rcpts with
  | nil => exact nofun
  | cons rcpt rest ih =>
    rw [State.checkRcpts] at h
    split at h
    · rename_i hrcpt
      exact forall_mem_cons.mpr ⟨hrcpt,ih h⟩
    · split at h
      · cases h
      · cases h

/-- The check exempts just those messages that it lets through unread. -/
theorem exempt_iff (hrequire : s.c.requireEncryption = true) :
    Exempt txt s header ↔ ∀ buf, (s.checkBody txt header buf).reject = false := by
  unfold Exempt State.checkBody
  rw [hrequire]
  by_cases hsender : s.mailFrom ∈ s.c.passthroughSenders
  · simp [hsender]
  by_cases hbounce : isBounce txt header = true
  · simp [hbounce]
  simp only [hsender,hbounce,false_or,Bool.not_true,Bool.false_eq_true,↓reduceIte,
    contains_iff_mem]
  cases hfrom : s.validateFrom txt header with
  | some e =>
    constructor
    · intro h
      cases h.1
    · intro h
      cases h lost
  | none =>
    constructor
    · intro h buf
      exact checkRcpts_passed h.2
    · intro h
      exact ⟨rfl,matches_of_lost (h lost)⟩

end Check

section Gate

def verifying (txt : PgpEncryption.Text) (readErr : Option Err) (env : Smtp.Env) : Smtp.Env :=
  { env with
    isAcceptedMessage := fun header body => isAcceptedMessage txt.toText header ⟨body,readErr⟩ }

def Refused (env : Smtp.Env) (header : Header) (body : String) : Prop :=
  Smtp.pgpGate env header body = .ok false

theorem refused_reply (h : Refused env header body) :
    Smtp.deliverBody endp env envelope header body = { err := some Smtp.encryptionNeeded } := by
  unfold Smtp.deliverBody
  rw [h]

/-- The gate has nothing against the message, or does not get to judge it. -/
def Passes (txt : PgpEncryption.Text) (readErr : Option Err) (env : Smtp.Env) (header : Header)
    (body : String) : Prop :=
  env.openBuffer ≠ none ∨ readErr ≠ none ∨
    isValidEncryptedMessage txt.toText (get header "Content-Type") ⟨body,none⟩ ≠ .ok false ∨
    isSecureJoinMessage txt.toText header ⟨body,none⟩ = true

theorem refused_iff : Refused (verifying txt readErr env) header body ↔
    ¬ Passes txt readErr env header body := by
  unfold Refused Passes verifying Smtp.pgpGate isAcceptedMessage
  dsimp only
  cases env.openBuffer with
  | some e => simp
  | none =>
    cases readErr with
    | some e => simp
    | none =>
      cases isValidEncryptedMessage txt.toText (get header "Content-Type") ⟨body,none⟩ with
      | error e => simp
      | ok encrypted => cases encrypted <;> simp

/-- A message of any other media type than that of encrypted mail and of Secure-Join
is refused; a bounce is one. -/
theorem other_type_refused (hopen : env.openBuffer = none)
    (hparse : txt.parseMediaType (get header "Content-Type") = .ok (mediatype,boundary))
    (hencrypted : mediatype ≠ "multipart/encrypted") (hmixed : mediatype ≠ "multipart/mixed")
    (halternative : mediatype ≠ "multipart/alternative") :
    Refused (verifying txt none env) header body := by
  have hvalid : isValidEncryptedMessage txt.toText (get header "Content-Type") ⟨body,none⟩ =
      .ok false := by
    unfold isValidEncryptedMessage
    rw [hparse]
    dsimp only
    rw [if_pos hencrypted]
  have hjoin : isSecureJoinMessage txt.toText header ⟨body,none⟩ = false := by
    unfold isSecureJoinMessage
    dsimp only
    rw [hparse]
    split
    · rfl
    · split
      · rfl
      · exact if_pos ⟨hmixed,halternative⟩
  rw [refused_iff]
  intro h
  obtain h | h | h | h := h
  · exact h hopen
  · exact h rfl
  · exact h hvalid
  · rw [hjoin] at h
    cases h

end Gate

/-- The session lets the messages to the pipeline that the check exempts exactly if
these are encrypted or Secure-Join messages all the same. A bounce is not, so if its
body can be read and its type is a report, it is exempt and DATA fails. -/
theorem exemption_honoured_iff (txt : PgpEncryption.Text) (c : Check) (readErr : Option Err)
    (endp : Smtp.Endpoint) (env : Smtp.Env) (envelope : Smtp.Envelope) (header : Header)
    (body : String) :
    ((Exempt txt (stateFor c envelope) header →
        ¬ Refused (verifying txt readErr env) header body) ↔
      (Exempt txt (stateFor c envelope) header → Passes txt readErr env header body)) ∧
    ∀ mediatype boundary, isBounce txt header = true → env.openBuffer = none → readErr = none →
      txt.parseMediaType (get header "Content-Type") = .ok (mediatype,boundary) →
      hasPrefix mediatype "multipart/report" = true →
      Exempt txt (stateFor c envelope) header ∧
        Smtp.deliverBody endp (verifying txt readErr env) envelope header body =
          { err := some Smtp.encryptionNeeded } := by
  constructor
  · refine imp_congr_right fun _ => ?_
    rw [refused_iff,Classical.not_not]
  · rintro mediatype boundary hbounce hopen rfl hparse hreport
    have hother : ∀ other, hasPrefix other "multipart/report" = false → mediatype ≠ other := by
      rintro other ho rfl
      cases ho.symm.trans hreport
    exact ⟨.inr (.inl hbounce),refused_reply (other_type_refused hopen hparse (hother _ (by decide))
      (hother _ (by decide)) (hother _ (by decide)))⟩

def plainText : PgpEncryption.Text where
  toLower text := String.ofList (text.toList.map Char.toLower)
  trimSpace text := trim text [' ','\t','\n','\r']
  decode bytes := String.ofList (bytes.map fun b => Char.ofNat b.toNat)
  parseMediaType text :=
    if text = "" then .error (.leaf "mime: no media type" none)
    else .ok (trim ((split text ';').headD "") [' '],"")
  parts _ _ := ([],none)
  isValidEncryptedPayload _ := false
  equalFold a b := a.toList.map Char.toLower = b.toList.map Char.toLower
  parseAddress text := .ok text

/-- Mail from a sender in order to two recipients that an entry for their domain
matches. -/
theorem listed_rcpts_exempt :
    (State.checkBody plainText
      { c := { passthroughRecipients := ["@list.example"] }
        mailFrom := "ann@mail.example"
        rcptTos := ["dev@list.example","Ops@list.example"] }
      [("From","Ann@mail.example"),("Content-Type","text/plain")] lost).reject = false :=
  (exempt_iff rfl).mp (.inr (.inr ⟨by decide,by decide⟩)) _

/-- Plain mail from a sender on the list does not get to the pipeline. -/
theorem passthrough_refused :
    ¬ ∀ (txt : PgpEncryption.Text) (c : Check) (readErr : Option Err) (env : Smtp.Env)
      (envelope : Smtp.Envelope) (header : Header) (body : String),
      Exempt txt (stateFor c envelope) header →
        ¬ Refused (verifying txt readErr env) header body := by
  intro h
  refine h plainText { passthroughSenders := ["noreply@mail.example"] } none
    (Smtp.Env.accepting "1")
    { msgMeta := { id := "1" }
      mailFrom := "noreply@mail.example"
      rcpts := ["ann@mail.example"] }
    [("From","noreply@mail.example"),("Content-Type","text/plain")] "hello" ?_ ?_
  · exact .inl mem_cons_self
  · exact other_type_refused rfl rfl (by decide) (by decide) (by decide)

end Madmail.Proofs.PgpExemptions
