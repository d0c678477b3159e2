import Madmail.Queue.Dsn

namespace Madmail.Proofs.DsnErrors
open Exterrors Queue Dsn List Function

/-- Fields that say nothing about SMTP. A `nil` counts as absent. -/
def Silent (fs : List (String × Field)) : Prop :=
  ∀ key ∈ ["smtp_code","smtp_enchcode","smtp_msg"],
    fs.lookup key = none ∨ fs.lookup key = some .nil

/-- The outermost SMTP information of an error is that of this `SMTPError`. -/
inductive Carries (e : SMTPError) : Err → Prop where
  | smtp : Carries e (.smtp e)
  | smtpWrap (err : Err) : Carries e (.smtpWrap e err)
  | fieldsWrap {err : Err} (fs : List (String × Field)) (h : Carries e err) (hfs : Silent fs) :
      Carries e (.fieldsWrap err fs)
  | errorf {err : Err} (head : String) (h : Carries e err) : Carries e (.errorf head err)
  | temporaryErr {err : Err} (temp : Bool) (h : Carries e err) : Carries e (.temporaryErr err temp)

variable {e : SMTPError} {err : Err}

theorem firstField_of_silent (h : Silent fs)
    (hkey : key ∈ ["smtp_code","smtp_enchcode","smtp_msg"]) :
    firstField (fs.lookup key) own = own := by
  obtain hnone | hnil := h key hkey
  · rw [hnone]
    rfl
  · rw [hnil]
    rfl

theorem fields_of_carries (h : Carries e err)
    (hkey : key ∈ ["smtp_code","smtp_enchcode","smtp_msg"]) :
    fields err key = e.fields none key := by
  induction h with
  | smtp => rfl
  | smtpWrap err =>
    simp only [mem_cons,not_mem_nil,or_false] at hkey
    rcases hkey with rfl | rfl | rfl <;> rfl
  | fieldsWrap fs _ hfs ih => rw [fields,firstField_of_silent hfs hkey,ih]
  | errorf head _ ih => exact ih
  | temporaryErr temp _ ih => exact ih

def genericCode (err : Err) : EnhancedCode :=
  if isTemporaryOrUnspec err then ⟨4,0,0⟩ else ⟨5,0,0⟩

/-- The enhanced code gets lost: it has another type than the one that is asked for. -/
theorem toSMTPErr_of_carries (h : Carries e err) :
    toSMTPErr err = ⟨e.code,genericCode err,e.message⟩ := by
  have hcode : fields err "smtp_code" = some (.int e.code) := fields_of_carries h (by simp)
  have hench : fields err "smtp_enchcode" = some (.enchCode e.enhancedCode) :=
    fields_of_carries h (by simp)
  have hmsg : fields err "smtp_msg" = some (.str e.message) := fields_of_carries h (by simp)
  cases err with
  | goSmtp e' => cases h
  | leaf | deadlineExceeded | smtp | smtpWrap | errorf | temporaryErr | fieldsWrap =>
    simp only [toSMTPErr,hcode,hench,hmsg,genericCode]

theorem header_reports {info : RecipientInfo} (hh : info.header idna utf8 = .ok h) :
    ("Status",formatCode info.status) ∈ h ∧
      ∀ text, diagnosticText utf8 info.diagnosticCode = some text → ("Diagnostic-Code",text) ∈ h := by
  have hbase : ∀ rest : Module.Header,
      let base := (diagnosticText utf8 info.diagnosticCode).toList.map ("Diagnostic-Code",·) ++
        ("Status",formatCode info.status) :: rest
      ("Status",formatCode info.status) ∈ base ∧
        ∀ text, diagnosticText utf8 info.diagnosticCode = some text →
          ("Diagnostic-Code",text) ∈ base := by
    intro rest
    refine ⟨mem_append_right _ mem_cons_self,fun text htext => ?_⟩
    rw [htext]
    exact mem_cons_self
  unfold RecipientInfo.header at hh
  simp only [bind,Except.bind,pure,Except.pure,throw,throwThe,MonadExceptOf.throw] at hh
  split at hh
  · cases hh
  · split at hh
    · cases hh
    · split at hh
      · split at hh
        · cases hh
        · split at hh
          · cases hh
            exact hbase _
          · split at hh
            · cases hh
            · cases hh
              obtain ⟨hstatus,hdiagnostic⟩ := hbase _
              exact ⟨mem_cons_of_mem _ hstatus,
                fun text ht => mem_cons_of_mem _ (hdiagnostic text ht)⟩
      · cases hh

/-- The recipients of the report are recorded with the error that the attempt has for them. -/
def Recorded (errs : Errs) (acc : Split) : Prop :=
  ∀ rcpt ∈ acc.failedRcpts, ∃ err, errs rcpt = some err ∧ acc.rcptErrs rcpt = some (toSMTPErr err)

theorem recorded_step (h : Recorded errs acc) : Recorded errs (splitRcpt maxTries errs acc r) := by
  -- the error of `r` is recorded again, which is no news for one that is in the report
  have hupdate : ∀ {err}, errs r = some err → ∀ rcpt ∈ r :: acc.failedRcpts,
      ∃ err', errs rcpt = some err' ∧
        update acc.rcptErrs r (some (toSMTPErr err)) rcpt = some (toSMTPErr err') := by
    intro err herr rcpt hmem
    by_cases hr : rcpt = r
    · subst hr
      exact ⟨err,herr,update_self ..⟩
    · obtain ⟨err',herr',hrecorded⟩ := h rcpt ((mem_cons.mp hmem).resolve_left hr)
      exact ⟨err',herr',(update_of_ne hr ..).trans hrecorded⟩
  unfold splitRcpt
  cases herr : errs r with
  | none => exact h
  | some err =>
    dsimp only
    split
    · intro rcpt hmem
      apply hupdate herr rcpt
      simpa [Split.markFailed,or_comm] using hmem
    · exact fun rcpt hmem => hupdate herr rcpt (mem_cons_of_mem _ hmem)

theorem recorded_tryDelivery (hmem : rcpt ∈ (tryDelivery maxTries now tgt m).dsn)
    (herr : (deliver tgt m.toRcpts).errs rcpt = some err) :
    (tryDelivery maxTries now tgt m).rcptErrs rcpt = some (toSMTPErr err) := by
  have hall : Recorded (deliver tgt m.toRcpts).errs
      (splitRcpts maxTries (deliver tgt m.toRcpts).errs m) :=
    List.foldlRecOn m.toRcpts _ nofun fun _ h r _ => recorded_step h
  obtain ⟨err',herr',hrecorded⟩ := hall rcpt hmem
  cases herr.symm.trans herr'
  exact hrecorded

/-- The queue writes what the target has reported, if the error of an attempt for the recipient is
this one. -/
def Reported (err : Err) (code : Int) (enhancedCode : EnhancedCode) (message : String) : Prop :=
  ∀ (maxTries now : Int) (tgt : Target) (m : QueueMetadata) (rcpt : String),
    (deliver tgt m.toRcpts).errs rcpt = some err → rcpt ∈ (tryDelivery maxTries now tgt m).dsn →
    ∃ info, rcptInfo m.msgMeta (tryDelivery maxTries now tgt m).rcptErrs rcpt = some info ∧
      ∀ idna utf8 h, info.header idna utf8 = .ok h →
        ("Status",formatCode enhancedCode) ∈ h ∧
        ("Diagnostic-Code","smtp; " ++ toString code ++ " " ++ formatCode enhancedCode ++ " " ++
          oneLine message) ∈ h

theorem reported_toSMTPErr (err : Err) :
    Reported err (toSMTPErr err).code (toSMTPErr err).enhancedCode (toSMTPErr err).message := by
  intro maxTries now tgt m rcpt herr hmem
  refine ⟨_,by rw [rcptInfo,recorded_tryDelivery hmem herr]; rfl,fun idna utf8 h hh => ?_⟩
  obtain ⟨hstatus,hdiagnostic⟩ := header_reports hh
  exact ⟨hstatus,hdiagnostic _ rfl⟩

/-- A report has the code, the enhanced code and the text of the target's error exactly if the
enhanced code is the one that any error of its kind has. -/
theorem target_error_reported_iff (h : Carries e err) :
    toSMTPErr err = ⟨e.code,e.enhancedCode,e.message⟩ ∧
        Reported err e.code e.enhancedCode e.message ↔
      e.enhancedCode = genericCode err := by
  have heq := toSMTPErr_of_carries h
  constructor
  · rintro ⟨hsame, -⟩
    rw [heq] at hsame
    exact (GoSmtpError.mk.inj hsame).2.1.symm
  · intro hcode
    rw [← hcode] at heq
    refine ⟨heq,?_⟩
    have hreported := reported_toSMTPErr err
    rwa [heq] at hreported

theorem target_error_reported_temporary :
    let e : SMTPError := { code := 451, enhancedCode := ⟨4,0,0⟩, message := "Try later" }
    let err := Err.fieldsWrap (.smtp e) [("domain",.str "example.org")]
    toSMTPErr err = ⟨451,⟨4,0,0⟩,"Try later"⟩ ∧ Reported err 451 ⟨4,0,0⟩ "Try later" := by
  intro e err
  refine (target_error_reported_iff (e := e) ?_).mpr rfl
  refine .fieldsWrap _ .smtp fun key hkey => ?_
  simp only [mem_cons,not_mem_nil,or_false] at hkey
  rcases hkey with rfl | rfl | rfl <;> exact .inl rfl

/-- A mailbox that does not exist: the report says that something went wrong. -/
theorem unknown_user_generic :
    let e : SMTPError := { code := 550, enhancedCode := ⟨5,1,1⟩, message := "No such user" }
    Carries e (.smtp e) ∧ toSMTPErr (.smtp e) = ⟨550,⟨5,0,0⟩,"No such user"⟩ ∧
      toSMTPErr (.smtp e) ≠ ⟨e.code,e.enhancedCode,e.message⟩ :=
  ⟨.smtp,rfl,by decide⟩

end Madmail.Proofs.DsnErrors
