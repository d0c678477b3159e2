import Mathlib.Data.List.Basic

namespace Madmail.Exterrors

structure EnhancedCode where
  cls : Int
  subject : Int
  detail : Int
  deriving DecidableEq, Repr

/-- The values the field maps of errors hold. `exterrors.EnhancedCode` and
`smtp.EnhancedCode` are different types of the source, and a type assertion
tells them apart. -/
inductive Field where
  | nil
  | int (n : Int)
  | enchCode (code : EnhancedCode)
  | goSmtpEnchCode (code : EnhancedCode)
  | str (s : String)
  deriving DecidableEq, Repr

structure SMTPError where
  code : Int
  enhancedCode : EnhancedCode
  message : String
  checkName : String := ""
  targetName : String := ""
  reason : String := ""
  misc : List (String × Field) := []
  deriving DecidableEq, Repr

structure GoSmtpError where
  code : Int
  enhancedCode : EnhancedCode
  message : String
  deriving DecidableEq, Repr

/-- An `error` value as the chain of its wrappers. A `leaf` is any error
without a known structure; it may have a `Temporary` method of its own. -/
inductive Err where
  | leaf (text : String) (temporary : Option Bool)
  | deadlineExceeded
  | goSmtp (e : GoSmtpError)
  | smtp (e : SMTPError)
  | smtpWrap (e : SMTPError) (err : Err)
  | errorf (head : String) (err : Err)
  | temporaryErr (err : Err) (temp : Bool)
  | fieldsWrap (err : Err) (fields : List (String × Field))
  deriving DecidableEq, Repr

def SMTPError.temporary (e : SMTPError) : Bool := e.code / 100 == 4

def GoSmtpError.temporary (e : GoSmtpError) : Bool := e.code / 100 == 4

/-- `errors.As` with a `TemporaryErr` target: the first error of the chain that
has the method answers. -/
def asTemporary : Err → Option Bool
  | .leaf _ temporary => temporary
  | .deadlineExceeded => some true
  | .goSmtp e => some e.temporary
  | .smtp e => some e.temporary
  | .smtpWrap e _ => some e.temporary
  | .errorf _ err => asTemporary err
  | .temporaryErr _ temp => some temp
  | .fieldsWrap err _ => asTemporary err

def isTemporaryOrUnspec (err : Err) : Bool := (asTemporary err).getD true

def isTemporary (err : Err) : Bool := (asTemporary err).getD false

def smtpCode (err : Err) (temporaryCode permanentCode : Int) : Int :=
  if isTemporary err then temporaryCode else permanentCode

/-- `SMTPEnchCode`. The second assignment overwrites the first. -/
def smtpEnchCode (err : Err) (code : EnhancedCode) : EnhancedCode :=
  let code := if isTemporary err then { code with cls := 4 } else code
  { code with cls := 5 }

def isDeadlineExceeded : Err → Bool
  | .deadlineExceeded => true
  | .leaf _ _ | .goSmtp _ | .smtp _ => false
  | .smtpWrap _ err | .errorf _ err | .temporaryErr err _ | .fieldsWrap err _ =>
    isDeadlineExceeded err

/-- `%03d`. -/
def threeDigits (n : Int) : String :=
  let sign := if n < 0 then "-" else ""
  let digits := toString n.natAbs
  sign ++ "".pushn '0' (3 - sign.length - digits.length) ++ digits

def errorText : Err → String
  | .leaf text _ => text
  | .deadlineExceeded => "context deadline exceeded"
  | .goSmtp e => "SMTP error " ++ threeDigits e.code ++ if e.message = "" then "" else ": " ++ e.message
  | .smtp e => if e.reason ≠ "" then e.reason else e.message
  | .smtpWrap e err => if e.reason ≠ "" then e.reason else errorText err
  | .errorf head err => head ++ errorText err
  | .temporaryErr err _ | .fieldsWrap err _ => errorText err

/-- `SMTPError.Fields`: the named fields override `Misc`. The wrapped error
only supplies the `reason` text. -/
def SMTPError.fields (e : SMTPError) (wrapped : Option String) (key : String) : Option Field :=
  if key = "smtp_code" then some (.int e.code)
  else if key = "smtp_enchcode" then some (.enchCode e.enhancedCode)
  else if key = "smtp_msg" then some (.str e.message)
  else if key = "check" ∧ e.checkName ≠ "" then some (.str e.checkName)
  else if key = "target" ∧ e.targetName ≠ "" then some (.str e.targetName)
  else if key = "reason" ∧ e.reason ≠ "" then some (.str e.reason)
  else if key = "reason" ∧ wrapped.isSome then wrapped.map .str
  else e.misc.lookup key

/-- One layer of `Fields`: a `nil` value counts as absent, and what an outer
error has set is kept. -/
def firstField (outer inner : Option Field) : Option Field :=
  match outer with
  | none | some .nil => inner
  | some v => some v

def fields : Err → String → Option Field
  | .leaf _ _, _ | .deadlineExceeded, _ | .goSmtp _, _ => none
  | .smtp e, key => e.fields none key
  | .smtpWrap e err, key => firstField (e.fields (some (errorText err)) key) (fields err key)
  | .errorf _ err, key | .temporaryErr err _, key => fields err key
  | .fieldsWrap err fs, key => firstField (fs.lookup key) (fields err key)

end Madmail.Exterrors
