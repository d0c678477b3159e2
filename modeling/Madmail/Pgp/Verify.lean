import Madmail.Framework.Exterrors
import Madmail.Framework.Module
import Madmail.Lib.Strings

namespace Madmail.PgpVerify
open Exterrors Madmail.Module Lib.Strings

/-- What can be read from an `io.Reader`, and the error it ends with unless that is
`io.EOF`. -/
structure Reader where
  text : String
  err : Option Err := none

structure Part where
  contentType : String
  body : List UInt8
  err : Option Err := none

/-- The functions of the standard library that the code calls. `parts` are the parts
that `NextPart` returns, up to the error it ends with unless that is `io.EOF`. The
payload of an encrypted part is judged by `isValidEncryptedPayload`. -/
structure Text where
  toLower : String → String
  trimSpace : String → String
  decode : List UInt8 → String
  -- the media type and the parameter `boundary`
  parseMediaType : String → Except Err (String × String)
  parts : Reader → String → List Part × Option Err
  isValidEncryptedPayload : List UInt8 → Bool

def get (header : Header) (key : String) : String := (header.lookup key).getD ""

/-- The first part of a Secure-Join message, of which 8 KiB are read. -/
def isIndicator (txt : Text) (part : Part) : Bool :=
  hasPrefix (txt.toLower part.contentType) "text/plain" &&
    (part.err.isNone || 8192 ≤ part.body.length) &&
    hasPrefix (txt.toLower (txt.trimSpace (txt.decode (part.body.take 8192)))) "secure-join:"

def isSecureJoinMessage (txt : Text) (header : Header) (body : Reader) : Bool :=
  let secureJoinHeader := txt.toLower (txt.trimSpace (get header "Secure-Join"))
  let contentType := get header "Content-Type"
  if !hasPrefix secureJoinHeader "vc-" ∧ !hasPrefix secureJoinHeader "vg-" then false
  else if !hasPrefix (txt.toLower contentType) "multipart/" then false
  else
    match txt.parseMediaType contentType with
    | .error _ => false
    | .ok (mediatype,boundary) =>
      if mediatype ≠ "multipart/mixed" ∧ mediatype ≠ "multipart/alternative" then false
      else
        match txt.parts body boundary with
        | ([],_) => false
        | (first :: _,err) => isIndicator txt first && err.isNone

def checkParts (txt : Text) : Nat → List Part → Option Err → Except Err Bool
  | _, [], some e => .error e
  | partsCount, [], none => .ok (partsCount = 2)
  | 0, part :: rest, err =>
    if !hasPrefix (txt.toLower part.contentType) "application/pgp-encrypted" then .ok false
    else
      match part.err with
      | some e => .error e
      | none =>
        if txt.trimSpace (txt.decode part.body) ≠ "Version: 1" then .ok false
        else checkParts txt 1 rest err
  | 1, part :: rest, err =>
    if !hasPrefix (txt.toLower part.contentType) "application/octet-stream" then .ok false
    else
      match part.err with
      | some e => .error e
      | none =>
        if !txt.isValidEncryptedPayload part.body then .ok false else checkParts txt 2 rest err
  | _ + 2, _ :: _, _ => .ok false

def isValidEncryptedMessage (txt : Text) (contentType : String) (body : Reader) : Except Err Bool :=
  match txt.parseMediaType contentType with
  | .error e => .error e
  | .ok (mediatype,boundary) =>
    if mediatype ≠ "multipart/encrypted" then .ok false
    else
      let (parts,err) := txt.parts body boundary
      checkParts txt 0 parts err

def isAcceptedMessage (txt : Text) (header : Header) (body : Reader) : Except Err Bool :=
  match body.err with
  | some e => .error e
  | none =>
    let bodyData : Reader := ⟨body.text,none⟩
    match isValidEncryptedMessage txt (get header "Content-Type") bodyData with
    | .error e => .error e
    | .ok true => .ok true
    | .ok false => .ok (isSecureJoinMessage txt header bodyData)

end Madmail.PgpVerify
