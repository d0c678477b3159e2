import Madmail.Framework.Exterrors

namespace Madmail.Address
open Exterrors

/-- The functions on text that the code is given: `idna.ToUnicode`,
normalization to NFC followed by lower-casing, and whether `net.ParseIP` accepts
a string. -/
structure Idna where
  toUnicode : String → Except Err String
  nfcLower : String → String
  isIP : String → Bool

/-- `strings.EqualFold(addr, "postmaster")`: besides the case, the long s folds
to an s. -/
def isPostmaster (addr : String) : Bool :=
  addr.toList.map (fun c => if c = 'ſ' then 's' else c.toLower) = "postmaster".toList

def split (addr : String) : Except Err (String × String) :=
  if isPostmaster addr then .ok (addr,"")
  else if '@' ∉ addr.toList then .error (.leaf "address: missing at-sign" none)
  else
    let rev := addr.toList.reverse
    let mailbox := String.ofList (rev.dropWhile (· ≠ '@')).tail.reverse
    let domain := String.ofList (rev.takeWhile (· ≠ '@')).reverse
    if mailbox = "" then .error (.leaf "address: empty local-part" none)
    else if domain = "" then .error (.leaf "address: empty domain" none)
    else .ok (mailbox,domain)

def cleanDomain (idna : Idna) (addr : String) : Except Err String :=
  if addr = "" then .ok ""
  else
    match split addr with
    | .error e => .error e
    | .ok (mbox,domain) =>
      match idna.toUnicode domain with
      | .error e => .error e
      | .ok uDomain => .ok (if domain = "" then mbox else mbox ++ "@" ++ idna.nfcLower uDomain)

/-- `dns.ForLookup`, for a domain that is a bracketed address or a name. -/
def domainForLookup (idna : Idna) (domain : String) : Except Err String :=
  let chars := domain.toList
  if chars.head? = some '[' ∧ chars.getLast? = some ']' ∧
      idna.isIP (String.ofList chars.tail.dropLast) then .ok domain
  else
    match idna.toUnicode domain with
    | .error e => .error e
    | .ok uDomain =>
      let folded := (idna.nfcLower uDomain).toList
      .ok (String.ofList (if folded.getLast? = some '.' then folded.dropLast else folded))

/-- `address.ForLookup`, without the value it returns next to an error. -/
def forLookup (idna : Idna) (addr : String) : Except Err String :=
  if addr = "" then .ok ""
  else
    match split addr with
    | .error e => .error e
    | .ok (mbox,domain) =>
      if domain = "" then .ok (idna.nfcLower mbox)
      else
        match domainForLookup idna domain with
        | .error e => .error e
        | .ok domain =>
          .ok (if domain = "" then idna.nfcLower mbox else idna.nfcLower mbox ++ "@" ++ domain)

/-- `IsASCII`, with the bound that the source has. -/
def isASCII (s : String) : Bool := s.toList.all (fun ch => ch.toNat ≤ 128)

/-- `address.ToASCII`, without the value it returns next to an error. -/
def toASCII (idnaToASCII : String → Except Err String) (addr : String) : Except Err String :=
  match split addr with
  | .error e => .error e
  | .ok (mbox,domain) =>
    if !isASCII mbox then
      .error (.leaf "address: cannot convert the Unicode local-part to the ACE form" none)
    else if domain = "" then .ok mbox
    else
      match idnaToASCII domain with
      | .error e => .error e
      | .ok aDomain => .ok (mbox ++ "@" ++ aDomain)

/-- The loop of `UnquoteMbox` over the rest of a local-part. -/
def unquote (quoted escaped terminatedQuote : Bool) (out : List Char) :
    List Char → Except Err (List Char)
  | [] => .ok out.reverse
  | ch :: rest =>
    if terminatedQuote then
      .error (.leaf "address: closing quote should be right before at-sign" none)
    else if ch = '"' ∧ !escaped then unquote (!quoted) false quoted out rest
    else if ch = '\\' ∧ !escaped then
      if !quoted then .error (.leaf "address: escapes are allowed only in quoted strings" none)
      else unquote quoted true false out rest
    else if ch = '@' ∧ !quoted then
      .error (.leaf "address: extra at-sign in non-quoted local-part" none)
    else unquote quoted false false (ch :: out) rest

def unquoteMbox (mbox : String) : Except Err String :=
  match unquote false false false [] mbox.toList with
  | .error e => .error e
  | .ok [] => .error (.leaf "address: empty local part" none)
  | .ok raw => .ok (String.ofList raw)

/-- What `range` gives for a string of octets: its characters, and U+FFFD for each octet
that belongs to none. -/
def rangeRunes : Nat → ByteArray → List Char
  | 0, _ => []
  | fuel + 1, octets =>
    if octets.size = 0 then []
    else
      match octets.utf8DecodeChar? 0 with
      | some ch => ch :: rangeRunes fuel (octets.extract ch.utf8Size octets.size)
      | none => '\uFFFD' :: rangeRunes fuel (octets.extract 1 octets.size)

/-- `UnquoteMbox` of a string that need not be valid UTF-8. -/
def unquoteOctets (mbox : ByteArray) : Except Err String :=
  unquoteMbox (String.ofList (rangeRunes mbox.size mbox))

def mboxSpecial : List Char := "()<>[]:;@\\,\" ".toList

/-- What the loop of `QuoteMbox` writes for a character. -/
def escape (ch : Char) : List Char := if ch = '\\' ∨ ch = '"' then ['\\',ch] else [ch]

def quoteMbox (mbox : String) : String :=
  if mbox.toList.any (· ∈ mboxSpecial) then
    String.ofList ('"' :: mbox.toList.flatMap escape ++ ['"'])
  else mbox

def validGraphic : List Char := "!#$%&'*+-/=?^_`\x7b|\x7d~.".toList

def validMailboxName (mbox : String) : Bool :=
  if mbox.toList.head? = some '"' then
    match unquoteMbox mbox with
    | .error _ => false
    | .ok raw => raw.toList.all (fun ch => ' ' ≤ ch && ch.toNat != 0x7F)
  else
    mbox.toList.all (fun ch => ch ∈ validGraphic || ch.isAlphanum || ch.toNat > 0x7F)

/-- `ValidDomain`. Lengths are in bytes. -/
def validDomain (idna : Idna) (idnaToASCII : String → Except Err String) (domain : String) : Bool :=
  let chars := domain.toList
  if chars.head? = some '[' ∧ chars.getLast? = some ']' then
    idna.isIP (String.ofList chars.tail.dropLast)
  else if domain.utf8ByteSize > 255 ∨ domain.utf8ByteSize = 0 then false
  else if chars.head? = some '.' then false
  else if chars.tails.any (fun rest => ['.','.'].isPrefixOf rest) then false
  else
    match idnaToASCII domain with
    | .error _ => false
    | .ok domainASCII =>
      (domainASCII.toList.splitOn '.').all (fun label => (String.ofList label).utf8ByteSize ≤ 64)

def valid (idna : Idna) (idnaToASCII : String → Except Err String) (addr : String) : Bool :=
  if addr.utf8ByteSize > 320 then false
  else
    match split addr with
    | .error _ => false
    | .ok (mbox,domain) =>
      domain = "" || (validMailboxName mbox && validDomain idna idnaToASCII domain)

end Madmail.Address
