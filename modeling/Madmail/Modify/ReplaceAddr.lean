import Madmail.Framework.Address
import Madmail.Lib.Strings

namespace Madmail.Modify
open Exterrors Address Lib

/-- What `rewrite` is given: the functions on addresses, and the table. -/
structure ReplaceAddr where
  idna : Idna
  idnaToASCII : String → Except Err String
  lookupMulti : String → Except Err (List String)

namespace ReplaceAddr
variable (r : ReplaceAddr)

def valid (addr : String) : Bool := Address.valid r.idna r.idnaToASCII addr

/-- A replacement that is taken for an address, not for a local-part. -/
def isFull (replacement : String) : Bool :=
  Strings.contains replacement '@' && !Strings.hasPrefix replacement "\"" &&
    !Strings.hasSuffix replacement "\""

def complete (domain replacement : String) : Except Err String :=
  if isFull replacement then
    if !r.valid replacement then
      .error (.leaf ("refusing to replace recipient with invalid address " ++ replacement) none)
    else .ok replacement
  else .ok (replacement ++ "@" ++ domain)

/-- `rewrite`, without the value it returns next to an error. -/
def rewrite (val : String) : Except Err (List String) :=
  match forLookup r.idna val with
  | .error e => .error (.leaf ("malformed address: " ++ errorText e) none)
  | .ok normAddr =>
    match r.lookupMulti normAddr with
    | .error e => .error e
    | .ok [] =>
      match split normAddr with
      | .error _ => .ok [val]
      | .ok (mbox,domain) =>
        match r.lookupMulti mbox with
        | .error e => .error e
        | .ok [] => .ok [val]
        | .ok replacements => replacements.mapM (r.complete domain)
    | .ok replacements =>
      match replacements.find? (fun replacement => !r.valid replacement) with
      | some replacement =>
        .error (.leaf ("refusing to replace recipient with the invalid address " ++ replacement) none)
      | none => .ok replacements

end ReplaceAddr

end Madmail.Modify
