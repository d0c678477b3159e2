import Madmail.Framework.Exterrors
import Madmail.Lib.Strings

namespace Madmail.EndpointCache
open Exterrors Lib

/-- `endpoint_cache.Cache`: the query for the row of a key, next to the functions
on text that the code is given. -/
structure Cache where
  find : String → Except Err (Option String)
  toLower : String → String
  -- whether `net.ParseIP` accepts a string
  isIP : String → Bool

/-- The text without the prefix that marks an IPv6 address literal. -/
def stripIPv6 (toLower : String → String) (s : String) : String :=
  if Strings.hasPrefix (toLower s) "ipv6:" then String.ofList (Strings.dropBytes 5 s.toList) else s

def Cache.normalizeKey (c : Cache) (key : String) : String :=
  let k := Strings.trimSuffix (Strings.trimPrefix key "[") "]"
  let k := stripIPv6 c.toLower k
  c.toLower (Strings.trimSuffix k ".")

/-- The override of a key. A query that fails is taken for a miss. -/
def Cache.override (c : Cache) (key : String) : Option String :=
  match c.find (c.normalizeKey key) with
  | .ok row => row
  | .error _ => none

def Cache.resolve (c : Cache) (key : String) : String :=
  match c.override key with
  | some target => target
  | none => if c.isIP (c.normalizeKey key) then c.normalizeKey key else ""

/-- `ResolveMX` as far as its caller uses it: the target of an override. The
lookup that follows a miss is dropped and made again. -/
def Cache.resolveMX (c : Cache) (domain : String) : Option String := c.override domain

end Madmail.EndpointCache
