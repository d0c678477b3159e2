import Madmail.Endpoint.Chatmail
import Madmail.Remote.EndpointCache

namespace Madmail.Remote
open Exterrors Madmail.Module Lib Chatmail EndpointCache

structure Message where
  header : Header
  body : String

/-- What came of sending a request: whether a part of the message went out with
it, and the code of the answer. -/
structure Exchange where
  transmitted : Bool
  code : Except Err Nat

/-- What a delivery meets when it makes HTTP requests: whether the body can be
opened for the request to a URL, the text of a header, and what a request comes
to. -/
structure HttpEnv where
  openBody : String → Option Err
  writeHeader : Header → String
  send : String → Request → Exchange

structure HttpConfig where
  endpointRewrite : String
  endpointCache : Option Cache

def buildRewriteURL (raw : String) : String :=
  let raw := if (Strings.after raw "://").isNone then "https://" ++ raw else raw
  let afterScheme := ((Strings.after raw "://").getD "").toList
  let path := afterScheme.dropWhile (· ≠ '/')
  if path = [] ∨ path = ['/'] then Strings.trimRight raw ['/'] ++ "/mxdeliv" else raw

def httpHost (cfg : HttpConfig) (domain : String) : String :=
  let host := Strings.trimSuffix (Strings.trimPrefix domain "[") "]"
  let host := match cfg.endpointCache with
    | none => host
    | some cache =>
      let resolved := cache.resolve host
      if resolved ≠ "" ∧ resolved ≠ host then resolved else host
  if Strings.contains host ':' then "[" ++ host ++ "]" else host

def httpURLs (cfg : HttpConfig) (domain : String) : List String :=
  if cfg.endpointRewrite ≠ "" then [buildRewriteURL cfg.endpointRewrite]
  else
    let host := httpHost cfg domain
    ["https://" ++ host ++ "/mxdeliv","http://" ++ host ++ "/mxdeliv"]

def httpRequest (env : HttpEnv) (mailFrom : String) (rcpts : List String) (msg : Message) : Request :=
  { method := "POST"
    mailFrom := mailFrom
    mailTo := rcpts
    body := .ok (env.writeHeader msg.header ++ msg.body) }

/-- The error that `client.Do` or the code of the answer stands for. -/
def answerErr : Except Err Nat → Option Err
  | .error err => some err
  | .ok 200 => none
  | .ok code => some (.leaf ("HTTP " ++ toString code) none)

@[simp]
theorem answerErr_none_iff : answerErr res = none ↔ res = .ok 200 := by
  unfold answerErr
  split <;> simp_all

/-- `doHTTPRequestURL`: whether the message went out, and the error. -/
def doHTTPRequestURL (env : HttpEnv) (mailFrom : String) (rcpts : List String) (msg : Message)
    (url : String) : Bool × Option Err :=
  match env.openBody url with
  | some err => (false,some err)
  | none =>
    let ex := env.send url (httpRequest env mailFrom rcpts msg)
    (ex.transmitted,answerErr ex.code)

/-- The URLs that a request was made for, each with whether the message went out,
and the error of the last one. -/
structure Tried where
  requests : List (String × Bool) := []
  err : Option Err

def tryURLs (env : HttpEnv) (mailFrom : String) (rcpts : List String) (msg : Message) :
    List String → Tried
  | [] => { err := some (.leaf "no URL" none) }
  | url :: rest =>
    match doHTTPRequestURL env mailFrom rcpts msg url with
    | (sent,none) => { requests := [(url,sent)], err := none }
    | (sent,some err) =>
      match rest with
      | [] => { requests := [(url,sent)], err := some err }
      | _ :: _ =>
        let tried := tryURLs env mailFrom rcpts msg rest
        { tried with requests := (url,sent) :: tried.requests }

def tryHTTP (cfg : HttpConfig) (env : HttpEnv) (mailFrom domain : String) (rcpts : List String)
    (msg : Message) : Tried :=
  tryURLs env mailFrom rcpts msg (httpURLs cfg domain)

abbrev Status := String × Option Err

/-- The statuses that `BodyNonAtomic` sets for a domain once HTTP has delivered
the message. -/
def httpStatuses (tried : Tried) (rcpts : List String) : List Status :=
  match tried.err with
  | none => rcpts.map (fun rcpt => (rcpt,none))
  | some _ => []

end Madmail.Remote
