import Madmail.Config.Parser

namespace Madmail.Cfgparser

/-- `unicode.IsSpace`. -/
def isSpace (ch : Char) : Bool :=
  (9 ≤ ch.toNat && ch.toNat ≤ 13) || (0x2000 ≤ ch.toNat && ch.toNat ≤ 0x200A) ||
    [0x20,0x85,0xA0,0x1680,0x2028,0x2029,0x202F,0x205F,0x3000].contains ch.toNat

/-- The lexer in a call of `next`, with the variables of the call. -/
structure Lexer where
  line : Nat := 1
  tokenLine : Nat := 0
  val : List Char := []
  comment : Bool := false
  quoted : Bool := false
  escaped : Bool := false

namespace Lexer

def token (l : Lexer) : Token := { line := l.tokenLine, text := String.ofList l.val }

/-- At the start of the following call. -/
def again (l : Lexer) : Lexer := { line := l.line, tokenLine := l.tokenLine }

def lineAfter (l : Lexer) (ch : Char) : Nat := if ch = '\n' then l.line + 1 else l.line

/-- What `next` does with one rune, and the token if it returns. -/
def rune (l : Lexer) (ch : Char) : Lexer × Option Token :=
  if l.quoted then
    if !l.escaped ∧ ch = '\\' then ({ l with escaped := true },none)
    else if !l.escaped ∧ ch = '"' then (l.again,some l.token)
    else
      -- only quotes are escaped
      let chars := if l.escaped ∧ ch ≠ '"' then ['\\',ch] else [ch]
      ({ l with line := l.lineAfter ch, val := l.val ++ chars, escaped := false },none)
  else if isSpace ch then
    if ch = '\r' then (l,none)
    else
      let l := { l with line := l.lineAfter ch, comment := l.comment && ch ≠ '\n' }
      if l.val ≠ [] then (l.again,some l.token) else (l,none)
  else
    let l := { l with comment := l.comment || ch = '#' }
    if l.comment then (l,none)
    else if l.val = [] then
      let l := { l with tokenLine := l.line }
      if ch = '"' then ({ l with quoted := true },none) else ({ l with val := [ch] },none)
    else ({ l with val := l.val ++ [ch] },none)

/-- The tokens that the calls of `next` give up to the end of the input. -/
def tokens (l : Lexer) : List Char → List Token
  | [] => if l.val ≠ [] then [l.token] else []
  | ch :: rest => (l.rune ch).2.toList ++ (l.rune ch).1.tokens rest

end Lexer

end Madmail.Cfgparser
