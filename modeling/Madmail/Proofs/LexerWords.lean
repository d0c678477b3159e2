import Madmail.Config.Lexer

namespace Madmail.Proofs.LexerWords
open Cfgparser Lexer

variable {l : Lexer} {c : Char} {s : List Char}

section Quotes

/-- The text of an argument as it stands between quotes. -/
def escapeQuotes (s : List Char) : List Char :=
  s.flatMap fun c => if c = '"' then ['\\',c] else [c]

/-- No quote, and not the end, comes after an odd number of backslashes. The flag tells whether
the number is odd so far. -/
def Writable : Bool → List Char → Prop
  | odd, [] => odd = false
  | odd, c :: s =>
    if c = '\\' then Writable (!odd) s else (c = '"' → odd = false) ∧ Writable false s

theorem tokens_backslash (hq : l.quoted = true) (he : l.escaped = false) :
    l.tokens ('\\' :: s) = tokens { l with escaped := true } s := by
  simp [tokens,rune,hq,he]

theorem tokens_quote (hq : l.quoted = true) (he : l.escaped = false) :
    l.tokens ('"' :: s) = l.token :: l.again.tokens s := by
  simp [tokens,rune,hq,he]

theorem tokens_other (hq : l.quoted = true) (hc : l.escaped = true ∨ c ≠ '\\' ∧ c ≠ '"') :
    l.tokens (c :: s) =
      tokens { l with
        line := l.lineAfter c
        val := l.val ++ if l.escaped ∧ c ≠ '"' then ['\\',c] else [c]
        escaped := false } s := by
  rcases hc with he | ⟨hb,hc⟩
  · simp [tokens,rune,hq,he]
  · simp [tokens,rune,hq,hb,hc]

theorem token_starts (hq : l.quoted = true) (h : l.tokens s = t :: ts) :
    l.val.IsPrefix t.text.toList := by
  induction s generalizing l with
  | nil =>
    unfold tokens at h
    split at h
    · cases h
      simp [token]
    · cases h
  | cons c s ih =>
    by_cases hc : l.escaped = true ∨ c ≠ '\\' ∧ c ≠ '"'
    · rw [tokens_other hq hc] at h
      exact (List.prefix_append _ _).trans (ih (by exact hq) h)
    · simp only [not_or,not_and_or,not_not,Bool.not_eq_true] at hc
      obtain ⟨he,rfl | rfl⟩ := hc
      · rw [tokens_backslash hq he] at h
        exact ih (l := { l with escaped := true }) hq h
      · rw [tokens_quote hq he] at h
        cases h
        simp [token]

def pending (l : Lexer) : List Char := if l.escaped then ['\\'] else []

theorem tokens_quoted (hq : l.quoted = true) (rest : List Char) :
    l.tokens (escapeQuotes s ++ '"' :: rest) =
        { line := l.tokenLine, text := String.ofList (l.val ++ pending l ++ s) } ::
          tokens { line := l.line + s.count '\n', tokenLine := l.tokenLine } rest ↔
      Writable l.escaped s := by
  induction s generalizing l with
  | nil =>
    cases he : l.escaped with
    | false => simp [escapeQuotes,tokens_quote hq he,token,again,pending,he,Writable]
    | true =>
      refine iff_of_false (fun h => ?_) (by simp [Writable])
      -- the closing quote is taken for an escaped one
      have hstart := token_starts (by exact hq) ((tokens_other hq (.inl he)).symm.trans h)
      simp [pending,he] at hstart
  | cons c s ih =>
    have hsplit : escapeQuotes (c :: s) = (if c = '"' then ['\\',c] else [c]) ++ escapeQuotes s := rfl
    rw [hsplit]
    by_cases hb : c = '\\' ∧ l.escaped = false
    · obtain ⟨rfl,he⟩ := hb
      have hnext := ih (l := { l with escaped := true }) hq
      simpa [tokens_backslash hq he,pending,he,Writable] using hnext
    by_cases hc : c = '"'
    · subst hc
      cases he : l.escaped with
      | false =>
        have hnext := ih (l := { l with val := l.val ++ ['"'], escaped := false }) hq
        simpa [tokens_backslash hq he,tokens_other,lineAfter,hq,pending,he,Writable] using hnext
      | true =>
        refine iff_of_false (fun h => ?_) (by simp [Writable])
        simp [tokens_other hq (.inl he),tokens_quote,hq,token,pending,he] at h
        have htext := congrArg String.toList h.1
        simp at htext
    · have hother : l.escaped = true ∨ c ≠ '\\' ∧ c ≠ '"' := by
        cases he : l.escaped <;> simp_all
      have hnext := ih (l := { l with
        line := l.lineAfter c
        val := l.val ++ if l.escaped ∧ c ≠ '"' then ['\\',c] else [c]
        escaped := false }) hq
      have hline : l.line + (c :: s).count '\n' = l.lineAfter c + s.count '\n' := by
        unfold lineAfter
        split <;> simp_all
        omega
      have hval : l.val ++ pending l ++ c :: s =
          (l.val ++ if l.escaped ∧ c ≠ '"' then ['\\',c] else [c]) ++ s := by
        unfold pending
        split <;> simp_all
      have hwritable : Writable l.escaped (c :: s) ↔ Writable false s := by
        cases he : l.escaped <;> simp_all [Writable]
      rw [if_neg hc,List.singleton_append,List.cons_append,tokens_other hq hother,hline,hval,
        hwritable]
      simpa [pending] using hnext

/-- An argument that stands in quotes, with the quotes in it escaped, is read as it is exactly if
no quote in it and not its end comes after an odd number of backslashes. -/
theorem quoted_argument_iff (s rest : List Char) (line last : Nat) :
    tokens { line, tokenLine := last } ('"' :: (escapeQuotes s ++ '"' :: rest)) =
        { line, text := String.ofList s } ::
          tokens { line := line + s.count '\n', tokenLine := line } rest ↔
      Writable false s := by
  have hopen : tokens { line, tokenLine := last } ('"' :: (escapeQuotes s ++ '"' :: rest)) =
      tokens { line, tokenLine := line, quoted := true } (escapeQuotes s ++ '"' :: rest) := by
    simp [tokens,rune,show isSpace '"' = false by decide]
  rw [hopen]
  exact tokens_quoted (l := { line, tokenLine := line, quoted := true }) rfl rest

end Quotes

section Comments

theorem tokens_comment (hq : l.quoted = false) (hc : l.comment = true)
    (h : ∀ c ∈ s, isSpace c = false ∨ c = '\r') : l.tokens (s ++ rest) = l.tokens rest := by
  induction s with
  | nil => rfl
  | cons c s ih =>
    obtain ⟨hfirst,hrest⟩ := List.forall_mem_cons.mp h
    have hsame : l.rune c = (l,none) := by
      cases l
      cases hq
      cases hc
      rcases hfirst with hs | rfl
      · simp [rune,hs]
      · rfl
    rw [List.cons_append,tokens,hsame]
    exact ih hrest

/-- A comment that follows a word directly is left out up to its first white space only. The rest
of the line is read. -/
theorem comment_after_word (hq : l.quoted = false) (hv : l.val ≠ [])
    (hskipped : ∀ c ∈ skipped, isSpace c = false ∨ c = '\r') (hspace : isSpace space = true)
    (hr : space ≠ '\r') (rest : List Char) :
    l.tokens ('#' :: (skipped ++ space :: rest)) =
      l.token :: tokens { line := l.lineAfter space, tokenLine := l.tokenLine } rest := by
  have hmark (text) : l.tokens ('#' :: text) = tokens { l with comment := true } text := by
    simp [tokens,rune,hq,show isSpace '#' = false by decide]
  rw [hmark,tokens_comment (by exact hq) rfl hskipped]
  simp [tokens,rune,lineAfter,hq,hv,hspace,hr,token,again]

theorem comment_after_tls :
    tokens { tokenLine := 1, val := ['t','l','s'] } ('#' :: (['o'] ++ ' ' :: ['x'])) =
      { line := 1, text := String.ofList ['t','l','s'] } ::
        tokens { line := lineAfter {} ' ', tokenLine := 1 } ['x'] :=
  comment_after_word rfl (by simp) (List.forall_mem_singleton.mpr (.inl rfl)) rfl (by simp) ['x']

end Comments

end Madmail.Proofs.LexerWords
