import Madmail.Smtpconn.Conn

namespace Madmail.Proofs.ClientSteps
open Exterrors Madmail.Module Smtpconn

variable {env : Smtpconn.Env} {c c' : C}

/-- What a client goes by when it spells addresses, and what it keeps of them. -/
structure SameList (c c' : C) : Prop where
  rcpts : c'.rcpts = c.rcpts
  extension : ∀ name, c'.extension name = c.extension name

theorem SameList.refl (c : C) : SameList c c := ⟨rfl,fun _ => rfl⟩

theorem SameList.trans (h : SameList a b) (h' : SameList b c) : SameList a c :=
  ⟨h'.rcpts.trans h.rcpts,fun name => (h'.extension name).trans (h.extension name)⟩

theorem ask_same (c : C) (cmd : Command) (hcmd : ∀ hostname, cmd ≠ .hello hostname) :
    SameList c (c.ask cmd).1 := by
  unfold C.ask
  cases hc : c.cl with
  | none => exact .refl c
  | some cl =>
    refine ⟨rfl,fun name => ?_⟩
    simp only [C.extension,hc]
    unfold Client.send
    split
    · rfl
    · split
      · exact absurd rfl (hcmd _)
      · rfl

theorem mail_same : SameList c (c.mail env mailFrom opts).1 := by
  unfold C.mail
  dsimp only
  split
  · exact .refl c
  · exact ask_same c _ nofun

theorem data_same (c : C) (header : Header) (body : String) (copyErr : Option Err) :
    SameList c (c.data env header body copyErr).1 := by
  have hdata := ask_same c .data nofun
  unfold C.data C.wrapped
  rcases hx : c.ask .data with ⟨c₁,_ | e⟩ <;> rw [hx] at hdata
  · cases copyErr with
    | some e => exact hdata
    | none => exact hdata.trans (ask_same c₁ _ nofun)
  · exact hdata

theorem spelling_same (h : SameList c c') : c'.spelling env rcptTo = c.spelling env rcptTo := by
  unfold C.spelling
  rw [h.extension]

theorem rcpt_cases (c : C) (rcptTo : String) :
    (∃ c' e, c.rcpt env rcptTo = (c',some e) ∧ SameList c c') ∨
    ∃ c' s, c.rcpt env rcptTo = (c',none) ∧ c.spelling env rcptTo = .ok s ∧
      c'.rcpts = c.rcpts ++ [s] ∧ ∀ name, c'.extension name = c.extension name := by
  unfold C.rcpt
  cases hs : c.spelling env rcptTo with
  | error e => exact .inl ⟨_,_,rfl,.refl c⟩
  | ok s =>
    have hask := ask_same c (.rcpt s) nofun
    dsimp only [C.wrapped]
    rcases hx : c.ask (.rcpt s) with ⟨c₁,_ | e⟩ <;> rw [hx] at hask
    · refine .inr ⟨_,s,rfl,rfl,?_,hask.extension⟩
      rw [← hask.rcpts]
    · exact .inl ⟨_,_,rfl,hask⟩

theorem toASCII_ascii (h : Address.toASCII env.idnaToASCII addr = .ok ace) :
    Address.isASCII ace = true := by
  unfold Address.toASCII at h
  split at h
  · cases h
  · split at h
    · cases h
    · rename_i mbox dom _ hmbox
      have hm : Address.isASCII mbox = true := by simpa using hmbox
      split at h
      · cases h
        exact hm
      · split at h
        · cases h
        · rename_i aDomain hace
          cases h
          have ha := env.idnaToASCII_ascii _ _ hace
          unfold Address.isASCII at hm ha ⊢
          simp only [String.toList_append,List.all_append,hm,ha]
          rfl

theorem spelling_cases (h : c.spelling env x = .ok s) :
    (s = x ∧ (Address.isASCII x = true ∨ c.extension "SMTPUTF8" = true)) ∨
    (Address.isASCII s = true ∧ Address.isASCII x = false ∧ c.extension "SMTPUTF8" = false) := by
  unfold C.spelling at h
  cases ha : Address.isASCII x with
  | true =>
    rw [ha] at h
    cases h
    exact .inl ⟨rfl,.inl rfl⟩
  | false =>
    cases hu : c.extension "SMTPUTF8" with
    | true =>
      rw [ha,hu] at h
      cases h
      exact .inl ⟨rfl,.inr rfl⟩
    | false =>
      rw [ha,hu] at h
      exact .inr ⟨toASCII_ascii h,rfl,rfl⟩

end Madmail.Proofs.ClientSteps
