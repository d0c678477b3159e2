import Madmail.Proofs.ClientSteps
import Madmail.Proofs.RemoteSteps

namespace Madmail.Proofs.RemoteTransfer
open Exterrors Madmail.Module Remote Smtpconn EndpointCache Lib ClientSteps RemoteSteps List

section Connection
variable (env : Smtpconn.Env)
variable (rcptsTo : List String) (c : C)

def accepted : List String → C → List String
  | [], _ => []
  | rcpt :: rest, c =>
    match c.rcpt env rcpt with
    | (c,some _) => accepted rest c
    | (c,none) => rcpt :: accepted rest c

def sentAs (c : C) (rcpt : String) : String := (c.spelling env rcpt).toOption.getD rcpt

theorem rcpts_list :
    (rcpts env rcptsTo c).1.rcpts = c.rcpts ++ (accepted env rcptsTo c).map (sentAs env c) ∧
      ∀ name, (rcpts env rcptsTo c).1.extension name = c.extension name := by
  induction rcptsTo generalizing c with
  | nil => exact ⟨(append_nil _).symm,fun _ => rfl⟩
  | cons rcpt rest ih =>
    unfold rcpts accepted
    rcases @rcpt_cases env c rcpt with ⟨c',e,heq,hsame⟩ | ⟨c',s,heq,hs,hrcpts,hext⟩
    · obtain ⟨hlist,hext'⟩ := ih c'
      have hsent : sentAs env c' = sentAs env c := funext fun r => by
        rw [sentAs,sentAs,spelling_same hsame]
      rw [heq]
      rw [hlist,hsame.rcpts,hsent]
      exact ⟨rfl,fun name => (hext' name).trans (hsame.extension name)⟩
    · obtain ⟨hlist,hext'⟩ := ih c'
      have hsent : sentAs env c' = sentAs env c := funext fun r => by
        unfold sentAs C.spelling
        rw [hext]
      rw [heq]
      rw [hlist,hrcpts,hsent,map_cons,append_assoc]
      have hhead : sentAs env c rcpt = s := by simp [sentAs,hs,Except.toOption]
      rw [hhead]
      exact ⟨rfl,fun name => (hext' name).trans (hext name)⟩

theorem rejected_mem (h : (x,v) ∈ (rcpts env rcptsTo c).2) : x ∈ rcptsTo ∧ v ≠ none := by
  induction rcptsTo generalizing c with
  | nil => cases h
  | cons rcpt rest ih =>
    unfold rcpts at h
    rcases hx : c.rcpt env rcpt with ⟨c',_ | e⟩ <;> rw [hx] at h
    · obtain ⟨hm,hv⟩ := ih c' h
      exact ⟨mem_cons_of_mem _ hm,hv⟩
    · rcases mem_cons.mp h with heq | h
      · cases heq
        exact ⟨mem_cons_self,Option.some_ne_none _⟩
      · obtain ⟨hm,hv⟩ := ih c' h
        exact ⟨mem_cons_of_mem _ hm,hv⟩

theorem accepted_mem (h : x ∈ accepted env rcptsTo c) :
    x ∈ rcptsTo ∧ ∃ s, c.spelling env x = .ok s := by
  induction rcptsTo generalizing c with
  | nil => cases h
  | cons rcpt rest ih =>
    unfold accepted at h
    rcases @rcpt_cases env c rcpt with ⟨c',e,heq,hsame⟩ | ⟨c',s,heq,hs, -,hext⟩ <;> rw [heq] at h
    · obtain ⟨hm,s,hs⟩ := ih c' h
      exact ⟨mem_cons_of_mem _ hm,s,(spelling_same hsame).symm.trans hs⟩
    · rcases mem_cons.mp h with rfl | h
      · exact ⟨mem_cons_self,s,hs⟩
      · obtain ⟨hm,s',hs'⟩ := ih c' h
        refine ⟨mem_cons_of_mem _ hm,s',?_⟩
        rw [← hs']
        unfold C.spelling
        rw [hext]

theorem accepted_or_rejected (h : x ∈ rcptsTo) :
    x ∈ accepted env rcptsTo c ∨ ∃ v, (x,v) ∈ (rcpts env rcptsTo c).2 := by
  induction rcptsTo generalizing c with
  | nil => cases h
  | cons rcpt rest ih =>
    unfold accepted rcpts
    rcases hx : c.rcpt env rcpt with ⟨c',_ | e⟩
    · rcases mem_cons.mp h with rfl | h
      · exact .inl mem_cons_self
      · exact (ih c' h).imp (mem_cons_of_mem _) id
    · rcases mem_cons.mp h with rfl | h
      · exact .inr ⟨_,mem_cons_self⟩
      · exact (ih c' h).imp id fun ⟨v,hv⟩ => ⟨v,mem_cons_of_mem _ hv⟩

theorem accepted_not_rejected (hn : rcptsTo.Nodup) (c : C) (h : x ∈ accepted env rcptsTo c) :
    (x,v) ∉ (rcpts env rcptsTo c).2 := by
  induction rcptsTo generalizing c with
  | nil => cases h
  | cons rcpt rest ih =>
    obtain ⟨hout,hn⟩ := nodup_cons.mp hn
    unfold accepted at h
    unfold rcpts
    rcases hx : c.rcpt env rcpt with ⟨c',_ | e⟩ <;> rw [hx] at h
    · rcases mem_cons.mp h with rfl | h
      · exact fun hm => hout (rejected_mem env rest c' hm).1
      · exact ih hn c' h
    · have hne : x ≠ rcpt := fun heq => hout (heq ▸ (accepted_mem env rest c' h).1)
      intro hm
      rcases mem_cons.mp hm with heq | hm
      · cases heq
        exact hne rfl
      · exact ih hn c' h hm

def finalErr (conn : MxConn) (rcptsTo : List String) (msg : Message) (reading : Reading) :
    Option Err :=
  match reading.openErr with
  | some e => some e
  | none => ((rcpts env rcptsTo conn.c).1.data env msg.header msg.body reading.copyErr).2

def reported (conn : MxConn) (rcptsTo : List String) : List String :=
  conn.c.rcpts ++ (accepted env rcptsTo conn.c).map (sentAs env conn.c)

theorem transfer_statuses (conn : MxConn) (rcptsTo : List String) (msg : Message)
    (reading : Reading) (now : Int) :
    (transfer env conn rcptsTo msg reading now).2.1 =
      (rcpts env rcptsTo conn.c).2 ++ (reported env conn rcptsTo).map
        (fun rcpt => (rcpt,finalErr env conn rcptsTo msg reading)) := by
  obtain ⟨hlist, -⟩ := rcpts_list env rcptsTo conn.c
  unfold transfer finalErr reported
  cases reading.openErr with
  | some e =>
    dsimp only
    rw [hlist]
  | none =>
    dsimp only
    rw [(data_same _ _ _ _).rcpts,hlist]

end Connection

end Madmail.Proofs.RemoteTransfer
