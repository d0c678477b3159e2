import Madmail.Lib.Permits
import Madmail.Proofs.SessionDeliveries

namespace Madmail.Proofs.SessionLimits
open Lib Lib.Permits Exterrors Madmail.Module Smtp SessionDeliveries List

abbrev Key := String × String

def move : Event → Option (Move Key)
  | .takeMsg ip domain => some (.take (ip,domain))
  | .releaseMsg ip domain => some (.give (ip,domain))
  | .abort _ | .commit _ => none

def permitMoves (s : Session) : List (Move Key) := s.events.filterMap move

/-- The permits of a session. What it holds is what was taken for the sender of
the open delivery. -/
def book (s : Session) : Book Key :=
  { moves := permitMoves s
    held := s.delivery.map fun d =>
      (limitIP s.connState,(senderDomain d.envelope.mailFrom).getD "") }

/-- The sender of the open delivery has a domain. -/
def Started (s : Session) : Prop :=
  ∀ d, s.delivery = some d → senderDomain d.envelope.mailFrom ≠ none

section Session
variable {s t : Session} {d : Delivery}

theorem book_congr (h : Alike s t) : book t = book s := by
  have hheld (u : Session) : (book u).held =
      (u.delivery.map (fun d => (d.num,d.envelope.mailFrom))).map
        (fun d => (limitIP u.connState,(senderDomain d.2).getD "")) := by
    simp [book,Function.comp_def]
  have : (book t).held = (book s).held := by rw [hheld,hheld,h.delivery,h.ip]
  simp only [book,permitMoves,h.events] at this ⊢
  rw [this]

theorem started_congr (h : Alike s t) (hs : Started s) : Started t := by
  intro d' hd'
  obtain ⟨d,hd,hsame⟩ := Option.map_eq_some_iff.mp (h.delivery.symm.trans (congrArg _ hd'))
  rw [← (Prod.mk.inj hsame).2]
  exact hs d hd

theorem permitMoves_note : permitMoves (s.note e) = permitMoves s ++ (move e).toList := by
  simp only [permitMoves,Session.note,filterMap_append]
  cases hm : move e <;> simp [hm]

theorem releaseLimits_eq :
    releaseLimits s =
      match senderDomain s.mailFrom with
      | none => s
      | some domain => s.note (.releaseMsg (limitIP s.connState) domain) := by
  unfold releaseLimits senderDomain
  split
  · rfl
  · cases Address.split s.mailFrom <;> rfl

def releaseEffect (s : Session) : Book.Effect Key :=
  match senderDomain s.mailFrom with
  | none => .forget
  | some domain => .give (limitIP s.connState,domain)

theorem book_cleanSession (hd : s.delivery = some d) :
    book (cleanSession s) = (book s).apply (releaseEffect s) := by
  have hclean : book (cleanSession s) = ⟨permitMoves (releaseLimits s),none⟩ := rfl
  rw [hclean,releaseLimits_eq,releaseEffect]
  cases senderDomain s.mailFrom with
  | none => rfl
  | some domain => simp [permitMoves_note,move,Book.apply,book,hd]

theorem lawful_release (hs : Started s) (hd : s.delivery = some d) :
    (book s).Lawful (releaseEffect s) ↔ SameDomain s := by
  obtain ⟨domain,hdomain⟩ := Option.ne_none_iff_exists'.mp (hs d hd)
  have hsame : SameDomain s ↔ senderDomain s.mailFrom = some domain := by
    simp [SameDomain,hd,hdomain]
  rw [hsame,releaseEffect]
  cases senderDomain s.mailFrom with
  | none => simp [Book.Lawful,book,hd]
  | some other => simp [Book.Lawful,book,hd,hdomain,eq_comm]

theorem release_effect (hs : Started s) (hd : s.delivery = some d)
    (ht : t = s ∨ ∃ e, move e = none ∧ t = s.note e) :
    ∃ e, book (cleanSession t) = (book s).apply e ∧ ((book s).Lawful e ↔ SameDomain s) := by
  refine ⟨releaseEffect s,?_,lawful_release hs hd⟩
  rcases ht with rfl | ⟨e,he,rfl⟩
  · exact book_cleanSession hd
  · have hbook : book (s.note e) = book s := by simp [book,permitMoves_note,he]; rfl
    rw [book_cleanSession (s := s.note e) hd,hbook]
    rfl

theorem reset_effect (hs : Started s) :
    ∃ e, book (reset s) = (book s).apply e ∧ ((book s).Lawful e ↔ SameDomain s) := by
  unfold reset
  cases hd : s.delivery with
  | none => exact ⟨.keep,rfl,iff_of_true trivial (by simp [SameDomain,hd])⟩
  | some d => exact release_effect hs hd (Or.inr ⟨.abort d.num,rfl,rfl⟩)

theorem started_reset : Started (reset s) := by
  unfold reset
  cases hd : s.delivery with
  | none =>
    intro d h
    rw [hd] at h
    cases h
  | some d => exact fun _ h => (nomatch h)

/-- What a command does to the permits of the session, and when it is lawful. -/
theorem permit_effect (hs : Started s) (h : Moves finish limits s t) :
    (∃ e, book t = (book s).apply e ∧ ((book s).Lawful e ↔ limits)) ∧ Started t := by
  cases h with
  | kept h hok => exact ⟨⟨.keep,book_congr h,iff_of_true trivial hok.2⟩,started_congr h hs⟩
  | passed domain h hok =>
    refine ⟨⟨.pass (limitIP s.connState,domain),(book_congr h).trans ?_,
      iff_of_true trivial hok.2⟩,started_congr h hs⟩
    simp [book,move,Book.apply,Session.note,permitMoves]
  | started d domain hnum hdomain h hok =>
    refine ⟨⟨.take (limitIP s.connState,domain),(book_congr h).trans ?_,
      by simp [Book.Lawful,book,hok.2]⟩,started_congr h fun d' hd' => ?_⟩
    · simp [book,move,Book.apply,Session.note,permitMoves,hdomain]
    · cases hd'
      simp [hdomain]
  | reset hfinish hlimits =>
    obtain ⟨e,he,hlaw⟩ := reset_effect hs
    exact ⟨⟨e,he,hlaw.trans hlimits.symm⟩,started_reset⟩
  | ended d committed hd hfinish hlimits =>
    obtain ⟨e,he,hlaw⟩ := release_effect (t := if committed then s.note (.commit d.num) else s)
      hs hd (by cases committed; exacts [.inl rfl,.inr ⟨_,rfl,rfl⟩])
    exact ⟨⟨e,he,hlaw.trans hlimits.symm⟩,fun _ h => by cases h⟩

end Session

theorem closed_step (endp : Endpoint) (c : Conn) (input : Env × Command)
    (hc : c.closed = true → c.session.delivery = none) :
    (c.step endp input).closed = true → (c.step endp input).session.delivery = none := by
  obtain ⟨env,cmd⟩ := input
  unfold Conn.step Conn.handle
  by_cases hcl : c.closed = true
  · rw [if_pos hcl]
    exact hc
  · rw [if_neg hcl]
    cases cmd with
    | quit => exact fun _ => reset_delivery _
    | auth _ | mail _ _ | rcpt _ | data | rset =>
      intro h
      refine absurd ?_ hcl
      simp only [Conn.command,Conn.reset] at h
      repeat' split at h
      all_goals exact h

/-- In a session from its first command to its end, every permit is returned
once, under the IP address and the domain it was taken for, and no other is,
exactly if no MAIL starts a delivery while one is open, and whenever a delivery
ends, the sender that the session has noted has the domain of the one that the
delivery was started with. -/
theorem permits_returned_iff (endp : Endpoint) (conn : ConnState) (inputs : List (Env × Command))
    (env : Env) :
    Settled (permitMoves ((inputs ++ [(env,Command.quit)]).foldl (Conn.step endp)
        (Conn.open conn)).session) ↔
      Guarded (Conn.step endp) (LimitsOK endp) (Conn.open conn)
        (inputs ++ [(env,Command.quit)]) := by
  have hrun : (Guarded (Conn.step endp) (LimitsOK endp) (Conn.open conn)
        (inputs ++ [(env,Command.quit)]) → _) ∧ (¬ Guarded (Conn.step endp) (LimitsOK endp)
        (Conn.open conn) (inputs ++ [(env,Command.quit)]) → _) :=
    foldl_of_guarded (P := fun c => Started c.session ∧ (book c.session).Balanced)
      (Q := fun c => Started c.session ∧ (book c.session).Spoiled)
      (fun c input ⟨hs,hb⟩ hok => by
        obtain ⟨⟨e,he,hlaw⟩,hstarted⟩ := permit_effect hs (step_moves endp c input)
        exact ⟨hstarted,he ▸ hb.apply (hlaw.mpr hok)⟩)
      (fun c input ⟨hs,hb⟩ hok => by
        obtain ⟨⟨e,he,hlaw⟩,hstarted⟩ := permit_effect hs (step_moves endp c input)
        exact ⟨hstarted,he ▸ hb.spoil fun h => hok (hlaw.mp h)⟩)
      (fun c input ⟨hs,hq⟩ => by
        obtain ⟨⟨e,he,_⟩,hstarted⟩ := permit_effect hs (step_moves endp c input)
        exact ⟨hstarted,he ▸ hq.apply e⟩)
      ⟨fun _ h => (nomatch h),rfl⟩
  have hover : (book ((inputs ++ [(env,Command.quit)]).foldl (Conn.step endp)
      (Conn.open conn)).session).held = none := by
    have hclosed := List.foldlRecOn (motive := fun c : Conn => c.closed = true →
      c.session.delivery = none) inputs (Conn.step endp) (b := Conn.open conn) (fun h => (nomatch h))
      (fun c hc input _ => closed_step endp c input hc)
    rw [foldl_append,foldl_cons,foldl_nil]
    generalize inputs.foldl (Conn.step endp) (Conn.open conn) = c at hclosed ⊢
    have hquit : (c.step endp (env,.quit)).session.delivery = none := by
      unfold Conn.step Conn.handle
      split
      · rename_i hcl
        exact hclosed hcl
      · exact reset_delivery _
    simp [book,hquit]
  have hsettled := Book.settled_iff hover
  constructor
  · intro h
    by_contra hg
    exact (hrun.2 hg).2.not_balanced (hsettled.mp h)
  · exact fun hg => hsettled.mpr (hrun.1 hg).2

def eager : Endpoint :=
  { Endpoint.plain with
    idna := ⟨.ok,fun text => String.ofList (text.toList.map Char.toLower),fun _ => false⟩
    deferServerReject := false }

/-- The permit for a sender whose domain is written in capitals is not returned. -/
theorem permit_returned_for_other_domain :
    ¬ ∀ (endp : Endpoint) (conn : ConnState) (inputs : List (Env × Command)) (env : Env),
      Settled (permitMoves ((inputs ++ [(env,Command.quit)]).foldl (Conn.step endp)
        (Conn.open conn)).session) := by
  intro h
  have hout := h eager ⟨"mx.example.org",none,""⟩ [(.accepting "m1",.mail "ann@EXAMPLE.ORG" {})]
    (.accepting "m2")
  have hmoves : permitMoves (([(Env.accepting "m1",Command.mail "ann@EXAMPLE.ORG" {})] ++
      [(Env.accepting "m2",Command.quit)]).foldl (Conn.step eager)
        (Conn.open ⟨"mx.example.org",none,""⟩)).session =
      [.take ("127.0.0.1","example.org"),.give ("127.0.0.1","EXAMPLE.ORG")] := rfl
  rw [hmoves] at hout
  simp [Settled,out,outAfter] at hout

end Madmail.Proofs.SessionLimits
