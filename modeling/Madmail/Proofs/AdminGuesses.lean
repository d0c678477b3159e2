import Madmail.Api.Admin
import Madmail.Lib.Holdings

namespace Madmail.Proofs.AdminGuesses
open Lib Admin Server List

/-- A request that has passed the check of the limit and is not noted as a failure or a
success yet. -/
def underway : Place → Bool
  | .admitted _ | .matched | .failed => true
  | .entered _ | .returned _ => false

def isFailed (place : Place) : Bool := place = .failed

def weight (counts : Place → Bool) (ip : String) (p : Pending) : Nat :=
  if p.ip = ip ∧ counts p.place then 1 else 0

def held (counts : Place → Bool) (ip : String) (s : Server) : Nat :=
  (s.requests.map (weight counts ip)).sum

def guessed (ip : String) (T : Int) (s : Server) : Nat :=
  s.guesses.countP fun e => e.1 = ip ∧ T ≤ e.2 ∧ e.2 < T + minute

def Quiet (ip : String) (T : Int) (s : Server) : Prop :=
  ∀ e ∈ s.successes, e.1 = ip → ¬ (T ≤ e.2 ∧ e.2 < T + minute)

def recorded (ip : String) (T : Int) (s : Server) : Nat :=
  (s.handler.lastAttempts ip).countP fun t => T ≤ t

inductive Acts (s : Server) : Server → Prop where
  | arrive (ip : String) (place : Place) (hplace : underway place = false) :
      Acts s { s with requests := s.requests ++ [⟨ip,place⟩] }
  | pass (i : Nat) (ip token : String) (hi : s.requests[i]? = some ⟨ip,.entered token⟩)
      (hlen : (recent s.clock (s.handler.lastAttempts ip)).length < 10) :
      Acts s ({ s with handler := (s.handler.checkRateLimit ip s.clock).1 }.move i
        ⟨ip,.entered token⟩ (.admitted token))
  | refuse (i : Nat) (ip token : String) (hi : s.requests[i]? = some ⟨ip,.entered token⟩) :
      Acts s ({ s with handler := (s.handler.checkRateLimit ip s.clock).1 }.move i
        ⟨ip,.entered token⟩ (.returned false))
  | right (i : Nat) (ip token : String) (hi : s.requests[i]? = some ⟨ip,.admitted token⟩) :
      Acts s (s.move i ⟨ip,.admitted token⟩ .matched)
  | wrong (i : Nat) (ip token : String) (hi : s.requests[i]? = some ⟨ip,.admitted token⟩) :
      Acts s ({ s with guesses := (ip,s.clock) :: s.guesses }.move i ⟨ip,.admitted token⟩ .failed)
  | clear (i : Nat) (ip : String) (hi : s.requests[i]? = some ⟨ip,.matched⟩) :
      Acts s ({ s with
          handler := s.handler.clearFailedAttempts ip
          successes := (ip,s.clock) :: s.successes }.move i ⟨ip,.matched⟩ (.returned true))
  | record (i : Nat) (ip : String) (hi : s.requests[i]? = some ⟨ip,.failed⟩) :
      Acts s ({ s with handler := s.handler.recordFailedAttempt ip s.clock }.move i ⟨ip,.failed⟩
        (.returned false))
  | cleanup : Acts s { s with handler := s.handler.cleanupRateLimitEntries s.clock }

variable {ip : String} {T : Int} {k i : Nat} {s t : Server} {p : Pending} {place : Place}
  {counts : Place → Bool}

theorem acts_of_act (h : s.act a = some t) : Acts s t := by
  revert h
  fun_cases Server.act s a <;> intro h <;> cases h
  · rename_i req place
    refine .arrive _ place ?_
    simp only [place]
    split <;> rfl
  · rename_i i ip token hi handler allowed hcheck
    cases hcheck
    by_cases hlen : (recent s.clock (s.handler.lastAttempts ip)).length < 10
    · simpa [Handler.checkRateLimit,hlen] using Acts.pass i ip token hi hlen
    · simpa [Handler.checkRateLimit,hlen] using Acts.refuse i ip token hi
  · exact .right _ _ _ ‹_›
  · exact .wrong _ _ _ ‹_›
  · exact .clear _ _ ‹_›
  · exact .record _ _ ‹_›
  · exact .cleanup

theorem acts_of_step (h : s.step a = some t) : s.clock ≤ a.1 ∧ Acts { s with clock := a.1 } t := by
  unfold step at h
  split at h
  · rename_i hclock
    exact ⟨hclock,acts_of_act h⟩
  · cases h

theorem held_move (counts : Place → Bool) (ip : String) (h : s.requests[i]? = some p)
    (place : Place) :
    held counts ip (s.move i p place) + weight counts ip p =
      held counts ip s + weight counts ip { p with place } :=
  sum_map_set (weight counts ip) { p with place } h

theorem held_concat :
    held counts ip { s with requests := s.requests ++ [p] } = held counts ip s + weight counts ip p := by
  simp [held]

theorem weight_failed_le (ip : String) (p : Pending) : weight isFailed ip p ≤ weight underway ip p := by
  unfold weight
  split
  · rename_i h
    have hfailed : p.place = .failed := by simpa [isFailed] using h.2
    simp [h.1,hfailed,underway]
  · exact Nat.zero_le _

theorem held_failed_le (ip : String) (s : Server) : held isFailed ip s ≤ held underway ip s := by
  unfold held
  induction s.requests with
  | nil => exact Nat.le_refl _
  | cons p requests ih =>
    have hp := weight_failed_le ip p
    simp only [map_cons,sum_cons]
    omega

theorem countP_recent_le :
    (recent now attempts).countP (fun t => T ≤ t) ≤ attempts.countP fun t => T ≤ t := by
  rw [recent,countP_filter]
  exact countP_mono_left fun t _ h => by
    simp only [Bool.and_eq_true] at h
    exact h.1

theorem countP_recent (h : now < T + minute) :
    (recent now attempts).countP (fun t => T ≤ t) = attempts.countP fun t => T ≤ t := by
  rw [recent,countP_filter]
  apply countP_congr
  intro t _
  simp only [Bool.and_eq_true,decide_eq_true_eq]
  omega

inductive Effect (ip : String) (T : Int) (s t : Server) : Prop where
  | other (hrec : recorded ip T t ≤ recorded ip T s)
      (hkept : s.clock < T + minute → recorded ip T t = recorded ip T s)
      (hheld : held underway ip t = held underway ip s)
      (hfailed : held isFailed ip t = held isFailed ip s)
      (hguessed : guessed ip T t = guessed ip T s)
  | pass (hrec : recorded ip T t ≤ 9)
      (hkept : s.clock < T + minute → recorded ip T t = recorded ip T s)
      (hfailed : held isFailed ip t = held isFailed ip s)
      (hguessed : guessed ip T t = guessed ip T s)
  | guess (hrec : recorded ip T t = recorded ip T s) (hheld : held underway ip t = held underway ip s)
      (hfailed : held isFailed ip t = held isFailed ip s + 1)
      (hguessed : guessed ip T t ≤ guessed ip T s + 1)
      (hlate : ¬ s.clock < T + minute → guessed ip T t = guessed ip T s)
  | clear (hrec : recorded ip T t ≤ recorded ip T s)
      (hheld : held underway ip t ≤ held underway ip s)
      (hsuccess : (ip,s.clock) ∈ t.successes) (hguessed : guessed ip T t = guessed ip T s)
  | record (hrec : recorded ip T t ≤ recorded ip T s + 1)
      (hkept : T ≤ s.clock → recorded ip T t = recorded ip T s + 1)
      (hheld : held underway ip t + 1 = held underway ip s)
      (hfailed : held isFailed ip t + 1 = held isFailed ip s)
      (hguessed : guessed ip T t = guessed ip T s)

theorem held_move_same (h : s.requests[i]? = some p)
    (hw : p.ip = ip → counts place = counts p.place) :
    held counts ip (s.move i p place) = held counts ip s := by
  have hmove := held_move counts ip h place
  have hweight : weight counts ip { p with place } = weight counts ip p := by
    unfold weight
    by_cases hip : p.ip = ip
    · simp [hip,hw hip]
    · simp [hip]
  omega

theorem held_move_out (h : s.requests[i]? = some p) (hp : counts p.place = true)
    (hplace : counts place = false) :
    held counts p.ip (s.move i p place) + 1 = held counts p.ip s := by
  have hmove := held_move counts p.ip h place
  simpa [weight,hp,hplace] using hmove

theorem held_move_in (h : s.requests[i]? = some p) (hp : counts p.place = false)
    (hplace : counts place = true) :
    held counts p.ip (s.move i p place) = held counts p.ip s + 1 := by
  have hmove := held_move counts p.ip h place
  simpa [weight,hp,hplace] using hmove

theorem recorded_update (ip ip' : String) (T : Int) (s : Server) (attempts : List Int) :
    recorded ip T { s with handler :=
        { s.handler with lastAttempts := Function.update s.handler.lastAttempts ip' attempts } } =
      if ip' = ip then attempts.countP fun t => T ≤ t else recorded ip T s := by
  unfold recorded
  by_cases h : ip' = ip
  · subst h
    simp
  · simp [h,Function.update_of_ne (Ne.symm h)]

theorem effect_of_acts (ip : String) (T : Int) (h : Acts s t) : Effect ip T s t := by
  cases h with
  | arrive ip' place hplace =>
    refine .other (Nat.le_refl _) (fun _ => rfl) ?_ ?_ rfl
    · rw [held_concat]
      simp [weight,hplace]
    · have hle := weight_failed_le ip ⟨ip',place⟩
      have hzero : weight underway ip ⟨ip',place⟩ = 0 := by simp [weight,hplace]
      rw [held_concat]
      omega
  | pass i ip' token hi hlen =>
    have hrec := recorded_update ip ip' T s (recent s.clock (s.handler.lastAttempts ip'))
    by_cases hip : ip' = ip
    · subst hip
      rw [if_pos rfl] at hrec
      refine .pass ?_ (fun hc => ?_) (held_move_same hi fun _ => rfl) rfl
      · have hle : (recent s.clock (s.handler.lastAttempts ip')).countP (fun t => T ≤ t) ≤ _ :=
          countP_le_length
        exact hrec.trans_le (by omega)
      · exact hrec.trans (countP_recent hc)
    · rw [if_neg hip] at hrec
      exact .other (Nat.le_of_eq hrec) (fun _ => hrec) (held_move_same hi fun he => absurd he hip)
        (held_move_same hi fun _ => rfl) rfl
  | refuse i ip' token hi =>
    have hrec := recorded_update ip ip' T s (recent s.clock (s.handler.lastAttempts ip'))
    refine .other ?_ (fun hc => ?_) (held_move_same hi fun _ => rfl)
      (held_move_same hi fun _ => rfl) rfl
    · apply hrec.trans_le
      split
      · rename_i hip
        subst hip
        exact countP_recent_le
      · exact Nat.le_refl _
    · apply hrec.trans
      split
      · rename_i hip
        subst hip
        exact countP_recent hc
      · rfl
  | right i ip' token hi =>
    exact .other (Nat.le_refl _) (fun _ => rfl) (held_move_same hi fun _ => rfl)
      (held_move_same hi fun _ => rfl) rfl
  | wrong i ip' token hi =>
    by_cases hip : ip' = ip
    · subst hip
      refine .guess rfl (held_move_same hi fun _ => rfl) (held_move_in hi rfl rfl) ?_ ?_
      · simp only [guessed,move,countP_cons]
        refine Nat.add_le_add_left ?_ _
        split <;> omega
      · intro hlate
        simp [guessed,move,hlate]
    · refine .other (Nat.le_refl _) (fun _ => rfl) (held_move_same hi fun _ => rfl)
        (held_move_same hi fun he => absurd he hip) ?_
      simp [guessed,move,hip]
  | clear i ip' hi =>
    have hrec := recorded_update ip ip' T s []
    by_cases hip : ip' = ip
    · subst hip
      rw [if_pos rfl] at hrec
      refine .clear (hrec.trans_le (Nat.zero_le _)) ?_ mem_cons_self rfl
      exact Nat.le_of_succ_le (Nat.le_of_eq (held_move_out hi rfl rfl))
    · rw [if_neg hip] at hrec
      exact .other (Nat.le_of_eq hrec) (fun _ => hrec) (held_move_same hi fun he => absurd he hip)
        (held_move_same hi fun _ => rfl) rfl
  | record i ip' hi =>
    have hrec := recorded_update ip ip' T s (s.handler.lastAttempts ip' ++ [s.clock])
    by_cases hip : ip' = ip
    · subst hip
      rw [if_pos rfl,countP_append,countP_singleton] at hrec
      refine .record ?_ (fun hc => ?_) (held_move_out hi rfl rfl) (held_move_out hi rfl rfl) rfl
      · refine hrec.trans_le (Nat.add_le_add_left ?_ _)
        split <;> omega
      · rw [if_pos (by simpa using hc)] at hrec
        exact hrec
    · rw [if_neg hip] at hrec
      exact .other (Nat.le_of_eq hrec) (fun _ => hrec) (held_move_same hi fun he => absurd he hip)
        (held_move_same hi fun he => absurd he hip) rfl
  | cleanup =>
    refine .other countP_recent_le (fun hc => countP_recent hc) rfl rfl rfl

theorem acts_keeps (h : Acts s t) :
    t.clock = s.clock ∧ (∀ e ∈ s.successes, e ∈ t.successes) ∧
      ∀ e ∈ t.guesses, e ∈ s.guesses ∨ e.2 = s.clock := by
  cases h with
  | wrong i ip token hi =>
    refine ⟨rfl,fun e he => he,fun e he => ?_⟩
    rcases mem_cons.mp he with rfl | he
    · exact .inr rfl
    · exact .inl he
  | clear i ip hi => exact ⟨rfl,fun e he => mem_cons_of_mem _ he,fun e he => .inl he⟩
  | _ => exact ⟨rfl,fun e he => he,fun e he => .inl he⟩

/-- The room that the requests under way leave, and what is on record of the guesses. -/
structure Inv (ip : String) (T : Int) (k : Nat) (s : Server) : Prop where
  room : recorded ip T s + held underway ip s ≤ 9 + k
  past : ∀ e ∈ s.guesses, e.2 ≤ s.clock
  accounted : Quiet ip T s → s.clock < T + minute →
    guessed ip T s ≤ recorded ip T s + held isFailed ip s
  bounded : Quiet ip T s → guessed ip T s ≤ 9 + k

theorem guessed_eq_zero (hpast : ∀ e ∈ s.guesses, e.2 ≤ s.clock) (h : s.clock < T) :
    guessed ip T s = 0 := by
  apply countP_eq_zero.mpr
  intro e he
  have := hpast e he
  simp only [decide_eq_true_eq]
  omega

theorem inv_start (token : String) (clock : Int) : Inv ip T k (start token clock) where
  room := by simp [recorded,held,start]
  past := by simp [start]
  accounted _ _ := by simp [guessed,start]
  bounded _ := by simp [guessed,start]

theorem inv_clock (h : Inv ip T k s) (hnow : s.clock ≤ now) :
    Inv ip T k { s with clock := now } where
  room := h.room
  past e he := Int.le_trans (h.past e he) hnow
  accounted hq hc := h.accounted hq (Int.lt_of_le_of_lt hnow hc)
  bounded := h.bounded

theorem inv_acts (h : Inv ip T k s) (ha : Acts s t) (hk : held underway ip t ≤ k) :
    Inv ip T k t := by
  obtain ⟨hclock,hsucc,hguess⟩ := acts_keeps ha
  have hquiet : Quiet ip T t → Quiet ip T s := fun hq e he => hq e (hsucc e he)
  have hpast : ∀ e ∈ t.guesses, e.2 ≤ t.clock := by
    intro e he
    rw [hclock]
    exact (hguess e he).elim (h.past e) fun he => Int.le_of_eq he
  have hbound : Quiet ip T t → guessed ip T s ≤ 9 + k := fun hq => h.bounded (hquiet hq)
  have hacc : Quiet ip T t → s.clock < T + minute →
      guessed ip T s ≤ recorded ip T s + held isFailed ip s := fun hq => h.accounted (hquiet hq)
  have hfailed := held_failed_le ip t
  have hroom := h.room
  cases effect_of_acts ip T ha with
  | other hrec hkept hheld hfail hgue | pass hrec hkept hfail hgue =>
    refine ⟨by omega,hpast,fun hq hc => ?_,fun hq => hgue ▸ hbound hq⟩
    rw [hclock] at hc
    rw [hgue,hkept hc,hfail]
    exact hacc hq hc
  | guess hrec hheld hfail hgue hlate =>
    have hacc' : Quiet ip T t → s.clock < T + minute →
        guessed ip T t ≤ recorded ip T t + held isFailed ip t := by
      intro hq hc
      have := hacc hq hc
      omega
    refine ⟨by omega,hpast,hclock ▸ hacc',fun hq => ?_⟩
    -- a guess of this minute is one of a request under way
    by_cases hc : s.clock < T + minute
    · have := hacc' hq hc
      omega
    · exact hlate hc ▸ hbound hq
  | clear hrec hheld hsuccess hgue =>
    refine ⟨by omega,hpast,fun hq hc => ?_,fun hq => hgue ▸ hbound hq⟩
    have hno := hq _ hsuccess rfl
    rw [hgue,guessed_eq_zero h.past (by omega)]
    exact Nat.zero_le _
  | record hrec hkept hheld hfail hgue =>
    refine ⟨by omega,hpast,fun hq hc => ?_,fun hq => hgue ▸ hbound hq⟩
    by_cases hT : T ≤ s.clock
    · have := hacc hq (hclock ▸ hc)
      have := hkept hT
      omega
    · rw [hgue,guessed_eq_zero h.past (by omega)]
      exact Nat.zero_le _

/-- Along the run no IP has more than `k` requests between the check of the limit and the note
of a failure or a success. -/
def AtMost (k : Nat) : Server → List (Int × Act) → Prop :=
  Meets Server.step fun s a => ∀ t, s.step a = some t → ∀ ip, held underway ip t ≤ k

/-- In no minute are more than ten wrong tokens of an IP compared, unless a request of this IP
is let in. -/
def Limited (s : Server) : Prop := ∀ ip T, Quiet ip T s → guessed ip T s ≤ 10

/-- The check of the limit counts nine failures at most when it lets a request pass; the others
are under way. -/
theorem guessed_le {clock : Int} (hk : AtMost k (start token clock) as)
    (hr : run Server.step (start token clock) as = some s) (hq : Quiet ip T s) :
    guessed ip T s ≤ 9 + k := by
  have hinv : Inv ip T k s := by
    refine run_invariant_of_meets (fun s a t hi hok hst => ?_) (inv_start token clock) hk hr
    obtain ⟨hclock,hacts⟩ := acts_of_step hst
    exact inv_acts (inv_clock hi hclock) hacts (hok t hst ip)
  exact hinv.bounded hq

def attempt : Request := ⟨[("Authorization","Bearer guess")],"192.0.2.1:5000"⟩

def oneByOne (n : Nat) : List (Int × Act) :=
  (List.range n).flatMap fun i =>
    [(0,.arrive attempt),(0,.check i),(0,.compare i),(0,.record i)]

def twoAtOnce (i : Nat) : List (Int × Act) :=
  [(0,.arrive attempt),(0,.arrive attempt),(0,.check i),(0,.check (i + 1)),(0,.compare i),
    (0,.compare (i + 1))]

def rush : List (Int × Act) := oneByOne 9 ++ twoAtOnce 9

theorem held_le_total : held counts ip s ≤ s.requests.countP fun p => counts p.place := by
  unfold held
  induction s.requests with
  | nil => exact Nat.le_refl _
  | cons p requests ih =>
    have hp : weight counts ip p ≤ if counts p.place then 1 else 0 := by
      unfold weight
      split
      · rename_i h
        simp [h.2]
      · exact Nat.zero_le _
    rw [map_cons,sum_cons,countP_cons]
    omega

theorem rush_result : (run Server.step (start "secret" 0) rush).map
    (fun s => (guessed "192.0.2.1" 0 s,s.successes)) = some (11,[]) := by
  decide

theorem rush_run : ∃ s, run Server.step (start "secret" 0) rush = some s ∧
    guessed "192.0.2.1" 0 s = 11 ∧ Quiet "192.0.2.1" 0 s := by
  obtain ⟨s,hs,hresult⟩ := Option.map_eq_some_iff.mp rush_result
  obtain ⟨hguessed,hsucc⟩ := Prod.mk.inj hresult
  exact ⟨s,hs,hguessed,by simp [Quiet,hsucc]⟩

theorem rush_atMost (hk : 2 ≤ k) : AtMost k (start "secret" 0) rush := by
  have htotal : checks Server.step
      (fun s a => (s.step a).all fun t => t.requests.countP (fun p => underway p.place) ≤ 2)
      (start "secret" 0) rush = true := by decide
  refine meets_of_inv (I := fun _ => True) (fun _ _ _ _ _ _ => trivial) ?_ trivial
    (meets_of_checks htotal)
  intro s a _ hall t hst ip
  rw [hst,Option.all_some,decide_eq_true_eq] at hall
  exact held_le_total.trans (hall.trans hk)

/-- The limit holds if the requests of an IP come one at a time, and only then: two requests that
pass the check together may be the tenth and the eleventh. -/
theorem guesses_limited_iff (k : Nat) :
    (∀ token clock as s, AtMost k (start token clock) as →
      run Server.step (start token clock) as = some s → Limited s) ↔ k ≤ 1 := by
  constructor
  · intro h
    by_contra hk
    obtain ⟨s,hs,hguessed,hquiet⟩ := rush_run
    have hle := h "secret" 0 rush s (rush_atMost (by omega)) hs "192.0.2.1" 0 hquiet
    omega
  · intro hk token clock as s hat hr ip T hquiet
    have := guessed_le hat hr hquiet
    omega

/-- Nine failures, and then two requests at once. -/
theorem two_at_once_guess : ∃ s, run Server.step (start "secret" 0) rush = some s ∧ ¬ Limited s := by
  obtain ⟨s,hs,hguessed,hquiet⟩ := rush_run
  refine ⟨s,hs,fun h => ?_⟩
  have := h "192.0.2.1" 0 hquiet
  omega

end Madmail.Proofs.AdminGuesses
