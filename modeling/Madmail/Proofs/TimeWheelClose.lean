import Madmail.Queue.TimeWheel

namespace Madmail.Proofs.TimeWheelClose
open Lib Queue.TimeWheel

variable {V : Type} {s t : State V}

/-- The channel is closed when no `Add` is between its test of `stopped` and the
end of its send. -/
def CloseOK (s : State V) (a : Action V) : Prop :=
  a = .closeChannel → s.tested = [] ∧ s.pushed = []

def FinishesAdd : Action V → Prop
  | .addPush _ | .addSend _ => True
  | _ => False

/-- No `Add` has met the closed channel, or can do so any more. -/
structure Quiet (s : State V) : Prop where
  stopped : s.close ≠ .notCalled → s.stopped = true
  finished : s.close = .closed → s.tested = [] ∧ s.pushed = []
  calm : s.panicked = []

theorem start_quiet : Quiet (start V clock) :=
  ⟨fun h => absurd rfl h,nofun,rfl⟩

theorem addTest_quiet (hs : Quiet s) (h : step s (.addTest slot) = some t) : Quiet t := by
  simp only [step] at h
  split at h <;> cases h
  · exact hs
  · rename_i hrun
    -- The flag is not set, so `Close` was not called yet.
    refine ⟨hs.stopped,fun hc => ?_,hs.calm⟩
    exact absurd (hs.stopped (by simp [show s.close = .closed from hc])) hrun

theorem addPush_quiet (hs : Quiet s) (h : step s (.addPush k) = some t) : Quiet t := by
  simp only [step] at h
  split at h <;> cases h
  rename_i slot hk
  refine ⟨hs.stopped,fun hc => ?_,hs.calm⟩
  simp [(hs.finished hc).1] at hk

theorem addSend_quiet (hs : Quiet s) (h : step s (.addSend k) = some t) : Quiet t := by
  simp only [step] at h
  split at h
  · cases h
  · rename_i e hk
    split at h
    · rename_i hc
      simp [(hs.finished hc).2] at hk
    · rename_i hc
      split at h <;> cases h
      exact ⟨hs.stopped,fun h => absurd h hc,hs.calm⟩

theorem step_quiet (s : State V) (a : Action V) (t : State V) (hs : Quiet s) (hok : CloseOK s a)
    (h : step s a = some t) : Quiet t := by
  cases a with
  | addTest slot => exact addTest_quiet hs h
  | addPush k => exact addPush_quiet hs h
  | addSend k => exact addSend_quiet hs h
  | closeChannel =>
    simp only [step] at h
    split at h <;> cases h
    rename_i hc
    exact ⟨fun _ => hs.stopped (by simp [hc]),fun _ => hok rfl,hs.calm⟩
  | closeStore =>
    simp only [step] at h
    split at h <;> cases h
    exact ⟨fun _ => rfl,nofun,hs.calm⟩
  | closeSend | closeReceive =>
    simp only [step] at h
    split at h <;> cases h
    all_goals exact ⟨fun _ => hs.stopped (by simp_all),nofun,hs.calm⟩
  | clock | readNow | newTimer =>
    simp only [step] at h
    split at h <;> cases h
    exact ⟨hs.stopped,hs.finished,hs.calm⟩
  | scan | fire =>
    simp only [step] at h
    split at h
    · split at h <;> cases h
      all_goals exact ⟨hs.stopped,hs.finished,hs.calm⟩
    · cases h

/-- The channel is closed, and some `Add` has met that or still will. -/
def Doomed (s : State V) : Prop :=
  s.close = .closed ∧ (s.tested ≠ [] ∨ s.pushed ≠ [] ∨ s.panicked ≠ [])

theorem close_doomed (s : State V) (a : Action V) (t : State V) (hok : ¬ CloseOK s a)
    (h : step s a = some t) : Doomed t := by
  unfold CloseOK at hok
  push Not at hok
  obtain ⟨rfl,hopen⟩ := hok
  simp only [step] at h
  split at h <;> cases h
  refine ⟨rfl,?_⟩
  by_cases ht : s.tested = []
  · exact .inr (.inl (hopen ht))
  · exact .inl ht

theorem step_doomed (s : State V) (a : Action V) (t : State V) (hs : Doomed s)
    (h : step s a = some t) : Doomed t := by
  obtain ⟨hc,hleft⟩ := hs
  cases a with
  | addTest slot =>
    simp only [step] at h
    split at h <;> cases h
    · exact ⟨hc,hleft⟩
    · exact ⟨hc,.inl (by simp)⟩
  | addPush k =>
    simp only [step] at h
    split at h <;> cases h
    exact ⟨hc,.inr (.inl (by simp))⟩
  | addSend k =>
    simp only [step] at h
    split at h
    · cases h
    · rw [if_pos hc] at h
      cases h
      exact ⟨hc,.inr (.inr (by simp))⟩
  | closeStore | closeSend | closeReceive | closeChannel => simp [step,hc] at h
  | clock | readNow | newTimer =>
    simp only [step] at h
    split at h <;> cases h
    exact ⟨hc,hleft⟩
  | scan | fire =>
    simp only [step] at h
    split at h
    · split at h <;> cases h
      all_goals exact ⟨hc,hleft⟩
    · cases h

theorem addSend_panics (hc : s.close = .closed) (hp : s.pushed ≠ []) :
    ∃ t, step s (.addSend 0) = some t ∧ t.panicked ≠ [] := by
  cases h : s.pushed with
  | nil => exact absurd h hp
  | cons e rest =>
    refine ⟨{ s with pushed := s.pushed.eraseIdx 0, panicked := s.panicked ++ [e] },?_,by simp⟩
    simp [step,h,if_pos hc]

theorem doomed_panics (hs : Doomed s) :
    ∃ more t, (∀ a ∈ more, FinishesAdd a) ∧ run step s more = some t ∧ t.panicked ≠ [] := by
  obtain ⟨hc,htested | hpushed | hpanicked⟩ := hs
  · cases htest : s.tested with
    | nil => exact absurd htest htested
    | cons slot rest =>
      let pushed : State V := { s with
        tested := s.tested.eraseIdx 0, slots := s.slots ++ [⟨s.added.length,slot⟩]
        pushed := s.pushed ++ [⟨s.added.length,slot⟩]
        added := s.added ++ [⟨s.added.length,slot⟩] }
      have hpush : step s (.addPush 0) = some pushed := by
        simp [step,htest,pushed]
      obtain ⟨t,ht,hp⟩ := addSend_panics (s := pushed) hc (by simp [pushed])
      refine ⟨[.addPush 0,.addSend 0],t,by simp [FinishesAdd],?_,hp⟩
      simp [run,hpush,ht]
  · obtain ⟨t,ht,hp⟩ := addSend_panics hc hpushed
    exact ⟨[.addSend 0],t,by simp [FinishesAdd],by simp [run,ht],hp⟩
  · exact ⟨[],s,by simp,rfl,hpanicked⟩

/-- However the steps of `Close`, `tick` and any number of `Add` calls are
interleaved: the `Add` calls of a run never send on the closed channel, now or
when they go on, exactly if the channel was closed while none was under way. -/
theorem adds_never_panic_iff (clock : Int) (acts : List (Action V))
    (hr : run step (start V clock) acts = some s) :
    (∀ more t, (∀ a ∈ more, FinishesAdd a) → run step s more = some t → t.panicked = []) ↔
      Meets step CloseOK (start V clock) acts := by
  constructor
  · intro h
    by_contra hm
    obtain ⟨more,t,hadds,ht,hp⟩ :=
      doomed_panics (run_marked_of_not_meets close_doomed step_doomed hm hr)
    exact hp (h more t hadds ht)
  · intro hm more t hadds ht
    have hs := run_invariant_of_meets step_quiet start_quiet hm hr
    have hok : ∀ (s : State V) a t, Quiet s → FinishesAdd a → step s a = some t → Quiet t := by
      intro s a t hs ha
      refine step_quiet s a t hs (fun hc => ?_)
      subst hc
      exact ha.elim
    exact (run_invariant hok hs hadds ht).calm

def addThenClose : List (Action Nat) :=
  [.addTest ⟨20,1⟩,.addPush 0,.readNow,.scan,.newTimer,.addSend 0,.closeStore,.closeSend,
    .closeReceive,.closeChannel]

theorem add_survives_close : ∃ s, run step (start Nat 10) addThenClose = some s ∧
    ∀ more t, (∀ a ∈ more, FinishesAdd a) → run step s more = some t → t.panicked = [] := by
  refine ⟨_,rfl,(adds_never_panic_iff 10 addThenClose rfl).mpr ?_⟩
  simp [addThenClose,Meets,CloseOK,step,start,closest,receive]

/-- `Close` runs from its first step to its last between two steps of an `Add`,
which then sends on the closed channel. -/
theorem close_inside_add_panics :
    ¬ ∀ (clock : Int) (acts : List (Action Nat)) (s : State Nat),
      run step (start Nat clock) acts = some s → s.panicked = [] := by
  intro h
  have hs := h 10 [.readNow,.scan,.addTest ⟨20,1⟩,.addPush 0,.closeStore,.closeSend,
    .closeReceive,.closeChannel,.addSend 0] _ rfl
  exact absurd hs (by decide)

end Madmail.Proofs.TimeWheelClose
