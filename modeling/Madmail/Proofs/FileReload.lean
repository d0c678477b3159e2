import Madmail.Lib.Runs
import Madmail.Table.File
import Mathlib.Algebra.Group.Int.Defs

namespace Madmail.Proofs.FileReload
open Exterrors TableFile Lib

variable {cfg : Config} {f : File} {c : Calls} {w w' : World} {a : Action}

section Followed

/-- The file exists, was left alone for long enough and does not change during the call. -/
structure Quiet (cfg : Config) (c : Calls) (modTime : Int) (entries : Entries) : Prop where
  stat : c.stat = .info modTime
  old : reloadInterval / 2 ≤ c.now - modTime
  parses : ∃ content, c.opened = .ok content ∧ readFile cfg content = .ok entries
  same : c.statAfter = .info modTime

/-- The table in use after a call is that of the file. -/
def Follows (cfg : Config) (f : File) (c : Calls) : Prop :=
  ∀ f', f.reload cfg c = some f' → (c.stat = .notExist → f'.m = fun _ => []) ∧
    ∀ modTime entries, Quiet cfg c modTime entries → f'.m = entries

/-- The version of the file is not older than the one that was loaded last, or is in use. -/
def NotOlder (cfg : Config) (f : File) (c : Calls) : Prop :=
  ∀ modTime entries, Quiet cfg c modTime entries → f.mStamp ≤ modTime ∨ f.m = entries

theorem reload_quiet (h : Quiet cfg c modTime entries) :
    f.reload cfg c = some (if modTime < f.mStamp then f else { m := entries,mStamp := modTime }) := by
  obtain ⟨content,hopen,hread⟩ := h.parses
  have hold := h.old
  unfold File.reload
  rw [h.stat,hopen]
  by_cases hlt : modTime < f.mStamp
  · simp [hlt]
  · simp [hlt,hread,h.same,Int.not_lt.mpr hold]

theorem follows_iff : Follows cfg f c ↔ NotOlder cfg f c := by
  constructor
  · intro h modTime entries hq
    have hm := (h _ (reload_quiet hq)).2 modTime entries hq
    split at hm
    · exact .inr hm
    next hlt => exact .inl (Int.not_lt.mp hlt)
  · intro h f' hf'
    refine ⟨fun hgone => ?_,fun modTime entries hq => ?_⟩
    · unfold File.reload at hf'
      rw [hgone] at hf'
      cases hf'
      rfl
    · rw [reload_quiet hq] at hf'
      cases hf'
      split
      next hlt => exact (h modTime entries hq).resolve_left (Int.not_le.mpr hlt)
      next => rfl

/-- After every call of a run the table is that of the file exactly if no call finds an older
version of the file than the one that was loaded last, unless that is in use. -/
theorem file_followed_iff (cfg : Config) (f : File) (calls : List Calls) :
    Meets (File.reload cfg) (Follows cfg) f calls ↔ Meets (File.reload cfg) (NotOlder cfg) f calls :=
  meets_congr fun _ _ => follows_iff

def aliases : Config := ⟨"aliases",id⟩

def version (modTime : Int) (lines : List String) : Calls where
  stat := .info modTime
  now := 10 ^ 12
  opened := .ok ⟨lines,none⟩
  statAfter := .info modTime

def gone : Calls := ⟨.notExist,10 ^ 12,.error (.leaf "no such file" none),.notExist⟩

/-- A file that is deleted and restored from a copy with an older time. -/
theorem restored_file_not_loaded :
    ¬ Meets (File.reload aliases) (Follows aliases) ⟨fun _ => [],0⟩
      [version 200 ["ann:bob"],gone,version 100 ["ann:bob"]] := by
  intro h
  have hlast := (h.2 _ rfl).2 _ rfl
  have hm := (hlast.1 _ rfl).2 100 _ ⟨rfl,by decide,⟨_,rfl,rfl⟩,rfl⟩
  have hann := congrFun hm "ann"
  revert hann
  decide

end Followed

section Survival

/-- What waits for the reloader can still be received by it. -/
structure Served (cfg : Config) (w : World) : Prop where
  hook : 0 < w.hooks → ∃ acts w', run (World.step cfg) w (acts ++ [.receiveHook]) = some w'
  close : 0 < w.closing → ∃ acts w', run (World.step cfg) w (acts ++ [.receiveClose]) = some w'

/-- The step is no reload that ends the reloader, and leaves nobody waiting for ever. -/
def Survives (cfg : Config) (w : World) (a : Action) : Prop :=
  ∀ w', w.step cfg a = some w' → Served cfg w' ∧ ∀ c, a = .reload c → w'.reloader ≠ .ended

def Over (w : World) : Prop := w.reloader = .acking ∨ w.reloader = .ended

/-- `os.Stat` fails only for a file that is not there; when `Close` is received nobody else waits,
and nobody comes after that. -/
def StepOK (w : World) : Action → Prop
  | .reload c => w.reloader = .reloading → ∀ e, c.stat ≠ .failed e
  | .receiveClose => w.reloader = .waiting → w.closing = 0 ∨ w.closing = 1 ∧ w.hooks = 0
  | .hook | .close => ¬ Over w
  | _ => True

theorem over_step (h : Over w) (hstep : w.step cfg a = some w') : Over w' := by
  unfold Over at *
  revert hstep
  fun_cases World.step cfg w a <;> intro hstep <;> cases hstep <;> simp_all

theorem not_received (h : Over w) (ha : a = .receiveHook ∨ a = .receiveClose) :
    run (World.step cfg) w (acts ++ [a]) ≠ some w' := by
  intro hrun
  induction acts generalizing w with
  | nil =>
    obtain ⟨w₁,hlast,-⟩ := run_cons hrun
    rcases ha with rfl | rfl <;> rcases h with hw | hw <;> simp [World.step,hw] at hlast
  | cons b acts ih =>
    obtain ⟨w₁,hfirst,hrest⟩ := run_cons hrun
    exact ih (over_step h hfirst) hrest

/-- The reloader gets back to its select when a file is not there. -/
theorem received (h : ¬ Over w) (ha : a = .receiveHook ∧ 0 < w.hooks ∨ a = .receiveClose ∧ 0 < w.closing) :
    ∃ acts w', run (World.step cfg) w (acts ++ [a]) = some w' := by
  cases hpos : w.reloader with
  | waiting =>
    refine ⟨[],?_⟩
    rcases ha with ⟨rfl,hp⟩ | ⟨rfl,hp⟩ <;> simp [run,World.step,hpos,hp]
  | reloading =>
    refine ⟨[.reload gone],?_⟩
    rcases ha with ⟨rfl,hp⟩ | ⟨rfl,hp⟩ <;> simp [run,World.step,hpos,hp,gone,File.reload]
  | acking => exact absurd (.inl hpos) h
  | ended => exact absurd (.inr hpos) h

theorem served_iff : Served cfg w ↔ (Over w → w.hooks = 0 ∧ w.closing = 0) := by
  constructor
  · intro h hover
    constructor
    · by_contra hne
      obtain ⟨acts,w',hrun⟩ := h.hook (Nat.pos_of_ne_zero hne)
      exact not_received hover (.inl rfl) hrun
    · by_contra hne
      obtain ⟨acts,w',hrun⟩ := h.close (Nat.pos_of_ne_zero hne)
      exact not_received hover (.inr rfl) hrun
  · intro h
    by_cases hover : Over w
    · obtain ⟨hhooks,hclosing⟩ := h hover
      exact ⟨fun hp => by omega,fun hp => by omega⟩
    · exact ⟨fun hp => received hover (.inl ⟨rfl,hp⟩),fun hp => received hover (.inr ⟨rfl,hp⟩)⟩

theorem reload_none : f.reload cfg c = none ↔ ∃ e, c.stat = .failed e := by
  fun_cases File.reload cfg f c <;> simp_all

theorem survives_iff (h : Served cfg w) : Survives cfg w a ↔ StepOK w a := by
  rw [served_iff] at h
  unfold Survives
  simp only [served_iff,Over] at *
  fun_cases World.step cfg w a <;> simp_all [StepOK,Over]
  case case7 hclose => omega
  case case9 hsome => exact fun e he => by simp [reload_none.mpr ⟨e,he⟩] at hsome
  case case10 hnone => exact reload_none.mp hnone

/-- In no run does a reload end the reloader or a hook or a `Close` wait in vain, exactly if the
steps meet the condition. -/
theorem reloader_survives_iff (cfg : Config) (file : File) (acts : List Action) :
    Meets (World.step cfg) (Survives cfg) { file } acts ↔ Meets (World.step cfg) StepOK { file } acts := by
  have hstart : Served cfg { file } := ⟨nofun,nofun⟩
  constructor
  · exact meets_of_inv (I := Served cfg) (fun w a w' _ ha hstep => (ha w' hstep).1)
      (fun w a hw => (survives_iff hw).mp) hstart
  · exact meets_of_inv (I := Served cfg)
      (fun w a w' hw ha hstep => ((survives_iff hw).mpr ha w' hstep).1)
      (fun w a hw => (survives_iff hw).mpr) hstart

/-- An error of `os.Stat` ends the reloader, and the next hook waits for ever. -/
theorem stat_error_ends_reloader :
    ¬ Meets (World.step aliases) (Survives aliases) { file := ⟨fun _ => [],0⟩ }
      [.tick,.reload { gone with stat := .failed (.leaf "permission denied" none) },.hook] := by
  intro h
  have hended := ((h.2 _ rfl).1 _ rfl).2 _ rfl
  exact hended rfl

end Survival

end Madmail.Proofs.FileReload
