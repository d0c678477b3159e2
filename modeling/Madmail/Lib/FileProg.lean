import Mathlib.Data.List.Nodup

namespace Madmail.Lib.FileProg
open Function

abbrev Dir (ν γ : Type) := ν → Option γ

/-- The calls a program makes. Opening for writing truncates, so `create` gives
the contents of an empty file; `other` is a call that concerns no file here. -/
inductive Op (ν γ : Type) where
  | create (name : ν) (empty : γ)
  | write (name : ν) (content : γ)
  | sync (name : ν)
  | rename (old new : ν)
  | remove (name : ν)
  | other

/-- A program that makes one call after the other and branches on whether the
call succeeded. -/
inductive Prog (ν γ ρ : Type) where
  | done (result : ρ)
  | op (o : Op ν γ) (next : Bool → Prog ν γ ρ)

def Prog.bind (p : Prog ν γ ρ) (k : ρ → Prog ν γ τ) : Prog ν γ τ :=
  match p with
  | .done r => k r
  | .op o next => .op o (fun ok => (next ok).bind k)

def enabled (d : Dir ν γ) : Op ν γ → Bool
  | .rename old _ => (d old).isSome
  | .remove name => (d name).isSome
  | _ => true

def succeed [DecidableEq ν] (d : Dir ν γ) : Op ν γ → Dir ν γ
  | .create name empty => update d name (some empty)
  | .write name content => update d name (some content)
  | .sync _ | .other => d
  | .rename old new => update (update d new (d old)) old none
  | .remove name => update d name none

/-- A failed write may leave anything in its file; any other failed call leaves
the directory as it was. -/
def fail [DecidableEq ν] (d : Dir ν γ) (junk : γ) : Op ν γ → Dir ν γ
  | .write name _ => update d name (some junk)
  | _ => d

/-- The directory after a call, if the call can end that way. -/
def outcome [DecidableEq ν] (d : Dir ν γ) (o : Op ν γ) (ok : Bool) (junk : γ) :
    Option (Dir ν γ) :=
  if ok then if enabled d o then some (succeed d o) else none else some (fail d junk o)

section Logic
variable [DecidableEq ν]

/-- `Valid I Q p d`: started in `d`, the program keeps the crash condition `I`
before each of its calls, whatever calls fail, and ends with `Q`. -/
def Valid (I : Dir ν γ → Prop) (Q : ρ → Dir ν γ → Prop) : Prog ν γ ρ → Dir ν γ → Prop
  | .done r, d => Q r d
  | .op o next, d =>
    I d ∧ ∀ ok junk d', outcome d o ok junk = some d' → Valid I Q (next ok) d'

theorem Valid.mono {I I' : Dir ν γ → Prop} {Q Q' : ρ → Dir ν γ → Prop} {p : Prog ν γ ρ}
    (hi : ∀ d, I d → I' d) (hq : ∀ r d, Q r d → Q' r d) (h : Valid I Q p d) :
    Valid I' Q' p d := by
  induction p generalizing d with
  | done r => exact hq r d h
  | op o next ih =>
    obtain ⟨hd,hn⟩ := h
    exact ⟨hi d hd,fun ok junk d' ho => ih ok (hn ok junk d' ho)⟩

/-- Sequencing: the second program starts where the first one has ended. -/
theorem Valid.bind {I : Dir ν γ → Prop} {Q : ρ → Dir ν γ → Prop} {Q' : τ → Dir ν γ → Prop}
    {p : Prog ν γ ρ} {k : ρ → Prog ν γ τ} (h : Valid I Q p d)
    (hk : ∀ r d, Q r d → Valid I Q' (k r) d) : Valid I Q' (p.bind k) d := by
  induction p generalizing d with
  | done r => exact hk r d h
  | op o next ih =>
    obtain ⟨hi,hn⟩ := h
    exact ⟨hi,fun ok junk d' hd => ih ok (hn ok junk d' hd)⟩

/-- One call: the condition holds before it, and both ways it can end are
covered. The goal of the failed branch speaks about arbitrary contents. -/
theorem Valid.op {I : Dir ν γ → Prop} {Q : ρ → Dir ν γ → Prop} {o : Op ν γ}
    {next : Bool → Prog ν γ ρ} (hi : I d)
    (hok : enabled d o = true → Valid I Q (next true) (succeed d o))
    (hfail : ∀ junk, Valid I Q (next false) (fail d junk o)) : Valid I Q (.op o next) d := by
  refine ⟨hi,?_⟩
  intro ok junk d' hd
  cases ok with
  | true =>
    simp only [outcome,↓reduceIte] at hd
    split at hd
    · cases hd
      exact hok (by assumption)
    · cases hd
  | false =>
    simp only [outcome,Bool.false_eq_true,↓reduceIte,Option.some.injEq] at hd
    exact hd ▸ hfail junk

end Logic

section Exec
variable [DecidableEq ν]

def ends (fails : Op ν γ → Bool) (d : Dir ν γ) (o : Op ν γ) : Bool := !fails o && enabled d o

def exec (fails : Op ν γ → Bool) (junk : Op ν γ → γ) : Prog ν γ ρ → Dir ν γ → ρ × Dir ν γ
  | .done r, d => (r,d)
  | .op o next, d =>
    exec fails junk (next (ends fails d o))
      (if ends fails d o then succeed d o else fail d (junk o) o)

theorem exec_bind (fails : Op ν γ → Bool) (junk : Op ν γ → γ) (p : Prog ν γ ρ)
    (k : ρ → Prog ν γ τ) (d : Dir ν γ) :
    exec fails junk (p.bind k) d =
      exec fails junk (k (exec fails junk p d).1) (exec fails junk p d).2 := by
  induction p generalizing d with
  | done r => rfl
  | op o next ih => exact ih _ _

end Exec

def Op.map (f : ν → μ) : Op ν γ → Op μ γ
  | .create name empty => .create (f name) empty
  | .write name content => .write (f name) content
  | .sync name => .sync (f name)
  | .rename old new => .rename (f old) (f new)
  | .remove name => .remove (f name)
  | .other => .other

def Prog.map (f : ν → μ) : Prog ν γ ρ → Prog μ γ ρ
  | .done r => .done r
  | .op o next => .op (o.map f) (fun ok => (next ok).map f)

section Local
variable [DecidableEq ν] [DecidableEq μ] {f : ν → μ}

theorem update_comp (hf : Injective f) :
    (fun m => update d (f n) v (f m)) = update (fun m => d (f m)) n v := by
  funext m
  by_cases h : m = n
  · subst m; simp
  · rw [update_of_ne h,update_of_ne (fun he => h (hf he))]

/-- Seen through an injective naming of its own files, a call acts as in a
directory of its own. -/
theorem outcome_local (hf : Injective f) {d d' : Dir μ γ} {o : Op ν γ}
    (h : outcome d (o.map f) ok junk = some d') :
    outcome (fun n => d (f n)) o ok junk = some (fun n => d' (f n)) := by
  cases ok with
  | false =>
    simp only [outcome,Bool.false_eq_true,↓reduceIte,Option.some.injEq] at h ⊢
    subst d'
    cases o with
    | write name content => exact (update_comp hf).symm
    | create _ _ | sync _ | rename _ _ | remove _ | other => rfl
  | true =>
    simp only [outcome,↓reduceIte] at h ⊢
    split at h
    · rename_i he
      have he' : enabled (fun n => d (f n)) o = true := by cases o <;> exact he
      simp only [Option.some.injEq] at h
      subst d'
      rw [if_pos he',Option.some.injEq]
      cases o with
      | create name c | write name c | remove name => exact (update_comp hf).symm
      | rename old new =>
        simp only [succeed,Op.map]
        rw [update_comp hf,update_comp hf]
      | sync _ | other => rfl
    · cases h

omit [DecidableEq ν] in
theorem outcome_frame {d d' : Dir μ γ} {o : Op ν γ} (h : outcome d (o.map f) ok junk = some d')
    (hm : ∀ n, m ≠ f n) : d' m = d m := by
  cases ok with
  | false =>
    simp only [outcome,Bool.false_eq_true,↓reduceIte,Option.some.injEq] at h
    subst d'
    cases o <;> simp [fail,Op.map,update_of_ne (hm _)]
  | true =>
    simp only [outcome,↓reduceIte] at h
    split at h
    · simp only [Option.some.injEq] at h
      subst d'
      cases o <;> simp [succeed,Op.map,update_of_ne (hm _)]
    · cases h

theorem exec_local (hf : Injective f) (fails : Op μ γ → Bool) (junk : Op μ γ → γ)
    (p : Prog ν γ ρ) (d : Dir μ γ) :
    ((exec fails junk (p.map f) d).1,fun n => (exec fails junk (p.map f) d).2 (f n)) =
      exec (fun o => fails (o.map f)) (fun o => junk (o.map f)) p (fun n => d (f n)) := by
  induction p generalizing d with
  | done r => rfl
  | op o next ih =>
    have hends : ends (fun o => fails (o.map f)) (fun n => d (f n)) o = ends fails d (o.map f) := by
      cases o <;> rfl
    have hd : (fun n => (if ends fails d (o.map f) then succeed d (o.map f)
          else fail d (junk (o.map f)) (o.map f)) (f n)) =
        if ends fails d (o.map f) then succeed (fun n => d (f n)) o
          else fail (fun n => d (f n)) (junk (o.map f)) o := by
      have hlocal (ok : Bool) {e : Dir μ γ} (h : outcome d (o.map f) ok (junk (o.map f)) = some e) :=
        outcome_local hf h
      cases he : ends fails d (o.map f) with
      | true =>
        have hen : enabled d (o.map f) = true := (Bool.and_eq_true _ _ ▸ he).2
        have hen' : enabled (fun n => d (f n)) o = true := by cases o <;> exact hen
        have := hlocal true (show outcome _ _ _ _ = some (succeed d (o.map f)) by
          simp [outcome,hen])
        simpa [outcome,hen'] using this.symm
      | false =>
        have := hlocal false (show outcome _ _ _ _ = some (fail d (junk (o.map f)) (o.map f)) by
          simp [outcome])
        simpa [outcome] using this.symm
    rw [Prog.map,exec,exec,hends,ih,hd]

end Local

/-- A listing of the directory, in any order. -/
structure Lists (d : Dir ν γ) (names : List ν) : Prop where
  nodup : names.Nodup
  mem : ∀ n, n ∈ names ↔ (d n).isSome = true

theorem lists_update [DecidableEq ν] {d : Dir ν γ} (h : Lists d names) {n : ν} {v : Option γ} :
    ∃ names', Lists (update d n v) names' := by
  cases v with
  | none =>
    refine ⟨names.filter (fun m => m ≠ n),h.nodup.filter _,?_⟩
    intro m
    by_cases hm : m = n
    · subst m; simp
    · simp [hm,h.mem m]
  | some c =>
    by_cases hn : n ∈ names
    · refine ⟨names,h.nodup,?_⟩
      intro m
      by_cases hm : m = n
      · subst m; simp [hn]
      · simp [hm,h.mem m]
    · refine ⟨n :: names,List.nodup_cons.mpr ⟨hn,h.nodup⟩,?_⟩
      intro m
      by_cases hm : m = n
      · subst m; simp
      · simp [hm,h.mem m]

/-- Programs only ever reach directories that can be listed. -/
theorem lists_outcome [DecidableEq ν] {d d' : Dir ν γ} {o : Op ν γ} (h : ∃ names, Lists d names)
    (ho : outcome d o ok junk = some d') : ∃ names, Lists d' names := by
  obtain ⟨names,hl⟩ := h
  cases ok with
  | false =>
    simp only [outcome,Bool.false_eq_true,↓reduceIte,Option.some.injEq] at ho
    subst d'
    cases o with
    | write name content => exact lists_update hl
    | create _ _ | sync _ | rename _ _ | remove _ | other => exact ⟨names,hl⟩
  | true =>
    simp only [outcome,↓reduceIte] at ho
    split at ho
    · simp only [Option.some.injEq] at ho
      subst d'
      cases o with
      | create name c | write name c | remove name => exact lists_update hl
      | rename old new =>
        obtain ⟨names',hl'⟩ := lists_update hl
        exact lists_update hl'
      | sync _ | other => exact ⟨names,hl⟩
    · cases ho

end Madmail.Lib.FileProg
