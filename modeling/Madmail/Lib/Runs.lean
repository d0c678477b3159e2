import Mathlib.Data.List.Basic

namespace Madmail.Lib
open List

variable {P I Q : σ → Prop} {m : σ → Nat} {ok ok' : σ → α → Prop} (f : σ → α → Nat)

/-- A finite run of a partial step function: the state after all the actions,
if every one of them was enabled when its turn came. -/
def run (step : σ → α → Option σ) : σ → List α → Option σ
  | s, [] => some s
  | s, a :: as => (step s a).bind (fun t => run step t as)

theorem run_cons (h : run step s (a :: as) = some u) :
    ∃ t, step s a = some t ∧ run step t as = some u :=
  Option.bind_eq_some_iff.mp h

theorem run_cons_some (h : step s a = some t) : run step s (a :: as) = run step t as := by
  rw [run,h]
  rfl

theorem run_append (h : run step s as = some t) : run step s (as ++ bs) = run step t bs := by
  induction as generalizing s with
  | nil =>
    cases h
    rfl
  | cons a as ih =>
    obtain ⟨u,hu,ht⟩ := run_cons h
    exact (run_cons_some hu).trans (ih ht)

/-- What every enabled action preserves, every run preserves. The side
condition may be read off the action alone. -/
theorem run_invariant {ok : α → Prop} (hstep : ∀ s a t, P s → ok a → step s a = some t → P t)
    (hs : P s) (hok : ∀ a ∈ as, ok a) (hr : run step s as = some t) : P t := by
  induction as generalizing s with
  | nil => cases hr; exact hs
  | cons a as ih =>
    obtain ⟨u,hu,ht⟩ := run_cons hr
    exact ih (hstep s a u hs (hok a (by simp)) hu) (fun b hb => hok b (by simp [hb])) ht

/-- What every action keeps in the states that can be reached, a run keeps. -/
theorem run_keeps (hstep : ∀ as t a u, run step s as = some t → step t a = some u → P t → P u)
    (hs : P s) (hr : run step s as = some t) : P t := by
  induction as generalizing s with
  | nil => cases hr; exact hs
  | cons a as ih =>
    obtain ⟨u,hu,ht⟩ := run_cons hr
    refine ih (fun bs v b x hv => hstep (a :: bs) v b x ?_) (hstep [] s a u rfl hu hs) ht
    exact (run_cons_some hu).trans hv

/-- If short of the goal there always is an action that keeps `I` and uses something up, then a run
gets to the goal. -/
theorem run_reaches (hgo : ∀ s, I s → ¬ Q s → ∃ a t, step s a = some t ∧ I t ∧ m t < m s)
    (hs : I s) :
    ∃ as t, run step s as = some t ∧ I t ∧ Q t := by
  induction h : m s using Nat.strongRecOn generalizing s with
  | _ n ih =>
    by_cases hq : Q s
    · exact ⟨[],s,rfl,hs,hq⟩
    · obtain ⟨a,t,hst,ht,hlt⟩ := hgo s hs hq
      obtain ⟨as,u,hu,hrest⟩ := ih (m t) (h ▸ hlt) ht rfl
      exact ⟨a :: as,u,(run_cons_some hst).trans hu,hrest⟩

/-- Every action of a run meets the condition in the state it is taken from. -/
def Meets (step : σ → α → Option σ) (ok : σ → α → Prop) : σ → List α → Prop
  | _, [] => True
  | s, a :: as => ok s a ∧ ∀ t, step s a = some t → Meets step ok t as

theorem meets_cons (h : step s a = some t) (ha : ok s a) (hm : Meets step ok t as) :
    Meets step ok s (a :: as) := by
  refine ⟨ha,fun u hu => ?_⟩
  cases h.symm.trans hu
  exact hm

theorem meets_append (h : Meets step ok s as)
    (hrest : ∀ t, run step s as = some t → Meets step ok t bs) : Meets step ok s (as ++ bs) := by
  induction as generalizing s with
  | nil => exact hrest s rfl
  | cons a as ih =>
    refine ⟨h.1,fun t ht => ih (h.2 t ht) fun u hu => hrest u ?_⟩
    rw [run,ht]
    exact hu

theorem meets_rest (h : run step s as = some t) (hm : Meets step ok s (as ++ bs)) :
    Meets step ok t bs := by
  induction as generalizing s with
  | nil =>
    cases h
    exact hm
  | cons a as ih =>
    obtain ⟨u,hu,ht⟩ := run_cons h
    exact ih ht (hm.2 u hu)

theorem meets_of_free (h : ∀ a ∈ as, ∀ s, ok s a) : Meets step ok s as := by
  induction as generalizing s with
  | nil => trivial
  | cons a as ih =>
    exact ⟨h a (by simp) s,fun t _ => ih fun b hb => h b (by simp [hb])⟩

theorem meets_forall {ok : β → σ → α → Prop} :
    Meets step (fun s a => ∀ b, ok b s a) s as ↔ ∀ b, Meets step (ok b) s as := by
  induction as generalizing s with
  | nil => exact ⟨fun _ _ => trivial,fun _ => trivial⟩
  | cons a as ih =>
    constructor
    · intro h b
      exact ⟨h.1 b,fun t ht => ih.mp (h.2 t ht) b⟩
    · intro h
      exact ⟨fun b => (h b).1,fun t ht => ih.mpr fun b => (h b).2 t ht⟩

theorem meets_congr (h : ∀ s a, ok s a ↔ ok' s a) : Meets step ok s as ↔ Meets step ok' s as := by
  have heq : ok = ok' := funext fun s => funext fun a => propext (h s a)
  rw [heq]

theorem meets_and (h : Meets step ok s as) (h' : Meets step ok' s as) :
    Meets step (fun s a => ok s a ∧ ok' s a) s as := by
  induction as generalizing s with
  | nil => trivial
  | cons a as ih => exact ⟨⟨h.1,h'.1⟩,fun t ht => ih (h.2 t ht) (h'.2 t ht)⟩

def checks (step : σ → α → Option σ) (ok : σ → α → Bool) : σ → List α → Bool
  | _, [] => true
  | s, a :: as => ok s a && (step s a).all (fun t => checks step ok t as)

theorem meets_of_checks {step : σ → α → Option σ} {ok : σ → α → Bool}
    (h : checks step ok s as = true) : Meets step (fun s a => ok s a = true) s as := by
  induction as generalizing s with
  | nil => trivial
  | cons a as ih =>
    obtain ⟨ha,hrest⟩ := Bool.and_eq_true _ _ ▸ h
    refine ⟨ha,fun t ht => ih ?_⟩
    rw [ht] at hrest
    exact hrest

/-- What every action preserves under the condition, a run that meets it
preserves. -/
theorem run_invariant_of_meets (hstep : ∀ s a t, P s → ok s a → step s a = some t → P t) (hs : P s)
    (hm : Meets step ok s as) (hr : run step s as = some t) : P t := by
  induction as generalizing s with
  | nil => cases hr; exact hs
  | cons a as ih =>
    obtain ⟨u,hu,ht⟩ := run_cons hr
    exact ih (hstep s a u hs hm.1 hu) (hm.2 u hu) ht

/-- A condition that follows, in the states that what the run keeps allows, from
one that the run meets is met by the run too. -/
theorem meets_of_inv (hstep : ∀ s a t, I s → ok s a → step s a = some t → I t)
    (hok : ∀ s a, I s → ok s a → ok' s a) (hs : I s) (hm : Meets step ok s as) :
    Meets step ok' s as := by
  induction as generalizing s with
  | nil => trivial
  | cons a as ih =>
    exact ⟨hok s a hs hm.1,fun t ht => ih (hstep s a t hs hm.1 ht) (hm.2 t ht)⟩

/-- A mark that an action leaves when it breaks the condition, and that no later
action removes, is there after any run that breaks it. The actions may lean on
facts that all of them keep. -/
theorem run_marked_of_inv {allowed : σ → α → Prop}
    (hinv : ∀ s a t, I s → allowed s a → step s a = some t → I t)
    (hmark : ∀ s a t, I s → allowed s a → ¬ ok s a → step s a = some t → Q t)
    (hkeep : ∀ s a t, I s → allowed s a → Q s → step s a = some t → Q t) (hs : I s)
    (has : Meets step allowed s as) (hm : ¬ Meets step ok s as) (hr : run step s as = some t) : Q t := by
  induction as generalizing s with
  | nil => exact absurd trivial hm
  | cons a as ih =>
    obtain ⟨u,hu,ht⟩ := run_cons hr
    obtain ⟨ha,has⟩ := has
    by_cases hok : ok s a
    · refine ih (hinv s a u hs ha hu) (has u hu) (fun h => hm ⟨hok,fun v hv => ?_⟩) ht
      cases hu.symm.trans hv
      exact h
    · have hq := run_invariant_of_meets (P := fun s => I s ∧ Q s)
        (fun s a t h ha hst => ⟨hinv s a t h.1 ha hst,hkeep s a t h.1 ha h.2 hst⟩)
        ⟨hinv s a u hs ha hu,hmark s a u hs ha hok hu⟩ (has u hu) ht
      exact hq.2

theorem run_marked_of_not_meets (hmark : ∀ s a t, ¬ ok s a → step s a = some t → Q t)
    (hkeep : ∀ s a t, Q s → step s a = some t → Q t) (hm : ¬ Meets step ok s as)
    (hr : run step s as = some t) : Q t :=
  run_marked_of_inv (I := fun _ => True) (fun _ _ _ _ _ _ => trivial)
    (fun s a t _ (_ : True) => hmark s a t) (fun s a t _ _ => hkeep s a t) trivial
    (meets_of_free fun _ _ _ => trivial) hm hr

/-- In a run that begins and ends without a mark, none is taken away exactly if none
is set. -/
theorem meets_iff_of_mark {sets takes : σ → α → Prop}
    (hinv : ∀ s a t, I s → step s a = some t → I t)
    (hmark : ∀ s a t, I s → step s a = some t → (Q t ↔ (Q s ∧ ¬ takes s a) ∨ sets s a))
    (htakes : ∀ s a, I s → takes s a → Q s) (hs : I s) (hfree : ¬ Q s) (hr : run step s as = some t)
    (hend : ¬ Q t) :
    Meets step (fun s a => ¬ takes s a) s as ↔ Meets step (fun s a => ¬ sets s a) s as := by
  constructor
  · intro hm
    by_contra hno
    refine hend (run_marked_of_inv (I := I) (fun s a t hs _ => hinv s a t hs) ?_ ?_ hs hm hno hr)
    · intro s a t hs _ hset hstep
      exact (hmark s a t hs hstep).mpr (.inr (Classical.not_not.mp hset))
    · intro s a t hs hkept hq hstep
      exact (hmark s a t hs hstep).mpr (.inl ⟨hq,hkept⟩)
  · intro hm
    refine meets_of_inv (I := fun s => I s ∧ ¬ Q s) ?_ ?_ ⟨hs,hfree⟩ hm
    · intro s a t hs hset hstep
      refine ⟨hinv s a t hs.1 hstep,fun hq => ?_⟩
      obtain hq | hq := (hmark s a t hs.1 hstep).mp hq
      · exact hs.2 hq.1
      · exact hset hq
    · exact fun s a hs _ htake => hs.2 (htakes s a hs.1 htake)

def total (step : σ → α → Option σ) (f : σ → α → Nat) : σ → List α → Nat
  | _, [] => 0
  | s, a :: as => f s a + (step s a).elim 0 (fun t => total step f t as)

theorem total_cons (h : step s a = some t) :
    total step f s (a :: as) = f s a + total step f t as := by
  rw [total,h]
  rfl

/-- If each action brings `f` in, takes `g` out and leaves the rest in the state,
so does a run. -/
theorem total_balance {f g : σ → α → Nat} (hinv : ∀ s a t, I s → step s a = some t → I t)
    (hstep : ∀ s a t, I s → step s a = some t → m t + g s a = m s + f s a) (hs : I s)
    (hr : run step s as = some t) : m t + total step g s as = m s + total step f s as := by
  induction as generalizing s with
  | nil =>
    cases hr
    rfl
  | cons a as ih =>
    obtain ⟨u,hu,ht⟩ := run_cons hr
    have hfirst := hstep s a u hs hu
    have hrest := ih (hinv s a u hs hu) ht
    rw [total_cons f hu,total_cons g hu]
    omega

theorem total_add (g : σ → α → Nat) (s : σ) (as : List α) :
    total step (fun s a => f s a + g s a) s as = total step f s as + total step g s as := by
  induction as generalizing s with
  | nil => rfl
  | cons a as ih =>
    unfold total
    cases step s a with
    | none => rfl
    | some t =>
      have hrest := ih t
      simp only [Option.elim_some]
      omega

theorem total_eq_zero_iff {f : σ → α → Nat} :
    total step f s as = 0 ↔ Meets step (fun s a => f s a = 0) s as := by
  induction as generalizing s with
  | nil => exact ⟨fun _ => trivial,fun _ => rfl⟩
  | cons a as ih =>
    rw [total,Nat.add_eq_zero_iff,Meets]
    refine and_congr_right fun _ => ?_
    cases step s a with
    | none => simp
    | some t => simp [ih]

/-- All the states a total step function visits, the first one included. -/
def visited (step : σ → α → σ) : σ → List α → List σ
  | s, [] => [s]
  | s, a :: as => s :: visited step (step s a) as

theorem visited_invariant (hstep : ∀ s a, P s → P (step s a)) (hs : P s) :
    ∀ t ∈ visited step s as, P t := by
  induction as generalizing s with
  | nil => simpa [visited] using hs
  | cons a as ih =>
    rw [visited,forall_mem_cons]
    exact ⟨hs,ih (hstep s a hs)⟩

/-- Every action of the run meets the condition in the state it is taken from. -/
def Guarded (step : σ → α → σ) (ok : σ → α → Prop) : σ → List α → Prop
  | _, [] => True
  | s, a :: as => ok s a ∧ Guarded step ok (step s a) as

theorem guarded_mono (hok : ∀ s a, ok s a → ok' s a) (h : Guarded step ok s as) :
    Guarded step ok' s as := by
  induction as generalizing s with
  | nil => trivial
  | cons a as ih => exact ⟨hok s a h.1,ih h.2⟩

/-- Two conditions that agree on the actions of a run, in the states that what
the run keeps allows, hold along the same runs. -/
theorem guarded_congr_of_inv {allowed : α → Prop} (hinv : ∀ s a, I s → allowed a → I (step s a))
    (hok : ∀ s a, I s → allowed a → (ok s a ↔ ok' s a)) (hi : I s) (has : ∀ a ∈ as, allowed a) :
    Guarded step ok s as ↔ Guarded step ok' s as := by
  induction as generalizing s with
  | nil => exact Iff.rfl
  | cons a as ih =>
    obtain ⟨ha,hrest⟩ := forall_mem_cons.mp has
    exact and_congr (hok s a hi ha) (ih (hinv s a hi ha) hrest)

/-- If a condition is exactly what one action needs to keep `P`, then it is
exactly what a whole run needs to have `P` everywhere. The step may lean on
facts that every action keeps. -/
theorem visited_iff_guarded_of_inv (hinv : ∀ s a, I s → I (step s a))
    (hstep : ∀ s a, I s → P s → (P (step s a) ↔ ok s a)) (hi : I s) (hs : P s) :
    (∀ t ∈ visited step s as, P t) ↔ Guarded step ok s as := by
  induction as generalizing s with
  | nil => simp [visited,Guarded,hs]
  | cons a as ih =>
    simp only [visited,mem_cons,forall_eq_or_imp,Guarded]
    constructor
    · rintro ⟨_,ht⟩
      have hfirst : P (step s a) := ht _ (by cases as <;> simp [visited])
      exact ⟨(hstep s a hi hs).mp hfirst,(ih (hinv s a hi) hfirst).mp ht⟩
    · rintro ⟨ha,hg⟩
      exact ⟨hs,(ih (hinv s a hi) ((hstep s a hi hs).mpr ha)).mpr hg⟩

theorem visited_iff_guarded (hstep : ∀ s a, P s → (P (step s a) ↔ ok s a)) (hs : P s) :
    (∀ t ∈ visited step s as, P t) ↔ Guarded step ok s as :=
  visited_iff_guarded_of_inv (I := fun _ => True) (fun _ _ h => h) (fun s a _ => hstep s a) trivial hs

/-- If actions that meet the condition keep `P`, and one that breaks it leaves a
mark `Q` for good, then a run that meets the condition ends in `P`, and any
other one in `Q`. -/
theorem foldl_of_guarded (hstep : ∀ s a, P s → ok s a → P (step s a))
    (hmark : ∀ s a, P s → ¬ ok s a → Q (step s a)) (hkeep : ∀ s a, Q s → Q (step s a)) (hs : P s) :
    (Guarded step ok s as → P (as.foldl step s)) ∧
      (¬ Guarded step ok s as → Q (as.foldl step s)) := by
  induction as generalizing s with
  | nil => exact ⟨fun _ => hs,fun h => absurd trivial h⟩
  | cons a as ih =>
    by_cases ha : ok s a
    · obtain ⟨hp,hq⟩ := ih (hstep s a hs ha)
      exact ⟨fun h => hp h.2,fun h => hq fun hg => h ⟨ha,hg⟩⟩
    · refine ⟨fun h => absurd h.1 ha,fun _ => ?_⟩
      exact List.foldlRecOn as step (hmark s a hs ha) fun t ht b _ => hkeep t b ht

/-- If an action keeps `P` exactly where it meets the condition, and never brings
it back, then a run ends in `P` exactly if it began there and all its actions
meet the condition. -/
theorem foldl_iff_guarded (hinv : ∀ s a, I s → I (step s a))
    (hstep : ∀ s a, I s → (P (step s a) ↔ P s ∧ ok s a)) (hi : I s) :
    P (as.foldl step s) ↔ P s ∧ Guarded step ok s as := by
  induction as generalizing s with
  | nil => simp [Guarded]
  | cons a as ih =>
    rw [foldl_cons,ih (hinv s a hi),hstep s a hi,and_assoc]
    rfl

end Madmail.Lib
