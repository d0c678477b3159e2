import Madmail.Lib.Holdings
import Madmail.Msgpipeline.Goroutines

namespace Madmail.Proofs.MergeOrder
open Lib Msgpipeline Exterrors CheckGroup List

/-- A check that acts on a message says why, and either rejects or quarantines it. -/
structure Sound (result : CheckResult) : Prop where
  reason : result.reject = true ∨ result.quarantine = true → result.reason.isSome
  one : ¬ (result.reject = true ∧ result.quarantine = true)

/-- What the merge of these results is, in whatever order they come. -/
structure Merged (before : CheckResult) (results : List CheckResult)
    (after : CheckResult × Option Err) : Prop where
  error : after.2.isSome ↔ ∃ r ∈ results, r.reject = true
  quarantine : after.1.quarantine = true ↔ before.quarantine = true ∨
    (¬ ∃ r ∈ results, r.reject = true) ∧ ∃ r ∈ results, r.quarantine = true
  auth : after.1.authResult.Perm (before.authResult ++ results.flatMap (·.authResult))
  header : after.1.header.Perm (before.header ++ results.flatMap (·.header))

variable (addRaw : AddRaw) (g : CheckGroup) in
inductive Steps : CheckGroup → Prop where
  | auth (i : Nat) (r : CheckResult) (hi : g.goroutines[i]? = some ⟨r,.answered⟩) :
      Steps ((g.appendAuth r).move i r .authMerged)
  | noHeader (i : Nat) (r : CheckResult) (hi : g.goroutines[i]? = some ⟨r,.authMerged⟩)
      (hr : r.header = []) : Steps (g.move i r .headerMerged)
  | header (i : Nat) (r : CheckResult) (fields : Module.Header)
      (hi : g.goroutines[i]? = some ⟨r,.authMerged⟩) (hr : r.header.mapM addRaw = some fields) :
      Steps ((g.addHeader fields).move i r .headerMerged)
  | panic (i : Nat) (r : CheckResult) (fields : Module.Header)
      (hi : g.goroutines[i]? = some ⟨r,.authMerged⟩) (hr : r.header.mapM addRaw = none) :
      Steps ({ g.addHeader fields with headerLocked := true }.move i r .done)
  | verdict (i : Nat) (r : CheckResult) (hi : g.goroutines[i]? = some ⟨r,.headerMerged⟩) :
      Steps ((g.setVerdict r).move i r .done)

variable {addRaw : AddRaw} {g g' : CheckGroup} {i : Nat} {r before : CheckResult}
  {stage next : Stage} {results : List CheckResult} {as : List Nat} {m : CheckRunner.Merge}
  {cell : Option (Option Err)} {P : Goroutine → Prop} {after : CheckResult × Option Err}

theorem steps_of_step (h : g.step addRaw i = some g') : Steps addRaw g g' := by
  revert h
  fun_cases step addRaw g i <;> intro h <;> cases h
  · exact .auth i _ ‹_›
  · exact .noHeader i _ ‹_› ‹_›
  · exact .header i _ _ ‹_› ‹_›
  · exact .panic i _ _ ‹_› ‹_›
  · exact .verdict i _ ‹_›

def stepsLeft : Stage → Nat
  | .answered => 3
  | .authMerged => 2
  | .headerMerged => 1
  | .done => 0

def remaining (g : CheckGroup) : Nat := (g.goroutines.map fun x => stepsLeft x.stage).sum

theorem remaining_move (next : Stage) (hi : g.goroutines[i]? = some ⟨r,stage⟩) :
    remaining (g.move i r next) + stepsLeft stage = remaining g + stepsLeft next :=
  sum_map_set (fun x : Goroutine => stepsLeft x.stage) ⟨r,next⟩ hi

theorem goroutines_setVerdict : (g.setVerdict r).goroutines = g.goroutines := by
  unfold setVerdict
  split
  · rfl
  · split <;> rfl

theorem remaining_lt (h : g.step addRaw i = some g') : remaining g' < remaining g := by
  have hless : ∀ {g₁ : CheckGroup} {i : Nat} {r : CheckResult} {stage next : Stage},
      g₁.goroutines = g.goroutines → g.goroutines[i]? = some ⟨r,stage⟩ →
      stepsLeft next < stepsLeft stage → remaining (g₁.move i r next) < remaining g := by
    intro g₁ i r stage next hg hi hlt
    rw [← hg] at hi
    have hmove := remaining_move next hi
    have hsame : remaining g₁ = remaining g := by rw [remaining,remaining,hg]
    omega
  cases steps_of_step h with
  | auth i r hi => exact hless rfl hi (Nat.lt_succ_self 2)
  | noHeader i r hi _ | header i r fields hi _ => exact hless rfl hi (Nat.lt_succ_self 1)
  | panic i r fields hi _ => exact hless rfl hi (Nat.zero_lt_succ 1)
  | verdict i r hi => exact hless goroutines_setVerdict hi (Nat.lt_succ_self 0)

theorem addFields_eq (header fields : Module.Header) :
    addFields header fields = fields.reverse ++ header := by
  induction fields generalizing header with
  | nil => rfl
  | cons f fields ih =>
    have hrest := ih (f :: header)
    simp only [addFields,foldl_cons,reverse_cons,append_assoc,
      singleton_append] at hrest ⊢
    exact hrest

theorem results_step (h : g.step addRaw i = some g') :
    g'.goroutines.map (·.result) = g.goroutines.map (·.result) := by
  cases steps_of_step h with
  | auth i r hi | noHeader i r hi _ | header i r fields hi _ | panic i r fields hi _ =>
    exact map_set_same _ _ hi rfl
  | verdict i r hi =>
    rw [move,goroutines_setVerdict]
    exact map_set_same _ _ hi rfl

def authPart (x : Goroutine) : List AuthResult :=
  match x.stage with
  | .answered => []
  | .authMerged | .headerMerged | .done => x.result.authResult

def headerPart (x : Goroutine) : Module.Header :=
  match x.stage with
  | .answered | .authMerged => []
  | .headerMerged | .done => x.result.header

def Rejected (x : Goroutine) : Prop := x.stage = .done ∧ x.result.reject = true

def Quarantined (x : Goroutine) : Prop := x.stage = .done ∧ x.result.quarantine = true

/-- A cell that was set once, by some goroutine, to an error. -/
def SetBy (cell : Option (Option Err)) (P : Goroutine → Prop) (g : CheckGroup) : Prop :=
  (cell ≠ none ↔ ∃ x ∈ g.goroutines, P x) ∧ cell ≠ some none

structure Inv (before : CheckResult) (g : CheckGroup) : Prop where
  unlocked : g.headerLocked = false
  kept : g.mergedRes.quarantine = before.quarantine
  auth : ∀ a, g.mergedRes.authResult.count a =
    before.authResult.count a + (g.goroutines.flatMap authPart).count a
  header : ∀ f, g.mergedRes.header.count f =
    before.header.count f + (g.goroutines.flatMap headerPart).count f
  reject : SetBy g.rejectErr Rejected g
  quarantine : SetBy g.quarantineErr Quarantined g

/-- The fields of a result can be formatted, and `AddRaw` takes them as they are. -/
def Formatted (addRaw : AddRaw) (result : CheckResult) : Prop :=
  ∀ field ∈ result.header, addRaw field = some field

theorem Formatted.mapM (h : Formatted addRaw r) : r.header.mapM addRaw = some r.header := by
  unfold Formatted at h
  generalize r.header = header at h
  induction header with
  | nil => rfl
  | cons field fields ih =>
    obtain ⟨hfield,hrest⟩ := forall_mem_cons.mp h
    simp [hfield,ih hrest]

def Fine (addRaw : AddRaw) (g : CheckGroup) : Prop :=
  ∀ r ∈ g.goroutines.map (·.result), Sound r ∧ Formatted addRaw r

theorem setBy_move (h : SetBy cell P g) (hi : g.goroutines[i]? = some ⟨r,stage⟩)
    (hold : ¬ P ⟨r,stage⟩) (hnew : ¬ P ⟨r,next⟩) : SetBy cell P (g.move i r next) := by
  refine ⟨h.1.trans ?_,h.2⟩
  rw [move,exists_mem_set hi hold]
  simp [hnew]

theorem setBy_verdict (h : SetBy cell P g) (hi : g.goroutines[i]? = some ⟨r,stage⟩)
    (hold : ¬ P ⟨r,stage⟩) (hnew : P ⟨r,next⟩) (hreason : r.reason.isSome) :
    SetBy (some (cell.getD r.reason)) P (g.move i r next) := by
  constructor
  · rw [move,exists_mem_set hi hold]
    simp [hnew]
  · obtain ⟨e,he⟩ := Option.isSome_iff_exists.mp hreason
    rcases cell with _ | _ | e'
    · simp [he]
    · exact absurd rfl h.2
    · simp

theorem count_move {α : Type} [BEq α] (part : Goroutine → List α) (next : Stage)
    (hi : g.goroutines[i]? = some ⟨r,stage⟩) (a : α) :
    ((g.move i r next).goroutines.flatMap part).count a + (part ⟨r,stage⟩).count a =
      (g.goroutines.flatMap part).count a + (part ⟨r,next⟩).count a :=
  count_flatMap_set part ⟨r,next⟩ a hi

theorem count_move_same {α : Type} [BEq α] (part : Goroutine → List α) (next : Stage)
    (hi : g.goroutines[i]? = some ⟨r,stage⟩) (hpart : part ⟨r,next⟩ = part ⟨r,stage⟩) (a : α) :
    (g.goroutines.flatMap part).count a = ((g.move i r next).goroutines.flatMap part).count a := by
  have hmove := count_move part next hi a
  rw [hpart] at hmove
  omega

theorem cells_move (next : Stage) (h : Inv before g) (hi : g.goroutines[i]? = some ⟨r,stage⟩)
    (hstage : stage ≠ .done) (hnext : next ≠ .done) :
    SetBy g.rejectErr Rejected (g.move i r next) ∧
      SetBy g.quarantineErr Quarantined (g.move i r next) := by
  constructor
  · apply setBy_move h.reject hi
    · exact fun hx => hstage hx.1
    · exact fun hx => hnext hx.1
  · apply setBy_move h.quarantine hi
    · exact fun hx => hstage hx.1
    · exact fun hx => hnext hx.1

theorem inv_move {quarantineErr rejectErr : Option (Option Err)} (next : Stage) (h : Inv before g)
    (hi : g.goroutines[i]? = some ⟨r,stage⟩) (hauth : authPart ⟨r,next⟩ = authPart ⟨r,stage⟩)
    (hheader : headerPart ⟨r,next⟩ = headerPart ⟨r,stage⟩)
    (hr : SetBy rejectErr Rejected (g.move i r next))
    (hq : SetBy quarantineErr Quarantined (g.move i r next)) :
    Inv before ({ g with quarantineErr, rejectErr }.move i r next) :=
  ⟨h.unlocked,h.kept,fun a => (h.auth a).trans (congrArg _ (count_move_same _ next hi hauth a)),
    fun f => (h.header f).trans (congrArg _ (count_move_same _ next hi hheader f)),hr,hq⟩

theorem inv_verdict (hsound : Sound r) (h : Inv before g)
    (hi : g.goroutines[i]? = some ⟨r,.headerMerged⟩) :
    Inv before ((g.setVerdict r).move i r .done) := by
  have hrej : ¬ Rejected ⟨r,.headerMerged⟩ := fun hx => by cases hx.1
  have hqua : ¬ Quarantined ⟨r,.headerMerged⟩ := fun hx => by cases hx.1
  unfold setVerdict
  split
  · rename_i hq
    have hnr : ¬ r.reject = true := fun hr => hsound.one ⟨hr,hq⟩
    apply inv_move .done h hi rfl rfl
    · exact setBy_move h.reject hi hrej fun hx => hnr hx.2
    · exact setBy_verdict h.quarantine hi hqua ⟨rfl,hq⟩ (hsound.reason (.inr hq))
  · rename_i hq
    split
    · rename_i hr
      apply inv_move .done h hi rfl rfl
      · exact setBy_verdict h.reject hi hrej ⟨rfl,hr⟩ (hsound.reason (.inl hr))
      · exact setBy_move h.quarantine hi hqua fun hx => hq hx.2
    · rename_i hr
      apply inv_move .done h hi rfl rfl
      · exact setBy_move h.reject hi hrej fun hx => hr hx.2
      · exact setBy_move h.quarantine hi hqua fun hx => hq hx.2

theorem inv_step (hfine : Fine addRaw g) (h : Inv before g) (hs : g.step addRaw i = some g') :
    Inv before g' := by
  have hfineAt : ∀ {i : Nat} {r : CheckResult} {stage : Stage},
      g.goroutines[i]? = some ⟨r,stage⟩ → Sound r ∧ Formatted addRaw r := by
    intro i r stage hi
    exact hfine r (mem_map.mpr ⟨_,mem_of_getElem? hi,rfl⟩)
  cases steps_of_step hs with
  | auth i r hi =>
    obtain ⟨hreject,hquarantine⟩ :=
      cells_move .authMerged h hi Stage.noConfusion Stage.noConfusion
    refine ⟨h.unlocked,h.kept,fun a => ?_,fun f => ?_,hreject,hquarantine⟩
    · have hold := h.auth a
      have hmove := count_move authPart .authMerged hi a
      simp only [authPart,count_nil] at hmove
      simp only [appendAuth,move,count_append] at hmove ⊢
      omega
    · exact (h.header f).trans (congrArg _ (count_move_same headerPart .authMerged hi rfl f))
  | noHeader i r hi hr =>
    obtain ⟨hreject,hquarantine⟩ :=
      cells_move .headerMerged h hi Stage.noConfusion Stage.noConfusion
    exact inv_move .headerMerged h hi rfl hr hreject hquarantine
  | header i r fields hi hr =>
    cases (hfineAt hi).2.mapM.symm.trans hr
    obtain ⟨hreject,hquarantine⟩ :=
      cells_move .headerMerged h hi Stage.noConfusion Stage.noConfusion
    refine ⟨h.unlocked,h.kept,fun a => ?_,fun f => ?_,hreject,hquarantine⟩
    · exact (h.auth a).trans (congrArg _ (count_move_same authPart .headerMerged hi rfl a))
    · have hold := h.header f
      have hmove := count_move headerPart .headerMerged hi f
      simp only [headerPart,count_nil] at hmove
      simp only [addHeader,addFields_eq,move,count_append,count_reverse] at hmove ⊢
      omega
  | panic i r fields hi hr => cases (hfineAt hi).2.mapM.symm.trans hr
  | verdict i r hi => exact inv_verdict (hfineAt hi).1 h hi

theorem inv_start (before : CheckResult) (results : List CheckResult) :
    Inv before (start before results) := by
  have hnone : ∀ {P : Goroutine → Prop}, (∀ x, P x → x.stage = .done) →
      SetBy none P (start before results) := by
    intro P hP
    refine ⟨?_,by simp⟩
    simp only [start,mem_map,ne_eq,not_true_eq_false,false_iff,not_exists,not_and]
    rintro x ⟨r, -,rfl⟩ hx
    cases hP _ hx
  have hempty : ∀ {α : Type} {part : Goroutine → List α}, (∀ r, part ⟨r,.answered⟩ = []) →
      (start before results).goroutines.flatMap part = [] := by
    intro α part hpart
    apply flatMap_eq_nil_iff.mpr
    intro x hx
    obtain ⟨r, -,rfl⟩ := mem_map.mp hx
    exact hpart r
  refine ⟨rfl,rfl,fun a => ?_,fun f => ?_,hnone fun _ hx => hx.1,hnone fun _ hx => hx.1⟩
  all_goals
    rw [hempty fun _ => rfl]
    rfl

theorem results_start : (start before results).goroutines.map (·.result) = results := by
  rw [start,map_map]
  exact map_id results

theorem run_results (h : run (step addRaw) (start before results) as = some g) :
    g.goroutines.map (·.result) = results :=
  run_keeps (P := fun g => g.goroutines.map (·.result) = results)
    (fun _ _ _ _ _ hs hp => (results_step hs).trans hp) results_start h

/-- With formatted fields no goroutine waits for the header for ever. -/
theorem inv_progress (hfine : Fine addRaw g) (h : Inv before g) (hgo : g.outcome = none) :
    ∃ i g', g.step addRaw i = some g' := by
  have hall : ¬ g.goroutines.all (·.stage = .done) = true := by
    intro hall
    unfold outcome at hgo
    rw [if_pos hall] at hgo
    split at hgo
    · cases hgo
    · split at hgo <;> cases hgo
  simp only [all_eq_true,decide_eq_true_eq,not_forall] at hall
  obtain ⟨⟨r,stage⟩,hmem,hstage⟩ := hall
  obtain ⟨i,hi⟩ := mem_iff_getElem?.mp hmem
  have hfields := (hfine r (mem_map.mpr ⟨_,hmem,rfl⟩)).2.mapM
  cases stage with
  | answered | headerMerged => exact ⟨i,_,by rw [step,hi]⟩
  | authMerged =>
    by_cases hr : r.header = []
    · exact ⟨i,_,by rw [step,hi]; simp only [hr,if_true]; rfl⟩
    · exact ⟨i,_,by rw [step,hi]; simp only [hr,h.unlocked,hfields,if_false]; rfl⟩
  | done => exact absurd rfl hstage

theorem all_done (h : g.outcome = some after) : ∀ x ∈ g.goroutines, x.stage = .done := by
  unfold outcome at h
  split at h
  · rename_i hall
    simpa using hall
  · cases h

theorem setBy_done {p : CheckResult → Prop}
    (h : SetBy cell (fun x => x.stage = .done ∧ p x.result) g)
    (hdone : ∀ x ∈ g.goroutines, x.stage = .done) :
    (∃ e, cell = some (some e)) ↔ ∃ r ∈ g.goroutines.map (·.result), p r := by
  have hset : (∃ e, cell = some (some e)) ↔ cell ≠ none := by
    rcases cell with _ | _ | e
    · simp
    · exact absurd rfl h.2
    · simp
  rw [hset,h.1]
  constructor
  · rintro ⟨x,hx, -,hp⟩
    exact ⟨x.result,mem_map.mpr ⟨x,hx,rfl⟩,hp⟩
  · rintro ⟨r,hr,hp⟩
    obtain ⟨x,hx,rfl⟩ := mem_map.mp hr
    exact ⟨x,hx,hdone x hx,hp⟩

theorem flatMap_done (f : CheckResult → List α) (hpart : ∀ r, part ⟨r,.done⟩ = f r)
    (hdone : ∀ x ∈ g.goroutines, x.stage = .done) :
    g.goroutines.flatMap part = (g.goroutines.map (·.result)).flatMap f := by
  rw [flatMap_map]
  apply flatMap_congr
  intro x hx
  obtain ⟨r,stage⟩ := x
  cases hdone _ hx
  exact hpart r

/-- What the call leaves when all goroutines are done. -/
theorem inv_merged (h : Inv before g) (hout : g.outcome = some after) :
    Merged before (g.goroutines.map (·.result)) after := by
  have hdone := all_done hout
  have hreject := setBy_done (p := fun r => r.reject = true) h.reject hdone
  have hquarantine := setBy_done (p := fun r => r.quarantine = true) h.quarantine hdone
  have hauth : g.mergedRes.authResult.Perm
      (before.authResult ++ (g.goroutines.map (·.result)).flatMap (·.authResult)) := by
    apply perm_iff_count.mpr
    intro a
    rw [h.auth a,count_append,flatMap_done (·.authResult) (fun _ => rfl) hdone]
  have hheader : g.mergedRes.header.Perm
      (before.header ++ (g.goroutines.map (·.result)).flatMap (·.header)) := by
    apply perm_iff_count.mpr
    intro f
    rw [h.header f,count_append,flatMap_done (·.header) (fun _ => rfl) hdone]
  unfold outcome at hout
  rw [if_pos (by simpa using hdone)] at hout
  split at hout
  · rename_i e he
    cases hout
    have hrej := hreject.mp ⟨e,he⟩
    refine ⟨iff_of_true rfl hrej,?_,hauth,hheader⟩
    rw [h.kept]
    exact (or_iff_left fun hq => hq.1 hrej).symm
  · rename_i hno
    have hnr : ¬ ∃ r ∈ g.goroutines.map (·.result), r.reject = true :=
      fun hr => (hreject.mpr hr).elim hno
    split at hout
    · rename_i e he
      cases hout
      have hq := hquarantine.mp ⟨e,he⟩
      exact ⟨iff_of_false Bool.false_ne_true hnr,iff_of_true rfl (.inr ⟨hnr,hq⟩),hauth,hheader⟩
    · rename_i hnoq
      cases hout
      refine ⟨iff_of_false Bool.false_ne_true hnr,?_,hauth,hheader⟩
      rw [h.kept]
      exact (or_iff_left fun hq => (hquarantine.mpr hq.2).elim hnoq).symm

/-- Whatever the order of the steps is, the call returns, and with the merge of the results. -/
structure AlwaysMerges (addRaw : AddRaw) (before : CheckResult)
    (results : List CheckResult) : Prop where
  short : ∀ as g, run (step addRaw) (start before results) as = some g → as.length ≤ 3 * results.length
  goes : ∀ as g, run (step addRaw) (start before results) as = some g → g.outcome = none →
    ∃ i g', g.step addRaw i = some g'
  merged : ∀ as g after, run (step addRaw) (start before results) as = some g →
    g.outcome = some after → Merged before results after

theorem length_le_remaining (h : run (step addRaw) g as = some g') :
    as.length + remaining g' ≤ remaining g := by
  induction as generalizing g with
  | nil =>
    cases h
    simp
  | cons a as ih =>
    obtain ⟨u,hu,hrest⟩ := run_cons h
    have hlt := remaining_lt hu
    have hle := ih hrest
    rw [length_cons]
    omega

theorem remaining_start : remaining (start before results) = 3 * results.length := by
  rw [remaining,start,map_map]
  induction results with
  | nil => rfl
  | cons r results ih =>
    rw [map_cons,sum_cons,ih,length_cons]
    simp only [Function.comp_apply,stepsLeft]
    omega

theorem short_of_run (h : run (step addRaw) (start before results) as = some g) :
    as.length ≤ 3 * results.length := by
  have hle := length_le_remaining h
  rw [remaining_start] at hle
  omega

/-- The merge does not depend on the order of the steps, if `AddRaw` takes all fields. -/
theorem merge_order (addRaw : AddRaw) (before : CheckResult) (results : List CheckResult)
    (hsound : ∀ r ∈ results, Sound r) (hformatted : ∀ r ∈ results, Formatted addRaw r) :
    AlwaysMerges addRaw before results := by
  have hfine : ∀ {as : List Nat} {g : CheckGroup},
      run (step addRaw) (start before results) as = some g → Fine addRaw g := by
    intro as g hrun
    unfold Fine
    rw [run_results hrun]
    exact fun r hr => ⟨hsound r hr,hformatted r hr⟩
  have hinv : ∀ {as : List Nat} {g : CheckGroup},
      run (step addRaw) (start before results) as = some g → Inv before g :=
    fun hrun => run_keeps (fun _ _ _ _ hrun hs hp => inv_step (hfine hrun) hp hs)
      (inv_start before results) hrun
  refine ⟨fun _ _ => short_of_run,fun as g hrun hgo => ?_,fun as g after hrun hafter => ?_⟩
  · exact inv_progress (hfine hrun) (hinv hrun) hgo
  · have hmerged := inv_merged (hinv hrun) hafter
    rwa [run_results hrun] at hmerged

/-- The fields that the library formats. For any other one `Raw` returns nil, and `AddRaw`
panics. -/
def addFormatted : AddRaw := fun field =>
  if field.1.toList.all (fun c => 33 ≤ c.toNat ∧ c.toNat ≤ 126 ∧ c ≠ ':') &&
      field.2.toList.all (fun c => c ≠ '\r' ∧ c ≠ '\n') then some field
  else none

theorem merge_order_two :
    AlwaysMerges addFormatted {}
      [{ reject := true, reason := some (.leaf "spam" none), header := [("X-Spam","Yes")] },
        { quarantine := true, reason := some (.leaf "list" none), header := [("X-List","a")] }] := by
  refine merge_order addFormatted {} _ ?_ ?_
  all_goals
    intro r hr
    simp only [mem_cons,not_mem_nil,or_false] at hr
    rcases hr with rfl | rfl
  · exact ⟨fun _ => rfl,by decide⟩
  · exact ⟨fun _ => rfl,by decide⟩
  · exact forall_mem_singleton.mpr rfl
  · exact forall_mem_singleton.mpr rfl

/-- A check that rejects the message and adds a field with a line break in its value: the message
is not rejected. -/
theorem rejection_lost :
    let result : CheckResult :=
      { reject := true, reason := some (.leaf "spam" none), header := [("X-Note","a\nb")] }
    Sound result ∧ ∃ g, run (step addFormatted) (start {} [result]) [0,0] = some g ∧
      g.outcome = some ({},none) := by
  exact ⟨⟨fun _ => rfl,by decide⟩,_,rfl,rfl⟩

end Madmail.Proofs.MergeOrder
