import Madmail.Lib.Custody
import Madmail.Lib.Holdings
import Madmail.Proofs.Loops
import Mathlib.Data.List.Range

namespace Madmail.Proofs.CheckCustody
open Exterrors Madmail.Module Msgpipeline CheckRunner Loops Lib.Custody List Function

def Registered (cr : CheckRunner) (state : Nat) : Prop := state ∈ cr.states.map Prod.snd

/-- The states in the map are different ones that were created, and a number
that is not given out yet stands for no object. -/
structure Numbered (cr : CheckRunner) : Prop where
  distinct : (cr.states.map Prod.snd).Nodup
  created : ∀ state, Registered cr state → state < cr.nextState
  fresh : ∀ state, cr.nextState ≤ state → cr.calls state = []

def StateOK (cr : CheckRunner) (state : Nat) : Prop :=
  InOrder .close (state < cr.nextState) (Registered cr state) (cr.calls state)

/-- The states in the map are open, and all others were closed once. -/
def StatesOK (cr : CheckRunner) : Prop := ∀ state, StateOK cr state

def InUse (cr : CheckRunner) (group : List Nat) : Prop :=
  ∀ state ∈ group, state < cr.nextState ∧ (Registered cr state ∨ .close ∉ cr.calls state)

/-- Between two runners, some states get calls other than `Close`, and that is
all that their books show. -/
structure Used (group : List Nat) (cr cr' : CheckRunner) : Prop where
  map : cr'.states = cr.states
  nextState : cr'.nextState = cr.nextState
  calls : ∀ state, ∃ more, cr'.calls state = cr.calls state ++ more ∧ .close ∉ more ∧
    (state ∉ group → more = [])

namespace Used
variable {group order more : List Nat} {state : Nat} {call : CheckCall} {cr cr' a b c : CheckRunner}

theorem refl (group : List Nat) (cr : CheckRunner) : Used group cr cr :=
  ⟨rfl,rfl,fun _ => ⟨[],by simp,by simp,fun _ => rfl⟩⟩

theorem trans (h : Used group a b) (h' : Used group b c) : Used group a c := by
  refine ⟨h'.map.trans h.map,h'.nextState.trans h.nextState,fun state => ?_⟩
  obtain ⟨more,hm,hc,hout⟩ := h.calls state
  obtain ⟨more',hm',hc',hout'⟩ := h'.calls state
  exact ⟨more ++ more',by rw [hm',hm,append_assoc],by simp [hc,hc'],
    fun hs => by rw [hout hs,hout' hs]; rfl⟩

theorem mono (h : Used group a b) (hsub : ∀ state ∈ group, state ∈ more) : Used more a b :=
  ⟨h.map,h.nextState,fun state => by
    obtain ⟨calls,hm,hc,hout⟩ := h.calls state
    exact ⟨calls,hm,hc,fun hs => hout fun hin => hs (hsub state hin)⟩⟩

theorem note (hs : state ∈ group) (hcall : call ≠ .close) (cr : CheckRunner) :
    Used group cr (cr.note state call) := by
  refine ⟨rfl,rfl,fun other => ?_⟩
  by_cases he : other = state
  · subst other
    exact ⟨[call],by simp [CheckRunner.note],by simpa using hcall.symm,fun h => absurd hs h⟩
  · exact ⟨[],by simp [CheckRunner.note,he],by simp,fun _ => rfl⟩

theorem merge (hf : ∀ cr, ∀ state ∈ group, Used group cr (f cr state).1)
    (hsub : ∀ state ∈ order, state ∈ group) : Used group cr (cr.runAndMergeResults order f).1 := by
  have h := merge_inv (f := f) (P := fun before cr' =>
      (∀ state ∈ before, state ∈ group) → Used group cr cr')
    (fun before cr' res h hb => ⟨(h hb).map,(h hb).nextState,(h hb).calls⟩) ?_ order
    (fun _ => .refl _ _)
  · exact h hsub
  · intro before state cr' h hb
    obtain ⟨hbefore,hstate⟩ := forall_mem_append.mp hb
    exact (h hbefore).trans (hf cr' state (hstate state (by simp)))

theorem ask_group (hcall : call ≠ .close) :
    Used group cr (cr.runAndMergeResults (env.pick (.checks call) group)
      (fun cr state => ask env cr state call)).1 :=
  merge (fun cr _ hs => note hs hcall cr) (fun _ h => (env.pick_perm _ _).mem_iff.mp h)

theorem runRcpt (env : Env) (group : List Nat) (rcptTo : String) (cr : CheckRunner) :
    Used group cr (CheckRunner.runRcpt env group rcptTo cr).1 := by
  refine merge (fun cr state hs => ?_) (fun state h => (env.pick_perm _ _).mem_iff.mp h)
  unfold askRcpt
  split
  · exact .refl _ _
  · have h : Used group cr (cr.note state (.checkRcpt rcptTo)) := note hs (by simp) cr
    exact ⟨h.map,h.nextState,h.calls⟩

theorem forEach {α : Type} {as : List α} {f : α → CheckRunner → CheckRunner × Option Err}
    (hf : ∀ a ∈ as, ∀ cr, Used group cr (f a cr).1) (cr : CheckRunner) :
    Used group cr (Msgpipeline.forEach f as cr).1 := by
  induction as generalizing cr with
  | nil => exact .refl _ _
  | cons a as ih =>
    have ha := hf a (by simp) cr
    rw [forEach_cons]
    rcases hx : f a cr with ⟨cr',_ | e⟩ <;> rw [hx] at ha
    · exact ha.trans (ih (fun a' h => hf a' (by simp [h])) cr')
    · exact ha

theorem replaySender (env : Env) (newStates : List Nat) (cr : CheckRunner) :
    Used newStates cr (CheckRunner.replaySender env cr newStates).1 := by
  unfold CheckRunner.replaySender
  split
  · refine forEach (fun call hc cr => ask_group ?_) cr
    rintro rfl
    simp at hc
  · exact .refl _ _

theorem keeps (h : Used group cr cr') (hn : Numbered cr) (hs : InUse cr group) :
    Numbered cr' ∧ (StatesOK cr' ↔ StatesOK cr) := by
  have hreg : ∀ state, Registered cr' state ↔ Registered cr state := fun state => by
    unfold Registered
    rw [h.map]
  refine ⟨⟨by rw [h.map]; exact hn.distinct,fun state hr => ?_,fun state hlt => ?_⟩,
    forall_congr' fun state => ?_⟩
  · rw [h.nextState]
    exact hn.created state ((hreg state).mp hr)
  · rw [h.nextState] at hlt
    obtain ⟨more,hm, -,hout⟩ := h.calls state
    rw [hm,hn.fresh state hlt,hout fun hin => Nat.not_lt.mpr hlt (hs state hin).1]
    rfl
  · obtain ⟨more,hm,hc,hout⟩ := h.calls state
    unfold StateOK
    rw [h.nextState,hm,propext (hreg state)]
    refine inOrder_use hc ?_
    by_cases hin : state ∈ group
    · exact .inr (hs state hin).2
    · exact .inl (hout hin)

end Used

section Close
variable {cr : CheckRunner}

theorem closeStates_frame (cr : CheckRunner) (group : List Nat) :
    (cr.closeStates group).states = cr.states ∧ (cr.closeStates group).nextState = cr.nextState ∧
      ∀ state, (cr.closeStates group).calls state =
        cr.calls state ++ List.replicate (group.count state) .close := by
  unfold closeStates
  induction group generalizing cr with
  | nil => simp
  | cons first rest ih =>
    obtain ⟨hm,hx,hc⟩ := ih (cr.note first .close)
    refine ⟨hm,hx,fun state => ?_⟩
    rw [foldl_cons,hc state]
    by_cases he : state = first
    · subst state
      simp [note,replicate_succ]
    · simp [note,he,Ne.symm he]

theorem close_closed_iff (hn : Numbered cr) (env : Env) :
    (∀ state < (cr.close env).nextState, ClosedOnce .close ((cr.close env).calls state)) ↔
      StatesOK cr := by
  obtain ⟨-,hx,hc⟩ := closeStates_frame cr (env.pick .closeStates (cr.states.map Prod.snd))
  have hperm := env.pick_perm .closeStates (cr.states.map Prod.snd)
  unfold close
  rw [hx]
  refine forall_congr' fun state => ?_
  rw [hc state,hperm.count_eq state]
  by_cases hr : Registered cr state
  · rw [count_eq_one_of_mem hn.distinct hr]
    unfold StateOK
    rw [inOrder_held hr,replicate_one,closedOnce_concat]
    exact ⟨fun h => h (hn.created state hr),fun h _ => h⟩
  · rw [count_eq_zero_of_not_mem hr]
    simp only [replicate_zero,append_nil,StateOK,InOrder,hr,false_imp_iff,
      true_and,not_false_eq_true,true_imp_iff]

end Close

section Register
variable {cr : CheckRunner} {entries : List (Nat × Nat)} {entry : Nat × Nat}

theorem register_concat :
    (cr.register (entries ++ [entry])).states =
      entry :: (cr.register entries).states.filter (fun old => old.1 ≠ entry.1) := by
  simp [register,foldl_append]

theorem mem_register (h : entry ∈ (cr.register entries).states) :
    entry ∈ cr.states ++ entries := by
  induction entries using List.reverseRecOn with
  | nil => simpa [register] using h
  | append_singleton entries last ih =>
    rw [register_concat] at h
    rcases mem_cons.mp h with rfl | h
    · simp
    · have hold := ih (mem_of_mem_filter h)
      rw [← append_assoc]
      exact mem_append_left _ hold

theorem mem_register_old (h : entry ∈ cr.states) (hk : entry.1 ∉ entries.map Prod.fst) :
    entry ∈ (cr.register entries).states := by
  induction entries using List.reverseRecOn with
  | nil => simpa [register] using h
  | append_singleton entries last ih =>
    simp only [map_append,map_cons,map_nil,mem_append,mem_singleton,
      not_or] at hk
    rw [register_concat]
    exact mem_cons_of_mem _ (mem_filter.mpr ⟨ih hk.1,by simpa using hk.2⟩)

theorem register_distinct (hd : ((cr.states ++ entries).map Prod.snd).Nodup) :
    ((cr.register entries).states.map Prod.snd).Nodup := by
  induction entries using List.reverseRecOn with
  | nil => simpa [register] using hd
  | append_singleton entries last ih =>
    rw [← append_assoc,map_append] at hd
    obtain ⟨hold, -,hdisj⟩ := nodup_append.mp hd
    rw [register_concat,map_cons,nodup_cons]
    refine ⟨fun hm => ?_,(ih hold).sublist (filter_sublist.map _)⟩
    obtain ⟨old,ho,he⟩ := mem_map.mp hm
    have hin := mem_register (mem_of_mem_filter ho)
    exact hdisj old.2 (mem_map_of_mem hin) last.2 (by simp) he

theorem register_all_iff (hd : ((cr.states ++ entries).map Prod.snd).Nodup) :
    (∀ state ∈ entries.map Prod.snd, Registered (cr.register entries) state) ↔
      (entries.map Prod.fst).Nodup := by
  induction entries using List.reverseRecOn with
  | nil => simp
  | append_singleton entries last ih =>
    have hinj := inj_on_of_nodup_map hd
    rw [← append_assoc,map_append] at hd
    obtain ⟨hold, -,hdisj⟩ := nodup_append.mp hd
    -- What the map holds for a new state is the entry it came with.
    have hfrom : ∀ e ∈ entries, ∀ p ∈ (cr.register entries).states, p.2 = e.2 → p = e := by
      intro e he p hp heq
      have hpin := mem_register hp
      refine hinj ?_ ?_ heq
      · rw [← append_assoc]; exact mem_append_left _ hpin
      · simp [he]
    rw [map_append,map_append,forall_mem_append,nodup_append]
    constructor
    · rintro ⟨hall, -⟩
      have hkept : ∀ e ∈ entries, e ∈ (cr.register entries).states ∧ e.1 ≠ last.1 := by
        intro e he
        obtain ⟨p,hp,heq⟩ := mem_map.mp (hall e.2 (mem_map_of_mem he))
        rw [register_concat] at hp
        rcases mem_cons.mp hp with rfl | hp
        · exact absurd heq.symm
            (hdisj e.2 (mem_map_of_mem (mem_append_right _ he)) p.2 (by simp))
        · obtain ⟨hp,hne⟩ := mem_filter.mp hp
          cases hfrom e he p hp heq
          exact ⟨hp,by simpa using hne⟩
      refine ⟨(ih hold).mp fun state hs => ?_,by simp,fun k hk k' hk' => ?_⟩
      · obtain ⟨e,he,rfl⟩ := mem_map.mp hs
        exact mem_map_of_mem (hkept e he).1
      · obtain ⟨e,he,rfl⟩ := mem_map.mp hk
        cases mem_singleton.mp hk'
        exact (hkept e he).2
    · rintro ⟨hnodup, -,hne⟩
      refine ⟨fun state hs => ?_,fun state hs => ?_⟩
      · obtain ⟨e,he,rfl⟩ := mem_map.mp hs
        obtain ⟨p,hp,heq⟩ := mem_map.mp ((ih hold).mpr hnodup e.2 (mem_map_of_mem he))
        cases hfrom e he p hp heq
        refine mem_map_of_mem ?_
        rw [register_concat]
        refine mem_cons_of_mem _ (mem_filter.mpr ⟨hp,?_⟩)
        simpa using hne _ (mem_map_of_mem he) last.1 (by simp)
      · cases mem_singleton.mp hs
        refine mem_map_of_mem ?_
        rw [register_concat]
        exact mem_cons_self

end Register

/-- The checks of a group that the first loop of `checkStates` gets to: it stops
at the first one that has no state and can not be given one. -/
def reached (env : Env) (cr : CheckRunner) (msgMeta : MsgMetadata) (checks : List Nat) : List Nat :=
  checks.takeWhile fun check =>
    (cr.states.lookup check).isSome || (env.stateForMsg check msgMeta).isNone

def stateless (cr : CheckRunner) (checks : List Nat) : List Nat :=
  checks.filter fun check => (cr.states.lookup check).isNone

/-- A group whose states are closed once: if it comes to an error, none of the
checks had a state before, and otherwise no check gets two of them. -/
def GroupOK (env : Env) (msgMeta : MsgMetadata) (checks : List Nat) (cr : CheckRunner) : Prop :=
  match (checkStates env cr msgMeta checks).2 with
  | .error _ => ∀ check ∈ reached env cr msgMeta checks, cr.states.lookup check = none
  | .ok _ => (stateless cr checks).Nodup

section Opening
variable {env : Env} {cr : CheckRunner} {i : Init} {before : List Nat} {check state : Nat}

theorem registered_of_lookup (h : cr.states.lookup check = some state) : Registered cr state :=
  mem_map.mpr ⟨(check,state),Lib.mem_of_lookup h,rfl⟩

structure Opened (cr : CheckRunner) (before : List Nat) (i : Init) : Prop where
  runner : i.runner = { cr with nextState := i.runner.nextState, owner := i.runner.owner }
  nextState : i.runner.nextState = cr.nextState + i.newStates.length
  owner : ∀ state < cr.nextState, i.runner.owner state = cr.owner state
  owned : ∀ entry ∈ i.newStatesMap, i.runner.owner entry.2 = entry.1
  new : i.newStates = List.range' cr.nextState i.newStates.length
  values : i.newStatesMap.map Prod.snd = i.newStates
  keys : i.newStatesMap.map Prod.fst = stateless cr before
  mem : ∀ state, state ∈ i.states ↔
    (∃ check ∈ before, cr.states.lookup check = some state) ∨ state ∈ i.newStates
  once : ∀ state ∈ i.newStates, (∀ check, cr.states.lookup check ≠ some state) →
    i.states.count state = 1

namespace Opened

theorem start (cr : CheckRunner) : Opened cr [] { runner := cr } :=
  ⟨rfl,rfl,fun _ _ => rfl,nofun,rfl,rfl,rfl,by simp,nofun⟩

section Facts
variable (h : Opened cr before i)
include h

theorem states : i.runner.states = cr.states := by rw [h.runner]

theorem calls : i.runner.calls = cr.calls := by rw [h.runner]

theorem mailFrom : i.runner.mailFrom = cr.mailFrom := by rw [h.runner]

theorem received : i.runner.mailFromReceived = cr.mailFromReceived := by
  rw [h.runner]

theorem checkedRcpts : i.runner.checkedRcpts = cr.checkedRcpts := by
  rw [h.runner]

theorem next : cr.nextState ≤ i.runner.nextState := h.nextState ▸ Nat.le_add_right ..

theorem nodup : i.newStates.Nodup := by
  rw [h.new]
  exact nodup_range'

theorem mem_new : state ∈ i.newStates ↔ cr.nextState ≤ state ∧ state < i.runner.nextState := by
  rw [h.new,h.nextState,mem_range'_1]

theorem bounds (state : Nat) (hs : state ∈ i.newStates) :
    cr.nextState ≤ state ∧ state < i.runner.nextState := h.mem_new.mp hs

theorem map (check state : Nat) (hm : (check,state) ∈ i.newStatesMap) :
    check ∈ before ∧ cr.states.lookup check = none ∧ state ∈ i.newStates ∧
      i.runner.owner state = check := by
  have hkey : check ∈ stateless cr before := h.keys ▸ mem_map_of_mem hm
  obtain ⟨hb,hnone⟩ := mem_filter.mp hkey
  exact ⟨hb,Option.isNone_iff_eq_none.mp hnone,h.values ▸ mem_map_of_mem hm,h.owned _ hm⟩

theorem mapped (hc : check ∈ before) (hl : cr.states.lookup check = none) :
    ∃ state, (check,state) ∈ i.newStatesMap := by
  have hkey : check ∈ i.newStatesMap.map Prod.fst := by
    rw [h.keys]
    exact mem_filter.mpr ⟨hc,by simp [hl]⟩
  obtain ⟨⟨_,state⟩,hm,rfl⟩ := mem_map.mp hkey
  exact ⟨state,hm⟩

theorem source (state : Nat) (hs : state ∈ i.newStates) :
    ∃ check, (check,state) ∈ i.newStatesMap := by
  rw [← h.values] at hs
  obtain ⟨⟨check,_⟩,hm,rfl⟩ := mem_map.mp hs
  exact ⟨check,hm⟩

theorem exists_new (hsome : i.newStates ≠ []) : ∃ check ∈ before, cr.states.lookup check = none := by
  obtain ⟨state,hs⟩ := exists_mem_of_ne_nil _ hsome
  obtain ⟨check,hm⟩ := h.source state hs
  obtain ⟨hc,hl, -⟩ := h.map check state hm
  exact ⟨check,hc,hl⟩

theorem step_known (hl : cr.states.lookup check = some state) :
    Opened cr (before ++ [check]) { i with states := i.states ++ [state] } := by
  refine ⟨h.runner,h.nextState,h.owner,h.owned,h.new,h.values,?_,fun other => ?_,
    fun other ho hno => ?_⟩
  · simp [h.keys,stateless,hl]
  · simp [h.mem other,or_and_right,exists_or,hl,eq_comm,or_right_comm]
  · have hne : state ≠ other := fun he => hno check (he ▸ hl)
    simp [count_append,h.once other ho hno,hne]

theorem step_new (hl : cr.states.lookup check = none) :
    Opened cr (before ++ [check])
      { runner :=
          { i.runner with
            nextState := i.runner.nextState + 1
            owner := update i.runner.owner i.runner.nextState check }
        states := i.states ++ [i.runner.nextState]
        newStates := i.newStates ++ [i.runner.nextState]
        newStatesMap := i.newStatesMap ++ [(check,i.runner.nextState)] } := by
  have hfresh : i.runner.nextState ∉ i.newStates := fun hm => Nat.lt_irrefl _ (h.bounds _ hm).2
  refine ⟨?_,?_,fun state hs => ?_,fun entry he => ?_,?_,?_,?_,fun other => ?_,
    fun other ho hno => ?_⟩
  · exact congrArg (fun cr : CheckRunner => { cr with
      nextState := i.runner.nextState + 1
      owner := update i.runner.owner i.runner.nextState check }) h.runner
  · simp only [h.nextState,length_append,length_singleton,Nat.add_assoc]
  · exact (update_of_ne (Nat.ne_of_lt (Nat.lt_of_lt_of_le hs h.next)) ..).trans
      (h.owner state hs)
  · rcases mem_append.mp he with he | he
    · have hnew : entry.2 ∈ i.newStates := h.values ▸ mem_map_of_mem he
      have hne : entry.2 ≠ i.runner.nextState := fun heq => hfresh (heq ▸ hnew)
      exact (update_of_ne hne ..).trans (h.owned entry he)
    · cases mem_singleton.mp he
      exact update_self ..
  · simp only [length_append,length_singleton,range'_concat,Nat.one_mul]
    rw [← h.new,h.nextState]
  · simp [h.values]
  · simp [h.keys,stateless,hl]
  · simp [h.mem other,or_and_right,exists_or,hl,or_assoc]
  · rcases mem_append.mp ho with ho | ho
    · have hne : i.runner.nextState ≠ other := fun he => hfresh (he ▸ ho)
      simp [count_append,h.once other ho hno,hne]
    · cases mem_singleton.mp ho
      have hout : i.runner.nextState ∉ i.states := fun hm =>
        ((h.mem _).mp hm).elim (fun hold => hold.elim fun c hc => hno c hc.2) hfresh
      simp [count_append,count_eq_zero_of_not_mem hout]

theorem loop :
    Opened cr (before ++ reached env cr msgMeta checks) (forEach (initState env msgMeta) checks i).1 ∧
      ((forEach (initState env msgMeta) checks i).2 = none ↔ reached env cr msgMeta checks = checks) := by
  induction checks generalizing before i with
  | nil => exact ⟨by simpa [reached,forEach] using h,by simp [reached,forEach]⟩
  | cons check rest ih =>
    rw [forEach_cons]
    unfold initState
    rw [h.states]
    -- What is left is the same loop, once the check is done.
    have hrest : ∀ i', Opened cr (before ++ [check]) i' →
        reached env cr msgMeta (check :: rest) = check :: reached env cr msgMeta rest →
        Opened cr (before ++ reached env cr msgMeta (check :: rest))
            (forEach (initState env msgMeta) rest i').1 ∧
          ((forEach (initState env msgMeta) rest i').2 = none ↔
            reached env cr msgMeta (check :: rest) = check :: rest) := by
      intro i' hi' hr
      rw [hr,append_cons,cons_inj_right]
      exact ih hi'
    cases hl : cr.states.lookup check with
    | some state => exact hrest _ (h.step_known hl) (by simp [reached,hl])
    | none =>
      cases hs : env.stateForMsg check msgMeta with
      | some e => exact ⟨by simpa [reached,hl,hs] using h,by simp [reached,hl,hs]⟩
      | none => exact hrest _ (h.step_new hl) (by simp [reached,hl,hs])

end Facts

theorem old (hn : Numbered cr) (h : cr.states.lookup check = some state) : state < cr.nextState :=
  hn.created state (registered_of_lookup h)

theorem lt (hn : Numbered cr) (h : Opened cr before i) (hs : state ∈ i.states) :
    state < i.runner.nextState := by
  rcases (h.mem state).mp hs with ⟨check, -,hl⟩ | hnew
  · exact Nat.lt_of_lt_of_le (old hn hl) h.next
  · exact (h.bounds state hnew).2

theorem count_new (hn : Numbered cr) (h : Opened cr before i) (hs : state ∈ i.newStates) :
    i.states.count state = 1 :=
  h.once state hs fun _ hl => absurd (old hn hl) (Nat.not_lt.mpr (h.bounds state hs).1)

end Opened

/-- What `checkStates` comes to: after calls on the states of the group, either
they are all closed, or the new ones go into the map. -/
theorem checkStates_cases :
    ∃ i cr₁, Opened cr (reached env cr msgMeta checks) i ∧ Used i.states i.runner cr₁ ∧
      ((∃ e, checkStates env cr msgMeta checks = (cr₁.closeStates i.states,.error e)) ∨
        (reached env cr msgMeta checks = checks ∧
          checkStates env cr msgMeta checks = (cr₁.register i.newStatesMap,.ok i.states))) := by
  obtain ⟨hopen,hall⟩ := (Opened.start cr).loop
  rw [nil_append] at hopen
  unfold checkStates
  rcases hi : forEach (initState env msgMeta) checks { runner := cr } with ⟨i,_ | e⟩ <;>
    rw [hi] at hopen hall
  · dsimp only at hopen ⊢
    have hsub : ∀ state ∈ i.newStates, state ∈ i.states := fun state hs =>
      (hopen.mem state).mpr (.inr hs)
    by_cases hnew : i.newStates = []
    · have hmap : i.newStatesMap = [] := map_eq_nil_iff.mp (hopen.values.trans hnew)
      exact ⟨i,i.runner,hopen,.refl _ _,.inr ⟨hall.mp rfl,by rw [if_pos hnew,hmap]; rfl⟩⟩
    · rw [if_neg hnew]
      have hsender := (Used.replaySender env i.newStates i.runner).mono hsub
      rcases hr : i.runner.replaySender env i.newStates with ⟨cr₁,_ | e⟩ <;> rw [hr] at hsender
      · have hrcpts := hsender.trans (Used.forEach (f := runRcpt env i.states)
          (fun a (_ : a ∈ cr₁.checkedRcpts) cr => Used.runRcpt env i.states a cr) cr₁)
        dsimp only
        rcases hf : forEach (runRcpt env i.states) cr₁.checkedRcpts cr₁ with ⟨cr₂,_ | e⟩ <;>
          rw [hf] at hrcpts
        · exact ⟨i,cr₂,hopen,hrcpts,.inr ⟨hall.mp rfl,rfl⟩⟩
        · exact ⟨i,cr₂,hopen,hrcpts,.inl ⟨e,rfl⟩⟩
      · exact ⟨i,cr₁,hopen,hsender,.inl ⟨e,rfl⟩⟩
  · exact ⟨i,i.runner,hopen,.refl _ _,.inl ⟨e,rfl⟩⟩

theorem calls_old (ho : Opened cr before i) (hu : Used i.states i.runner cr₁)
    (hs : state ∉ i.states) : cr₁.calls state = cr.calls state := by
  obtain ⟨more,hm, -,hout⟩ := hu.calls state
  rw [hm,hout hs,ho.calls,append_nil]

section Outcomes
variable {cr₁ : CheckRunner} (hn : Numbered cr) (ho : Opened cr before i)
  (hu : Used i.states i.runner cr₁)
include hn ho hu

theorem calls_new (hs : cr.nextState ≤ state) : .close ∉ cr₁.calls state := by
  obtain ⟨more,hm,hc, -⟩ := hu.calls state
  rw [hm,ho.calls,hn.fresh state hs]
  simpa using hc

theorem calls_fresh (hs : i.runner.nextState ≤ state) : cr₁.calls state = [] := by
  rw [calls_old ho hu fun hm => absurd (ho.lt hn hm) (Nat.not_lt.mpr hs)]
  exact hn.fresh state (Nat.le_trans ho.next hs)

omit hn hu in
theorem registered_of_old (hs : state ∈ i.states) (hold : state < cr.nextState) :
    Registered cr state := by
  rcases (ho.mem state).mp hs with ⟨check, -,hl⟩ | hnew
  · exact registered_of_lookup hl
  · exact absurd (ho.mem_new.mp hnew).1 (Nat.not_le.mpr hold)

omit hn in
theorem registered_closeStates :
    Registered (cr₁.closeStates i.states) state ↔ Registered cr state := by
  unfold Registered
  rw [(closeStates_frame cr₁ i.states).1,hu.map,ho.states]

theorem closeStates_state_iff :
    StateOK (cr₁.closeStates i.states) state ↔
      StateOK cr state ∧ (state < cr.nextState → state ∉ i.states) := by
  obtain ⟨-,hnext,hcalls⟩ := closeStates_frame cr₁ i.states
  rw [hu.nextState] at hnext
  unfold StateOK
  rw [hnext,hcalls,propext (registered_closeStates ho hu)]
  by_cases hold : state < cr.nextState
  · simp only [hold,hold.trans_le ho.next,true_imp_iff]
    by_cases hs : state ∈ i.states
    · rw [inOrder_held (registered_of_old ho hs hold)]
      refine iff_of_false (fun h => h ?_) (fun h => h.2 hs)
      exact mem_append_right _ (mem_replicate.mpr ⟨(count_pos_iff.mpr hs).ne',rfl⟩)
    · rw [count_eq_zero_of_not_mem hs,calls_old ho hu hs]
      simp [hs]
  · have hr : ¬ Registered cr state := fun hr => hold (hn.created state hr)
    refine iff_of_true ?_ ⟨inOrder_absent hold hr,fun h => absurd h hold⟩
    by_cases hnew : state < i.runner.nextState
    · have hin := ho.mem_new.mpr ⟨Nat.not_lt.mp hold,hnew⟩
      rw [inOrder_given_up hnew hr,ho.count_new hn hin,replicate_one,closedOnce_concat]
      exact calls_new hn ho hu (Nat.not_lt.mp hold)
    · exact inOrder_absent hnew hr

theorem closeStates_ok_iff :
    Numbered (cr₁.closeStates i.states) ∧ (StatesOK (cr₁.closeStates i.states) ↔
      StatesOK cr ∧ ∀ check ∈ before, cr.states.lookup check = none) := by
  obtain ⟨hmap,hnext,hcalls⟩ := closeStates_frame cr₁ i.states
  rw [hu.map,ho.states] at hmap
  rw [hu.nextState] at hnext
  refine ⟨⟨by rw [hmap]; exact hn.distinct,fun state hr => ?_,fun state hs => ?_⟩,?_⟩
  · rw [hnext]
    exact (hn.created state ((registered_closeStates ho hu).mp hr)).trans_le ho.next
  · rw [hnext] at hs
    rw [hcalls,calls_fresh hn ho hu hs,
      count_eq_zero_of_not_mem fun hm => absurd (ho.lt hn hm) (Nat.not_lt.mpr hs)]
    rfl
  unfold StatesOK
  simp only [closeStates_state_iff hn ho hu,forall_and]
  refine and_congr_right fun _ => ⟨fun h check hc => ?_,fun h state hold hs => ?_⟩
  · cases hl : cr.states.lookup check with
    | none => rfl
    | some state => exact absurd ((ho.mem state).mpr (.inl ⟨check,hc,hl⟩)) (h state (Opened.old hn hl))
  · rcases (ho.mem state).mp hs with ⟨check,hc,hl⟩ | hnew
    · rw [h check hc] at hl
      cases hl
    · exact absurd (ho.mem_new.mp hnew).1 (Nat.not_le.mpr hold)

omit hn in
theorem registered_or_new (hr : Registered (cr₁.register i.newStatesMap) state) :
    Registered cr state ∨ state ∈ i.newStates := by
  obtain ⟨p,hp,rfl⟩ := mem_map.mp hr
  rcases mem_append.mp (mem_register hp) with hp | hp
  · exact .inl (mem_map_of_mem ((hu.map.trans ho.states) ▸ hp))
  · exact .inr (ho.values ▸ mem_map_of_mem hp)

omit hn in
theorem registered_kept (hr : Registered cr state) :
    Registered (cr₁.register i.newStatesMap) state := by
  obtain ⟨p,hp,rfl⟩ := mem_map.mp hr
  refine mem_map_of_mem (mem_register_old ((hu.map.trans ho.states).symm ▸ hp) fun hk => ?_)
  rw [ho.keys] at hk
  have hnone := Option.isNone_iff_eq_none.mp (mem_filter.mp hk).2
  exact Lib.not_mem_of_lookup hnone p hp rfl

theorem registered_lt (hr : Registered (cr₁.register i.newStatesMap) state) :
    state < i.runner.nextState := by
  rcases registered_or_new ho hu hr with hr | hnew
  · exact (hn.created state hr).trans_le ho.next
  · exact (ho.mem_new.mp hnew).2

theorem register_values_nodup : ((cr₁.states ++ i.newStatesMap).map Prod.snd).Nodup := by
  rw [hu.map.trans ho.states,map_append,ho.values,nodup_append]
  refine ⟨hn.distinct,ho.nodup,fun a ha b hb => ?_⟩
  have hlt := hn.created a ha
  have hge := (ho.mem_new.mp hb).1
  omega

theorem register_state_iff :
    StateOK (cr₁.register i.newStatesMap) state ↔ StateOK cr state ∧
      (state ∈ i.newStates → Registered (cr₁.register i.newStatesMap) state) := by
  have hnext : (cr₁.register i.newStatesMap).nextState = i.runner.nextState := hu.nextState
  have hsame : (cr₁.register i.newStatesMap).calls state = cr₁.calls state := rfl
  by_cases hold : state < cr.nextState
  · have hnot : state ∉ i.newStates := fun hm => Nat.not_le.mpr hold (ho.mem_new.mp hm).1
    have hreg : Registered (cr₁.register i.newStatesMap) state ↔ Registered cr state :=
      ⟨fun hr => (registered_or_new ho hu hr).resolve_right hnot,registered_kept ho hu⟩
    obtain ⟨more,hm,hc,hout⟩ := hu.calls state
    have hcalls : (cr₁.register i.newStatesMap).calls state = cr.calls state ++ more :=
      hsame.trans (hm.trans (by rw [ho.calls]))
    unfold StateOK
    rw [hnext,hcalls,propext hreg]
    simp only [hold,hold.trans_le ho.next,hnot,false_imp_iff,and_true]
    refine inOrder_use hc ?_
    by_cases hs : state ∈ i.states
    · exact .inr (.inl (registered_of_old ho hs hold))
    · exact .inl (hout hs)
  · have habsent : StateOK cr state :=
      inOrder_absent hold fun hr => hold (hn.created state hr)
    have hopen : .close ∉ (cr₁.register i.newStatesMap).calls state := by
      rw [hsame]
      exact calls_new hn ho hu (Nat.not_lt.mp hold)
    by_cases hr : Registered (cr₁.register i.newStatesMap) state
    · exact iff_of_true ((inOrder_held hr).mpr hopen) ⟨habsent,fun _ => hr⟩
    · by_cases hnew : state < i.runner.nextState
      · refine iff_of_false (fun h => hopen (h.2 (hnext ▸ hnew) hr).mem) (fun h => hr (h.2 ?_))
        exact ho.mem_new.mpr ⟨Nat.not_lt.mp hold,hnew⟩
      · exact iff_of_true (inOrder_absent (hnext ▸ hnew) hr)
          ⟨habsent,fun hm => absurd (ho.mem_new.mp hm).2 hnew⟩

theorem register_ok_iff :
    Numbered (cr₁.register i.newStatesMap) ∧ InUse (cr₁.register i.newStatesMap) i.states ∧
      (StatesOK (cr₁.register i.newStatesMap) ↔ StatesOK cr ∧ (stateless cr before).Nodup) := by
  have hnext : (cr₁.register i.newStatesMap).nextState = i.runner.nextState := hu.nextState
  have hsame (state : Nat) : (cr₁.register i.newStatesMap).calls state = cr₁.calls state := rfl
  have hd := register_values_nodup hn ho hu
  refine ⟨⟨register_distinct hd,fun state hr => hnext ▸ registered_lt hn ho hu hr,
    fun state hs => (hsame state).trans (calls_fresh hn ho hu (hnext ▸ hs))⟩,fun state hs => ?_,?_⟩
  · refine ⟨hnext ▸ ho.lt hn hs,?_⟩
    rcases (ho.mem state).mp hs with ⟨check, -,hl⟩ | hnew
    · exact .inl (registered_kept ho hu (registered_of_lookup hl))
    · rw [hsame]
      exact .inr (calls_new hn ho hu (ho.mem_new.mp hnew).1)
  unfold StatesOK
  simp only [register_state_iff hn ho hu,forall_and]
  have hall := register_all_iff hd
  rw [ho.values,ho.keys] at hall
  rw [hall]

end Outcomes

/-- `checkStates` keeps the books in order exactly for a group that is closed
once. -/
theorem checkStates_ok_iff (env : Env) (hn : Numbered cr) (msgMeta : MsgMetadata)
    (checks : List Nat) :
    Numbered (checkStates env cr msgMeta checks).1 ∧
      (StatesOK (checkStates env cr msgMeta checks).1 ↔
        StatesOK cr ∧ GroupOK env msgMeta checks cr) ∧
      ∀ group, (checkStates env cr msgMeta checks).2 = .ok group →
        InUse (checkStates env cr msgMeta checks).1 group := by
  unfold GroupOK
  obtain ⟨i,cr₁,ho,hu,⟨e,hc⟩ | ⟨hall,hc⟩⟩ := checkStates_cases <;> rw [hc]
  · obtain ⟨hnum,hok⟩ := closeStates_ok_iff hn ho hu
    exact ⟨hnum,hok,nofun⟩
  · rw [hall] at ho
    obtain ⟨hnum,huse,hok⟩ := register_ok_iff hn ho hu
    refine ⟨hnum,hok,fun group hg => ?_⟩
    cases hg
    exact huse

end Opening

section Calls
variable {env : Env} {cr : CheckRunner}

def withSender (cr : CheckRunner) (mailFrom : String) : CheckRunner :=
  { cr with mailFrom := mailFrom, mailFromReceived := true }

theorem checkConnSender_ok_iff (hn : Numbered cr) {mailFrom : String} :
    Numbered (cr.checkConnSender env msgMeta checks mailFrom).1 ∧
      (StatesOK (cr.checkConnSender env msgMeta checks mailFrom).1 ↔
        StatesOK cr ∧ GroupOK env msgMeta checks (withSender cr mailFrom)) := by
  have hn' : Numbered (withSender cr mailFrom) := ⟨hn.distinct,hn.created,hn.fresh⟩
  obtain ⟨hnum,hok, -⟩ := checkStates_ok_iff env hn' msgMeta checks
  have hdef : (cr.checkConnSender env msgMeta checks mailFrom).1 =
      (checkStates env (withSender cr mailFrom) msgMeta checks).1 := by
    unfold checkConnSender withSender
    rcases checkStates env _ msgMeta checks with ⟨cr',e | group⟩ <;> rfl
  rw [hdef]
  exact ⟨hnum,hok⟩

theorem checkRcpt_ok_iff (hn : Numbered cr) :
    Numbered (cr.checkRcpt env msgMeta checks rcptTo).1 ∧
      (StatesOK (cr.checkRcpt env msgMeta checks rcptTo).1 ↔
        StatesOK cr ∧ GroupOK env msgMeta checks cr) := by
  obtain ⟨hnum,hok,huse⟩ := checkStates_ok_iff env hn msgMeta checks
  unfold checkRcpt
  rcases hc : checkStates env cr msgMeta checks with ⟨cr₁,e | group⟩ <;> rw [hc] at hnum hok huse
  · exact ⟨hnum,hok⟩
  · obtain ⟨hnum',hok'⟩ := (Used.runRcpt env group rcptTo cr₁).keeps hnum (huse group rfl)
    exact ⟨⟨hnum'.distinct,hnum'.created,hnum'.fresh⟩,hok'.trans hok⟩

theorem checkBody_ok_iff (hn : Numbered cr) :
    Numbered (cr.checkBody env msgMeta checks header body).1 ∧
      (StatesOK (cr.checkBody env msgMeta checks header body).1 ↔
        StatesOK cr ∧ GroupOK env msgMeta checks cr) := by
  obtain ⟨hnum,hok,huse⟩ := checkStates_ok_iff env hn msgMeta checks
  unfold checkBody
  rcases hc : checkStates env cr msgMeta checks with ⟨cr₁,e | group⟩ <;> rw [hc] at hnum hok huse
  · exact ⟨hnum,hok⟩
  · dsimp only
    generalize hfetch : (if cr₁.doDMARC ∧ cr₁.dmarcFetch = none then _ else cr₁) = cr₂
    have hsame : Used group cr₁ cr₂ := by
      rw [← hfetch]
      split <;> exact ⟨rfl,rfl,(Used.refl group cr₁).calls⟩
    have hasked : Used group cr₂ (cr₂.runAndMergeResults
        (env.pick (.checks (.checkBody header body)) group)
        (fun cr state => ask env cr state (.checkBody header body))).1 :=
      Used.ask_group (by simp)
    obtain ⟨hnum',hok'⟩ := (hsame.trans hasked).keeps hnum (huse group rfl)
    exact ⟨hnum',hok'.trans hok⟩

end Calls

end Madmail.Proofs.CheckCustody
