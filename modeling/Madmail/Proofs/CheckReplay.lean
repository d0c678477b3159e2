import Madmail.Proofs.CheckCustody

namespace Madmail.Proofs.CheckReplay
open Exterrors Madmail.Module Msgpipeline CheckRunner Loops List
open CheckCustody (Opened reached)

/-- Every check has a state for every message and rejects nothing. -/
structure Passing (env : Env) : Prop where
  state : ∀ check msgMeta, env.stateForMsg check msgMeta = none
  result : ∀ check calls, (env.result check calls).reject = false

theorem Passing.passes (hp : Passing env) (call : CheckCall) (check : Nat)
    (calls : List CheckCall) : refuses (env.result check (calls ++ [call])) = false := by
  simp [refuses,hp.result]

/-- A call of the runner by the pipeline before the body comes, for one group of
checks. -/
inductive Call where
  | connSender (checks : List Nat) (mailFrom : String)
  | rcpt (checks : List Nat) (rcptTo : String)
  deriving DecidableEq, Repr

namespace Call

def checks : Call → List Nat
  | connSender checks _ | rcpt checks _ => checks

def sender : Call → Option String
  | connSender _ mailFrom => some mailFrom
  | rcpt _ _ => none

def addr : Call → Option String
  | rcpt _ rcptTo => some rcptTo
  | connSender _ _ => none

def run (env : Env) (msgMeta : MsgMetadata) (cr : CheckRunner) : Call → CheckRunner × Option Err
  | .connSender checks mailFrom => cr.checkConnSender env msgMeta checks mailFrom
  | .rcpt checks rcptTo => cr.checkRcpt env msgMeta checks rcptTo

end Call

def senders (h : List Call) : List String := h.filterMap Call.sender

def passed (h : List Call) : List String := h.filterMap Call.addr

/-- The check was in the group of an earlier call. -/
def Known (h : List Call) (check : Nat) : Prop := ∃ call ∈ h, check ∈ call.checks

/-- A check is told of an address when it is in the group of a call for the
address, or when a later call has the check in its group together with a check
that is in no earlier group. -/
def Told : List Call → Nat → String → Prop
  | [], _, _ => False
  | call :: h, check, a =>
    (call.addr = some a ∧ check ∈ call.checks) ∨ Told h check a ∨
    (check ∈ call.checks ∧ (∃ other ∈ call.checks, ¬ Known h other) ∧ a ∈ passed h)

instance (h : List Call) (check : Nat) : Decidable (Known h check) :=
  inferInstanceAs (Decidable (∃ call ∈ h, check ∈ call.checks))

instance decidableTold : (h : List Call) → (check : Nat) → (a : String) → Decidable (Told h check a)
  | [], _, _ => isFalse fun h => h
  | call :: h, check, a =>
    have := decidableTold h check a
    inferInstanceAs (Decidable ((call.addr = some a ∧ check ∈ call.checks) ∨ Told h check a ∨
      (check ∈ call.checks ∧ (∃ other ∈ call.checks, ¬ Known h other) ∧ a ∈ passed h)))

theorem mem_passed_cons : a ∈ passed (call :: h) ↔ call.addr = some a ∨ a ∈ passed h := by
  simp [passed,mem_filterMap]

theorem mem_senders_cons : f ∈ senders (call :: h) ↔ call.sender = some f ∨ f ∈ senders h := by
  simp [senders,mem_filterMap]

theorem known_cons : Known (call :: h) check ↔ check ∈ call.checks ∨ Known h check := by
  simp [Known]

theorem passed_of_told (h : Told hist check a) : a ∈ passed hist := by
  induction hist with
  | nil => exact h.elim
  | cons call hist ih =>
    rcases h with ⟨ha, -⟩ | h | ⟨-, -,h⟩
    · exact mem_passed_cons.mpr (.inl ha)
    · exact mem_passed_cons.mpr (.inr (ih h))
    · exact mem_passed_cons.mpr (.inr h)

theorem known_of_told (h : Told hist check a) : Known hist check := by
  induction hist with
  | nil => exact h.elim
  | cons call hist ih =>
    rcases h with ⟨-,hm⟩ | h | ⟨hm, -, -⟩
    · exact known_cons.mpr (.inl hm)
    · exact known_cons.mpr (.inr (ih h))
    · exact known_cons.mpr (.inl hm)

/-- The calls that a state has had, and the addresses noted for it. -/
abbrev Log := List CheckCall × List String

def log (cr : CheckRunner) (state : Nat) : Log := (cr.calls state,cr.checkedRcptsPerCheck state)

/-- `CheckRcpt` is called for an address unless it is noted for the state. -/
def tell (a : String) (l : Log) : Log :=
  if a ∈ l.2 then l else (l.1 ++ [.checkRcpt a],l.2 ++ [a])

theorem tell_tell : tell a (tell a l) = tell a l := by
  by_cases h : a ∈ l.2 <;> simp [tell,h]

/-- Two runners that differ at most in the logs and in the merged results. -/
structure SameBooks (cr cr' : CheckRunner) : Prop where
  mailFrom : cr'.mailFrom = cr.mailFrom
  received : cr'.mailFromReceived = cr.mailFromReceived
  checkedRcpts : cr'.checkedRcpts = cr.checkedRcpts
  states : cr'.states = cr.states
  nextState : cr'.nextState = cr.nextState
  owner : cr'.owner = cr.owner

namespace SameBooks

theorem refl (cr : CheckRunner) : SameBooks cr cr := ⟨rfl,rfl,rfl,rfl,rfl,rfl⟩

theorem trans (h : SameBooks a b) (h' : SameBooks b c) : SameBooks a c :=
  ⟨h'.mailFrom.trans h.mailFrom,h'.received.trans h.received,
    h'.checkedRcpts.trans h.checkedRcpts,h'.states.trans h.states,
    h'.nextState.trans h.nextState,h'.owner.trans h.owner⟩

end SameBooks

section Groups
variable {env : Env}

theorem ask_books (env : Env) (call : CheckCall) (states : List Nat) (cr : CheckRunner) :
    SameBooks cr (cr.runAndMergeResults states (fun cr state => ask env cr state call)).1 ∧
    ∀ state, log (cr.runAndMergeResults states (fun cr state => ask env cr state call)).1 state =
      ((log cr state).1 ++ List.replicate (states.count state) call,(log cr state).2) := by
  refine merge_inv (P := fun before cr' => SameBooks cr cr' ∧ ∀ state, log cr' state =
      ((log cr state).1 ++ List.replicate (before.count state) call,(log cr state).2))
    (fun before cr' res h => ⟨⟨h.1.1,h.1.2,h.1.3,h.1.4,h.1.5,h.1.6⟩,h.2⟩) ?_ states
    ⟨.refl cr,fun state => by simp [log]⟩
  rintro before state cr' ⟨hb,hl⟩
  refine ⟨⟨hb.1,hb.2,hb.3,hb.4,hb.5,hb.6⟩,fun other => ?_⟩
  have ho := hl other
  simp only [log,Prod.mk.injEq] at ho
  by_cases he : other = state
  · subst other
    simp [ask,note,log,ho.1,ho.2,count_append,replicate_succ']
  · have hcount : (before ++ [state]).count other = before.count other := by
      simp [count_append,Ne.symm he]
    rw [hcount]
    simp [ask,note,log,ho.1,ho.2,Function.update_of_ne he]

theorem ask_none (hc : ∀ check calls, refuses (env.result check (calls ++ [call])) = false)
    (states : List Nat) (cr : CheckRunner) :
    (cr.runAndMergeResults states (fun cr state => ask env cr state call)).2 = none := by
  refine (merge_none_iff (P := fun _ _ => True) (Q := fun _ => False) (fun _ _ _ h => h) ?_ states cr
    trivial).mpr (fun _ _ h => h)
  intro before state cr' _
  have hpass := hc (cr'.owner state) (cr'.calls state)
  simp [ask,hpass]

/-- A state that is asked about a recipient is told of it, and no other is. -/
theorem askRcpt_log (env : Env) (a : String) (cr : CheckRunner) (state : Nat) :
    SameBooks cr (askRcpt env a cr state).1 ∧ ∀ other, log (askRcpt env a cr state).1 other =
      if other = state then tell a (log cr state) else log cr other := by
  unfold askRcpt
  by_cases hn : a ∈ cr.checkedRcptsPerCheck state
  · refine ⟨by rw [if_pos hn]; exact .refl _,fun other => ?_⟩
    rw [if_pos hn]
    split
    · subst other; simp [tell,log,hn]
    · rfl
  · refine ⟨by rw [if_neg hn]; exact ⟨rfl,rfl,rfl,rfl,rfl,rfl⟩,fun other => ?_⟩
    rw [if_neg hn]
    by_cases he : other = state
    · subst other; simp [ask,note,tell,log,hn]
    · simp [ask,note,log,he]

/-- The states of a group that have had `CheckRcpt` for an address. -/
def ToldGroup (cr : CheckRunner) (a : String) (states : List Nat) (cr' : CheckRunner) : Prop :=
  SameBooks cr cr' ∧
    ∀ state, log cr' state = if state ∈ states then tell a (log cr state) else log cr state

theorem toldGroup_step (env : Env) (h : ToldGroup cr a before cr') (state : Nat) :
    ToldGroup cr a (before ++ [state]) (askRcpt env a cr' state).1 := by
  obtain ⟨hb,hl⟩ := h
  obtain ⟨hb',hl'⟩ := askRcpt_log env a cr' state
  refine ⟨hb.trans hb',fun other => ?_⟩
  rw [hl' other]
  by_cases he : other = state
  · subst other
    by_cases hmem : state ∈ before <;> simp [hl,hmem,tell_tell]
  · simp [hl,he]

theorem toldGroup_merged (h : ToldGroup cr a before cr') (res : CheckResult) :
    ToldGroup cr a before { cr' with mergedRes := res } :=
  ⟨⟨h.1.1,h.1.2,h.1.3,h.1.4,h.1.5,h.1.6⟩,h.2⟩

theorem toldGroup_start (cr : CheckRunner) (a : String) : ToldGroup cr a [] cr :=
  ⟨.refl cr,fun state => by simp⟩

theorem tell_books (env : Env) (a : String) (states : List Nat) (cr : CheckRunner) :
    ToldGroup cr a states (runRcpt env states a cr).1 := by
  have h := merge_inv (f := askRcpt env a) (P := ToldGroup cr a)
    (fun _ _ res h => toldGroup_merged h res) (fun _ state _ h => toldGroup_step env h state)
    (env.pick (.checks (.checkRcpt a)) states) (toldGroup_start cr a)
  unfold ToldGroup at h ⊢
  simp only [(env.pick_perm (.checks (.checkRcpt a)) states).mem_iff] at h
  exact h

theorem tell_group (hp : Passing env) (a : String) (states : List Nat) (cr : CheckRunner) :
    (runRcpt env states a cr).2 = none ∧ ToldGroup cr a states (runRcpt env states a cr).1 := by
  refine ⟨?_,tell_books env a states cr⟩
  refine (merge_none_iff (P := fun _ _ => True) (Q := fun _ => False) (fun _ _ _ h => h) ?_ _ cr
    trivial).mpr (fun _ _ h => h)
  intro before state cr' _
  have hpass : refuses (askRcpt env a cr' state).2 = false := by
    unfold askRcpt refuses
    split
    · rfl
    · simp [ask,hp.result]
  simp [hpass]

def catchUp (rcpts : List String) (l : Log) : Log := rcpts.foldl (fun l a => tell a l) l

theorem tell_groups (hp : Passing env) {states : List Nat} :
    (forEach (runRcpt env states) rcpts cr).2 = none ∧
    SameBooks cr (forEach (runRcpt env states) rcpts cr).1 ∧
    ∀ state, log (forEach (runRcpt env states) rcpts cr).1 state =
      if state ∈ states then catchUp rcpts (log cr state) else log cr state := by
  refine forEach_done (P := fun before cr' => SameBooks cr cr' ∧ ∀ state, log cr' state =
      if state ∈ states then catchUp before (log cr state) else log cr state) ?_ rcpts cr
    ⟨.refl cr,fun state => by simp [catchUp]⟩
  rintro before a cr' ⟨hb,hl⟩
  obtain ⟨hnone,hb',hl'⟩ := tell_group hp a states cr'
  refine ⟨hnone,hb.trans hb',fun state => ?_⟩
  rw [hl',hl]
  by_cases h : state ∈ states <;> simp [h,catchUp]

/-- The first two calls on a new state. -/
def introduce (mailFrom : String) (l : Log) : Log :=
  (l.1 ++ [.checkConnection,.checkSender mailFrom],l.2)

theorem introduce_group
    (hp : ∀ call, (∀ a, call ≠ .checkRcpt a) → ∀ check calls,
      refuses (env.result check (calls ++ [call])) = false)
    (newStates : List Nat) (hn : newStates.Nodup) (cr : CheckRunner) (hr : cr.mailFromReceived = true) :
    (cr.replaySender env newStates).2 = none ∧
    SameBooks cr (cr.replaySender env newStates).1 ∧
    ∀ state, log (cr.replaySender env newStates).1 state =
      if state ∈ newStates then introduce cr.mailFrom (log cr state) else log cr state := by
  have hcount : ∀ call state, (env.pick (.checks call) newStates).count state =
      if state ∈ newStates then 1 else 0 := by
    intro call state
    rw [(env.pick_perm (.checks call) newStates).count_eq]
    split
    · exact count_eq_one_of_mem hn ‹_›
    · exact count_eq_zero_of_not_mem ‹_›
  obtain ⟨hb1,hl1⟩ := ask_books env .checkConnection
    (env.pick (.checks .checkConnection) newStates) cr
  have h1 := ask_none (hp .checkConnection nofun)
    (env.pick (.checks .checkConnection) newStates) cr
  unfold replaySender
  rw [if_pos hr,forEach_cons]
  rcases hx : cr.runAndMergeResults (env.pick (.checks .checkConnection) newStates)
      (fun cr state => ask env cr state .checkConnection) with ⟨cr₁,err⟩
  rw [hx] at h1 hb1 hl1
  cases h1
  obtain ⟨hb2,hl2⟩ := ask_books env (.checkSender cr.mailFrom)
    (env.pick (.checks (.checkSender cr.mailFrom)) newStates) cr₁
  have h2 := ask_none (hp (.checkSender cr.mailFrom) nofun)
    (env.pick (.checks (.checkSender cr.mailFrom)) newStates) cr₁
  dsimp only
  rw [forEach_cons]
  rcases hy : cr₁.runAndMergeResults (env.pick (.checks (.checkSender cr.mailFrom)) newStates)
      (fun cr' state => ask env cr' state (.checkSender cr.mailFrom)) with ⟨cr₂,err⟩
  rw [hy] at h2 hb2 hl2
  cases h2
  refine ⟨rfl,hb1.trans hb2,fun state => ?_⟩
  change log cr₂ state = _
  have hs1 := hl1 state
  have hs2 := hl2 state
  rw [hs2,hs1,hcount,hcount]
  by_cases h : state ∈ newStates <;> simp [h,introduce]

end Groups

/-- A state has had each of its first calls once, and `CheckRcpt` once for each
address it was told of. -/
structure Exact (S : List String) (told : String → Prop) (l : Log) : Prop where
  connection : l.1.count .checkConnection = 1
  sender : ∃ f ∈ S, l.1.filter (fun call => call matches .checkSender _) = [.checkSender f]
  rcpt : ∀ a, l.1.count (.checkRcpt a) = if a ∈ l.2 then 1 else 0
  noted : ∀ a, a ∈ l.2 ↔ told a

namespace Exact

theorem mono (h : Exact S told l) (hs : ∀ f ∈ S, f ∈ S') (ht : ∀ a, told a ↔ told' a) :
    Exact S' told' l := by
  obtain ⟨f,hf,hfilter⟩ := h.sender
  exact ⟨h.connection,⟨f,hs f hf,hfilter⟩,h.rcpt,fun a => (h.noted a).trans (ht a)⟩

theorem tell (h : Exact S told l) (a : String) :
    Exact S (fun b => told b ∨ b = a) (CheckReplay.tell a l) := by
  unfold CheckReplay.tell
  by_cases ha : a ∈ l.2
  · rw [if_pos ha]
    refine h.mono (fun _ hf => hf) fun b => ⟨.inl,?_⟩
    rintro (hb | rfl)
    · exact hb
    · exact (h.noted b).mp ha
  · rw [if_neg ha]
    refine ⟨by simp [count_append,h.connection],?_,fun b => ?_,fun b => ?_⟩
    · obtain ⟨f,hf,hfilter⟩ := h.sender
      exact ⟨f,hf,by simp [filter_append,hfilter]⟩
    · have hb := h.rcpt b
      by_cases he : b = a
      · subst b
        simp [count_append,h.rcpt,ha]
      · have hne : ¬ CheckCall.checkRcpt a = .checkRcpt b := fun hc => he (by cases hc; rfl)
        simp [count_append,hb,he,hne]
    · simp [h.noted b]

theorem catchUp (h : Exact S told l) (rcpts : List String) :
    Exact S (fun b => told b ∨ b ∈ rcpts) (CheckReplay.catchUp rcpts l) := by
  induction rcpts generalizing told l with
  | nil => exact h.mono (fun _ hf => hf) (by simp)
  | cons a rest ih =>
    refine (ih (h.tell a)).mono (fun _ hf => hf) fun b => ?_
    simp [or_assoc]

theorem introduced (hf : f ∈ S) : Exact S (fun _ => False) (introduce f ([],[])) :=
  ⟨rfl,⟨f,hf,rfl⟩,fun a => rfl,fun a => by simp [introduce]⟩

end Exact

def Bodyless (l : Log) : Prop := ∀ header body, .checkBody header body ∉ l.1

namespace Bodyless

theorem tell (h : Bodyless l) (a : String) : Bodyless (tell a l) := by
  intro header body
  unfold CheckReplay.tell
  split
  · exact h header body
  · simpa using h header body

theorem catchUp (h : Bodyless l) (rcpts : List String) : Bodyless (catchUp rcpts l) := by
  induction rcpts generalizing l with
  | nil => exact h
  | cons a rest ih => exact ih (h.tell a)

theorem introduce (h : Bodyless l) (f : String) : Bodyless (introduce f l) := by
  intro header body
  simpa [CheckReplay.introduce] using h header body

end Bodyless

section NewStates
variable {env : Env}
variable (entries states : List (Nat × Nat))

theorem init_ok (hs : ∀ check msgMeta, env.stateForMsg check msgMeta = none) :
    (forEach (initState env msgMeta) checks { runner := cr }).2 = none ∧
      Opened cr checks (forEach (initState env msgMeta) checks { runner := cr }).1 := by
  have hall : reached env cr msgMeta checks = checks := by
    induction checks with
    | nil => rfl
    | cons check rest ih => simpa [reached,hs] using ih
  obtain ⟨hopen,hnone⟩ := (Opened.start cr).loop
  rw [hall,nil_append] at hopen
  exact ⟨hnone.mpr hall,hopen⟩

theorem opened_log (hi : Opened cr before i) : log i.runner state = log cr state := by
  rw [log,hi.runner]
  rfl

def put (states : List (Nat × Nat)) (entry : Nat × Nat) : List (Nat × Nat) :=
  entry :: states.filter (fun old => old.1 ≠ entry.1)

theorem lookup_put :
    (put states entry).lookup check =
      if check = entry.1 then some entry.2 else states.lookup check := by
  rw [put,lookup_cons_ite]
  by_cases h : check = entry.1
  · simp [h]
  · simp only [h,↓reduceIte]
    induction states with
    | nil => rfl
    | cons old rest ih =>
      by_cases ho : old.1 = entry.1
      · have hne : ¬ check = old.1 := fun he => h (he.trans ho)
        simpa [filter_cons,ho,lookup_cons_ite,hne,h] using ih
      · rw [filter_cons,if_pos (by simpa using ho),lookup_cons_ite,lookup_cons_ite,ih]

theorem lookup_puts_other (h : ∀ state, (check,state) ∉ entries) :
    (entries.foldl put states).lookup check = states.lookup check := by
  induction entries generalizing states with
  | nil => rfl
  | cons entry rest ih =>
    have hne : ¬ check = entry.1 := fun he => h entry.2 (by simp [he])
    rw [foldl_cons,ih _ (fun state hm => h state (mem_cons_of_mem _ hm)),lookup_put]
    simp [hne]

theorem lookup_puts_mem (h : (check,state) ∈ entries) :
    ∃ state, (check,state) ∈ entries ∧ (entries.foldl put states).lookup check = some state := by
  induction entries generalizing states state with
  | nil => cases h
  | cons entry rest ih =>
    by_cases hr : ∃ s, (check,s) ∈ rest
    · obtain ⟨s,hs⟩ := hr
      obtain ⟨s',hs',hl⟩ := ih (put states entry) hs
      exact ⟨s',mem_cons_of_mem _ hs',hl⟩
    · rcases mem_cons.mp h with rfl | hm
      · refine ⟨state,mem_cons_self,?_⟩
        rw [foldl_cons,lookup_puts_other rest _ (fun s hs => hr ⟨s,hs⟩),lookup_put]
        simp
      · exact absurd ⟨state,hm⟩ hr

end NewStates

/-- Every check of an earlier group has one state, with exactly the calls it should have had. -/
structure Core (S : List String) (h : List Call) (told : Nat → String → Prop) (cr : CheckRunner) :
    Prop where
  known : ∀ check, cr.states.lookup check ≠ none ↔ Known h check
  below : ∀ check state, cr.states.lookup check = some state →
    state < cr.nextState ∧ cr.owner state = check
  fresh : ∀ state, cr.nextState ≤ state → log cr state = ([],[])
  told : ∀ check state, cr.states.lookup check = some state →
    Exact S (told check) (log cr state)
  bodyless : ∀ state, Bodyless (log cr state)

def Owned (cr : CheckRunner) : Prop :=
  ∀ check state, cr.states.lookup check = some state → state < cr.nextState ∧ cr.owner state = check

/-- The addresses a check knows of when `checkStates` is done with its group. -/
def AfterStates (h : List Call) (checks : List Nat) (check : Nat) (a : String) : Prop :=
  Told h check a ∨
    (check ∈ checks ∧ (∃ other ∈ checks, ¬ Known h other) ∧ a ∈ passed h)

/-- The runner after `checkStates` for a group. -/
structure Staged (S : List String) (h : List Call) (cr : CheckRunner) (checks : List Nat)
    (cr' : CheckRunner) (states : List Nat) : Prop where
  mailFrom : cr'.mailFrom = cr.mailFrom
  received : cr'.mailFromReceived = cr.mailFromReceived
  checkedRcpts : cr'.checkedRcpts = cr.checkedRcpts
  known : ∀ check, cr'.states.lookup check ≠ none ↔ check ∈ checks ∨ Known h check
  below : ∀ check state, cr'.states.lookup check = some state →
    state < cr'.nextState ∧ cr'.owner state = check
  fresh : ∀ state, cr'.nextState ≤ state → state ∉ states ∧ log cr' state = ([],[])
  told : ∀ check state, cr'.states.lookup check = some state →
    Exact S (AfterStates h checks check) (log cr' state)
  bodyless : ∀ state, Bodyless (log cr' state)
  states_of : ∀ check state, cr'.states.lookup check = some state →
    (state ∈ states ↔ check ∈ checks)

variable {env : Env} {S : List String} {h : List Call} {cr : CheckRunner}

section OldStates
variable {cr₁ : CheckRunner} (hb : Owned cr) (hi : Opened cr checks i)
include hb hi

theorem old_not_new (hl : cr.states.lookup check = some state) : state ∉ i.newStates := by
  intro hn
  have := (hi.bounds state hn).1
  have := (hb check state hl).1
  omega

theorem mem_states_old (hl : cr.states.lookup check = some state) :
    state ∈ i.states ↔ check ∈ checks := by
  rw [hi.mem state]
  constructor
  · rintro (⟨other,ho,hl'⟩ | hn)
    · have hsame := (hb other state hl').2.symm.trans (hb check state hl).2
      exact hsame ▸ ho
    · exact absurd hn (old_not_new hb hi hl)
  · exact fun hm => .inl ⟨check,hm,hl⟩

theorem opened_lt (hs : state ∈ i.states) : state < i.runner.nextState := by
  rcases (hi.mem state).mp hs with ⟨check, -,hl⟩ | hnew
  · exact Nat.lt_of_lt_of_le (hb check state hl).1 hi.next
  · exact (hi.bounds state hnew).2

theorem opened_owned : Owned i.runner := by
  intro check state hl
  rw [hi.states] at hl
  obtain ⟨hlt,hown⟩ := hb check state hl
  exact ⟨Nat.lt_of_lt_of_le hlt hi.next,(hi.owner state hlt).trans hown⟩

omit hb in
theorem lookup_merged_old (hl : cr.states.lookup check = some state) :
    (i.newStatesMap.foldl put cr.states).lookup check = some state := by
  rw [lookup_puts_other,hl]
  intro state' hm
  have hnone := (hi.map check state' hm).2.1
  rw [hl] at hnone
  cases hnone

omit hb hi in
theorem lookup_merged (hl : (i.newStatesMap.foldl put cr.states).lookup check = some state) :
    cr.states.lookup check = some state ∨ (check,state) ∈ i.newStatesMap := by
  by_cases hm : ∃ s, (check,s) ∈ i.newStatesMap
  · obtain ⟨s,hs⟩ := hm
    obtain ⟨s',hs',hl'⟩ := lookup_puts_mem i.newStatesMap cr.states hs
    rw [hl'] at hl
    cases hl
    exact .inr hs'
  · rw [lookup_puts_other _ _ (fun s hs => hm ⟨s,hs⟩)] at hl
    exact .inl hl

variable (hbooks : SameBooks i.runner cr₁)
include hbooks

omit hb in
theorem register_states :
    (cr₁.register i.newStatesMap).states = i.newStatesMap.foldl put cr.states := by
  simp only [register,hbooks.states,hi.states]
  rfl

omit hb in
theorem register_known (check : Nat) :
    (cr₁.register i.newStatesMap).states.lookup check ≠ none ↔
      cr.states.lookup check ≠ none ∨ check ∈ checks := by
  rw [register_states hi hbooks]
  constructor
  · intro h
    obtain ⟨state,hl⟩ := Option.ne_none_iff_exists'.mp h
    rcases lookup_merged hl with hl | hm
    · exact .inl (by simp [hl])
    · exact .inr (hi.map check state hm).1
  · intro h
    cases hl : cr.states.lookup check with
    | some state => simp [lookup_merged_old hi hl]
    | none =>
      obtain ⟨state,hm⟩ := hi.mapped (h.resolve_left fun hn => hn hl) hl
      obtain ⟨state', -,hl'⟩ := lookup_puts_mem i.newStatesMap cr.states hm
      simp [hl']

theorem register_members
    (hl : (cr₁.register i.newStatesMap).states.lookup check = some state) :
    state ∈ i.states ↔ check ∈ checks := by
  rw [register_states hi hbooks] at hl
  rcases lookup_merged hl with hl | hm
  · exact mem_states_old hb hi hl
  · obtain ⟨hc, -,hn, -⟩ := hi.map check state hm
    exact iff_of_true ((hi.mem state).mpr (.inr hn)) hc

theorem register_owned : Owned (cr₁.register i.newStatesMap) := by
  intro check state hl
  have hnext : (cr₁.register i.newStatesMap).nextState = i.runner.nextState := hbooks.nextState
  have howner : (cr₁.register i.newStatesMap).owner = i.runner.owner := hbooks.owner
  rw [hnext,howner]
  rw [register_states hi hbooks] at hl
  rcases lookup_merged hl with hl | hm
  · exact opened_owned hb hi check state (hi.states ▸ hl)
  · obtain ⟨-, -,hn,hown⟩ := hi.map check state hm
    exact ⟨(hi.bounds state hn).2,hown⟩

end OldStates

theorem staged_known (hc : Core S h (Told h) cr) (hi : Opened cr checks i)
    (hnone : i.newStates = []) : Staged S h cr checks i.runner i.states := by
  have hall : ∀ check ∈ checks, Known h check := by
    intro check hm
    rw [← hc.known]
    intro hlook
    obtain ⟨state,hs⟩ := hi.mapped hm hlook
    exact absurd (hi.map check state hs).2.2.1 (by simp [hnone])
  have hafter : ∀ check a, Told h check a ↔ AfterStates h checks check a := by
    intro check a
    refine ⟨.inl,?_⟩
    rintro (ht | ⟨-,⟨other,ho,hk⟩, -⟩)
    · exact ht
    · exact absurd (hall other ho) hk
  refine ⟨hi.mailFrom,hi.received,hi.checkedRcpts,fun check => ?_,opened_owned hc.below hi,
    fun state hs => ?_,fun check state hl => ?_,fun state => ?_,fun check state hl => ?_⟩
  · rw [hi.states,hc.known]
    exact ⟨.inr,fun hor => hor.elim (hall check) (fun hk => hk)⟩
  · rw [opened_log hi]
    exact ⟨fun hm => Nat.not_lt.mpr hs (opened_lt hc.below hi hm),
      hc.fresh state (Nat.le_trans hi.next hs)⟩
  · rw [hi.states] at hl
    rw [opened_log hi]
    exact (hc.told check state hl).mono (fun _ hf => hf) (hafter check)
  · rw [opened_log hi]
    exact hc.bodyless state
  · exact mem_states_old hc.below hi (hi.states ▸ hl)

section NewGroup
variable (hc : Core S h (Told h) cr) (hi : Opened cr checks i)
include hc hi

theorem unknown_of_new (hsome : i.newStates ≠ []) : ∃ other ∈ checks, ¬ Known h other := by
  obtain ⟨new,hmem,hnone⟩ := hi.exists_new hsome
  exact ⟨new,hmem,fun hk => (hc.known new).mpr hk hnone⟩

def staged (cr : CheckRunner) (i : Init) (state : Nat) : Log :=
  if state ∈ i.states then
    catchUp cr.checkedRcpts
      (if state ∈ i.newStates then introduce cr.mailFrom (log cr state) else log cr state)
  else log cr state

theorem staged_old (hrcpts : ∀ a, a ∈ cr.checkedRcpts ↔ a ∈ passed h) (hsome : i.newStates ≠ [])
    (hl : cr.states.lookup check = some state) :
    Exact S (AfterStates h checks check) (staged cr i state) := by
  unfold staged
  rw [if_neg (old_not_new hc.below hi hl)]
  by_cases hm : check ∈ checks
  · rw [if_pos ((mem_states_old hc.below hi hl).mpr hm)]
    refine ((hc.told check state hl).catchUp cr.checkedRcpts).mono (fun _ hf => hf) fun a => ?_
    rw [hrcpts a]
    exact or_congr_right ⟨fun ha => ⟨hm,unknown_of_new hc hi hsome,ha⟩,fun ha => ha.2.2⟩
  · rw [if_neg (fun hin => hm ((mem_states_old hc.below hi hl).mp hin))]
    refine (hc.told check state hl).mono (fun _ hf => hf) fun a => ⟨.inl,?_⟩
    rintro (ht | ⟨hm', -⟩)
    · exact ht
    · exact absurd hm' hm

theorem staged_map (hsender : cr.mailFrom ∈ S) (hrcpts : ∀ a, a ∈ cr.checkedRcpts ↔ a ∈ passed h)
    (hm : (check,state) ∈ i.newStatesMap) :
    Exact S (AfterStates h checks check) (staged cr i state) := by
  obtain ⟨hmem,hlook,hn, -⟩ := hi.map check state hm
  have hsome : i.newStates ≠ [] := ne_nil_of_mem hn
  unfold staged
  rw [if_pos ((hi.mem state).mpr (.inr hn)),if_pos hn,hc.fresh state (hi.bounds state hn).1]
  refine ((Exact.introduced hsender).catchUp cr.checkedRcpts).mono (fun _ hf => hf) fun a => ?_
  rw [hrcpts a]
  refine or_congr (iff_of_false (fun hf => hf) fun ht => ?_)
    ⟨fun ha => ⟨hmem,unknown_of_new hc hi hsome,ha⟩,fun ha => ha.2.2⟩
  exact (hc.known check).mpr (known_of_told ht) hlook

omit hi in
theorem staged_bodyless : Bodyless (staged cr i state) := by
  unfold staged
  split
  · split
    · exact ((hc.bodyless state).introduce _).catchUp _
    · exact (hc.bodyless state).catchUp _
  · exact hc.bodyless state

/-- Some check of the group is new: the new states are introduced, all states of
the group catch up with the addresses, and the new ones go into the map. -/
theorem staged_new (hsender : cr.mailFrom ∈ S)
    (hrcpts : ∀ a, a ∈ cr.checkedRcpts ↔ a ∈ passed h) (hsome : i.newStates ≠ [])
    (hbooks : SameBooks i.runner cr') (hlog : ∀ state, log cr' state = staged cr i state) :
    Staged S h cr checks (cr'.register i.newStatesMap) i.states := by
  have hregLog : ∀ state, log (cr'.register i.newStatesMap) state = staged cr i state := hlog
  have hregNext : (cr'.register i.newStatesMap).nextState = i.runner.nextState := hbooks.nextState
  refine ⟨hbooks.mailFrom.trans hi.mailFrom,hbooks.received.trans hi.received,
    hbooks.checkedRcpts.trans hi.checkedRcpts,fun check => ?_,register_owned hc.below hi hbooks,
    fun state hs => ?_,fun check state hl => ?_,fun state => ?_,
    fun check state hl => register_members hc.below hi hbooks hl⟩
  · rw [register_known hi hbooks,hc.known,or_comm]
  · rw [hregNext] at hs
    have hout : state ∉ i.states := fun hm => Nat.not_lt.mpr hs (opened_lt hc.below hi hm)
    refine ⟨hout,?_⟩
    rw [hregLog,staged,if_neg hout]
    exact hc.fresh state (Nat.le_trans hi.next hs)
  · rw [hregLog]
    rw [register_states hi hbooks] at hl
    rcases lookup_merged hl with hl | hm
    · exact staged_old hc hi hrcpts hsome hl
    · exact staged_map hc hi hsender hrcpts hm
  · rw [hregLog]
    exact staged_bodyless hc

end NewGroup

/-- `checkStates` brings every state of the group up to date. -/
theorem checkStates_staged (hp : Passing env) (hc : Core S h (Told h) cr)
    (hsender : cr.mailFrom ∈ S) (hr : cr.mailFromReceived = true)
    (hrcpts : ∀ a, a ∈ cr.checkedRcpts ↔ a ∈ passed h) :
    ∃ cr' states, cr.checkStates env msgMeta checks = (cr',.ok states) ∧
      Staged S h cr checks cr' states := by
  obtain ⟨hnone,hi⟩ := init_ok hp.state
  unfold checkStates
  rcases hx : forEach (initState env msgMeta) checks { runner := cr } with ⟨i,err⟩
  rw [hx] at hnone hi
  cases hnone
  dsimp only at hi ⊢
  by_cases hn : i.newStates = []
  · rw [if_pos hn]
    exact ⟨_,_,rfl,staged_known hc hi hn⟩
  rw [if_neg hn]
  obtain ⟨hnone,hb,hl⟩ := introduce_group (fun call _ => hp.passes call) i.newStates hi.nodup i.runner
    (hi.received.trans hr)
  rcases hx : i.runner.replaySender env i.newStates with ⟨cr₁,err⟩
  rw [hx] at hnone hb hl
  cases hnone
  dsimp only at hb hl ⊢
  obtain ⟨hnone,hb',hl'⟩ := tell_groups hp
  rcases hx : forEach (runRcpt env i.states) cr₁.checkedRcpts cr₁ with ⟨cr₂,err⟩
  rw [hx] at hnone hb' hl'
  cases hnone
  refine ⟨_,_,rfl,staged_new hc hi hsender hrcpts hn (hb.trans hb') fun state => ?_⟩
  have hnew : state ∈ i.newStates → state ∈ i.states := fun hm => (hi.mem state).mpr (.inr hm)
  rw [hl' state,hl state,opened_log hi,hb.checkedRcpts,hi.checkedRcpts,hi.mailFrom,staged]
  by_cases hin : state ∈ i.states
  · simp [hin]
  · have hout : state ∉ i.newStates := fun hm => hin (hnew hm)
    simp [hin,hout]

structure Inv (h : List Call) (cr : CheckRunner) : Prop where
  core : Core (senders h) h (Told h) cr
  sender : cr.mailFrom ∈ senders h
  received : cr.mailFromReceived = true
  rcpts : ∀ a, a ∈ cr.checkedRcpts ↔ a ∈ passed h

theorem Staged.inv_connSender {states : List Nat}
    (hs : Staged (senders (.connSender checks f :: h)) h cr checks cr' states)
    (hf : cr.mailFrom = f) (hr : cr.mailFromReceived = true)
    (hrcpts : ∀ a, a ∈ cr.checkedRcpts ↔ a ∈ passed h) : Inv (.connSender checks f :: h) cr' := by
  have htold : ∀ check a, AfterStates h checks check a ↔ Told (.connSender checks f :: h) check a := by
    intro check a
    simp [AfterStates,Told,Call.addr,Call.checks]
  refine ⟨⟨fun check => ?_,hs.below,fun state hle => (hs.fresh state hle).2,
    fun check state hl => (hs.told check state hl).mono (fun _ hm => hm) (htold check),hs.bodyless⟩,
    ?_,hs.received.trans hr,fun a => ?_⟩
  · rw [hs.known,known_cons]
    rfl
  · rw [hs.mailFrom,hf]
    exact mem_senders_cons.mpr (.inl rfl)
  · rw [hs.checkedRcpts,hrcpts a,mem_passed_cons]
    simp [Call.addr]

theorem connSender_inv (hp : Passing env) (hc : Core (senders h) h (Told h) cr)
    (hrcpts : ∀ a, a ∈ cr.checkedRcpts ↔ a ∈ passed h) :
    (cr.checkConnSender env msgMeta checks f).2 = none ∧
      Inv (.connSender checks f :: h) (cr.checkConnSender env msgMeta checks f).1 := by
  have hf : f ∈ senders (.connSender checks f :: h) := mem_senders_cons.mpr (.inl rfl)
  have hc' : Core (senders (.connSender checks f :: h)) h (Told h)
      { cr with mailFrom := f, mailFromReceived := true } :=
    ⟨hc.known,hc.below,hc.fresh,fun check state hl => (hc.told check state hl).mono
      (fun _ hm => mem_senders_cons.mpr (.inr hm)) (fun _ => Iff.rfl),hc.bodyless⟩
  obtain ⟨cr',states,heq,hs⟩ := checkStates_staged hp hc' hf rfl hrcpts
  unfold checkConnSender
  rw [heq]
  exact ⟨rfl,hs.inv_connSender rfl rfl hrcpts⟩

theorem rcpt_inv (hp : Passing env) (hi : Inv h cr) (msgMeta : MsgMetadata) (checks : List Nat)
    (a : String) :
    (cr.checkRcpt env msgMeta checks a).2 = none ∧
      Inv (.rcpt checks a :: h) (cr.checkRcpt env msgMeta checks a).1 := by
  obtain ⟨cr',states,heq,hs⟩ := checkStates_staged hp hi.core hi.sender hi.received hi.rcpts
  obtain ⟨hnone,hb,hl⟩ := tell_group hp a states cr'
  unfold checkRcpt
  rw [heq]
  refine ⟨hnone,⟨⟨fun check => ?_,fun check state hlook => ?_,fun state hle => ?_,
    fun check state hlook => ?_,fun state => ?_⟩,?_,?_,fun b => ?_⟩⟩
  · rw [hb.states,hs.known,known_cons]
    rfl
  · rw [hb.states] at hlook
    rw [hb.nextState,hb.owner]
    exact hs.below check state hlook
  · rw [hb.nextState] at hle
    obtain ⟨hout,hlog⟩ := hs.fresh state hle
    change log (runRcpt env states a cr').1 state = _
    rw [hl,if_neg hout,hlog]
  · rw [hb.states] at hlook
    change Exact _ _ (log (runRcpt env states a cr').1 state)
    have hold := hs.told check state hlook
    have hsend : ∀ f ∈ senders h, f ∈ senders (.rcpt checks a :: h) :=
      fun f hm => mem_senders_cons.mpr (.inr hm)
    by_cases hm : check ∈ checks
    · rw [hl,if_pos ((hs.states_of check state hlook).mpr hm)]
      refine (hold.tell a).mono hsend fun b => ?_
      simp [AfterStates,Told,Call.addr,Call.checks,hm,eq_comm,or_comm]
    · rw [hl,if_neg (fun hin => hm ((hs.states_of check state hlook).mp hin))]
      refine hold.mono hsend fun b => ?_
      simp [AfterStates,Told,Call.addr,Call.checks,hm]
  · change Bodyless (log (runRcpt env states a cr').1 state)
    rw [hl]
    split
    · exact (hs.bodyless state).tell a
    · exact hs.bodyless state
  · rw [hb.mailFrom,hs.mailFrom]
    exact mem_senders_cons.mpr (.inr hi.sender)
  · rw [hb.received,hs.received,hi.received]
  · dsimp only
    rw [hb.checkedRcpts,hs.checkedRcpts,mem_append,hi.rcpts,mem_passed_cons]
    simp [Call.addr,or_comm,eq_comm]

theorem core_new {doDMARC : Bool} :
    Core (senders []) [] (Told []) ({ doDMARC := doDMARC } : CheckRunner) :=
  ⟨fun check => by simp [Known],fun check state hl => by simp at hl,fun state _ => rfl,
    fun check state hl => by simp at hl,fun state header body => by simp [log]⟩

/-- A call of the pipeline keeps the logs exact. -/
theorem call_inv (hp : Passing env) (hi : Inv h cr) :
    (call.run env msgMeta cr).2 = none ∧ Inv (call :: h) (call.run env msgMeta cr).1 := by
  cases call with
  | connSender checks f => exact connSender_inv hp hi.core hi.rcpts
  | rcpt checks a => exact rcpt_inv hp hi msgMeta checks a

theorem body_group (hp : Passing env) (msgMeta : MsgMetadata) (checks : List Nat) (header : Header)
    (body : String) (hk : ∀ check ∈ checks, cr.states.lookup check ≠ none) :
    (cr.checkBody env msgMeta checks header body).2 = none ∧
    (cr.checkBody env msgMeta checks header body).1.states = cr.states ∧
    ∀ state, ∃ n, (cr.checkBody env msgMeta checks header body).1.calls state =
        cr.calls state ++ List.replicate n (.checkBody header body) ∧
      (0 < n ↔ ∃ check ∈ checks, cr.states.lookup check = some state) := by
  obtain ⟨hnone,hi⟩ := init_ok hp.state
  rcases hx : forEach (initState env msgMeta) checks { runner := cr } with ⟨i,err⟩
  rw [hx] at hnone hi
  cases hnone
  have hnew : i.newStates = [] := by
    by_contra hne
    obtain ⟨check,hmem,hlook⟩ := hi.exists_new hne
    exact hk check hmem hlook
  have hstates : cr.checkStates env msgMeta checks = (i.runner,.ok i.states) := by
    unfold checkStates
    rw [hx]
    simp [hnew]
  unfold checkBody
  rw [hstates]
  dsimp only
  generalize hcr : (if i.runner.doDMARC ∧ i.runner.dmarcFetch = none
    then { i.runner with dmarcFetch := some header } else i.runner) = cr₁
  have hsame : cr₁.states = cr.states ∧ ∀ state, cr₁.calls state = cr.calls state := by
    have hcalls : ∀ state, i.runner.calls state = cr.calls state :=
      fun state => congrFun hi.calls state
    rw [← hcr]
    split <;> exact ⟨hi.states,hcalls⟩
  obtain ⟨hb,hl⟩ := ask_books env (.checkBody header body)
    (env.pick (.checks (.checkBody header body)) i.states) cr₁
  have hnone := ask_none (hp.passes (.checkBody header body))
    (env.pick (.checks (.checkBody header body)) i.states) cr₁
  refine ⟨hnone,hb.states.trans hsame.1,fun state =>
    ⟨_,(congrArg Prod.fst (hl state)).trans (by rw [log,hsame.2]),?_⟩⟩
  rw [count_pos_iff,(env.pick_perm _ _).mem_iff,hi.mem state]
  simp [hnew]

theorem body_groups (hp : Passing env) (msgMeta : MsgMetadata) (groups : List (List Nat))
    (header : Header) (body : String) (cr : CheckRunner)
    (hk : ∀ checks ∈ groups, ∀ check ∈ checks, cr.states.lookup check ≠ none) :
    ∀ state, ∃ n, (forEach (fun checks (cr : CheckRunner) =>
        cr.checkBody env msgMeta checks header body) groups cr).1.calls state =
        cr.calls state ++ List.replicate n (.checkBody header body) ∧
      (0 < n ↔ ∃ checks ∈ groups, ∃ check ∈ checks, cr.states.lookup check = some state) := by
  induction groups generalizing cr with
  | nil => exact fun state => ⟨0,by simp [forEach],by simp⟩
  | cons checks rest ih =>
    obtain ⟨hfirst,hrest⟩ := forall_mem_cons.mp hk
    obtain ⟨hnone,hst,hcalls⟩ := body_group hp msgMeta checks header body hfirst
    rcases hx : cr.checkBody env msgMeta checks header body with ⟨cr₁,err⟩
    rw [hx] at hnone hst hcalls
    cases hnone
    rw [forEach_cons,hx]
    intro state
    obtain ⟨n,hn,hpos⟩ := hcalls state
    obtain ⟨m,hm,hpos'⟩ := ih cr₁ (by rw [hst]; exact hrest) state
    refine ⟨n + m,?_,?_⟩
    · rw [hm,hn,append_assoc,replicate_append_replicate]
    · rw [Nat.add_pos_iff_pos_or_pos,hpos,hpos',hst]
      simp

end Madmail.Proofs.CheckReplay
