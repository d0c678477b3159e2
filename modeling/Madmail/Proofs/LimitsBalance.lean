import Madmail.Lib.Runs
import Madmail.Lib.Tally
import Madmail.Limits.Group

namespace Madmail.Proofs.LimitsBalance
open Exterrors Limits Msgpipeline.Config Lib.Tally List

/-- A semaphore of a group, by its scope, its key and its place in the list of
limits of the scope. -/
inductive Sem where
  | all (i : Nat)
  | ip (addr : String) (i : Nat)
  | source (domain : String) (i : Nat)

def Sem.counts : Sem → String × String → Bool
  | .all _, _ => true
  | .ip addr _, call => call.1 == addr
  | .source domain _, call => call.2 == domain

/-- The permits of a limiter, and what a call takes of them. A semaphore without
a size and a rate limiter have none. -/
def permitMeter : Meter Limiter Unit :=
  { held := fun l _ => match l with
      | .rate _ _ => 0
      | .semaphore _ held => held
    demand := fun l _ => match l with
      | .rate _ _ => 0
      | .semaphore size _ => if size = 0 then 0 else 1 }

abbrev multiMeter : Meter (List Limiter) Nat := permitMeter.each

def heldIn (s : BucketSet (List Limiter)) (key : String) (i : Nat) : Nat :=
  (s.m.lookup key).elim 0 (fun b => multiMeter.held b.r i)

def demandIn (s : BucketSet (List Limiter)) (i : Nat) : Nat :=
  s.new.elim 0 (fun r => multiMeter.demand r i)

def permits (g : Group) : Sem → Nat
  | .all i => multiMeter.held g.global i
  | .ip addr i => g.ip.elim 0 (heldIn · addr i)
  | .source domain i => g.source.elim 0 (heldIn · domain i)

def Exists (g : Group) : Sem → Prop
  | .all i => multiMeter.demand g.global i = 1
  | .ip _ i => ∃ s, g.ip = some s ∧ demandIn s i = 1
  | .source _ i => ∃ s, g.source = some s ∧ demandIn s i = 1

/-- The permits that are held are those of the calls that have not been
released. -/
def Balanced (w : World) : Prop :=
  ∀ sem, Exists w.group sem → permits w.group sem = w.taken.countP sem.counts

/-- A call of `TakeMsg` that does not succeed returns an error, and leaves every
permit as it was. -/
def TakeOK (w : World) : Call → Prop
  | .takeMsg addr domain now choice =>
    match w.group.takeMsg addr domain now choice with
    | (_,.nil) => True
    | (g,.err _) => ∀ sem, permits g sem = permits w.group sem
    | (_,.panic) => False
  | .releaseMsg _ _ => True

def Room (w : World) : Prop :=
  (∀ s, w.group.ip = some s → s.size ≤ s.maxBuckets) ∧
    ∀ s, w.group.source = some s → s.size ≤ s.maxBuckets

def AllOrNothing (g : Group) : Prop :=
  ∀ calls, Lib.Meets World.step (fun w _ => Room w) ⟨g,[]⟩ calls →
    Lib.Meets World.step TakeOK ⟨g,[]⟩ calls ∧
      ∀ w, Lib.run World.step ⟨g,[]⟩ calls = some w → Balanced w

/-- No size is negative, and if the `ip` scope has no limits those of the
`source` scope are no-ops. -/
def Sound (scopes : Scopes) : Prop :=
  (∀ ctor ∈ scopes.ipL ++ scopes.sourceL, 0 ≤ ctor.size) ∧
    (scopes.ipL = [] → ∀ ctor ∈ scopes.sourceL, ctor.size = 0)

section Lawful
variable {α γ ι : Type} {ops : L α γ} {μ : Meter α ι}

/-- A limiter that takes all of what it needs or nothing, and gives back what it
has taken. -/
structure Lawful (ops : L α γ) (μ : Meter α ι) : Prop where
  take : ∀ {a c a'}, ops.takeContext a c = (a',.nil) → μ.Grew a a'
  refuse : ∀ {a c a' e}, ops.takeContext a c = (a',.err e) → μ.Kept a a'
  calm : ∀ {a c a'}, ops.takeContext a c ≠ (a',.panic)
  release : ∀ {a}, μ.Covered a → ∃ a', ops.release a = (a',false) ∧ μ.Grew a' a

theorem limiter_lawful : Lawful Limiter.ops permitMeter := by
  refine ⟨fun {l c l'} h i => ?_,fun {l c l' e} h i => ?_,fun {l c l'} h => ?_,fun {l} h => ?_⟩
  · revert h
    simp only [Limiter.ops]
    fun_cases Limiter.takeContext l c <;> intro h <;> cases h <;> simp_all [permitMeter]
  · revert h
    simp only [Limiter.ops]
    fun_cases Limiter.takeContext l c <;> intro h <;> cases h <;> exact ⟨rfl,rfl⟩
  · revert h
    simp only [Limiter.ops]
    fun_cases Limiter.takeContext l c <;> intro h <;> cases h
  · cases l with
    | rate burst tokens => exact ⟨_,rfl,fun _ => ⟨rfl,rfl⟩⟩
    | semaphore size held =>
      have hheld := h ()
      simp only [permitMeter] at hheld
      simp only [Limiter.ops,Limiter.release]
      by_cases hs : size = 0
      · rw [if_pos hs]
        exact ⟨_,rfl,fun _ => by simp [permitMeter,hs]⟩
      · rw [if_neg hs] at hheld
        rw [if_neg hs,if_neg (by omega)]
        refine ⟨_,rfl,fun _ => ?_⟩
        simp only [permitMeter,if_neg hs,and_true]
        omega

end Lawful

section Multi
variable {α γ : Type} {ops : L α γ} {μ : Meter α Unit}

theorem release_all (h : Lawful ops μ) (hc : ∀ l ∈ ls, μ.Covered l) :
    ∃ ls', MultiLimit.release ops ls = (ls',false) ∧ Forall₂ μ.Grew ls' ls := by
  induction ls with
  | nil => exact ⟨[],rfl,.nil⟩
  | cons l rest ih =>
    obtain ⟨hl,hrest⟩ := forall_mem_cons.mp hc
    obtain ⟨l',hr,hg⟩ := h.release hl
    obtain ⟨rest',hr',hg'⟩ := ih hrest
    refine ⟨l' :: rest',?_,.cons hg hg'⟩
    unfold MultiLimit.release
    rw [hr,hr']

/-- The loop of `TakeContext`, which has taken `taken` of what was `first`. -/
theorem takeFrom_spec (h : Lawful ops μ) (ht : Forall₂ μ.Grew first taken) :
    ∃ ls, (MultiLimit.takeFrom ops choice taken rest = (ls,.nil) ∧
        Forall₂ μ.Grew (first ++ rest) ls) ∨
      ∃ e, MultiLimit.takeFrom ops choice taken rest = (ls,.err e) ∧
        Forall₂ μ.Kept (first ++ rest) ls := by
  induction rest generalizing first taken with
  | nil => exact ⟨taken,.inl ⟨rfl,by rwa [append_nil]⟩⟩
  | cons l rest ih =>
    unfold MultiLimit.takeFrom
    rcases hl : ops.takeContext l (choice taken.length) with ⟨l',_ | e | _⟩
    · have hnext := ih (rel_append ht (.cons (h.take hl) .nil))
      rwa [append_assoc,singleton_append] at hnext
    · obtain ⟨back,hr,hback⟩ := release_all h (Meter.forall₂_covered ht)
      have hrest : Forall₂ μ.Kept rest rest := forall₂_same.mpr fun x _ => .refl μ x
      simp only [hr]
      exact ⟨_,.inr ⟨e,rfl,
        rel_append (Meter.forall₂_back ht hback) (.cons (h.refuse hl) hrest)⟩⟩
    · exact absurd hl h.calm

theorem multi_lawful (h : Lawful ops μ) : Lawful (MultiLimit.ops ops) μ.each := by
  have hspec : ∀ ls choice, ∃ ls', ((MultiLimit.ops ops).takeContext ls choice = (ls',.nil) ∧
      μ.each.Grew ls ls') ∨ ∃ e, (MultiLimit.ops ops).takeContext ls choice = (ls',.err e) ∧
        μ.each.Kept ls ls' := by
    intro ls choice
    obtain ⟨ls',⟨hx,hg⟩ | ⟨e,hx,hk⟩⟩ := takeFrom_spec h .nil
    · exact ⟨ls',.inl ⟨hx,Meter.each_grew hg⟩⟩
    · exact ⟨ls',.inr ⟨e,hx,Meter.each_kept hk⟩⟩
  refine ⟨fun {ls c ls'} hx => ?_,fun {ls c ls' e} hx => ?_,fun {ls c ls'} hx => ?_,
    fun {ls} hc => ?_⟩
  · obtain ⟨out,⟨hx',hg⟩ | ⟨e,hx', -⟩⟩ := hspec ls c <;> cases hx.symm.trans hx'
    exact hg
  · obtain ⟨out,⟨hx', -⟩ | ⟨e,hx',hk⟩⟩ := hspec ls c <;> cases hx.symm.trans hx'
    exact hk
  · obtain ⟨out,⟨hx', -⟩ | ⟨e,hx', -⟩⟩ := hspec ls c <;> cases hx.symm.trans hx'
  · obtain ⟨ls',hr,hg⟩ := release_all h (Meter.each_covered hc)
    exact ⟨ls',hr,Meter.each_grew hg⟩

end Multi

theorem multiOps_lawful : Lawful multiOps multiMeter := multi_lawful limiter_lawful

section Alike

/-- Two lists of the same limiters, but for what is in their channels. -/
def Alike (ls ls' : List Limiter) : Prop := ls.map Limiter.blank = ls'.map Limiter.blank

theorem releaseAll_alike (ls : List Limiter) : Alike (multiOps.release ls).1 ls :=
  MultiLimit.release_map release_blank ls

theorem take_alike (ls : List Limiter) (choice : Nat → Choice) :
    Alike (multiOps.takeContext ls choice).1 ls :=
  MultiLimit.takeFrom_map take_blank release_blank

theorem Alike.demand (h : Alike ls ls') (i : Nat) :
    multiMeter.demand ls i = multiMeter.demand ls' i := by
  have hblank : ∀ l : Limiter, permitMeter.demand l () = permitMeter.demand l.blank () := by
    rintro (_ | _) <;> rfl
  have hmap : ∀ ls : List Limiter, multiMeter.demand ls i = multiMeter.demand (ls.map Limiter.blank) i := by
    intro ls
    simp only [multiMeter,Meter.each,getElem?_map]
    cases ls[i]? with
    | none => rfl
    | some l => exact hblank l
  rw [hmap ls,hmap ls',h]

end Alike

section Sets
variable {s : BucketSet (List Limiter)} {fresh : List Limiter}
variable {r : List Limiter} {key : String}

structure SetOK (fresh : List Limiter) (s : BucketSet (List Limiter)) : Prop where
  new : s.new = some fresh
  unused : ∀ i, multiMeter.held fresh i = 0
  alike : ∀ key b, s.m.lookup key = some b → Alike b.r fresh

def share (fresh : List Limiter) (key other : String) (i : Nat) : Nat :=
  if other = key then multiMeter.demand fresh i else 0

theorem store_lookup (hb : s.m.lookup key ≠ none) :
    (s.store key r).m.lookup other =
      if other = key then (s.m.lookup key).map (fun b => { b with r := r })
      else s.m.lookup other := by
  obtain ⟨b,hb⟩ := Option.ne_none_iff_exists'.mp hb
  unfold BucketSet.store
  rw [hb]
  by_cases h : other = key
  · rw [if_pos h,h]
    exact AList.lookup_insert _
  · rw [if_neg h]
    exact AList.lookup_insert_ne h

theorem store_new : (s.store key r).new = s.new := by
  unfold BucketSet.store
  split <;> rfl

theorem store_ok (h : SetOK fresh s) (hb : s.m.lookup key ≠ none) (hr : Alike r fresh) :
    SetOK fresh (s.store key r) := by
  refine ⟨store_new.trans h.new,h.unused,fun other b hl => ?_⟩
  rw [store_lookup hb] at hl
  split at hl
  · obtain ⟨b', -,rfl⟩ := Option.map_eq_some_iff.mp hl
    exact hr
  · exact h.alike other b hl

theorem store_held (hb : s.m.lookup key ≠ none) :
    heldIn (s.store key r) other i =
      if other = key then multiMeter.held r i else heldIn s other i := by
  unfold heldIn
  rw [store_lookup hb]
  obtain ⟨b,hb⟩ := Option.ne_none_iff_exists'.mp hb
  by_cases h : other = key
  · simp [h,hb]
  · simp [h]

theorem insert_spec (h : SetOK fresh s) (halike : Alike b.r fresh)
    (hheld : ∀ i, multiMeter.held b.r i = heldIn s key i) :
    SetOK fresh { s with m := s.m.insert key b } ∧
      ∀ other i, heldIn { s with m := s.m.insert key b } other i = heldIn s other i := by
  refine ⟨⟨h.new,h.unused,fun other b' hb' => ?_⟩,fun other i => ?_⟩
  · by_cases ho : other = key
    · subst ho
      rw [AList.lookup_insert] at hb'
      cases hb'
      exact halike
    · rw [AList.lookup_insert_ne ho] at hb'
      exact h.alike other b' hb'
  · by_cases ho : other = key
    · subst ho
      rw [← hheld]
      simp [heldIn,AList.lookup_insert]
    · simp [heldIn,AList.lookup_insert_ne ho]

theorem take_spec (h : SetOK fresh s) (hroom : s.size ≤ s.maxBuckets) (key : String) (now : Int) :
    ∃ s' r, s.take key now = (s',.bucket r) ∧ SetOK fresh s' ∧ s'.m.lookup key ≠ none ∧
      Alike r fresh ∧ (∀ i, multiMeter.held r i = heldIn s key i) ∧
      ∀ other i, heldIn s' other i = heldIn s other i := by
  unfold BucketSet.take BucketSet.takeAt BucketSet.bucketFor
  rw [if_neg (by omega)]
  cases hl : s.m.lookup key with
  | some b =>
    have hheld : ∀ i, multiMeter.held b.r i = heldIn s key i := fun i => by simp [heldIn,hl]
    obtain ⟨hok,hsame⟩ := insert_spec (b := { b with lastUse := now }) h (h.alike key b hl) hheld
    exact ⟨_,b.r,rfl,hok,by simp [AList.lookup_insert],h.alike key b hl,hheld,hsame⟩
  | none =>
    have hheld : ∀ i, multiMeter.held fresh i = heldIn s key i := fun i => by
      simp [heldIn,hl,h.unused]
    obtain ⟨hok,hsame⟩ := insert_spec (b := ⟨fresh,now⟩) h rfl hheld
    rw [h.new] at hok hsame ⊢
    exact ⟨_,fresh,rfl,hok,by simp [AList.lookup_insert],rfl,hheld,hsame⟩

theorem takeContext_spec (h : SetOK fresh s) (hroom : s.size ≤ s.maxBuckets) (key : String)
    (now : Int) (choice : Nat → Choice) :
    ∃ s', SetOK fresh s' ∧
      ((s.takeContext multiOps key now choice = (s',.nil) ∧
          ∀ other i, heldIn s' other i = heldIn s other i + share fresh key other i) ∨
        ∃ e, s.takeContext multiOps key now choice = (s',.err e) ∧
          ∀ other i, heldIn s' other i = heldIn s other i) := by
  obtain ⟨s₁,r,ht,hok,hb,halike,hheld,hsame⟩ := take_spec h hroom key now
  have hok' := store_ok hok hb ((take_alike r choice).trans halike)
  unfold BucketSet.takeContext
  rcases hx : multiOps.takeContext r choice with ⟨r',_ | e | _⟩ <;> simp only [ht,hx] <;>
    rw [hx] at hok'
  · have hg := multiOps_lawful.take hx
    refine ⟨s₁.store key r',hok',.inl ⟨rfl,fun other i => ?_⟩⟩
    rw [store_held hb]
    by_cases ho : other = key
    · rw [if_pos ho,(hg i).1,hheld,halike.demand,ho]
      simp [share]
    · rw [if_neg ho,hsame]
      simp [share,ho]
  · have hk := multiOps_lawful.refuse hx
    refine ⟨s₁.store key r',hok',.inr ⟨e,rfl,fun other i => ?_⟩⟩
    rw [store_held hb]
    by_cases ho : other = key
    · rw [if_pos ho,(hk i).1,hheld,ho]
    · rw [if_neg ho,hsame]
  · exact absurd hx multiOps_lawful.calm

theorem release_spec (h : SetOK fresh s) (hc : ∀ i, multiMeter.demand fresh i ≤ heldIn s key i) :
    ∃ s', s.release multiOps key = (s',false) ∧ SetOK fresh s' ∧
      ∀ other i, heldIn s' other i + share fresh key other i = heldIn s other i := by
  unfold BucketSet.release
  cases hl : s.m.lookup key with
  | none =>
    refine ⟨s,rfl,h,fun other i => ?_⟩
    have hzero := hc i
    simp only [heldIn,hl,Option.elim_none] at hzero
    unfold share
    split <;> omega
  | some b =>
    have hheld : ∀ i, heldIn s key i = multiMeter.held b.r i := fun i => by simp [heldIn,hl]
    have hcovered : multiMeter.Covered b.r := fun i => by
      rw [(h.alike key b hl).demand,← hheld]
      exact hc i
    obtain ⟨r,hr,hg⟩ := multiOps_lawful.release hcovered
    have hb : s.m.lookup key ≠ none := by simp [hl]
    have halike : Alike r fresh := by
      have hback := releaseAll_alike b.r
      rw [hr] at hback
      exact hback.trans (h.alike key b hl)
    simp only [hr]
    refine ⟨s.store key r,rfl,store_ok h hb halike,fun other i => ?_⟩
    rw [store_held hb]
    by_cases ho : other = key
    · rw [if_pos ho,ho,hheld,(hg i).1,halike.demand]
      simp [share]
    · rw [if_neg ho]
      simp [share,ho]

end Sets

section Calls
variable {base : List Limiter} {fresh ip source : Option (List Limiter)} {keys : List String}
  {set : Option (BucketSet (List Limiter))} {taken : List (String × String)} {g : Group}
variable {n : Nat} {ls : List Limiter} (f : String × String → String)

def GlobalOK (base : List Limiter) (n : Nat) (ls : List Limiter) : Prop :=
  ∀ i, multiMeter.held ls i = multiMeter.demand base i * n ∧
    multiMeter.demand ls i = multiMeter.demand base i

/-- The set of a scope, when the calls for these keys hold their permits. -/
inductive ScopeOK : Option (List Limiter) → List String → Option (BucketSet (List Limiter)) → Prop
  | absent {keys : List String} : ScopeOK none keys none
  | present {made : List Limiter} {keys : List String} {s : BucketSet (List Limiter)} : SetOK made s →
      (∀ key i, heldIn s key i = multiMeter.demand made i * keys.count key) →
      ScopeOK (some made) keys (some s)

structure GroupOK (base : List Limiter) (ip source : Option (List Limiter))
    (taken : List (String × String)) (g : Group) : Prop where
  global : GlobalOK base taken.length g.global
  ip : ScopeOK ip (taken.map Prod.fst) g.ip
  source : ScopeOK source (taken.map Prod.snd) g.source

theorem takeGlobal_spec (h : GlobalOK base n ls) (choice : Nat → Choice) :
    ∃ ls', (multiOps.takeContext ls choice = (ls',.nil) ∧ GlobalOK base (n + 1) ls') ∨
      ∃ e, multiOps.takeContext ls choice = (ls',.err e) ∧ GlobalOK base n ls' := by
  rcases hx : multiOps.takeContext ls choice with ⟨ls',_ | e | _⟩
  · have hg := multiOps_lawful.take hx
    refine ⟨ls',.inl ⟨rfl,fun i => ⟨?_,(hg i).2.trans (h i).2⟩⟩⟩
    rw [(hg i).1,(h i).1,(h i).2,Nat.mul_succ]
  · have hk := multiOps_lawful.refuse hx
    exact ⟨ls',.inr ⟨e,rfl,fun i => ⟨(hk i).1.trans (h i).1,(hk i).2.trans (h i).2⟩⟩⟩
  · exact absurd hx multiOps_lawful.calm

theorem releaseGlobal_spec (h : GlobalOK base (n + 1) g.global) :
    ∃ ls, g.releaseGlobal = ({ g with global := ls },false) ∧ GlobalOK base n ls := by
  have hcovered : multiMeter.Covered g.global := fun i => by
    rw [(h i).1,(h i).2]
    exact Nat.le_mul_of_pos_right _ (Nat.succ_pos n)
  obtain ⟨ls,hr,hg⟩ := multiOps_lawful.release hcovered
  refine ⟨ls,?_,fun i => ?_⟩
  · unfold Group.releaseGlobal
    rw [hr]
  · obtain ⟨hheld,hdemand⟩ := hg i
    obtain ⟨hheld',hdemand'⟩ := h i
    rw [Nat.mul_succ] at hheld'
    omega

theorem takeIn_spec (h : ScopeOK fresh keys set)
    (hroom : ∀ s, set = some s → s.size ≤ s.maxBuckets) (key : String) (now : Int)
    (choice : Nat → Choice) :
    ∃ set', (takeIn set key now choice = (set',.nil) ∧ ScopeOK fresh (key :: keys) set') ∨
      ∃ e, takeIn set key now choice = (set',.err e) ∧ ScopeOK fresh keys set' := by
  cases h with
  | absent => exact ⟨none,.inl ⟨rfl,.absent⟩⟩
  | @present made _ s hs hheld =>
    obtain ⟨s',hs',⟨hx,hheld'⟩ | ⟨e,hx,hheld'⟩⟩ :=
      takeContext_spec hs (hroom s rfl) key now choice
    · refine ⟨some s',.inl ⟨by simp [takeIn,hx],.present hs' fun other i => ?_⟩⟩
      rw [hheld',hheld,count_cons,Nat.mul_add]
      by_cases ho : other = key
      · simp [share,ho]
      · simp [share,ho,Ne.symm ho]
    · refine ⟨some s',.inr ⟨e,by simp [takeIn,hx],.present hs' fun other i => ?_⟩⟩
      rw [hheld',hheld]

theorem releaseIn_spec (h : ScopeOK fresh keys set) (hk : key ∈ keys) :
    ∃ set', releaseIn set key = (set',false) ∧ ScopeOK fresh (keys.erase key) set' := by
  cases h with
  | absent => exact ⟨none,rfl,.absent⟩
  | @present made _ s hs hheld =>
    have hpos : 0 < keys.count key := count_pos_iff.mpr hk
    have hc : ∀ i, multiMeter.demand made i ≤ heldIn s key i := fun i => by
      rw [hheld]
      exact Nat.le_mul_of_pos_right _ hpos
    obtain ⟨s',hx,hs',hheld'⟩ := release_spec hs hc
    refine ⟨some s',by simp [releaseIn,hx],.present hs' fun other i => ?_⟩
    have hi := hheld' other i
    rw [hheld] at hi
    by_cases ho : other = key
    · subst ho
      rw [count_erase_self,Nat.mul_sub_one]
      simp only [share,if_true] at hi
      omega
    · rw [count_erase_of_ne ho]
      simpa [share,ho] using hi

def Idle (ls : List Limiter) : Prop := ∀ l ∈ ls, l.capacity = 0

theorem Alike.idle (h : Alike ls ls') (hi : Idle ls') : Idle ls := by
  have hlists : ls.map Limiter.capacity = ls'.map Limiter.capacity := by
    simpa [Function.comp_def,capacity_blank] using congrArg (List.map Limiter.capacity) h
  intro l hl
  obtain ⟨l',hl',he⟩ := mem_map.mp (hlists ▸ mem_map_of_mem hl)
  rw [← he]
  exact hi l' hl'

theorem takeFrom_nil (taken : List Limiter)
    (h : ∀ l ∈ rest, ∀ k, (l.takeContext (choice k)).2 = .nil) :
    (MultiLimit.takeFrom Limiter.ops choice taken rest).2 = .nil := by
  induction rest generalizing taken with
  | nil => rfl
  | cons l rest ih =>
    obtain ⟨hl,hrest⟩ := forall_mem_cons.mp h
    have hfirst := hl taken.length
    unfold MultiLimit.takeFrom
    rcases hx : Limiter.ops.takeContext l (choice taken.length) with ⟨l',out⟩
    cases (congrArg Prod.snd hx).symm.trans hfirst
    exact ih _ hrest

theorem idle_nil (hi : Idle ls) (choice : Nat → Choice) :
    (multiOps.takeContext ls choice).2 = .nil := by
  refine takeFrom_nil [] fun l hl k => ?_
  have hzero := hi l hl
  cases l <;> simp_all [Limiter.takeContext,Limiter.capacity]

theorem takeIn_idle (h : ScopeOK fresh keys set)
    (hroom : ∀ s, set = some s → s.size ≤ s.maxBuckets) (hi : ∀ made, fresh = some made → Idle made)
    (key : String) (now : Int) (choice : Nat → Choice) (e : Err) :
    (takeIn set key now choice).2 ≠ .err e := by
  cases h with
  | absent => nofun
  | @present made _ s hs hheld =>
    obtain ⟨s',r,ht, -, -,halike, -⟩ := take_spec hs (hroom s rfl) key now
    have hnil := idle_nil (halike.idle (hi made rfl)) choice
    simp [takeIn,BucketSet.takeContext,ht,hnil]

/-- What `TakeMsg` leaves, if an error of the `source` scope can be rolled back. -/
theorem takeMsg_spec (h : GroupOK base ip source taken g)
    (hroom : Room ⟨g,taken⟩) (hidle : ip = none → ∀ made, source = some made → Idle made)
    (addr domain : String) (now : Int) (choice : Scope → Nat → Choice) :
    ∃ g', (g.takeMsg addr domain now choice = (g',.nil) ∧
        GroupOK base ip source ((addr,domain) :: taken) g') ∨
      ∃ e, g.takeMsg addr domain now choice = (g',.err e) ∧ GroupOK base ip source taken g' := by
  unfold Group.takeMsg
  obtain ⟨ls,⟨hx,hglobal⟩ | ⟨e,hx,hglobal⟩⟩ := takeGlobal_spec h.global (choice .all) <;>
    simp only [hx]
  · obtain ⟨ip',⟨hx,hip⟩ | ⟨e,hx,hip⟩⟩ := takeIn_spec h.ip hroom.1 addr now (choice .ip) <;>
      simp only [hx]
    · obtain ⟨source',⟨hs,hsource⟩ | ⟨e,hs,hsource⟩⟩ :=
        takeIn_spec h.source hroom.2 domain now (choice .source) <;> simp only [hs]
      · exact ⟨_,.inl ⟨rfl,hglobal,hip,hsource⟩⟩
      · -- The roll-back of both other scopes.
        have hsome : ip'.isNone = false := by
          cases hip with
          | absent =>
            have hno := takeIn_idle h.source hroom.2 (hidle rfl) domain now (choice .source) e
            exact absurd (congrArg Prod.snd hs) hno
          | present => rfl
        obtain ⟨ls',hr,hglobal'⟩ := releaseGlobal_spec
          (g := { g with global := ls, ip := ip', source := source' }) hglobal
        obtain ⟨ip'',hr',hip'⟩ := releaseIn_spec hip (mem_cons_self ..)
        rw [erase_cons_head] at hip'
        simp only [Group.undoBoth,hr,hsome,Group.releaseIP,hr']
        exact ⟨_,.inr ⟨e,rfl,hglobal',hip',hsource⟩⟩
    · obtain ⟨ls',hr,hglobal'⟩ := releaseGlobal_spec
        (g := { g with global := ls, ip := ip' }) hglobal
      simp only [Group.undoGlobal,hr]
      exact ⟨_,.inr ⟨e,rfl,hglobal',hip,h.source⟩⟩
  · exact ⟨_,.inr ⟨e,rfl,hglobal,h.ip,h.source⟩⟩

theorem ScopeOK.perm (h : ScopeOK fresh keys set) (hp : keys.Perm keys') :
    ScopeOK fresh keys' set := by
  cases h with
  | absent => exact .absent
  | present hs hheld => exact .present hs fun key i => by rw [hheld,hp.count_eq]

theorem releaseIn_call (hm : call ∈ taken) (h : ScopeOK fresh (taken.map f) set) :
    ∃ set', releaseIn set (f call) = (set',false) ∧
      ScopeOK fresh ((taken.erase call).map f) set' := by
  obtain ⟨set',hr,hok⟩ := releaseIn_spec h (mem_map_of_mem hm)
  refine ⟨set',hr,hok.perm ?_⟩
  have hperm := ((perm_cons_erase hm).map f).erase (f call)
  rwa [map_cons,erase_cons_head] at hperm

theorem releaseMsg_spec (h : GroupOK base ip source taken g) (hm : (addr,domain) ∈ taken) :
    ∃ g', g.releaseMsg addr domain = (g',false) ∧
      GroupOK base ip source (taken.erase (addr,domain)) g' := by
  have hglobal : GlobalOK base ((taken.erase (addr,domain)).length + 1) g.global := by
    rw [length_erase_add_one hm]
    exact h.global
  obtain ⟨ls,hr,hglobal'⟩ := releaseGlobal_spec hglobal
  obtain ⟨ip',hr',hip⟩ := releaseIn_call Prod.fst hm h.ip
  obtain ⟨source',hr'',hsource⟩ := releaseIn_call Prod.snd hm h.source
  simp only [Group.releaseMsg,hr,Group.releaseIP,hr',Group.releaseSource,hr'']
  exact ⟨_,rfl,hglobal',hip,hsource⟩

def expected (base : List Limiter) (ip source : Option (List Limiter))
    (taken : List (String × String)) : Sem → Nat
  | .all i => multiMeter.demand base i * taken.length
  | .ip addr i => ip.elim 0 (fun made => multiMeter.demand made i * (taken.map Prod.fst).count addr)
  | .source domain i =>
    source.elim 0 (fun made => multiMeter.demand made i * (taken.map Prod.snd).count domain)

theorem ScopeOK.held (h : ScopeOK fresh keys set) (key : String) (i : Nat) :
    set.elim 0 (heldIn · key i) =
      fresh.elim 0 (fun made => multiMeter.demand made i * keys.count key) := by
  cases h with
  | absent => rfl
  | present hs hheld => exact hheld key i

theorem permits_eq (h : GroupOK base ip source taken g) (sem : Sem) :
    permits g sem = expected base ip source taken sem := by
  cases sem with
  | all i => exact (h.global i).1
  | ip addr i => exact h.ip.held addr i
  | source domain i => exact h.source.held domain i

theorem ScopeOK.demand (h : ScopeOK fresh keys (some s)) (hd : demandIn s i = 1) :
    ∃ made, fresh = some made ∧ multiMeter.demand made i = 1 := by
  cases h with
  | present hs hheld =>
    refine ⟨_,rfl,?_⟩
    rw [demandIn,hs.new] at hd
    exact hd

theorem count_eq (key : String) :
    (taken.map f).count key = taken.countP (fun call => f call == key) := by
  rw [count_eq_countP,countP_map]
  rfl

theorem balanced_of_ok (h : GroupOK base ip source taken g) : Balanced ⟨g,taken⟩ := by
  intro sem hsem
  rw [permits_eq h]
  cases sem with
  | all i =>
    have hone : multiMeter.demand base i = 1 := (h.global i).2.symm.trans hsem
    have hall : (Sem.all i).counts = fun _ => true := rfl
    simp [expected,hone,hall]
  | ip addr i =>
    obtain ⟨s,hs,hone⟩ := hsem
    have hscope : ScopeOK ip (taken.map Prod.fst) (some s) := hs ▸ h.ip
    obtain ⟨made,rfl,hd⟩ := hscope.demand hone
    simp only [expected,Option.elim_some,hd,Nat.one_mul]
    exact count_eq Prod.fst addr
  | source domain i =>
    obtain ⟨s,hs,hone⟩ := hsem
    have hscope : ScopeOK source (taken.map Prod.snd) (some s) := hs ▸ h.source
    obtain ⟨made,rfl,hd⟩ := hscope.demand hone
    simp only [expected,Option.elim_some,hd,Nat.one_mul]
    exact count_eq Prod.snd domain

end Calls

section Runs
variable {base : List Limiter} {ip source : Option (List Limiter)}

theorem step_ok (hidle : ip = none → ∀ made, source = some made → Idle made) (w : World) (c : Call)
    (w' : World) (h : GroupOK base ip source w.taken w.group) (hroom : Room w)
    (hstep : w.step c = some w') : GroupOK base ip source w'.taken w'.group := by
  cases c with
  | takeMsg addr domain now choice =>
    obtain ⟨g',⟨hx,hok⟩ | ⟨e,hx,hok⟩⟩ := takeMsg_spec h hroom hidle addr domain now choice
    all_goals
      simp only [World.step,hx,Option.some.injEq] at hstep
      exact hstep ▸ hok
  | releaseMsg addr domain =>
    simp only [World.step] at hstep
    split at hstep
    · next hm =>
      obtain ⟨g',hx,hok⟩ := releaseMsg_spec h hm
      rw [hx] at hstep
      cases hstep
      exact hok
    · cases hstep

theorem takeOK_of_ok (hidle : ip = none → ∀ made, source = some made → Idle made) (w : World)
    (c : Call) (h : GroupOK base ip source w.taken w.group) (hroom : Room w) : TakeOK w c := by
  cases c with
  | takeMsg addr domain now choice =>
    obtain ⟨g',⟨hx,hok⟩ | ⟨e,hx,hok⟩⟩ := takeMsg_spec h hroom hidle addr domain now choice
    · simp only [TakeOK,hx]
    · simp only [TakeOK,hx]
      intro sem
      rw [permits_eq hok,permits_eq h]
  | releaseMsg addr domain => trivial

theorem allOrNothing_of_ok (hidle : ip = none → ∀ made, source = some made → Idle made)
    (h : GroupOK base ip source [] g) : AllOrNothing g := by
  intro calls hroom
  refine ⟨Lib.meets_of_inv (I := fun w => GroupOK base ip source w.taken w.group) (step_ok hidle)
    (takeOK_of_ok hidle) h hroom,fun w hw => ?_⟩
  exact balanced_of_ok (Lib.run_invariant_of_meets
    (P := fun w => GroupOK base ip source w.taken w.group) (step_ok hidle) h hroom hw)

theorem not_allOrNothing (hroom : Room ⟨g,[]⟩) (h : (g.takeMsg addr domain now choice).2 = .panic) :
    ¬ AllOrNothing g := by
  intro hall
  have hbad := (hall [.takeMsg addr domain now choice] ⟨hroom,fun _ _ => trivial⟩).1.1
  rcases hx : g.takeMsg addr domain now choice with ⟨g',out⟩
  rw [hx] at h
  cases h
  simp only [TakeOK,hx] at hbad

end Runs

section Made
variable {ctors : List Ctor} {made ls : List Limiter} {readers : Readers} {scopes : Scopes}

theorem newLimit_made (h : newLimit ctors = some made) :
    Forall₂ (fun ctor l => ctor.make = some l) ctors made := by
  induction ctors generalizing made with
  | nil =>
    cases h
    exact .nil
  | cons ctor rest ih =>
    simp only [newLimit,mapM_cons,Option.bind_eq_bind,Option.bind_eq_some_iff,
      Option.pure_def,Option.some.injEq] at h
    obtain ⟨l,hl,made',hrest,rfl⟩ := h
    exact .cons hl (ih hrest)

def Made (ls : List Limiter) : Prop := ∀ l ∈ ls, ∃ ctor : Ctor, ctor.make = some l

theorem made_of_newLimit (h : newLimit ctors = some made) : Made made := by
  intro l hl
  obtain ⟨n,hn⟩ := mem_iff_getElem?.mp hl
  obtain ⟨hlt,rfl⟩ := List.getElem?_eq_some_iff.mp hn
  obtain ⟨hlen,hget⟩ := forall₂_iff_get.mp (newLimit_made h)
  exact ⟨_,hget n (hlen ▸ hlt) hlt⟩

theorem idle_iff_of_newLimit (h : newLimit ctors = some made) :
    Idle made ↔ ∀ ctor ∈ ctors, ctor.size = 0 := by
  have hmade := newLimit_made h
  clear h
  induction hmade with
  | nil => simp [Idle]
  | cons hl _ ih =>
    have hsize := (Ctor.make_fresh hl).2
    unfold Idle
    rw [forall_mem_cons,forall_mem_cons,← hsize]
    exact and_congr Int.natCast_eq_zero.symm ih

theorem Made.unused (h : Made ls) (i : Nat) : multiMeter.held ls i = 0 := by
  simp only [multiMeter,Meter.each]
  cases hi : ls[i]? with
  | none => rfl
  | some l =>
    obtain ⟨ctor,hm⟩ := h l (mem_of_getElem? hi)
    have hfresh := (Ctor.make_fresh hm).1
    cases l with
    | rate _ _ => rfl
    | semaphore size held => exact hfresh

theorem Made.nil (h : Made ls) {choice : Nat → Choice} (hd : ∀ k, (choice k).done = false) :
    (multiOps.takeContext ls choice).2 = .nil := by
  refine takeFrom_nil [] fun l hl k => ?_
  obtain ⟨ctor,hm⟩ := h l hl
  rw [(Ctor.make_fresh hm).1.takeContext,hd k]
  exact if_neg (by simp)

theorem addChild_made (hs : Made scopes.globalL) (h : addChild readers scopes child = .ok scopes') :
    Made scopes'.globalL := by
  unfold addChild at h
  split at h
  · cases h
  · next ctor _ =>
    unfold addScope at h
    split at h
    · split at h
      · cases h
      · next l hl =>
        cases h
        intro l' hl'
        rcases mem_append.mp hl' with hl' | hl'
        · exact hs l' hl'
        · exact ⟨ctor,mem_singleton.mp hl' ▸ hl⟩
    all_goals cases h
    all_goals exact hs

theorem readScopes_made (h : readScopes readers children = .ok scopes) : Made scopes.globalL := by
  suffices hall : ∀ first : Scopes, Made first.globalL →
      children.foldlM (addChild readers) first = .ok scopes → Made scopes.globalL from
    hall {} nofun h
  clear h
  induction children with
  | nil =>
    intro first hf h
    cases h
    exact hf
  | cons child rest ih =>
    intro first hf h
    rw [foldlM_cons] at h
    cases hc : addChild readers first child with
    | error e =>
      rw [hc] at h
      cases h
    | ok next =>
      rw [hc] at h
      exact ih next (addChild_made hf hc) h

end Made

section Main
variable {scopes : Scopes}
variable {ctors : List Ctor} {g : Group}

def madeOf (ctors : List Ctor) : Option (List Limiter) := if ctors = [] then none else newLimit ctors

theorem bucketSet_ok (h : ∀ ctor ∈ ctors, 0 ≤ ctor.size) :
    ScopeOK (madeOf ctors) [] (bucketSet ctors ctors) := by
  unfold madeOf bucketSet
  split
  · exact .absent
  · obtain ⟨made,hm⟩ := Option.isSome_iff_exists.mp ((newLimit_isSome_iff ctors).mpr h)
    rw [hm]
    refine .present ⟨rfl,(made_of_newLimit hm).unused,?_⟩ fun key i => ?_
    · intro key b hb
      cases hb
    · simp [heldIn]

theorem group_ok (hm : Made scopes.globalL)
    (h : ∀ ctor ∈ scopes.ipL ++ scopes.sourceL, 0 ≤ ctor.size) :
    GroupOK scopes.globalL (madeOf scopes.ipL) (madeOf scopes.sourceL) [] scopes.group := by
  obtain ⟨hip,hsource⟩ := forall_mem_append.mp h
  exact ⟨fun i => ⟨by simp [Scopes.group,hm.unused],rfl⟩,bucketSet_ok hip,bucketSet_ok hsource⟩

theorem group_room : Room ⟨scopes.group,[]⟩ := by
  have hempty : ∀ ctors s, bucketSet ctors ctors = some s → s.size ≤ s.maxBuckets := by
    intro ctors s hs
    unfold bucketSet at hs
    split at hs
    · cases hs
    · cases hs
      exact Nat.zero_le _
  exact ⟨hempty scopes.ipL,hempty scopes.sourceL⟩

def free : Choice := ⟨false,.deadlineExceeded,0⟩

def expired : Choice := ⟨true,.deadlineExceeded,0⟩

theorem takeIn_new (hne : ctors ≠ []) (key : String) (now : Int) (choice : Nat → Choice) :
    (takeIn (bucketSet ctors ctors) key now choice).2 =
      (newLimit ctors).elim .panic (fun made => (multiOps.takeContext made choice).2) := by
  simp only [bucketSet,hne,if_false,takeIn,BucketSet.takeContext,BucketSet.take,BucketSet.takeAt,
    BucketSet.bucketFor,BucketSet.size]
  cases newLimit ctors <;> simp

theorem takeIn_free (h : ∀ ctor ∈ ctors, 0 ≤ ctor.size) :
    (takeIn (bucketSet ctors ctors) key now (fun _ => free)).2 = .nil := by
  by_cases hne : ctors = []
  · simp [bucketSet,hne,takeIn]
  · obtain ⟨made,hm⟩ := Option.isSome_iff_exists.mp ((newLimit_isSome_iff ctors).mpr h)
    rw [takeIn_new hne,hm]
    exact (made_of_newLimit hm).nil fun _ => rfl

theorem idle_of_expired
    (h : (MultiLimit.takeFrom Limiter.ops (fun _ => expired) taken rest).2 = .nil) : Idle rest := by
  induction rest generalizing taken with
  | nil => nofun
  | cons l rest ih =>
    unfold MultiLimit.takeFrom at h
    rcases hx : Limiter.ops.takeContext l expired with ⟨l',_ | e | _⟩ <;> simp only [hx] at h
    · refine forall_mem_cons.mpr ⟨?_,ih h⟩
      by_contra hc
      cases l <;> simp_all [Limiter.ops,Limiter.takeContext,expired,Limiter.capacity]
    · split at h <;> cases h
    · cases h

theorem takeIn_negative (h : ¬ ∀ ctor ∈ ctors, 0 ≤ ctor.size) :
    (takeIn (bucketSet ctors ctors) key now choice).2 = .panic := by
  have hne : ctors ≠ [] := by
    rintro rfl
    exact h nofun
  have hnone : newLimit ctors = none := by
    rw [← newLimit_isSome_iff,Option.not_isSome_iff_eq_none] at h
    exact h
  rw [takeIn_new hne,hnone]
  rfl

theorem takeMsg_panics (hglobal : (multiOps.takeContext g.global (choice .all)).2 = .nil)
    (h : (takeIn g.ip addr now (choice .ip)).2 = .panic ∨
      (takeIn g.ip addr now (choice .ip)).2 = .nil ∧
        (takeIn g.source domain now (choice .source)).2 = .panic) :
    (g.takeMsg addr domain now choice).2 = .panic := by
  rcases hg : multiOps.takeContext g.global (choice .all) with ⟨ls,out⟩
  rw [hg] at hglobal
  cases hglobal
  rcases hi : takeIn g.ip addr now (choice .ip) with ⟨ip,out⟩
  rcases hs : takeIn g.source domain now (choice .source) with ⟨source,out'⟩
  rw [hi,hs] at h
  simp only [Group.takeMsg,hg,hi]
  rcases h with h | ⟨h,h'⟩
  · cases h
    rfl
  · cases h
    cases h'
    simp only [hs]

theorem negative_panics (hm : Made scopes.globalL)
    (hneg : ¬ ∀ ctor ∈ scopes.ipL ++ scopes.sourceL, 0 ≤ ctor.size) :
    (scopes.group.takeMsg "" "" 0 (fun _ _ => free)).2 = .panic := by
  refine takeMsg_panics (hm.nil fun _ => rfl) ?_
  by_cases hip : ∀ ctor ∈ scopes.ipL, 0 ≤ ctor.size
  · have hsource : ¬ ∀ ctor ∈ scopes.sourceL, 0 ≤ ctor.size := fun h =>
      hneg (forall_mem_append.mpr ⟨hip,h⟩)
    exact .inr ⟨takeIn_free hip,takeIn_negative hsource⟩
  · exact .inl (takeIn_negative hip)

theorem undo_panics (hip : g.ip = none) : (g.undoBoth addr e).2 = .panic := by
  unfold Group.undoBoth
  rcases hr : g.releaseGlobal with ⟨g',_ | _⟩
  · have hip' : g'.ip = none := by
      have hsame : g.releaseGlobal.1.ip = g.ip := rfl
      rw [hr] at hsame
      exact hsame.trans hip
    simp [hip']
  · rfl

theorem refused_panics (hm : Made scopes.globalL) (hip : scopes.ipL = [])
    (hsource : ∀ ctor ∈ scopes.sourceL, 0 ≤ ctor.size)
    (hlimit : ¬ ∀ ctor ∈ scopes.sourceL, ctor.size = 0) :
    (scopes.group.takeMsg "" "" 0
      (fun scope _ => if scope = .source then expired else free)).2 = .panic := by
  obtain ⟨made,hmade⟩ := Option.isSome_iff_exists.mp ((newLimit_isSome_iff _).mpr hsource)
  have hne : scopes.sourceL ≠ [] := by
    rintro hnil
    exact hlimit (by simp [hnil])
  have hglobal : (multiOps.takeContext scopes.globalL (fun _ => free)).2 = .nil :=
    hm.nil fun _ => rfl
  have hnone : takeIn scopes.group.ip "" 0 (fun _ => free) = (none,.nil) := by
    simp [Scopes.group,bucketSet,hip,takeIn]
  have hout := takeIn_new hne "" 0 (fun _ => expired)
  rw [hmade,Option.elim_some] at hout
  rcases hg : multiOps.takeContext scopes.group.global (fun _ => free) with ⟨ls,out⟩
  cases (congrArg Prod.snd hg).symm.trans hglobal
  rcases hs : takeIn scopes.group.source "" 0 (fun _ => expired) with ⟨source,_ | e | _⟩
  · have hnil := hout.symm.trans (congrArg Prod.snd hs)
    exact absurd ((idle_iff_of_newLimit hmade).mp (idle_of_expired hnil)) hlimit
  · simp only [Group.takeMsg,hg,hnone,hs,reduceCtorEq,if_false,if_true]
    exact undo_panics rfl
  · have hpanic := hout.symm.trans (congrArg Prod.snd hs)
    rcases hx : multiOps.takeContext made (fun _ => expired) with ⟨made',out⟩
    rw [hx] at hpanic
    cases hpanic
    exact absurd hx multiOps_lawful.calm

/-- Message limits are all or nothing, for all sequences of calls that leave room
in the sets, exactly if no size of the `ip` and `source` scopes is negative, and
the `ip` scope has limits or those of the `source` scope are no-ops. -/
theorem limits_all_or_nothing_iff {readers : Readers} {children : List Node} {scopes : Scopes}
    (h : readScopes readers children = .ok scopes) :
    Group.init readers children = .ok scopes.group ∧
      (AllOrNothing scopes.group ↔ Sound scopes) := by
  have hm := readScopes_made h
  refine ⟨by simp [Group.init,h],fun hall => ⟨?_,fun hip => ?_⟩,fun hs => ?_⟩
  · by_contra hneg
    exact not_allOrNothing group_room (negative_panics hm hneg) hall
  · by_contra hlimit
    by_cases hneg : ∀ ctor ∈ scopes.ipL ++ scopes.sourceL, 0 ≤ ctor.size
    · have hsource := (forall_mem_append.mp hneg).2
      exact not_allOrNothing group_room (refused_panics hm hip hsource hlimit) hall
    · exact not_allOrNothing group_room (negative_panics hm hneg) hall
  · refine allOrNothing_of_ok (fun hnone made hmade => ?_) (group_ok hm hs.1)
    have hip : scopes.ipL = [] := by
      by_contra hne
      have hsome := (newLimit_isSome_iff scopes.ipL).mpr (forall_mem_append.mp hs.1).1
      simp only [madeOf,hne,if_false] at hnone
      simp [hnone] at hsome
    have hnew : newLimit scopes.sourceL = some made := by
      unfold madeOf at hmade
      split at hmade
      · cases hmade
      · exact hmade
    exact (idle_iff_of_newLimit hnew).mpr (hs.2 hip)

end Main

def oneReader : Readers :=
  { atoi := fun s => if s = "1" then .ok 1 else .error (.leaf "invalid syntax" none)
    parseDuration := fun _ => .error (.leaf "invalid duration" none) }

/-- One message at a time from an address and from a domain. -/
theorem ip_and_source_sound :
    Group.init oneReader [⟨"ip",["concurrency","1"],none,"",0⟩,
      ⟨"source",["concurrency","1"],none,"",0⟩] =
        .ok (Scopes.group ⟨[],[.concurrency 1],[.concurrency 1],[]⟩) ∧
      AllOrNothing (Scopes.group ⟨[],[.concurrency 1],[.concurrency 1],[]⟩) := by
  have hread : readScopes oneReader [⟨"ip",["concurrency","1"],none,"",0⟩,
      ⟨"source",["concurrency","1"],none,"",0⟩] =
        .ok ⟨[],[.concurrency 1],[.concurrency 1],[]⟩ := rfl
  obtain ⟨hinit,hiff⟩ := limits_all_or_nothing_iff hread
  exact ⟨hinit,hiff.mpr ⟨by decide,by decide⟩⟩

/-- One message at a time from a domain, and no limit for addresses: the second
message makes the server panic. -/
theorem source_alone_panics :
    ¬ ∀ (readers : Readers) (children : List Node) (g : Group),
      Group.init readers children = .ok g → AllOrNothing g := by
  intro h
  have hall := h oneReader [⟨"source",["concurrency","1"],none,"",0⟩]
    (Scopes.group ⟨[],[],[.concurrency 1],[]⟩) rfl
  have hroom : Lib.Meets World.step (fun w _ => Room w)
      ⟨Scopes.group ⟨[],[],[.concurrency 1],[]⟩,[]⟩
      [.takeMsg "127.0.0.1" "example.org" 0 (fun _ _ => free),
        .takeMsg "127.0.0.1" "example.org" 1 (fun _ _ => free)] := by
    refine ⟨group_room,fun w hw => ⟨?_,fun _ _ => trivial⟩⟩
    cases hw
    exact ⟨nofun,fun s hs => by cases hs; decide⟩
  exact ((hall _ hroom).1.2 _ rfl).1

end Madmail.Proofs.LimitsBalance
