import Madmail.Limits.Group
import Madmail.Proofs.FullBuckets

namespace Madmail.Proofs.DestLimits
open Exterrors Limits BucketSet FullBuckets List

section Pairs
variable {α β γ δ : Type} {R : α → β → Prop} {s : BucketSet α} {t : BucketSet β}

def Alike (R : α → β → Prop) (x : Option α) (y : Option β) : Prop :=
  (x = none ∧ y = none) ∨ ∃ a b, x = some a ∧ y = some b ∧ R a b

def BucketRel (R : α → β → Prop) (x : Bucket α) (y : Bucket β) : Prop :=
  x.lastUse = y.lastUse ∧ R x.r y.r

structure Paired (R : α → β → Prop) (s : BucketSet α) (t : BucketSet β) : Prop where
  new : Alike R s.new t.new
  interval : s.reapInterval = t.reapInterval
  limit : s.maxBuckets = t.maxBuckets
  buckets : ∀ key, Alike (BucketRel R) (s.m.lookup key) (t.m.lookup key)

inductive TakenRel (R : α → β → Prop) : Taken α → Taken β → Prop where
  | nil : TakenRel R .nil .nil
  | panic : TakenRel R .panic .panic
  | bucket (h : R r r') : TakenRel R (.bucket r) (.bucket r')

theorem Paired.size (h : Paired R s t) : s.size = t.size := by
  have hmem (key : String) : key ∈ s.m.keys ↔ key ∈ t.m.keys := by
    rw [← AList.mem_keys,← AList.mem_keys,← AList.lookup_isSome,← AList.lookup_isSome]
    obtain ⟨hs,ht⟩ | ⟨x,y,hs,ht,_⟩ := h.buckets key
    all_goals
      rw [hs,ht]
      rfl
  rw [size_eq,size_eq]
  exact ((perm_ext_iff_of_nodup s.m.keys_nodup t.m.keys_nodup).mpr hmem).length_eq

theorem Paired.insert (h : Paired R s t) (key : String) (hb : BucketRel R x y) :
    Paired R { s with m := s.m.insert key x } { t with m := t.m.insert key y } := by
  refine ⟨h.new,h.interval,h.limit,fun k => ?_⟩
  by_cases hk : k = key
  · subst hk
    rw [AList.lookup_insert,AList.lookup_insert]
    exact .inr ⟨x,y,rfl,rfl,hb⟩
  · rw [AList.lookup_insert_ne hk,AList.lookup_insert_ne hk]
    exact h.buckets k

theorem Paired.reap (h : Paired R s t) (now : Int) : Paired R (s.reap now) (t.reap now) := by
  refine ⟨h.new,h.interval,h.limit,fun k => ?_⟩
  rw [lookup_reap,lookup_reap]
  have hstale : (s.m.lookup k).any (s.stale now) = (t.m.lookup k).any (t.stale now) := by
    obtain ⟨hs,ht⟩ | ⟨x,y,hs,ht,hb⟩ := h.buckets k <;> rw [hs,ht]
    · rfl
    · simp [stale,hb.1,h.interval]
  rw [hstale]
  split
  · exact .inl ⟨rfl,rfl⟩
  · exact h.buckets k

theorem Paired.bucketFor (h : Paired R s t) (key : String) (now : Int) :
    Paired R (s.bucketFor key now).1 (t.bucketFor key now).1 ∧
      TakenRel R (s.bucketFor key now).2 (t.bucketFor key now).2 := by
  unfold BucketSet.bucketFor
  obtain ⟨hs,ht⟩ | ⟨x,y,hs,ht,hb⟩ := h.buckets key <;> rw [hs,ht]
  · obtain ⟨hs',ht'⟩ | ⟨r,r',hs',ht',hr⟩ := h.new
    · simp only [hs',ht']
      exact ⟨h,.panic⟩
    · have hmade := h.insert key (x := ⟨r,now⟩) (y := ⟨r',now⟩) ⟨rfl,hr⟩
      simp only [hs',ht'] at hmade ⊢
      exact ⟨hmade,.bucket hr⟩
  · exact ⟨h.insert key ⟨rfl,hb.2⟩,.bucket hb.2⟩

theorem Paired.take (h : Paired R s t) (key : String) (now : Int) :
    Paired R (s.take key now).1 (t.take key now).1 ∧
      TakenRel R (s.take key now).2 (t.take key now).2 := by
  unfold BucketSet.take BucketSet.takeAt
  rw [h.size,h.limit]
  split
  · simp only
    rw [(h.reap now).size,(h.reap now).limit]
    split
    · exact ⟨h.reap now,.nil⟩
    · exact (h.reap now).bucketFor key now
  · exact h.bucketFor key now

theorem Paired.store (h : Paired R s t) (key : String) (hr : R r r') :
    Paired R (s.store key r) (t.store key r') := by
  unfold BucketSet.store
  obtain ⟨hs,ht⟩ | ⟨x,y,hs,ht,hb⟩ := h.buckets key <;> rw [hs,ht]
  · exact h
  · exact h.insert key ⟨hb.1,hr⟩

theorem Paired.takeContext (h : Paired R s t) {choice : γ} {choice' : δ}
    (hops : ∀ r r', R r r' → R (ops.takeContext r choice).1 (ops'.takeContext r' choice').1 ∧
      (ops.takeContext r choice).2 = (ops'.takeContext r' choice').2) (key : String) (now : Int) :
    Paired R (s.takeContext ops key now choice).1 (t.takeContext ops' key now choice').1 ∧
      (s.takeContext ops key now choice).2 = (t.takeContext ops' key now choice').2 := by
  obtain ⟨hset,htaken⟩ := h.take key now
  unfold BucketSet.takeContext
  rcases hs : s.take key now with ⟨s',o⟩
  rcases ht : t.take key now with ⟨t',o'⟩
  rw [hs,ht] at hset htaken
  cases htaken with
  | nil | panic => exact ⟨hset,rfl⟩
  | bucket hr =>
    obtain ⟨hr',ho⟩ := hops _ _ hr
    exact ⟨hset.store key hr',ho⟩

theorem Paired.release (h : Paired R s t) {ops : L α γ} {ops' : L β δ}
    (hops : ∀ r r', R r r' → R (ops.release r).1 (ops'.release r').1 ∧
      (ops.release r).2 = (ops'.release r').2) (key : String) :
    Paired R (s.release ops key).1 (t.release ops' key).1 ∧
      (s.release ops key).2 = (t.release ops' key).2 := by
  unfold BucketSet.release
  obtain ⟨hs,ht⟩ | ⟨x,y,hs,ht,hb⟩ := h.buckets key <;> rw [hs,ht]
  · exact ⟨h,rfl⟩
  · obtain ⟨hr',ho⟩ := hops _ _ hb.2
    exact ⟨h.store key hr',ho⟩

end Pairs

section Idle
variable {α γ : Type} {inner : L α γ} {idle : α → Bool} {l taken rest : List α}

structure Idles (inner : L α γ) (idle : α → Bool) : Prop where
  take : ∀ a choice, idle a = true → inner.takeContext a choice = (a,.nil)
  release : ∀ a, idle a = true → inner.release a = (a,false)
  take_idle : ∀ a choice, idle (inner.takeContext a choice).1 = idle a
  release_idle : ∀ a, idle (inner.release a).1 = idle a

def active (idle : α → Bool) (l : List α) : List α := l.filter (fun a => !idle a)

theorem active_idle (ha : idle a = true) (l : List α) : active idle (a :: l) = active idle l := by
  simp [active,ha]

theorem active_cons (ha : idle a = false) (l : List α) :
    active idle (a :: l) = a :: active idle l := by
  simp [active,ha]

theorem active_append (l₁ l₂ : List α) :
    active idle (l₁ ++ l₂) = active idle l₁ ++ active idle l₂ :=
  filter_append l₁ l₂

theorem active_length : (active idle l).length = (l.map idle).count false := by
  induction l with
  | nil => rfl
  | cons a l ih =>
    cases ha : idle a with
    | true => simp [active_idle ha,ha,ih]
    | false => simp [active_cons ha,ha,ih]

theorem release_active (h : Idles inner idle) :
    MultiLimit.release inner (active idle l) =
      (active idle (MultiLimit.release inner l).1,(MultiLimit.release inner l).2) := by
  induction l with
  | nil => rfl
  | cons a l ih =>
    have ha := h.release_idle a
    cases hidle : idle a with
    | true =>
      rw [active_idle hidle,ih,MultiLimit.release,h.release a hidle]
      simp only [active_idle hidle]
    | false =>
      rw [active_cons hidle,MultiLimit.release,MultiLimit.release]
      rcases hr : inner.release a with ⟨a',panics⟩
      rw [hr,hidle] at ha
      cases panics with
      | true => simp only [active_cons ha]
      | false => simp only [ih,active_cons ha]

/-- A list of limiters and its active part decide alike, if the choices at the
active limiters are the same. -/
theorem takeFrom_active (h : Idles inner idle) (taken rest : List α)
    (hchoice : ∀ i, ((taken ++ rest).map idle)[i]? = some false →
      choice i = choice' ((((taken ++ rest).map idle).take i).count false)) :
    MultiLimit.takeFrom inner choice' (active idle taken) (active idle rest) =
      (active idle (MultiLimit.takeFrom inner choice taken rest).1,
        (MultiLimit.takeFrom inner choice taken rest).2) := by
  induction rest generalizing taken with
  | nil => simp [active,MultiLimit.takeFrom]
  | cons a rest ih =>
    have ha := h.take_idle a (choice taken.length)
    cases hidle : idle a with
    | true =>
      have hsame : active idle (taken ++ [a]) = active idle taken := by
        rw [active_append,active_idle hidle]
        exact append_nil _
      rw [active_idle hidle,MultiLimit.takeFrom,h.take a _ hidle]
      rw [← ih (taken ++ [a]) (by simpa using hchoice),hsame]
    | false =>
      have hhere : choice taken.length = choice' (active idle taken).length := by
        rw [hchoice taken.length (by simp [hidle]),active_length]
        simp
      rw [active_cons hidle,MultiLimit.takeFrom,MultiLimit.takeFrom,← hhere]
      rcases ht : inner.takeContext a (choice taken.length) with ⟨a',outcome⟩
      rw [ht,hidle] at ha
      have hone : active idle [a'] = [a'] := active_cons ha []
      cases outcome with
      | nil =>
        rw [← ih (taken ++ [a']) ?_,active_append,hone]
        simpa [ha,hidle] using hchoice
      | panic => simp only [active_append,active_cons ha]
      | err e =>
        simp only [release_active h]
        rcases hr : MultiLimit.release inner taken with ⟨taken',panics⟩
        cases panics with
        | true | false => simp only [active_append,active_cons ha]

end Idle

section Made

def noop (l : Limiter) : Bool := l.capacity = 0

theorem limiter_idles : Idles Limiter.ops noop := by
  refine ⟨fun l choice hl => ?_,fun l hl => ?_,fun l choice => ?_,fun l => ?_⟩
  · have hcap : l.capacity = 0 := of_decide_eq_true hl
    cases l <;> rw [Limiter.capacity] at hcap <;> simp [Limiter.ops,Limiter.takeContext,hcap]
  · have hcap : l.capacity = 0 := of_decide_eq_true hl
    cases l with
    | rate burst tokens => rfl
    | semaphore size held =>
      rw [Limiter.capacity] at hcap
      simp [Limiter.ops,Limiter.release,hcap]
  · rw [noop,noop,← capacity_blank,take_blank,capacity_blank]
  · rw [noop,noop,← capacity_blank,release_blank,capacity_blank]

def limited (ctor : Ctor) : Bool := ctor.size ≠ 0

abbrev effective (ctors : List Ctor) : List Ctor := ctors.filter limited

/-- What decides about the limiters of a list. The selects of a call are
numbered, and what comes out of one depends on how its limiter was made: the
tokens that `fill` adds depend on the period. -/
def chosen (ctors : List Ctor) (select : Nat → Ctor → Choice) (i : Nat) : Choice :=
  select ((ctors.take i).countP limited) (ctors.getD i (.concurrency 0))

theorem effective_get (hc : ctors[i]? = some ctor) (hl : limited ctor = true) :
    (effective ctors)[(ctors.take i).countP limited]? = some ctor := by
  induction ctors generalizing i with
  | nil => simp at hc
  | cons first ctors ih =>
    cases i with
    | zero =>
      simp only [getElem?_cons_zero,Option.some.injEq] at hc
      subst hc
      simp [hl]
    | succ i =>
      have hrest := ih (by simpa using hc)
      cases hf : limited first with
      | true | false => simpa [hf] using hrest

theorem chosen_effective (select : Nat → Ctor → Choice)
    (h : (ctors.map (fun c => !limited c))[i]? = some false) :
    chosen ctors select i =
      (fun k => select k ((effective ctors).getD k (.concurrency 0)))
        (((ctors.map (fun c => !limited c)).take i).count false) := by
  rw [getElem?_map,Option.map_eq_some_iff] at h
  obtain ⟨ctor,hc,hl⟩ := h
  have hl' : limited ctor = true := by simpa using hl
  have hcount : ((ctors.map (fun c => !limited c)).take i).count false =
      (ctors.take i).countP limited := by
    rw [← map_take,List.count,countP_map]
    congr 1
    funext c
    simp
  have hget := effective_get hc hl'
  simp [chosen,hcount,hc,hget]

def Shaped (ctors : List Ctor) (l : List Limiter) : Prop :=
  l.map noop = ctors.map (fun c => !limited c)

theorem take_effective (h : Shaped ctors l) (select : Nat → Ctor → Choice) :
    multiOps.takeContext (active noop l)
        (fun k => select k ((effective ctors).getD k (.concurrency 0))) =
      (active noop (multiOps.takeContext l (chosen ctors select)).1,
        (multiOps.takeContext l (chosen ctors select)).2) := by
  refine takeFrom_active limiter_idles [] l fun i hi => ?_
  rw [nil_append,h] at hi ⊢
  exact chosen_effective select hi

structure Matched (ctors ctors' : List Ctor) (l l' : List Limiter) : Prop where
  shape : Shaped ctors l
  shape' : Shaped ctors' l'
  active : active noop l = active noop l'

theorem Matched.take (h : Matched ctors ctors' l l') (heff : effective ctors = effective ctors')
    (select : Nat → Ctor → Choice) :
    Matched ctors ctors' (multiOps.takeContext l (chosen ctors select)).1
        (multiOps.takeContext l' (chosen ctors' select)).1 ∧
      (multiOps.takeContext l (chosen ctors select)).2 =
        (multiOps.takeContext l' (chosen ctors' select)).2 := by
  have hl := take_effective h.shape select
  have hl' := take_effective h.shape' select
  rw [h.active,heff,hl',Prod.mk.injEq] at hl
  refine ⟨⟨?_,?_,hl.1.symm⟩,hl.2.symm⟩
  · exact (MultiLimit.takeFrom_map limiter_idles.take_idle limiter_idles.release_idle).trans h.shape
  · exact (MultiLimit.takeFrom_map limiter_idles.take_idle limiter_idles.release_idle).trans h.shape'

theorem Matched.release (h : Matched ctors ctors' l l') :
    Matched ctors ctors' (multiOps.release l).1 (multiOps.release l').1 ∧
      (multiOps.release l).2 = (multiOps.release l').2 := by
  have hl : multiOps.release (DestLimits.active noop l) = _ := release_active limiter_idles
  have hl' : multiOps.release (DestLimits.active noop l') = _ := release_active limiter_idles
  rw [h.active,hl',Prod.mk.injEq] at hl
  refine ⟨⟨?_,?_,hl.1.symm⟩,hl.2.symm⟩
  · exact (MultiLimit.release_map limiter_idles.release_idle l).trans h.shape
  · exact (MultiLimit.release_map limiter_idles.release_idle l').trans h.shape'

def Unmakeable (ctors : List Ctor) : Prop := ∃ ctor ∈ ctors, ctor.size < 0

/-- Lists of constructors that decide alike: neither can be made, or they differ
in no-ops only. -/
def Equivalent (ctors ctors' : List Ctor) : Prop :=
  (Unmakeable ctors ∧ Unmakeable ctors') ∨
    (¬ Unmakeable ctors ∧ ¬ Unmakeable ctors' ∧ effective ctors = effective ctors')

theorem newLimit_cons (ctor : Ctor) (ctors : List Ctor) :
    newLimit (ctor :: ctors) =
      ctor.make.bind (fun l => (newLimit ctors).bind (fun ls => some (l :: ls))) := by
  simp [newLimit,mapM_cons]

theorem newLimit_none_iff (ctors : List Ctor) : newLimit ctors = none ↔ Unmakeable ctors := by
  rw [← Option.not_isSome_iff_eq_none,newLimit_isSome_iff]
  simp [Unmakeable]

theorem newLimit_made (h : newLimit ctors = some l) :
    Shaped ctors l ∧ (∀ x ∈ l, x.Fresh) ∧ newLimit (effective ctors) = some (active noop l) := by
  induction ctors generalizing l with
  | nil =>
    cases h
    exact ⟨rfl,by simp,rfl⟩
  | cons ctor ctors ih =>
    rw [newLimit_cons,Option.bind_eq_some_iff] at h
    obtain ⟨x,hx,h⟩ := h
    obtain ⟨rest,hrest,h⟩ := Option.bind_eq_some_iff.mp h
    cases h
    obtain ⟨hfresh,hsize⟩ := Ctor.make_fresh hx
    have hnoop : noop x = !limited ctor := by simp [noop,limited,← hsize]
    obtain ⟨hshape,hall,heff⟩ := ih hrest
    refine ⟨?_,forall_mem_cons.mpr ⟨hfresh,hall⟩,?_⟩
    · rw [Shaped,map_cons,map_cons,hnoop,hshape]
    · cases hl : limited ctor with
      | true =>
        rw [hl] at hnoop
        rw [effective,filter_cons_of_pos hl,newLimit_cons,hx,heff,active_cons hnoop]
        rfl
      | false =>
        rw [hl] at hnoop
        rw [effective,filter_cons_of_neg (by simp [hl]),active_idle hnoop]
        exact heff

/-- Limiters that no call has come to let a call through unless a select is
decided against it. -/
theorem fresh_takeFrom (taken rest : List Limiter) (hfresh : ∀ l ∈ rest, l.Fresh ∧ noop l = false) :
    (MultiLimit.takeFrom Limiter.ops choice taken rest).2 = .nil ↔
      ∀ j < rest.length, (choice (taken.length + j)).done = false := by
  induction rest generalizing taken with
  | nil => simp [MultiLimit.takeFrom]
  | cons l rest ih =>
    obtain ⟨⟨hf,hl⟩,hrest⟩ := forall_mem_cons.mp hfresh
    have hout := hf.takeContext (choice taken.length)
    simp only [show l.capacity ≠ 0 from of_decide_eq_false hl,ne_eq,not_false_eq_true,true_and]
      at hout
    rcases ht : Limiter.ops.takeContext l (choice taken.length) with ⟨l',outcome⟩
    have ht' : l.takeContext (choice taken.length) = (l',outcome) := ht
    rw [ht'] at hout
    rw [MultiLimit.takeFrom,ht,length_cons,Nat.forall_lt_succ_left]
    cases hd : (choice taken.length).done with
    | true =>
      simp only [hd,↓reduceIte] at hout
      subst hout
      simp only [Bool.true_eq_false,false_and,iff_false]
      split <;> simp
    | false =>
      simp only [hd,Bool.false_eq_true,↓reduceIte] at hout
      subst hout
      simp only [true_and]
      rw [ih (taken ++ [l']) hrest,length_append,length_singleton]
      refine forall_congr' fun j => ?_
      rw [Nat.add_assoc,Nat.add_comm 1 j]

end Made

section Decisions
variable {g g' : Group} {ctors ctors' given : List Ctor}

inductive DestCall where
  | takeDest (domain : String) (now : Int) (select : Nat → Ctor → Choice)
  | releaseDest (domain : String)

inductive Decision where
  | took (outcome : Outcome)
  | released (panics : Bool)
  deriving DecidableEq

/-- What comes out of a sequence of calls, on a group whose buckets for
destinations are made by these constructors. -/
def decisions (ctors : List Ctor) : Group → List DestCall → List Decision
  | _, [] => []
  | g, .takeDest domain now select :: calls =>
    let (g,outcome) := g.takeDest domain now (chosen ctors select)
    .took outcome :: decisions ctors g calls
  | g, .releaseDest domain :: calls =>
    let (g,panics) := g.releaseDest domain
    .released panics :: decisions ctors g calls

/-- Two kinds of buckets on which every call has the same outcome. -/
structure Simulates (ctors ctors' : List Ctor) (R : List Limiter → List Limiter → Prop) : Prop where
  take : ∀ select r r', R r r' →
    R (multiOps.takeContext r (chosen ctors select)).1
        (multiOps.takeContext r' (chosen ctors' select)).1 ∧
      (multiOps.takeContext r (chosen ctors select)).2 =
        (multiOps.takeContext r' (chosen ctors' select)).2
  release : ∀ r r', R r r' →
    R (multiOps.release r).1 (multiOps.release r').1 ∧
      (multiOps.release r).2 = (multiOps.release r').2

theorem takeDest_alike (hR : Simulates ctors ctors' R) (h : Alike (Paired R) g.dest g'.dest)
    (domain : String) (now : Int) (select : Nat → Ctor → Choice) :
    Alike (Paired R) (g.takeDest domain now (chosen ctors select)).1.dest
        (g'.takeDest domain now (chosen ctors' select)).1.dest ∧
      (g.takeDest domain now (chosen ctors select)).2 =
        (g'.takeDest domain now (chosen ctors' select)).2 := by
  unfold Group.takeDest takeIn
  obtain ⟨hs,ht⟩ | ⟨s,t,hs,ht,hp⟩ := h <;> simp only [hs,ht]
  · exact ⟨.inl ⟨rfl,rfl⟩,trivial⟩
  · obtain ⟨hpair,hout⟩ := hp.takeContext (hR.take select) domain now
    exact ⟨.inr ⟨_,_,rfl,rfl,hpair⟩,hout⟩

theorem releaseDest_alike (hR : Simulates ctors ctors' R) (h : Alike (Paired R) g.dest g'.dest)
    (domain : String) :
    Alike (Paired R) (g.releaseDest domain).1.dest (g'.releaseDest domain).1.dest ∧
      (g.releaseDest domain).2 = (g'.releaseDest domain).2 := by
  unfold Group.releaseDest releaseIn
  obtain ⟨hs,ht⟩ | ⟨s,t,hs,ht,hp⟩ := h <;> simp only [hs,ht]
  · exact ⟨.inl ⟨rfl,rfl⟩,trivial⟩
  · obtain ⟨hpair,hout⟩ := hp.release hR.release domain
    exact ⟨.inr ⟨_,_,rfl,rfl,hpair⟩,hout⟩

theorem decisions_eq (hR : Simulates ctors ctors' R) (h : Alike (Paired R) g.dest g'.dest) :
    decisions ctors g calls = decisions ctors' g' calls := by
  induction calls generalizing g g' with
  | nil => rfl
  | cons call calls ih =>
    cases call with
    | takeDest domain now select =>
      obtain ⟨hrel,hout⟩ := takeDest_alike hR h domain now select
      simp only [decisions,hout,ih hrel]
    | releaseDest domain =>
      obtain ⟨hrel,hout⟩ := releaseDest_alike hR h domain
      simp only [decisions,hout,ih hrel]

theorem bucketSet_paired (h : Alike R (newLimit ctors) (newLimit ctors')) :
    Alike (Paired R) (bucketSet given ctors) (bucketSet given ctors') := by
  unfold bucketSet
  split
  · exact .inl ⟨rfl,rfl⟩
  · refine .inr ⟨_,_,rfl,rfl,h,rfl,rfl,fun key => ?_⟩
    exact .inl ⟨rfl,rfl⟩

theorem simulates_nothing : Simulates ctors ctors' (fun _ _ => False) :=
  ⟨fun _ _ _ h => h.elim,fun _ _ h => h.elim⟩

theorem decisions_of_equivalent (hg : g.dest = bucketSet given ctors)
    (hg' : g'.dest = bucketSet given ctors') (h : Equivalent ctors ctors') :
    decisions ctors g calls = decisions ctors' g' calls := by
  obtain ⟨hno,hno'⟩ | ⟨hyes,hyes',heff⟩ := h
  · rw [← newLimit_none_iff] at hno hno'
    refine decisions_eq simulates_nothing ?_
    rw [hg,hg']
    exact bucketSet_paired (.inl ⟨hno,hno'⟩)
  · have hR : Simulates ctors ctors' (Matched ctors ctors') :=
      ⟨fun select _ _ hm => hm.take heff select,fun _ _ hm => hm.release⟩
    refine decisions_eq hR ?_
    rw [hg,hg']
    rw [← newLimit_none_iff] at hyes hyes'
    obtain ⟨l,hl⟩ := Option.ne_none_iff_exists'.mp hyes
    obtain ⟨l',hl'⟩ := Option.ne_none_iff_exists'.mp hyes'
    obtain ⟨hshape,_,hactive⟩ := newLimit_made hl
    obtain ⟨hshape',_,hactive'⟩ := newLimit_made hl'
    rw [heff,hactive'] at hactive
    exact bucketSet_paired (.inr ⟨l,l',hl,hl',hshape,hshape',(Option.some.inj hactive).symm⟩)

/-- The first call for a domain is let through: the limiters can be made, and no
select is decided against the call. -/
def Admits (ctors : List Ctor) (select : Nat → Ctor → Choice) : Prop :=
  ¬ Unmakeable ctors ∧ ∀ k ctor, (effective ctors)[k]? = some ctor → (select k ctor).done = false

theorem fresh_admits (h : newLimit ctors = some l) :
    (multiOps.takeContext l (chosen ctors select)).2 = .nil ↔
      ∀ k ctor, (effective ctors)[k]? = some ctor → (select k ctor).done = false := by
  obtain ⟨hshape,hfresh,hactive⟩ := newLimit_made h
  have hshape' := (newLimit_made hactive).1
  have htake := congrArg Prod.snd (take_effective hshape select)
  have hlen : (active noop l).length = (effective ctors).length := by
    simpa using congrArg List.length hshape'
  have hready : ∀ x ∈ active noop l, x.Fresh ∧ noop x = false := by
    intro x hx
    obtain ⟨hx,hnoop⟩ := mem_filter.mp hx
    exact ⟨hfresh x hx,by simpa using hnoop⟩
  have hiff := @fresh_takeFrom
    (fun k => select k ((effective ctors).getD k (.concurrency 0))) [] (active noop l) hready
  rw [← htake]
  refine hiff.trans ?_
  rw [hlen]
  constructor
  · intro hall k ctor hk
    have hlt := (List.getElem?_eq_some_iff.mp hk).1
    simpa [hk] using hall k hlt
  · intro hall k hlt
    simpa [hlt] using hall k _ (getElem?_eq_getElem hlt)

theorem first_take_iff (hg : g.dest = bucketSet given ctors) (hgiven : given ≠ []) :
    (g.takeDest domain now (chosen ctors select)).2 = .nil ↔ Admits ctors select := by
  simp only [Group.takeDest,takeIn,hg,bucketSet,if_neg hgiven,BucketSet.takeContext,
    BucketSet.take,BucketSet.takeAt,BucketSet.size,AList.empty_entries,length_nil,Nat.not_lt_zero,
    ↓reduceIte,BucketSet.bucketFor,AList.lookup_empty]
  have hnone := newLimit_none_iff ctors
  unfold Admits
  cases hl : newLimit ctors with
  | none => simp [hnone.mp hl]
  | some l =>
    have hyes : ¬ Unmakeable ctors := fun h => by simp [hnone.mpr h] at hl
    simp only [hyes,not_false_iff,true_and]
    exact fresh_admits hl

def against (k : Nat) (ctor : Ctor) : Nat → Ctor → Choice :=
  fun k' ctor' => ⟨decide (k' = k ∧ ctor' = ctor),.leaf "context deadline exceeded" none,0⟩

theorem equivalent_of_admits
    (h : ∀ select, Admits ctors select ↔ Admits ctors' select) : Equivalent ctors ctors' := by
  have hmake : ¬ Unmakeable ctors ↔ ¬ Unmakeable ctors' := by
    have hcalm := h (fun _ _ => ⟨false,.leaf "" none,0⟩)
    simpa [Admits] using hcalm
  by_cases hno : Unmakeable ctors
  · exact .inl ⟨hno,by simpa [hno] using hmake⟩
  · refine .inr ⟨hno,hmake.mp hno,?_⟩
    have hplace (ctors : List Ctor) (hyes : ¬ Unmakeable ctors) (k : Nat) (ctor : Ctor) :
        Admits ctors (against k ctor) ↔ (effective ctors)[k]? ≠ some ctor := by
      constructor
      · intro hadmits hk
        have hdone := hadmits.2 k ctor hk
        simp [against] at hdone
      · intro hk
        refine ⟨hyes,fun k' ctor' hk' => ?_⟩
        simp only [against,decide_eq_false_iff_not]
        rintro ⟨rfl,rfl⟩
        exact hk hk'
    apply ext_getElem?
    intro k
    apply Option.ext
    intro ctor
    have hk := h (against k ctor)
    rw [hplace ctors hno,hplace ctors' (hmake.mp hno)] at hk
    exact not_iff_not.mp hk

theorem decisions_iff (hg : g.dest = bucketSet given ctors) (hg' : g'.dest = bucketSet given ctors') :
    (∀ calls, decisions ctors g calls = decisions ctors' g' calls) ↔
      given = [] ∨ Equivalent ctors ctors' := by
  constructor
  · intro h
    by_cases hgiven : given = []
    · exact .inl hgiven
    · refine .inr (equivalent_of_admits fun select => ?_)
      rw [← first_take_iff hg hgiven,← first_take_iff hg' hgiven]
      have hone := h [.takeDest "" 0 select]
      simp only [decisions,List.cons.injEq,Decision.took.injEq,and_true] at hone
      rw [hone]
  · rintro (rfl | hequiv) calls
    · refine decisions_eq simulates_nothing ?_
      rw [hg,hg']
      exact .inl ⟨rfl,rfl⟩
    · exact decisions_of_equivalent hg hg' hequiv

/-- There always are other limits for the source scope that decide otherwise. -/
theorem exists_not_equivalent : ∃ ctors', ¬ Equivalent ctors' ctors := by
  by_cases hno : Unmakeable ctors
  · refine ⟨[],?_⟩
    rintro (⟨hnil,_⟩ | ⟨_,hyes,_⟩)
    · simp [Unmakeable] at hnil
    · exact hyes hno
  · refine ⟨ctors ++ [.concurrency 1],?_⟩
    rintro (⟨_,hctors⟩ | ⟨_,_,heff⟩)
    · exact hno hctors
    · have hlen := congrArg List.length heff
      simp [effective,filter_append,limited,Ctor.size] at hlen

end Decisions

def intended (scopes : Scopes) : Group :=
  { scopes.group with dest := bucketSet scopes.destL scopes.destL }

/-- Destinations are limited as configured exactly if nothing is configured for
them, or the limits of the source scope happen to decide alike; and other scopes
have no influence exactly if nothing is configured. -/
theorem dest_limits_iff (scopes : Scopes) :
    ((∀ calls, decisions scopes.sourceL scopes.group calls =
        decisions scopes.destL (intended scopes) calls) ↔
      scopes.destL = [] ∨ Equivalent scopes.sourceL scopes.destL) ∧
    ((∀ others : Scopes, others.destL = scopes.destL → ∀ calls,
        decisions others.sourceL others.group calls = decisions scopes.sourceL scopes.group calls) ↔
      scopes.destL = []) := by
  refine ⟨decisions_iff rfl rfl,fun h => ?_,fun hnone others hsame => ?_⟩
  · obtain ⟨ctors,hctors⟩ := exists_not_equivalent
    have hiff := @decisions_iff { scopes with sourceL := ctors }.group scopes.group ctors
      scopes.sourceL scopes.destL rfl rfl
    exact (hiff.mp (h { scopes with sourceL := ctors } rfl)).resolve_right hctors
  · have hdest : others.group.dest = bucketSet scopes.destL others.sourceL := by
      rw [← hsame]
      rfl
    exact (decisions_iff hdest rfl).mpr (.inl hnone)

def onlyOnes : Readers := ⟨fun _ => .ok 1,fun _ => .ok 1⟩

def oneAtATime : List Msgpipeline.Config.Node :=
  [⟨"destination",["concurrency","1"],none,"maddy.conf",1⟩]

def unhurried : Nat → Ctor → Choice := fun _ _ => ⟨false,.leaf "context deadline exceeded" none,0⟩

theorem configured_limit_ignored :
    ¬ ∀ (readers : Readers) (children : List Msgpipeline.Config.Node) (scopes : Scopes),
      readScopes readers children = .ok scopes →
      ∀ calls, decisions scopes.sourceL scopes.group calls =
        decisions scopes.destL (intended scopes) calls := by
  intro h
  have hsame := h onlyOnes oneAtATime { destL := [.concurrency 1] } rfl
    [.takeDest "example.org" 0 unhurried,.takeDest "example.org" 0 unhurried]
  exact absurd hsame (by decide)

end Madmail.Proofs.DestLimits
