import Madmail.Lib.Runs
import Madmail.Limits.Buckets

namespace Madmail.Proofs.FullBuckets
open Lib Limits BucketSet

variable {α γ : Type}

def Full (s : BucketSet α) : Prop := s.maxBuckets < s.size

def Unused (s : BucketSet α) (now : Int) (b : Bucket α) : Prop := s.reapInterval < now - b.lastUse

def asks : Call γ → Option (String × Clock)
  | .take key clock _ => some (key,clock)
  | .takeContext key clock _ => some (key,clock)
  | .release _ => none

/-- A call as the comment on `BucketSet` has it: it returns, a full set has lost
the buckets that were not used for long, and then there is a bucket for the call
or it is refused. -/
structure Graceful (ops : TakeL α γ) (hasNew : Bool) (s : BucketSet α) (c : Call γ) : Prop where
  returns : (s.call ops hasNew c).2 ≠ .panicked
  reaps : ∀ key clock, hasNew = true → asks c = some (key,clock) → Full s →
    ∀ k b, s.m.lookup k = some b →
      ((s.reap clock.reapAt).m.lookup k = none ↔ Unused s clock.reapAt b)
  proceeds : ∀ key clock, hasNew = true → asks c = some (key,clock) →
    (Full s → ¬ Full (s.reap clock.reapAt)) → ∃ t r, s.takeAt key clock = (t,.bucket r)
  refuses : ∀ key clock, hasNew = true → asks c = some (key,clock) → Full s →
    Full (s.reap clock.reapAt) →
      (s.call ops hasNew c).2 = .took false ∨ ∃ e, (s.call ops hasNew c).2 = .returned (some e)

def limiterPanics (ops : TakeL α γ) (s : BucketSet α) : Call γ → Prop
  | .take key clock choice =>
    match (s.takeAt key clock).2 with
    | .nil => False
    | .panic => True
    | .bucket r => (ops.take r choice).2 = none
  | .takeContext key clock choice =>
    match (s.takeAt key clock).2 with
    | .nil => False
    | .panic => True
    | .bucket r => (ops.takeContext r choice).2 = .panic
  | .release key => (s.release ops.toL key).2 = true

/-- What it takes for a call to be graceful: if it finds a full set, the buckets
that the loop drops must be those that were not used for long, and must leave
room. -/
structure Roomy (s : BucketSet α) (clock : Clock) : Prop where
  agree : ∀ k b, s.m.lookup k = some b →
    (s.stale clock.reapAt b = true ↔ Unused s clock.reapAt b)
  room : ¬ Full (s.reap clock.reapAt)

variable {ops : TakeL α γ} {hasNew : Bool} {s t u : BucketSet α} {c : Call γ} {key k : String}
  {clock : Clock} {b : Bucket α} {now : Int}

section Reap

theorem lookup_foldl_erase (p : Bucket α → Bool) (k : String) (keys : List String)
    (m : AList (fun _ : String => Bucket α)) :
    (keys.foldl (fun m key => if (m.lookup key).any p then m.erase key else m) m).lookup k =
      if k ∈ keys ∧ (m.lookup k).any p = true then none else m.lookup k := by
  induction keys generalizing m with
  | nil => simp
  | cons key keys ih =>
    rw [List.foldl_cons,ih]
    by_cases hk : k = key
    · subst hk
      by_cases hp : (m.lookup k).any p = true
      · simp [hp]
      · simp [hp]
    · split
      · rw [AList.lookup_erase_ne hk]
        simp [hk]
      · simp [hk]

theorem lookup_reap (s : BucketSet α) (now : Int) (k : String) :
    (s.reap now).m.lookup k =
      if (s.m.lookup k).any (s.stale now) = true then none else s.m.lookup k := by
  unfold reap
  rw [lookup_foldl_erase]
  by_cases hk : k ∈ s.m.keys
  · simp [hk]
  · have hnone : s.m.lookup k = none := AList.lookup_eq_none.mpr (fun h => hk (AList.mem_keys.mp h))
    simp [hnone]

theorem size_foldl_erase (p : Bucket α → Bool) (keys : List String)
    (m : AList (fun _ : String => Bucket α)) :
    (keys.foldl (fun m key => if (m.lookup key).any p then m.erase key else m) m).entries.length ≤
      m.entries.length := by
  induction keys generalizing m with
  | nil => exact Nat.le_refl _
  | cons key keys ih =>
    refine Nat.le_trans (ih _) ?_
    simp only
    split
    · exact (List.kerase_sublist key m.entries).length_le
    · exact Nat.le_refl _

theorem foldl_erase_self (p : Bucket α → Bool) (keys : List String)
    (m : AList (fun _ : String => Bucket α))
    (h : ∀ k b, m.lookup k = some b → p b = false) :
    keys.foldl (fun m key => if (m.lookup key).any p then m.erase key else m) m = m := by
  induction keys with
  | nil => rfl
  | cons key keys ih =>
    have hkeep : (m.lookup key).any p = false := by
      cases hb : m.lookup key with
      | none => rfl
      | some b => exact h key b hb
    rw [List.foldl_cons,hkeep]
    exact ih

theorem size_reap_le : (s.reap now).size ≤ s.size :=
  size_foldl_erase (s.stale now) s.m.keys s.m

theorem reap_drops_iff (hb : s.m.lookup k = some b) :
    (s.reap now).m.lookup k = none ↔ s.stale now b = true := by
  rw [lookup_reap,hb]
  simp

end Reap

section Size

theorem size_eq : s.size = s.m.keys.length := by
  rw [size,AList.keys,List.keys,List.length_map]

theorem size_insert :
    size { s with m := s.m.insert key b } = if key ∈ s.m then s.size else s.size + 1 := by
  rw [size_eq,size_eq,AList.keys_insert,List.length_cons]
  split
  · rename_i hk
    rw [List.length_erase_of_mem (AList.mem_keys.mp hk)]
    have hpos := List.length_pos_of_mem (AList.mem_keys.mp hk)
    omega
  · rename_i hk
    rw [List.erase_of_not_mem (fun h => hk (AList.mem_keys.mpr h))]

structure Keeps (s t : BucketSet α) : Prop where
  interval : t.reapInterval = s.reapInterval
  limit : t.maxBuckets = s.maxBuckets
  size : t.size ≤ max s.size (s.maxBuckets + 1)

theorem Keeps.refl (s : BucketSet α) : Keeps s s := ⟨rfl,rfl,Nat.le_max_left _ _⟩

theorem Keeps.trans (h : Keeps s t) (h' : Keeps t u) : Keeps s u := by
  refine ⟨h'.interval.trans h.interval,h'.limit.trans h.limit,?_⟩
  have hs := h.size
  have ht := h'.size
  rw [h.limit] at ht
  omega

theorem reap_keeps : Keeps s (s.reap now) :=
  ⟨rfl,rfl,Nat.le_trans size_reap_le (Nat.le_max_left _ _)⟩

theorem bucketFor_keeps (h : ¬ Full s) : Keeps s (s.bucketFor key now).1 := by
  unfold Full at h
  unfold bucketFor
  split
  · refine ⟨rfl,rfl,?_⟩
    rw [size_insert]
    split <;> omega
  · split
    · exact .refl s
    · refine ⟨rfl,rfl,?_⟩
      rw [size_insert]
      split <;> omega

theorem takeAt_keeps (s : BucketSet α) (key : String) (clock : Clock) :
    Keeps s (s.takeAt key clock).1 := by
  unfold takeAt
  split
  · simp only
    split
    · exact reap_keeps
    · rename_i hroom
      exact reap_keeps.trans (bucketFor_keeps hroom)
  · rename_i hroom
    exact bucketFor_keeps hroom

theorem store_keeps : Keeps s (s.store key r) := by
  unfold store
  split
  · exact .refl s
  · rename_i b hb
    refine ⟨rfl,rfl,?_⟩
    have hmem : key ∈ s.m := AList.lookup_isSome.mp (by simp [hb])
    rw [size_insert,if_pos hmem]
    exact Nat.le_max_left _ _

theorem release_keeps (s : BucketSet α) (inner : L α γ) (key : String) :
    Keeps s (s.release inner key).1 := by
  unfold BucketSet.release
  split
  · exact .refl s
  · exact store_keeps

theorem after_asks (h : asks c = some (key,clock)) :
    s.after ops true c = (s.takeAt key clock).1 ∨
      ∃ r, s.after ops true c = (s.takeAt key clock).1.store key r := by
  rcases ht : s.takeAt key clock with ⟨t,o⟩
  cases c with
  | release key => cases h
  | take key clock choice | takeContext key clock choice =>
    cases h
    simp only [after,call,ht,Bool.not_true,Bool.false_eq_true,↓reduceIte]
    cases o with
    | nil | panic => exact .inl rfl
    | bucket r =>
      simp only
      split <;> exact .inr ⟨_,rfl⟩

theorem after_noop : s.after ops false c = s := by
  cases c <;> rfl

theorem after_release : s.after ops true (.release key) = (s.release ops.toL key).1 := by
  simp only [after,call,Bool.not_true,Bool.false_eq_true,↓reduceIte]
  split <;> rename_i h <;> rw [h]

theorem after_keeps (ops : TakeL α γ) (hasNew : Bool) (s : BucketSet α) (c : Call γ) :
    Keeps s (s.after ops hasNew c) := by
  cases hasNew with
  | false =>
    rw [after_noop]
    exact .refl s
  | true =>
    cases hc : asks c with
    | none =>
      obtain ⟨key,rfl⟩ : ∃ key, c = .release key := by
        cases c with
        | release key => exact ⟨key,rfl⟩
        | take key clock choice => cases hc
        | takeContext key clock choice => cases hc
      rw [after_release]
      exact release_keeps s ops.toL key
    | some asked =>
      have ht := takeAt_keeps s asked.1 asked.2
      obtain h | ⟨r,h⟩ := @after_asks α γ ops s c asked.1 asked.2 hc <;> rw [h]
      · exact ht
      · exact ht.trans store_keeps

end Size

section Calls

theorem takeAt_nil_iff : (s.takeAt key clock).2 = .nil ↔ Full s ∧ Full (s.reap clock.reapAt) := by
  have hbucket (t : BucketSet α) : (t.bucketFor key clock.useAt).2 ≠ .nil := by
    unfold bucketFor
    split
    · simp
    · split <;> simp
  unfold takeAt Full
  split
  · rename_i hfull
    simp only
    split
    · rename_i hstill
      exact ⟨fun _ => ⟨hfull,hstill⟩,fun _ => rfl⟩
    · rename_i hroom
      exact ⟨fun h => absurd h (hbucket _),fun h => absurd h.2 hroom⟩
  · rename_i hroom
    exact ⟨fun h => absurd h (hbucket s),fun h => absurd h.1 hroom⟩

def Stuck (s : BucketSet α) (c : Call γ) : Prop :=
  ∃ key clock, asks c = some (key,clock) ∧ Full s ∧ Full (s.reap clock.reapAt)

theorem stuck_iff (h : asks c = some (key,clock)) :
    Stuck s c ↔ (s.takeAt key clock).2 = .nil := by
  rw [takeAt_nil_iff]
  constructor
  · rintro ⟨key',clock',hc,hfull⟩
    cases h.symm.trans hc
    exact hfull
  · exact fun hfull => ⟨key,clock,h,hfull⟩

theorem panicked_iff :
    (s.call ops true c).2 = .panicked ↔ Stuck s c ∨ limiterPanics ops s c := by
  cases c with
  | release key =>
    have hstuck : ¬ Stuck s (.release key : Call γ) := by
      rintro ⟨_,_,hc,_⟩
      cases hc
    simp only [call,limiterPanics,Bool.not_true,Bool.false_eq_true,↓reduceIte]
    split <;> rename_i h <;> simp [h,hstuck]
  | take key clock choice | takeContext key clock choice =>
    rw [stuck_iff rfl]
    rcases ht : s.takeAt key clock with ⟨t,o⟩
    simp only [call,limiterPanics,ht,Bool.not_true,Bool.false_eq_true,↓reduceIte]
    cases o with
    | nil => simp
    | panic => simp
    | bucket r =>
      simp only [reduceCtorEq,false_or]
      split <;> rename_i h <;> simp [h]

theorem bucket_of_calm (hc : asks c = some (key,clock)) (hroom : ¬ Stuck s c)
    (hcalm : ¬ limiterPanics ops s c) : ∃ t r, s.takeAt key clock = (t,.bucket r) := by
  rw [stuck_iff hc] at hroom
  rcases ht : s.takeAt key clock with ⟨t,o⟩
  rw [ht] at hroom
  cases o with
  | nil => exact absurd rfl hroom
  | bucket r => exact ⟨t,r,rfl⟩
  | panic =>
    cases c with
    | release key => cases hc
    | take key clock choice | takeContext key clock choice =>
      cases hc
      exact absurd (by simp [limiterPanics,ht]) hcalm

/-- What it takes for a call to be graceful: no limiter panics, and if the call
finds a full set, the buckets that the loop drops are those that were not used
for long, and leave room. -/
structure Spared (ops : TakeL α γ) (s : BucketSet α) (c : Call γ) : Prop where
  calm : ¬ limiterPanics ops s c
  roomy : ∀ key clock, asks c = some (key,clock) → Full s → Roomy s clock

theorem graceful_iff : Graceful ops true s c ↔ Spared ops s c := by
  constructor
  · intro h
    have hno := h.returns
    rw [ne_eq,panicked_iff,not_or] at hno
    refine ⟨hno.2,fun key clock hc hfull => ⟨fun k b hb => ?_,fun hstill => ?_⟩⟩
    · rw [← reap_drops_iff hb]
      exact h.reaps key clock rfl hc hfull k b hb
    · exact hno.1 ⟨key,clock,hc,hfull,hstill⟩
  · intro h
    have hroom : ¬ Stuck s c := fun ⟨key,clock,hc,hfull,hstill⟩ =>
      (h.roomy key clock hc hfull).room hstill
    refine ⟨?_,?_,?_,?_⟩
    · rw [ne_eq,panicked_iff,not_or]
      exact ⟨hroom,h.calm⟩
    · intro key clock _ hc hfull k b hb
      rw [reap_drops_iff hb]
      exact (h.roomy key clock hc hfull).agree k b hb
    · exact fun key clock _ hc _ => bucket_of_calm hc hroom h.calm
    · exact fun key clock _ hc hfull hstill => absurd ⟨key,clock,hc,hfull,hstill⟩ hroom

/-- With an interval that is not negative, no bucket is both far in the future
and not used for long: a loop that drops the right ones drops none. -/
theorem not_roomy (hi : 0 ≤ s.reapInterval) (hfull : Full s) : ¬ Roomy s clock := by
  intro h
  have hkept : s.reap clock.reapAt = s := by
    unfold reap
    rw [foldl_erase_self]
    intro k b hb
    have hiff := h.agree k b hb
    rw [stale,decide_eq_true_iff,Unused] at hiff
    rw [stale,decide_eq_false_iff_not]
    intro hstale
    have hunused := hiff.mp hstale
    omega
  exact h.room (by rwa [hkept])

theorem spared_iff (hi : 0 ≤ s.reapInterval) :
    Spared ops s c ↔ ¬ limiterPanics ops s c ∧ (asks c ≠ none → ¬ Full s) := by
  constructor
  · intro h
    refine ⟨h.calm,fun hc hfull => ?_⟩
    obtain ⟨⟨key,clock⟩,hc⟩ := Option.ne_none_iff_exists'.mp hc
    exact not_roomy hi hfull (h.roomy key clock hc hfull)
  · rintro ⟨hcalm,hroom⟩
    exact ⟨hcalm,fun key clock hc hfull => absurd hfull (hroom (by simp [hc]))⟩

theorem graceful_noop : Graceful ops false s c := by
  refine ⟨?_,?_,?_,?_⟩
  · cases c <;> simp [call]
  · exact fun _ _ h => absurd h Bool.false_ne_true
  · exact fun _ _ h => absurd h Bool.false_ne_true
  · exact fun _ _ h => absurd h Bool.false_ne_true

end Calls

/-- A set never has more than one bucket too many. All its calls are graceful
exactly if no limiter panics and no call is made on a full set, unless the loop
drops the right buckets; which it never does if the interval is not negative. -/
theorem buckets_graceful_iff (ops : TakeL α γ) (hasNew : Bool) (new : Option α) (interval : Int)
    (limit : Nat) (calls : List (Call γ)) :
    (∀ s ∈ visited (after ops hasNew) ⟨new,interval,limit,∅⟩ calls, s.size ≤ limit + 1) ∧
    (Guarded (after ops hasNew) (Graceful ops hasNew) ⟨new,interval,limit,∅⟩ calls ↔
      Guarded (after ops hasNew) (fun s c => hasNew = true → Spared ops s c)
        ⟨new,interval,limit,∅⟩ calls) ∧
    (0 ≤ interval →
      (Guarded (after ops hasNew) (Graceful ops hasNew) ⟨new,interval,limit,∅⟩ calls ↔
        Guarded (after ops hasNew) (fun s c => hasNew = true →
          ¬ limiterPanics ops s c ∧ (asks c ≠ none → ¬ Full s))
          ⟨new,interval,limit,∅⟩ calls)) := by
  have hiff (s : BucketSet α) (c : Call γ) :
      Graceful ops hasNew s c ↔ (hasNew = true → Spared ops s c) := by
    cases hasNew with
    | false => simp [graceful_noop]
    | true => simp [graceful_iff]
  refine ⟨?_,?_,fun hi => ?_⟩
  · intro s hs
    have hinv : s.maxBuckets = limit ∧ s.size ≤ limit + 1 := by
      refine visited_invariant (P := fun s => s.maxBuckets = limit ∧ s.size ≤ limit + 1)
        (fun s c h => ?_) ⟨rfl,Nat.zero_le _⟩ s hs
      have hk := after_keeps ops hasNew s c
      refine ⟨hk.limit.trans h.1,?_⟩
      have hsize := hk.size
      omega
    exact hinv.2
  · exact guarded_congr_of_inv (I := fun _ => True) (fun _ _ _ _ => trivial)
      (fun s c _ _ => hiff s c) trivial (fun _ _ => trivial : ∀ c ∈ calls, True)
  · refine guarded_congr_of_inv (I := fun s => s.reapInterval = interval) ?_ ?_ rfl
      (fun _ _ => trivial : ∀ c ∈ calls, True)
    · exact fun s c h _ => (after_keeps ops hasNew s c).interval.trans h
    · intro s c h _
      rw [hiff,spared_iff (h ▸ hi)]

def noLimit : TakeL Unit Unit where
  takeContext _ _ := ((),.nil)
  release _ := ((),false)
  take _ _ := ((),some true)

theorem noLimit_calm {s : BucketSet Unit} :
    ¬ limiterPanics noLimit s (.release key) := by
  simp only [limiterPanics,BucketSet.release]
  split <;> simp [noLimit]

theorem one_key_graceful :
    Guarded (after noLimit true) (Graceful noLimit true) ⟨some (),60,0,∅⟩
      [.take "a" ⟨0,0⟩ (),.release "a"] := by
  refine ((buckets_graceful_iff noLimit true (some ()) 60 0 _).2.2 (by decide)).mpr ?_
  refine ⟨fun _ => ⟨?_,fun _ => ?_⟩,fun _ => ⟨noLimit_calm,?_⟩,trivial⟩
  · simp [limiterPanics,takeAt,bucketFor,size,noLimit]
  · simp [Full,size]
  · exact fun h => absurd rfl h

/-- A second key is one too many for a set that is made for no bucket, although
the first one was not used for longer than the interval. -/
theorem second_key_panics :
    ¬ Guarded (after noLimit true) (Graceful noLimit true) ⟨some (),60,0,∅⟩
      [.take "a" ⟨0,0⟩ (),.take "b" ⟨100,100⟩ ()] := by
  intro h
  exact h.2.1.returns rfl

end Madmail.Proofs.FullBuckets
