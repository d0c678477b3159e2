import Madmail.Lib.Holdings
import Madmail.Proofs.QuotaUsage
import Madmail.Storage.Deliveries

namespace Madmail.Proofs.QuotaRace
open Exterrors Lib Quota Imapsql QuotaStore QuotaUsage List

variable {s s' : Storage} {w w' : Deliveries} {isSerialization : Err → Bool} {u rcpt : String}
  {d : Delivery} {f : String → Faults}

/-- What a delivery stores for an account: the header, which the check does not
count, and the body. -/
def stored (u : String) (d : Delivery) : Nat :=
  if u ∈ d.addedRcpts then d.headerLen u + d.bodyLen else 0

/-- Whether the quota check lets a message of this length pass for a recipient. If
the recipient is not in the cache, it does when the query for its row fails. -/
def fits (s : Storage) (bodyLen : Nat) (rcpt : String) : Bool :=
  match s.cache.entries rcpt with
  | some e => e.maxBytes > 0 → e.usedBytes + bodyLen ≤ e.maxBytes
  | none => true

def passes (s : Storage) (d : Delivery) : Bool :=
  d.addedRcpts.all (fun rcpt => fits s d.bodyLen rcpt && s.users rcpt)

def limit (s : Storage) (u : String) : Int :=
  ((s.getQuota {} u).2.map (fun q => q.max)).getD 0

/-- No step of the deliveries takes the account over its maximum. -/
def NeverExceeds (isSerialization : Err → Bool) (s : Storage) (ds : List (Delivery × Bool))
    (u : String) : Prop :=
  ∀ acts w a w', run (Deliveries.step isSerialization) (.start s ds) acts = some w →
    w.step isSerialization a = some w' → w.store.used u ≤ limit s u → w'.store.used u ≤ limit s u

section Check

/-- What the deliveries keep of the storage they began with: the limits, and the
cached usage does not shrink. -/
structure Since (s s' : Storage) : Prop where
  users : s'.users = s.users
  entries : ∀ rcpt e, s.cache.entries rcpt = some e → ∃ e', s'.cache.entries rcpt = some e' ∧
    e'.maxBytes = e.maxBytes ∧ e.usedBytes ≤ e'.usedBytes

theorem Since.refl (s : Storage) : Since s s := ⟨rfl,fun _ e he => ⟨e,he,rfl,Int.le_refl _⟩⟩

theorem Since.trans (h : Since s s') (h' : Since s' s'') : Since s s'' := by
  refine ⟨h'.users.trans h.users,fun rcpt e he => ?_⟩
  obtain ⟨e',he',hmax',hused'⟩ := h.entries rcpt e he
  obtain ⟨e'',he'',hmax'',hused''⟩ := h'.entries rcpt e' he'
  exact ⟨e'',he'',hmax''.trans hmax',Int.le_trans hused' hused''⟩

theorem Since.fits (h : Since s s') (hf : fits s' bodyLen rcpt = true) :
    fits s bodyLen rcpt = true := by
  unfold QuotaRace.fits at hf ⊢
  cases he : s.cache.entries rcpt with
  | none => rfl
  | some e =>
    obtain ⟨e',he',hmax,hused⟩ := h.entries rcpt e he
    rw [he'] at hf
    have hle := of_decide_eq_true hf
    refine decide_eq_true fun hpos => ?_
    omega

theorem getQuota_since (s : Storage) (f : Faults) (rcpt : String) :
    Since s (s.getQuota f rcpt).1 ∧ (s.getQuota f rcpt).1.msgs = s.msgs := by
  unfold Storage.getQuota Cache.get
  cases he : s.cache.entries rcpt with
  | some e => exact ⟨.refl s,rfl⟩
  | none =>
    have hother : ∀ (c : Cache), (∀ v, v ≠ rcpt → c.entries v = s.cache.entries v) →
        Since s { s with cache := c } := by
      intro c hc
      refine ⟨rfl,fun v e hv => ⟨e,?_,rfl,Int.le_refl _⟩⟩
      have hne : v ≠ rcpt := by
        intro heq
        rw [heq,he] at hv
        cases hv
      exact (hc v hne).trans hv
    dsimp only
    split
    · exact ⟨.refl s,rfl⟩
    · split
      · exact ⟨hother _ fun v hv => (updateUsed_other hv).trans (setMax_other hv),rfl⟩
      · exact ⟨hother _ fun v hv => updateUsed_other hv,rfl⟩

theorem getQuota_fits (h : (s.getQuota (f rcpt) rcpt).2 = some q) {bodyLen : Nat}
    (hle : ¬ (q.max > 0 ∧ q.used + bodyLen > q.max)) : fits s bodyLen rcpt = true := by
  unfold fits
  unfold Storage.getQuota Cache.get at h
  cases he : s.cache.entries rcpt with
  | none => rfl
  | some e =>
    rw [he] at h
    cases h
    refine decide_eq_true fun hpos => ?_
    dsimp only at hle
    omega

theorem checkQuota_since (f : String → Faults) (bodyLen : Nat) (order : List String) (s : Storage) :
    Since s (s.checkQuota f bodyLen order).1 ∧
      (s.checkQuota f bodyLen order).1.msgs = s.msgs ∧
      ((s.checkQuota f bodyLen order).2 = none → ∀ rcpt ∈ order, fits s bodyLen rcpt = true) := by
  induction order generalizing s with
  | nil => exact ⟨.refl s,rfl,nofun⟩
  | cons rcpt rest ih =>
    obtain ⟨hsince,hmsgs⟩ := getQuota_since s (f rcpt) rcpt
    unfold Storage.checkQuota
    rcases hq : s.getQuota (f rcpt) rcpt with ⟨s₁,_ | q⟩ <;> rw [hq] at hsince hmsgs
    · obtain ⟨hrest,hsame,hfits⟩ := ih s₁
      refine ⟨hsince.trans hrest,hsame.trans hmsgs,fun h r hr => ?_⟩
      rcases mem_cons.mp hr with rfl | hr
      · -- the query has failed, so the recipient is not in the cache
        unfold fits
        unfold Storage.getQuota Cache.get at hq
        cases he : s.cache.entries r with
        | none => rfl
        | some e =>
          rw [he] at hq
          cases hq
      · exact hsince.fits (hfits h r hr)
    · dsimp only
      split
      · exact ⟨hsince,hmsgs,nofun⟩
      · rename_i hle
        obtain ⟨hrest,hsame,hfits⟩ := ih s₁
        refine ⟨hsince.trans hrest,hsame.trans hmsgs,fun h r hr => ?_⟩
        rcases mem_cons.mp hr with rfl | hr
        · exact getQuota_fits (congrArg Prod.snd hq) hle
        · exact hsince.fits (hfits h r hr)

theorem body_since (h : s.body isSerialization f c quarantine bodyLen order = (s',err)) :
    Since s s' ∧ s'.msgs = s.msgs ∧ (err = none → ∀ rcpt ∈ order, fits s bodyLen rcpt = true) := by
  obtain ⟨hsince,hmsgs,hfits⟩ := checkQuota_since f bodyLen order s
  unfold Storage.body at h
  rcases hc : s.checkQuota f bodyLen order with ⟨s₁,_ | e⟩ <;> rw [hc] at h hsince hmsgs hfits
  · cases h
    exact ⟨hsince,hmsgs,fun _ => hfits rfl⟩
  · cases h
    exact ⟨hsince,hmsgs,nofun⟩

end Check

section Commit

theorem addUsed_since {c : Cache} {delta : Nat} (he : c.entries v = some e) :
    ∃ e', (c.addUsed rcpt delta).entries v = some e' ∧
      e'.maxBytes = e.maxBytes ∧ e.usedBytes ≤ e'.usedBytes := by
  by_cases h : v = rcpt
  · subst h
    refine ⟨_,addUsed_self,?_,?_⟩
    · simp [Cache.entryOrDefault,he]
    · simp only [Cache.entryOrDefault,he,Option.getD_some]
      split <;> omega
  · exact ⟨e,(addUsed_other h).trans he,rfl,Int.le_refl _⟩

theorem commit_since (s : Storage) (d : Delivery) : Since s (s.commit d) := by
  unfold Storage.commit
  split
  · exact .refl s
  · obtain ⟨_,_,hadd⟩ :=
      addMsgs_frame d.addedRcpts s (fun rcpt => d.headerLen rcpt + d.bodyLen) d.date
    rw [hadd]
    split
    · refine ⟨rfl,fun v e he => ?_⟩
      dsimp only
      rw [addUsed_fold d.nodup]
      split
      · exact addUsed_since he
      · exact ⟨e,he,rfl,Int.le_refl _⟩
    · exact ⟨rfl,fun v e he => ⟨e,he,rfl,Int.le_refl _⟩⟩

theorem used_commit (hall : d.addedRcpts.all s.users = true) (u : String) :
    (s.commit d).used u = s.used u + stored u d := by
  have hused := used_addMsgs d.nodup s (fun rcpt => d.headerLen rcpt + d.bodyLen) d.date u
  have hsum : (s.commit d).used u =
      s.used u + if u ∈ d.addedRcpts then ((d.headerLen u + d.bodyLen : Nat) : Int) else 0 := by
    rw [← hused]
    unfold Storage.commit
    simp only [hall,Bool.not_true,Bool.false_eq_true,if_false]
    split <;> rfl
  rw [hsum]
  unfold stored
  split <;> rfl

end Commit

section Runs

def added (u : String) (p : Pending) : Nat := if p.phase = .committed then stored u p.d else 0

structure Inv (s : Storage) (ds : List (Delivery × Bool)) (u : String) (w : Deliveries) : Prop where
  since : Since s w.store
  same : w.pending.map (fun p => (p.d,p.quarantine)) = ds
  fit : ∀ p ∈ w.pending, p.phase = .accepted → p.d.addedRcpts.all (fits s p.d.bodyLen) = true
  pass : ∀ p ∈ w.pending, p.phase = .committed → passes s p.d = true
  used : w.store.used u = s.used u + (w.pending.map (added u)).sum

variable {ds : List (Delivery × Bool)} {p : Pending} {i : Nat} {phase : Phase}

theorem start_inv : Inv s ds u (.start s ds) := by
  have hphase : ∀ p ∈ (Deliveries.start s ds).pending, p.phase = .added := by
    intro p hp
    obtain ⟨d, -,rfl⟩ := mem_map.mp hp
    rfl
  refine ⟨.refl s,?_,fun p hp h => ?_,fun p hp h => ?_,?_⟩
  · simp [Deliveries.start,Function.comp_def]
  · rw [hphase p hp] at h
    cases h
  · rw [hphase p hp] at h
    cases h
  · simp [Deliveries.start,added,Function.comp_def]

theorem Inv.moved (h : Inv s ds u w) (hp : w.pending[i]? = some p) (hsince : Since w.store s')
    (hfit : phase = .accepted → p.d.addedRcpts.all (fits s p.d.bodyLen) = true)
    (hpass : phase = .committed → passes s p.d = true)
    (hused : s'.used u + added u p = w.store.used u + added u { p with phase := phase }) :
    Inv s ds u ⟨s',w.pending.set i { p with phase := phase }⟩ := by
  refine ⟨h.since.trans hsince,?_,fun q hq hphase => ?_,fun q hq hphase => ?_,?_⟩
  · exact (map_set_same (fun p : Pending => (p.d,p.quarantine)) { p with phase } hp rfl).trans h.same
  · rcases mem_or_eq_of_mem_set hq with hq | rfl
    · exact h.fit q hq hphase
    · exact hfit hphase
  · rcases mem_or_eq_of_mem_set hq with hq | rfl
    · exact h.pass q hq hphase
    · exact hpass hphase
  · have hsum := sum_map_set (added u) { p with phase := phase } hp
    have hold := h.used
    dsimp only
    omega

theorem added_open (hphase : p.phase ≠ .committed) : added u p = 0 := if_neg hphase

theorem body_inv (h : Inv s ds u w) (hstep : w.step isSerialization (.body i order f c) = some w') :
    Inv s ds u w' := by
  simp only [Deliveries.step,Option.bind_eq_bind,Option.bind_eq_some_iff] at hstep
  obtain ⟨p,hp,hstep⟩ := hstep
  split at hstep
  · rename_i hguard
    rcases hb : w.store.body isSerialization f c p.quarantine p.d.bodyLen order with ⟨s',err⟩
    rw [hb] at hstep
    cases hstep
    obtain ⟨hsince,hmsgs,hfits⟩ := body_since hb
    refine h.moved hp hsince (fun hacc => ?_) (fun hcom => ?_) ?_
    · cases err with
      | some e => cases hacc
      | none =>
        refine all_eq_true.mpr fun rcpt hr => h.since.fits (hfits rfl rcpt ?_)
        exact (isPerm_iff.mp hguard.2).mem_iff.mpr hr
    · cases err <;> cases hcom
    · have hused : s'.used u = w.store.used u := by
        unfold Storage.used
        rw [hmsgs]
      have hnew : ∀ b : Bool, added u { p with phase := if b then .accepted else .rejected } = 0 := by
        intro b
        cases b <;> rfl
      rw [hnew,added_open (by simp [hguard.1]),hused]
  · cases hstep

theorem commit_inv (h : Inv s ds u w)
    (hstep : w.step isSerialization (.commit i failed) = some w') : Inv s ds u w' := by
  simp only [Deliveries.step,Option.bind_eq_bind,Option.bind_eq_some_iff] at hstep
  obtain ⟨p,hp,hstep⟩ := hstep
  split at hstep
  · rename_i hphase
    have hold : added u p = 0 := added_open (by simp [hphase])
    split at hstep
    · cases hstep
      refine h.moved hp (.refl _) nofun nofun ?_
      rw [hold]
      rfl
    · rename_i hok
      cases hstep
      obtain ⟨-,hall⟩ : failed = false ∧ p.d.addedRcpts.all w.store.users = true := by
        simpa using hok
      refine h.moved hp (commit_since _ _) nofun (fun _ => ?_) ?_
      · have hfit := h.fit p (mem_of_getElem? hp) hphase
        rw [h.since.users] at hall
        refine all_eq_true.mpr fun rcpt hr => Bool.and_eq_true_iff.mpr ⟨?_,?_⟩
        · exact all_eq_true.mp hfit rcpt hr
        · exact all_eq_true.mp hall rcpt hr
      · rw [used_commit hall,hold]
        simp [added]
  · cases hstep

theorem step_inv (h : Inv s ds u w) (hstep : w.step isSerialization a = some w') :
    Inv s ds u w' := by
  cases a with
  | body i order f c => exact body_inv h hstep
  | commit i failed => exact commit_inv h hstep
  | abort i =>
    simp only [Deliveries.step,Option.bind_eq_bind,Option.bind_eq_some_iff] at hstep
    obtain ⟨p,hp,hstep⟩ := hstep
    split at hstep
    · cases hstep
    · rename_i hphase
      cases hstep
      refine h.moved hp (.refl _) nofun nofun ?_
      rw [added_open hphase]
      rfl

def demand (s : Storage) (ds : List (Delivery × Bool)) (u : String) : Nat :=
  ((ds.filter (fun d => passes s d.1)).map (fun d => stored u d.1)).sum

theorem demand_cons (s : Storage) (d : Delivery × Bool) (ds : List (Delivery × Bool)) (u : String) :
    demand s (d :: ds) u = (if passes s d.1 then stored u d.1 else 0) + demand s ds u := by
  unfold demand
  rw [filter_cons]
  split
  · rfl
  · exact (Nat.zero_add _).symm

theorem added_le_demand {ps : List Pending}
    (h : ∀ p ∈ ps, p.phase = .committed → passes s p.d = true) :
    (ps.map (added u)).sum ≤ demand s (ps.map (fun p => (p.d,p.quarantine))) u := by
  induction ps with
  | nil => exact Nat.le_refl _
  | cons p ps ih =>
    obtain ⟨hp,hps⟩ := forall_mem_cons.mp h
    have hrest := ih hps
    rw [map_cons,map_cons,sum_cons,demand_cons]
    unfold added at hrest ⊢
    by_cases hphase : p.phase = .committed
    · rw [if_pos hphase,if_pos (hp hphase)]
      exact Nat.add_le_add_left hrest _
    · rw [if_neg hphase]
      omega

/-- Whatever the deliveries do, the account has what it had and some of what they
could have stored at the start. -/
theorem Inv.bounds (h : Inv s ds u w) :
    s.used u ≤ w.store.used u ∧ w.store.used u ≤ s.used u + demand s ds u := by
  have hle := added_le_demand (u := u) h.pass
  rw [h.same] at hle
  have hused := h.used
  omega

theorem run_inv (hrun : run (Deliveries.step isSerialization) (.start s ds) acts = some w) : Inv s ds u w :=
  run_invariant (fun _ _ _ h (_ : True) hstep => step_inv h hstep) start_inv
    (fun _ _ => trivial) hrun

end Runs

section Worst

/-- All deliveries go through the check before any of them is committed. A query
that is made fails. -/
def bodies : Nat → List (Delivery × Bool) → List DeliveryStep
  | _, [] => []
  | i, d :: ds => .body i d.1.addedRcpts (fun _ => { row := true }) {} :: bodies (i + 1) ds

def commits (s : Storage) : Nat → List (Delivery × Bool) → List DeliveryStep
  | _, [] => []
  | i, d :: ds => if passes s d.1 then .commit i false :: commits s (i + 1) ds
    else commits s (i + 1) ds

def checked (s : Storage) (d : Delivery × Bool) : Pending where
  d := d.1
  quarantine := d.2
  phase := if d.1.addedRcpts.all (fits s d.1.bodyLen) then .accepted else .rejected

theorem checkQuota_faulty (s : Storage) (bodyLen : Nat) (order : List String) :
    s.checkQuota (fun _ => { row := true }) bodyLen order =
      (s,if order.all (fits s bodyLen) then none else some quotaExceeded) := by
  induction order with
  | nil => rfl
  | cons rcpt rest ih =>
    unfold Storage.checkQuota Storage.getQuota Cache.get
    rw [all_cons]
    cases he : s.cache.entries rcpt with
    | none =>
      have hfits : fits s bodyLen rcpt = true := by
        unfold fits
        rw [he]
      simpa [hfits] using ih
    | some e =>
      have hfits : fits s bodyLen rcpt =
          decide (e.maxBytes > 0 → e.usedBytes + bodyLen ≤ e.maxBytes) := by
        unfold fits
        rw [he]
      dsimp only
      by_cases hle : e.maxBytes > 0 → e.usedBytes + bodyLen ≤ e.maxBytes
      · rw [if_neg (by omega),hfits,decide_eq_true hle]
        exact ih
      · rw [if_pos (by omega),hfits,decide_eq_false hle]
        rfl

theorem getElem?_length (done rest : List α) (x : α) : (done ++ x :: rest)[done.length]? = some x := by
  simp

theorem set_length (done rest : List α) (x y : α) :
    (done ++ x :: rest).set done.length y = done ++ y :: rest := by
  simp

theorem step_body {d : Delivery × Bool} :
    Deliveries.step isSerialization ⟨s,done ++ { d := d.1, quarantine := d.2 } :: rest⟩
      (.body done.length d.1.addedRcpts (fun _ => { row := true }) {}) =
        some ⟨s,done ++ checked s d :: rest⟩ := by
  have hbody : s.body isSerialization (fun _ => { row := true }) {} d.2 d.1.bodyLen d.1.addedRcpts =
      (s,if d.1.addedRcpts.all (fits s d.1.bodyLen) then none else some quotaExceeded) := by
    unfold Storage.body
    rw [checkQuota_faulty]
    cases d.1.addedRcpts.all (fits s d.1.bodyLen) with
    | true => cases d.2 <;> rfl
    | false => rfl
  simp only [Deliveries.step,getElem?_length,Option.bind_eq_bind,Option.bind_some,hbody,
    set_length,true_and,isPerm_iff.mpr (Perm.refl _),if_true,checked]
  cases d.1.addedRcpts.all (fits s d.1.bodyLen) <;> rfl

theorem run_bodies (done : List Pending) (ds : List (Delivery × Bool)) :
    run (Deliveries.step isSerialization)
      ⟨s,done ++ ds.map (fun d => { d := d.1, quarantine := d.2 })⟩ (bodies done.length ds) =
        some ⟨s,done ++ ds.map (checked s)⟩ := by
  induction ds generalizing done with
  | nil => rfl
  | cons d ds ih =>
    have hrest := ih (done ++ [checked s d])
    simp only [append_assoc,singleton_append,length_append,
      length_singleton] at hrest
    rw [map_cons,map_cons,bodies,run,step_body,Option.bind_some]
    exact hrest

theorem run_commits (done : List Pending) (ds : List (Delivery × Bool))
    (husers : t.users = s.users) :
    ∃ w, run (Deliveries.step isSerialization) ⟨t,done ++ ds.map (checked s)⟩
        (commits s done.length ds) = some w ∧
      w.store.used u = t.used u + demand s ds u := by
  induction ds generalizing done t with
  | nil => exact ⟨_,rfl,by simp [demand]⟩
  | cons d ds ih =>
    rw [demand_cons,map_cons,commits]
    by_cases hpass : passes s d.1 = true
    · have hfit : d.1.addedRcpts.all (fits s d.1.bodyLen) = true :=
        all_eq_true.mpr fun rcpt hr => (Bool.and_eq_true_iff.mp (all_eq_true.mp hpass rcpt hr)).1
      have hall : d.1.addedRcpts.all t.users = true := by
        rw [husers]
        exact all_eq_true.mpr fun rcpt hr =>
          (Bool.and_eq_true_iff.mp (all_eq_true.mp hpass rcpt hr)).2
      obtain ⟨w,hrun,hused⟩ := ih (done ++ [{ d := d.1, quarantine := d.2, phase := .committed }])
        ((commit_since t d.1).users.trans husers)
      simp only [append_assoc,singleton_append,length_append,
        length_singleton] at hrun
      refine ⟨w,?_,?_⟩
      · rw [if_pos hpass,run]
        simp only [Deliveries.step,getElem?_length,Option.bind_eq_bind,Option.bind_some,checked,
          hfit,hall,set_length,if_true,Bool.not_true,Bool.or_self,Bool.false_eq_true,if_false]
        exact hrun
      · rw [hused,used_commit hall,if_pos hpass]
        omega
    · obtain ⟨w,hrun,hused⟩ := ih (done ++ [checked s d]) husers
      simp only [append_assoc,singleton_append,length_append,
        length_singleton] at hrun
      refine ⟨w,?_,?_⟩
      · rw [if_neg hpass]
        exact hrun
      · rw [hused,if_neg hpass]
        omega

theorem demand_reached :
    ∃ acts w, run (Deliveries.step isSerialization) (.start s ds) acts = some w ∧
      w.store.used u = s.used u + demand s ds u := by
  obtain ⟨w,hcommits,hused⟩ : ∃ w, run (Deliveries.step isSerialization)
        ⟨s,ds.map (checked s)⟩ (commits s 0 ds) = some w ∧
      w.store.used u = s.used u + demand s ds u :=
    run_commits [] ds rfl
  refine ⟨bodies 0 ds ++ commits s 0 ds,w,?_,hused⟩
  exact (run_append (run_bodies [] ds)).trans hcommits

end Worst

/-- Deliveries never take an account over its maximum exactly if all those that
pass the check at the start fit together. -/
theorem quota_never_exceeded_iff (isSerialization : Err → Bool) (s : Storage)
    (ds : List (Delivery × Bool)) (u : String) :
    NeverExceeds isSerialization s ds u ↔
      (s.used u ≤ limit s u → s.used u + demand s ds u ≤ limit s u) := by
  constructor
  · intro hnever hs
    obtain ⟨acts,w,hrun,hused⟩ := demand_reached
    rw [← hused]
    exact run_keeps (P := fun w : Deliveries => w.store.used u ≤ limit s u) hnever hs hrun
  · intro hfit acts w a w' hrun hstep hle
    have hw := run_inv (u := u) hrun
    have hbefore := hw.bounds
    have hafter := (step_inv hw hstep).bounds
    have hsum := hfit (by omega)
    omega

def oneAccount : Storage :=
  { emptyServer with users := fun name => name = "ann@mail.example" }.init true

def bigMessage : Delivery := ⟨["ann@mail.example"],nodup_singleton _,fun _ => 10,590,0⟩

/-- Two messages that both fit are checked before the first one is committed. -/
theorem concurrent_deliveries_exceed :
    ¬ ∀ (isSerialization : Err → Bool) (s : Storage) (ds : List (Delivery × Bool)) (u : String),
      0 < limit s u → NeverExceeds isSerialization s ds u := by
  intro h
  have hnever := h (fun _ => false) oneAccount [(bigMessage,false),(bigMessage,false)]
    "ann@mail.example" (by decide +kernel)
  have hrun : ∃ w, run (Deliveries.step (fun _ => false))
      (.start oneAccount [(bigMessage,false),(bigMessage,false)])
      [.body 0 ["ann@mail.example"] (fun _ => {}) {},.body 1 ["ann@mail.example"] (fun _ => {}) {},
        .commit 0 false] = some w ∧ w.store.used "ann@mail.example" = 600 ∧
      ∃ w', w.step (fun _ => false) (.commit 1 false) = some w' ∧
        w'.store.used "ann@mail.example" = 1200 :=
    ⟨_,rfl,by decide +kernel,_,rfl,by decide +kernel⟩
  obtain ⟨w,hw,hbefore,w',hstep,hafter⟩ := hrun
  have hlimit : limit oneAccount "ann@mail.example" = 1000 := by decide +kernel
  have hle := hnever _ w _ w' hw hstep (by omega)
  omega

end Madmail.Proofs.QuotaRace
