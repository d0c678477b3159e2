import Madmail.Lib.Runs
import Madmail.Proofs.QuotaStore

namespace Madmail.Proofs.QuotaLimits
open Lib Quota Imapsql QuotaStore Function

/-- The documented resolution order: the custom limit of the user, the global
default of the database, the configured default. -/
def resolve (row : Option QuotaRow) (dflt : Int) : Int × Bool :=
  match row with
  | some row => if row.maxStorage ≠ 0 then (row.maxStorage,false) else (dflt,true)
  | none => (dflt,true)

def answer (entry : Option Entry) (row : Option QuotaRow) (dflt : Int) : Int × Bool :=
  match entry with
  | some e => (e.maxBytes,e.isDefault)
  | none =>
    match row with
    | some row => (row.maxStorage,false)
    | none => (dflt,true)

theorem getQuota_answer {s : Storage} :
    (s.getQuota {} u).2.map (fun r => (r.max,r.isDefault)) =
      some (answer (s.cache.entries u) (s.quotas u) (s.effectiveDefault {})) := by
  unfold Storage.getQuota Cache.get answer
  cases s.cache.entries u with
  | some e => rfl
  | none =>
    cases s.quotas u <;> rfl

def LimitsResolved (s : Storage) : Prop :=
  ∀ u : Username, (s.getQuota {} u).2.map (fun r => (r.max,r.isDefault)) =
    some (resolve (s.quotas u) (s.effectiveDefault {}))

def Agrees (entry : Option Entry) (row : Option QuotaRow) (dflt : Int) : Prop :=
  answer entry row dflt = resolve row dflt

theorem limitsResolved_iff (s : Storage) :
    LimitsResolved s ↔
      ∀ u : Username, Agrees (s.cache.entries u) (s.quotas u) (s.effectiveDefault {}) := by
  simp [LimitsResolved,getQuota_answer,Agrees]

theorem resolve_cases (row : Option QuotaRow) :
    (∃ m, ∀ dflt, resolve row dflt = (m,false)) ∨ ∀ dflt, resolve row dflt = (dflt,true) := by
  cases row with
  | none => exact Or.inr (fun _ => rfl)
  | some r =>
    by_cases h : r.maxStorage = 0
    · exact Or.inr (fun dflt => by simp [resolve,h])
    · exact Or.inl ⟨r.maxStorage,fun dflt => by simp [resolve,h]⟩

theorem agrees_uncached_row (r : QuotaRow) (dflt : Int) :
    Agrees none (some r) dflt ↔ r.maxStorage ≠ 0 := by
  by_cases h : r.maxStorage = 0 <;> simp [Agrees,answer,resolve,h]

section User
variable {s s' : Storage} {u : Username}

theorem one_user_iff (s' : Storage) (u : Username) (hs : LimitsResolved s)
    (hd : s'.effectiveDefault {} = s.effectiveDefault {})
    (hother : ∀ v : Username, v ≠ u →
      s'.cache.entries v = s.cache.entries v ∧ s'.quotas v = s.quotas v) :
    LimitsResolved s' ↔ Agrees (s'.cache.entries u) (s'.quotas u) (s.effectiveDefault {}) := by
  rw [limitsResolved_iff] at hs ⊢
  rw [hd]
  constructor
  · exact fun h => h u
  · intro h v
    by_cases hv : v = u
    · subst v; exact h
    · obtain ⟨he,hq⟩ := hother v hv
      rw [he,hq]
      exact hs v

theorem default_congr (hc : s'.defaultQuota = s.defaultQuota)
    (hq : s'.quotas globalDefault = s.quotas globalDefault) :
    s'.effectiveDefault {} = s.effectiveDefault {} := by
  simp only [Storage.effectiveDefault,hc,hq]

theorem val_ne (h : v ≠ u) : v.val ≠ u.val := fun he => h (Subtype.ext he)

end User

def DefaultInForce (s : Storage) : Prop := s.cache.defaultQuota = s.effectiveDefault {}

def Known (s : Storage) (u : String) : Prop := s.cache.entries u ≠ none ∨ s.quotas u ≠ none

/-- What an operation needs to keep the answers in line with the database. -/
def LimitOK (s : Storage) : Op → Prop
  | .createIMAPAcct u _ => s.users u = false → Known s u
  | .getOrCreateIMAPAcct u jitEnabled _ =>
      (if jitEnabled then s.blocked u = false else s.users u = true) → Known s u
  | .deleteAccount _ => True
  | .getQuota u => Known s u ∨ DefaultInForce s
  | .setQuota _ max _ => max ≠ 0
  | .resetQuota u =>
      if (s.cache.entries u).isNone then s.quotas u = none else DefaultInForce s
  | .setDefaultQuota max =>
      DefaultInForce s ∨ max = s.effectiveDefault {} ∨
        ∀ (u : Username) e, s.cache.entries u = some e → e.isDefault = false
  | .commit d => d.addedRcpts.all s.users = true → 0 < d.bodyLen →
      ∀ u : Username, u.val ∈ d.addedRcpts →
        s.cache.entries u ≠ none ∨ (s.quotas u = none ∧ DefaultInForce s)
  | .append _ _ _ | .expunge _ _ | .pruneMessages _ | .purgeIMAPMsgs _ | .purgeAllIMAPMsgs
  | .purgeReadIMAPMsgs | .pruneUnreadIMAPMsgs _ => True

section Step
variable {s : Storage} (hs : LimitsResolved s)
include hs

theorem ensureRow_resolved_iff (now : Int) (u : Username) :
    LimitsResolved (s.ensureRow {} now u) ↔ Known s u := by
  obtain ⟨_,hcache,hdef,hrows⟩ := ensureRow_frame s {} now u
  have hrow := ensureRow_row s now u
  obtain ⟨r,hr,hmax⟩ := Option.map_eq_some_iff.mp hrow
  rw [one_user_iff (s.ensureRow {} now u) u hs (default_congr hdef (hrows _ (Ne.symm u.property)))
    (fun v hv => ⟨by rw [hcache],hrows v (val_ne hv)⟩),hcache,hr]
  have hu := (limitsResolved_iff s).mp hs u
  unfold Known
  cases he : s.cache.entries u.val with
  | none =>
    rw [agrees_uncached_row,hmax]
    cases hq : s.quotas u.val with
    | none => simp
    | some row =>
      rw [he,hq,agrees_uncached_row] at hu
      simpa using hu
  | some e =>
    simp only [ne_eq,reduceCtorEq,not_false_eq_true,true_or,iff_true]
    rw [he] at hu
    -- The limit of the row is what it was, and zero counts as no limit.
    have hsame : resolve (some r) (s.effectiveDefault {}) =
        resolve (s.quotas u.val) (s.effectiveDefault {}) := by
      cases hq : s.quotas u.val with
      | none | some row => simp [resolve,hmax,hq]
    exact hu.trans hsame.symm

theorem addUser_resolved_iff (now : Int) (u : Username) :
    LimitsResolved ((s.addUser u).ensureRow {} now u) ↔ Known s u := by
  have hadd : LimitsResolved (s.addUser u) := by
    rw [limitsResolved_iff] at hs ⊢
    exact hs
  exact ensureRow_resolved_iff hadd now u

theorem createIMAPAcct_resolved_iff (now : Int) (u : Username) :
    LimitsResolved (s.createIMAPAcct {} now u u) ↔ (s.users u = false → Known s u) := by
  unfold Storage.createIMAPAcct
  cases hu : s.users u.val with
  | true => simp [hs]
  | false => simpa [hu] using addUser_resolved_iff hs now u

theorem getOrCreateIMAPAcct_resolved_iff (jit : Bool) (now : Int)
    (u : Username) : LimitsResolved (s.getOrCreateIMAPAcct {} jit now u u) ↔
      ((if jit then s.blocked u = false else s.users u = true) → Known s u) := by
  unfold Storage.getOrCreateIMAPAcct
  cases jit with
  | true =>
    cases hb : s.blocked u.val with
    | true => simp [hs]
    | false => simpa [hb] using addUser_resolved_iff hs now u
  | false =>
    cases hu : s.users u.val with
    | false => simp [hs]
    | true => simpa [hu] using ensureRow_resolved_iff hs now u

theorem deleteAccount_resolved (u : Username) : LimitsResolved (s.deleteAccount {} u u) := by
  obtain ⟨hcache,hquotas,hdef,_⟩ := deleteAccount_frame s
  have hd : (s.deleteAccount {} u u).effectiveDefault {} = s.effectiveDefault {} := by
    refine default_congr hdef ?_
    rw [hquotas,update_of_ne (Ne.symm u.property)]
  refine (one_user_iff _ u hs hd ?_).mpr ?_
  · intro v hv
    rw [hcache,hquotas]
    exact ⟨update_of_ne (val_ne hv) _ _,update_of_ne (val_ne hv) _ _⟩
  · rw [hcache,hquotas]
    simp [Cache.invalidate,Agrees,answer,resolve]

theorem getQuota_resolved_iff (u : Username) :
    LimitsResolved (s.getQuota {} u).1 ↔ Known s u ∨ DefaultInForce s := by
  have hu := (limitsResolved_iff s).mp hs u
  unfold Known
  cases he : s.cache.entries u.val with
  | some e => simp [Storage.getQuota,Cache.get,he,hs]
  | none =>
    rw [he] at hu
    cases hq : s.quotas u.val with
    | some row =>
      simp only [Storage.getQuota,Cache.get,he,hq,Bool.false_eq_true,↓reduceIte]
      refine iff_of_true ?_ (by simp)
      refine (one_user_iff _ u hs ?_ ?_).mpr ?_
      · rfl
      · intro v hv
        exact ⟨(updateUsed_other (val_ne hv)).trans (setMax_other (val_ne hv)),rfl⟩
      · rw [hq,agrees_uncached_row] at hu
        simp [Cache.updateUsed,Cache.entryOrDefault,Cache.setMax,Agrees,answer,resolve,hq,hu]
    | none =>
      simp only [Storage.getQuota,Cache.get,he,hq,Bool.false_eq_true,↓reduceIte,ne_eq,
        not_true_eq_false,or_self,false_or]
      rw [one_user_iff { s with cache := s.cache.updateUsed u (s.used u) } u hs rfl
        (fun v hv => ⟨updateUsed_other (val_ne hv),rfl⟩)]
      simp [Cache.updateUsed,Cache.entryOrDefault,he,Agrees,answer,resolve,hq,DefaultInForce]

theorem setQuota_resolved_iff (now : Int) (u : Username) (max : Int) :
    LimitsResolved (s.setQuota {} now u max) ↔ max ≠ 0 := by
  have hrow : ∃ row : QuotaRow, row.maxStorage = max ∧
      (s.setQuota {} now u max).quotas = update s.quotas u (some row) := by
    simp only [Storage.setQuota,Bool.false_eq_true,or_self,↓reduceIte]
    cases s.quotas u.val with
    | none => exact ⟨_,rfl,rfl⟩
    | some row => exact ⟨{ row with maxStorage := max },rfl,rfl⟩
  obtain ⟨row,hmax,hquotas⟩ := hrow
  have hcache : (s.setQuota {} now u max).cache = s.cache.setMax u max := rfl
  have hd : (s.setQuota {} now u max).effectiveDefault {} = s.effectiveDefault {} := by
    refine default_congr rfl ?_
    rw [hquotas,update_of_ne (Ne.symm u.property)]
  rw [one_user_iff _ u hs hd ?_,hcache,hquotas]
  · by_cases h : max = 0 <;> simp [Cache.setMax,Agrees,answer,resolve,hmax,h]
  · intro v hv
    rw [hcache,hquotas]
    exact ⟨setMax_other (val_ne hv),update_of_ne (val_ne hv) _ _⟩

theorem resetQuota_resolved_iff (u : Username) :
    LimitsResolved (s.resetQuota {} u) ↔
      if (s.cache.entries u).isNone then s.quotas u = none else DefaultInForce s := by
  have hcache : (s.resetQuota {} u).cache = s.cache.resetMax u := rfl
  have hother (v : String) (hv : v ≠ u.val) : (s.resetQuota {} u).quotas v = s.quotas v := by
    simp only [Storage.resetQuota,Bool.false_eq_true,↓reduceIte]
    cases s.quotas u.val with
    | none => rfl
    | some row => exact update_of_ne hv _ _
  have hself : (s.resetQuota {} u).quotas u =
      (s.quotas u).map (fun row => { row with maxStorage := 0 }) := by
    simp only [Storage.resetQuota,Bool.false_eq_true,↓reduceIte]
    cases hq : s.quotas u.val with
    | none => simp [hq]
    | some row => simp
  have hresolve : resolve ((s.resetQuota {} u).quotas u) (s.effectiveDefault {}) =
      (s.effectiveDefault {},true) := by
    rw [hself]
    cases s.quotas u.val <;> simp [resolve]
  have hd : (s.resetQuota {} u).effectiveDefault {} = s.effectiveDefault {} :=
    default_congr rfl (hother _ (Ne.symm u.property))
  rw [one_user_iff _ u hs hd
    (fun v hv => ⟨by rw [hcache]; exact resetMax_other (val_ne hv),hother v (val_ne hv)⟩)]
  rw [Agrees,hresolve,hcache,resetMax_self,hself]
  cases s.cache.entries u.val with
  | none => cases s.quotas u.val <;> simp [answer]
  | some e => simp [answer,DefaultInForce]

theorem setDefaultQuota_agrees_iff (max : Int) (u : Username) :
    Agrees ((s.setDefaultQuota {} max).cache.entries u) (s.quotas u) max ↔
      ∀ e, s.cache.entries u = some e → e.isDefault = true →
        DefaultInForce s ∨ max = s.effectiveDefault {} := by
  have hu := (limitsResolved_iff s).mp hs u
  change Agrees ((s.cache.entries u).map _) _ _ ↔ _
  cases he : s.cache.entries u.val with
  | none =>
    rw [he] at hu
    cases hq : s.quotas u.val with
    | none => simp [Agrees,answer,resolve]
    | some row =>
      rw [hq,agrees_uncached_row] at hu
      simp [Agrees,answer,resolve,hu]
  | some e =>
    rw [he] at hu
    simp only [Option.map_some,Option.some.injEq,forall_eq',DefaultInForce]
    rcases resolve_cases (s.quotas u.val) with ⟨m,hm⟩ | hm
    · have hentry : (e.maxBytes,e.isDefault) = (m,false) := hu.trans (hm _)
      simp only [Prod.mk.injEq] at hentry
      simp [Agrees,answer,hm,hentry]
    · have hentry : (e.maxBytes,e.isDefault) = (s.effectiveDefault {},true) := hu.trans (hm _)
      simp only [Prod.mk.injEq] at hentry
      by_cases hsame : s.effectiveDefault {} = s.cache.defaultQuota
      · simp [Agrees,answer,hm,hentry,hsame]
      · simp [Agrees,answer,hm,hentry,hsame,Ne.symm hsame,eq_comm]

theorem setDefaultQuota_resolved_iff {max : Int} :
    LimitsResolved (s.setDefaultQuota {} max) ↔ LimitOK s (.setDefaultQuota max) := by
  have hquotas (u : Username) : (s.setDefaultQuota {} max).quotas u = s.quotas u :=
    update_of_ne u.property _ _
  have hd : (s.setDefaultQuota {} max).effectiveDefault {} = max := by
    simp [Storage.effectiveDefault,Storage.setDefaultQuota,Storage.putRow]
  rw [limitsResolved_iff,hd]
  simp only [hquotas,setDefaultQuota_agrees_iff hs]
  constructor
  · intro h
    by_cases hx : DefaultInForce s ∨ max = s.effectiveDefault {}
    · exact hx.imp_right Or.inl
    · refine Or.inr (Or.inr ?_)
      intro u e he
      simpa using fun hdef => hx (h u e he hdef)
  · rintro (h | h | h) u e he hdef
    · exact Or.inl h
    · exact Or.inr h
    · rw [h u e he] at hdef
      cases hdef

theorem addUsed_agrees_iff (u : Username) (used : Int) :
    Agrees (some { s.cache.entryOrDefault u with usedBytes := used }) (s.quotas u)
      (s.effectiveDefault {}) ↔
    s.cache.entries u ≠ none ∨ (s.quotas u = none ∧ DefaultInForce s) := by
  have hu := (limitsResolved_iff s).mp hs u
  cases he : s.cache.entries u.val with
  | some e =>
    have hentry : s.cache.entryOrDefault u = e := by simp [Cache.entryOrDefault,he]
    rw [he] at hu
    rw [hentry]
    exact iff_of_true hu (by simp)
  | none =>
    have hentry : s.cache.entryOrDefault u = ⟨0,s.cache.defaultQuota,true⟩ := by
      simp [Cache.entryOrDefault,he]
    rw [he] at hu
    rw [hentry]
    cases hq : s.quotas u.val with
    | none => simp [Agrees,answer,resolve,DefaultInForce]
    | some r =>
      rw [hq,agrees_uncached_row] at hu
      simp [Agrees,answer,resolve,hu]

theorem commit_resolved_iff (d : Delivery) :
    LimitsResolved (s.commit d) ↔ LimitOK s (.commit d) := by
  unfold Storage.commit LimitOK
  by_cases hall : d.addedRcpts.all s.users = true
  · simp only [hall,Bool.not_true,Bool.false_eq_true,↓reduceIte,forall_const]
    obtain ⟨_,_,hadd⟩ := addMsgs_frame d.addedRcpts s
      (fun rcpt => d.headerLen rcpt + d.bodyLen) d.date
    have hcache := congrArg Storage.cache hadd
    have hquotas := congrArg Storage.quotas hadd
    have hdef := congrArg Storage.defaultQuota hadd
    generalize d.addedRcpts.foldl
      (fun s rcpt => s.addMsg rcpt (d.headerLen rcpt + d.bodyLen) d.date) s = t
      at hcache hquotas hdef ⊢
    have hd : t.effectiveDefault {} = s.effectiveDefault {} :=
      default_congr hdef (by rw [hquotas])
    by_cases hb : 0 < d.bodyLen
    · simp only [hb,↓reduceIte,forall_const]
      rw [limitsResolved_iff]
      apply forall_congr'
      intro u
      change Agrees ((d.addedRcpts.foldl (fun c rcpt => c.addUsed rcpt d.bodyLen) t.cache).entries u)
        (t.quotas u) (t.effectiveDefault {}) ↔ _
      rw [hd,hquotas,hcache,addUsed_fold d.nodup]
      have hu := (limitsResolved_iff s).mp hs u
      by_cases hmem : u.val ∈ d.addedRcpts
      · simp only [hmem,↓reduceIte,forall_const,addUsed_self]
        exact addUsed_agrees_iff hs u _
      · simp only [hmem,↓reduceIte,false_implies,iff_true]
        exact hu
    · simp only [hb,↓reduceIte,false_implies,iff_true]
      rw [limitsResolved_iff,hd,hquotas,hcache]
      exact (limitsResolved_iff s).mp hs
  · simpa [hall] using hs

theorem kept_resolved (hc : s'.cache = s.cache)
    (hq : s'.quotas = s.quotas) (hd : s'.defaultQuota = s.defaultQuota) : LimitsResolved s' := by
  have hdefault : s'.effectiveDefault {} = s.effectiveDefault {} :=
    default_congr hd (by rw [hq])
  rw [limitsResolved_iff,hdefault,hq,hc]
  exact (limitsResolved_iff s).mp hs

theorem append_resolved : LimitsResolved (s.append u len date) := by
  unfold Storage.append
  split
  · exact kept_resolved hs rfl rfl rfl
  · exact hs

theorem deleteMsgs_resolved : LimitsResolved (s.deleteMsgs which) :=
  kept_resolved hs rfl rfl rfl

/-- One operation keeps the answers in line under its condition only. -/
theorem step_resolved_iff : LimitsResolved (s.step op) ↔ LimitOK s op := by
  cases op with
  | createIMAPAcct u now => exact createIMAPAcct_resolved_iff hs now u
  | getOrCreateIMAPAcct u jit now => exact getOrCreateIMAPAcct_resolved_iff hs jit now u
  | deleteAccount u => exact iff_of_true (deleteAccount_resolved hs u) trivial
  | getQuota u => exact getQuota_resolved_iff hs u
  | setQuota u max now => exact setQuota_resolved_iff hs now u max
  | resetQuota u => exact resetQuota_resolved_iff hs u
  | setDefaultQuota max => exact setDefaultQuota_resolved_iff hs
  | commit d => exact commit_resolved_iff hs d
  | append u len date => exact iff_of_true (append_resolved hs) trivial
  | expunge u ids | pruneMessages cutoff | purgeIMAPMsgs u | purgeAllIMAPMsgs | purgeReadIMAPMsgs
  | pruneUnreadIMAPMsgs cutoff =>
    exact iff_of_true (deleteMsgs_resolved hs) trivial

end Step

/-- What the database has to be like when the server starts: no negative limits
if the cache gets loaded, no rows without a limit if it does not. -/
def StartOK (s : Storage) (loaded : Bool) : Prop :=
  ∀ (u : Username) (row : QuotaRow), s.quotas u = some row →
    if loaded then 0 ≤ row.maxStorage else row.maxStorage ≠ 0

theorem loadEntry_agrees_iff :
    Agrees (loadEntry used (row.map QuotaRow.maxStorage) dflt) row dflt ↔
      ∀ r, row = some r → 0 ≤ r.maxStorage := by
  cases row with
  | none => cases used <;> simp [loadEntry,Agrees,answer,resolve]
  | some r =>
    rcases Int.lt_trichotomy r.maxStorage 0 with h | h | h
    · have hneg : ¬ r.maxStorage > 0 := by omega
      have hne : r.maxStorage ≠ 0 := by omega
      have hle : ¬ 0 ≤ r.maxStorage := by omega
      cases used <;> simp [loadEntry,Agrees,answer,resolve,hneg,hne,hle]
    · cases used <;> simp [loadEntry,Agrees,answer,resolve,h]
    · have hne : r.maxStorage ≠ 0 := by omega
      have hle : 0 ≤ r.maxStorage := by omega
      cases used <;> simp [loadEntry,Agrees,answer,resolve,h,hne,hle]

theorem init_resolved_iff : LimitsResolved (s.init loaded) ↔ StartOK s loaded := by
  rw [limitsResolved_iff]
  apply forall_congr'
  intro u
  cases loaded with
  | true =>
    have hmap : s.quotaMap u.val = (s.quotas u.val).map QuotaRow.maxStorage :=
      if_neg u.property
    change Agrees (loadEntry (s.usedMap u.val) (s.quotaMap u.val) (s.effectiveDefault {}))
      (s.quotas u.val) (s.effectiveDefault {}) ↔ _
    rw [hmap,loadEntry_agrees_iff]
    simp
  | false =>
    change Agrees none (s.quotas u.val) (s.effectiveDefault {}) ↔ _
    cases hq : s.quotas u.val with
    | none => simp [Agrees,answer,resolve]
    | some r => simp [agrees_uncached_row]

/-- `GetQuota` follows the documented resolution order throughout a run exactly
when the start and every operation of the run meet their conditions. -/
theorem limits_resolved_iff (s : Storage) (loaded : Bool) (ops : List Op) :
    (∀ t ∈ visited Storage.step (s.init loaded) ops, LimitsResolved t) ↔
      StartOK s loaded ∧ Guarded Storage.step LimitOK (s.init loaded) ops := by
  by_cases hstart : LimitsResolved (s.init loaded)
  · have hrun : (∀ t ∈ visited Storage.step (s.init loaded) ops, LimitsResolved t) ↔
        Guarded Storage.step LimitOK (s.init loaded) ops :=
      visited_iff_guarded (fun _ op ht => step_resolved_iff ht) hstart
    rw [hrun]
    simp [init_resolved_iff.mp hstart]
  · have hno : ¬ StartOK s loaded := fun h => hstart (init_resolved_iff.mpr h)
    simp only [hno,false_and,iff_false]
    intro h
    exact hstart (h _ (by cases ops <;> simp [visited]))

theorem new_account_unlimited :
    ¬ ∀ (s : Storage) (loaded : Bool) (ops : List Op),
      ∀ t ∈ visited Storage.step (s.init loaded) ops, LimitsResolved t := by
  intro h
  have hlimit := h emptyServer true [.createIMAPAcct ann 0]
    ((emptyServer.init true).step (.createIMAPAcct ann 0)) (by simp [visited]) ann
  exact absurd hlimit (by decide)

end Madmail.Proofs.QuotaLimits
