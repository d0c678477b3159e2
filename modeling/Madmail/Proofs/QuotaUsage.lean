import Madmail.Lib.Runs
import Madmail.Proofs.QuotaStore
import Mathlib.Algebra.BigOperators.Group.List.Basic

namespace Madmail.Proofs.QuotaUsage
open Lib Quota Imapsql QuotaStore List

def UsageExact (s : Storage) : Prop :=
  ∀ u e, s.cache.entries u = some e → e.usedBytes = s.used u

section Sums

theorem sumBodyLen_append : sumBodyLen (xs ++ ys) u = sumBodyLen xs u + sumBodyLen ys u := by
  simp [sumBodyLen]

theorem sumBodyLen_cons (m : Msg) (ms : List Msg) (u : String) :
    sumBodyLen (m :: ms) u = (if m.account = u then (m.bodyLen : Int) else 0) + sumBodyLen ms u := by
  by_cases h : m.account = u <;> simp [sumBodyLen,h]

theorem sumBodyLen_nonneg : 0 ≤ sumBodyLen ms u := by
  induction ms with
  | nil => simp [sumBodyLen]
  | cons m ms ih =>
    rw [sumBodyLen_cons]
    split <;> omega

/-- Deleting messages keeps the sum of a user exactly when those of them that
go are empty. -/
theorem sumBodyLen_filter_iff {which : Msg → Bool} :
    sumBodyLen (ms.filter (fun m => !which m)) u ≤ sumBodyLen ms u ∧
      (sumBodyLen (ms.filter (fun m => !which m)) u = sumBodyLen ms u ↔
        ∀ m ∈ ms, which m = true → m.account = u → m.bodyLen = 0) := by
  induction ms with
  | nil => simp
  | cons m ms ih =>
    obtain ⟨hle,hiff⟩ := ih
    rw [sumBodyLen_cons]
    cases hw : which m with
    | false =>
      simp only [filter_cons,hw,Bool.not_false,↓reduceIte,sumBodyLen_cons,
        forall_mem_cons,Bool.false_eq_true,false_implies,true_and]
      exact ⟨by omega,by rw [← hiff]; constructor <;> intro h <;> omega⟩
    | true =>
      simp only [filter_cons,hw,Bool.not_true,Bool.false_eq_true,↓reduceIte,
        forall_mem_cons,forall_const,← hiff]
      by_cases hu : m.account = u
      · simp only [hu,↓reduceIte,forall_const]
        omega
      · simp only [hu,↓reduceIte,false_implies,true_and]
        omega

end Sums

section Commit
variable {rcpts : List String} {rcpt u : String}

theorem used_addMsg {s : Storage} :
    (s.addMsg rcpt len date).used u = s.used u + if rcpt = u then (len : Int) else 0 := by
  simp only [Storage.used,Storage.addMsg,sumBodyLen_append,sumBodyLen_cons]
  simp [sumBodyLen]

theorem used_addMsgs (hn : rcpts.Nodup) (s : Storage) (len : String → Nat) (date : Int)
    (u : String) :
    (rcpts.foldl (fun s rcpt => s.addMsg rcpt (len rcpt) date) s).used u =
      s.used u + if u ∈ rcpts then (len u : Int) else 0 := by
  induction rcpts generalizing s with
  | nil => simp
  | cons rcpt rest ih =>
    obtain ⟨hnot,hrest⟩ := nodup_cons.mp hn
    rw [foldl_cons,ih hrest,used_addMsg]
    by_cases h : rcpt = u
    · subst rcpt
      simp [hnot]
    · have h' : u ≠ rcpt := Ne.symm h
      simp [h,h']

end Commit

/-- The messages that go are empty, unless their account is not cached. -/
def Weightless (s : Storage) (which : Msg → Bool) : Prop :=
  ∀ m ∈ s.msgs, which m = true → s.cache.entries m.account ≠ none → m.bodyLen = 0

/-- What an operation needs to keep the cached usage exact. -/
def UsageOK (s : Storage) : Op → Prop
  | .createIMAPAcct _ _ | .getOrCreateIMAPAcct _ _ _ | .deleteAccount _ | .getQuota _
  | .resetQuota _ | .setDefaultQuota _ => True
  | .setQuota u _ _ => s.cache.entries u ≠ none ∨ s.used u = 0
  | .commit d => d.addedRcpts.all s.users = true → ∀ u ∈ d.addedRcpts,
      match s.cache.entries u with
      | none => d.bodyLen = 0 ∨ (d.headerLen u = 0 ∧ s.used u = 0)
      | some _ => d.headerLen u = 0
  | .append u bodyLen _ => s.users u = true → s.cache.entries u ≠ none → bodyLen = 0
  | .expunge u ids => Weightless s (fun m => m.account = u ∧ m.id ∈ ids)
  | .pruneMessages cutoff => Weightless s (fun m => m.date < cutoff)
  | .purgeIMAPMsgs u => Weightless s (fun m => m.account = u)
  | .purgeAllIMAPMsgs => Weightless s (fun _ => true)
  | .purgeReadIMAPMsgs => Weightless s (fun m => m.seen)
  | .pruneUnreadIMAPMsgs cutoff => Weightless s (fun m => !m.seen ∧ m.date < cutoff)

section Step
variable {s : Storage} (hs : UsageExact s)
include hs

theorem deleteMsgs_exact_iff : UsageExact (s.deleteMsgs which) ↔ Weightless s which := by
  have hsame (u : String) (e : Entry) (he : s.cache.entries u = some e) :
      e.usedBytes = (s.deleteMsgs which).used u ↔
        ∀ m ∈ s.msgs, which m = true → m.account = u → m.bodyLen = 0 := by
    rw [hs u e he,eq_comm]
    exact sumBodyLen_filter_iff.2
  constructor
  · intro h m hm hw hc
    obtain ⟨e,he⟩ := Option.ne_none_iff_exists'.mp hc
    exact (hsame m.account e he).mp (h m.account e he) m hm hw rfl
  · intro h u e he
    apply (hsame u e he).mpr
    intro m hm hw hu
    have hc : s.cache.entries m.account = some e := hu ▸ he
    exact h m hm hw (by simp [hc])

theorem set_exact_iff (c : Cache) (u : String) (e : Entry)
    (hm : s'.msgs = s.msgs) (hc : s'.cache = c.set u e)
    (hother : ∀ v, v ≠ u → c.entries v = s.cache.entries v) :
    UsageExact s' ↔ e.usedBytes = s.used u := by
  have hused (v : String) : s'.used v = s.used v := by simp only [Storage.used,hm]
  have hself : s'.cache.entries u = some e := by rw [hc,set_self]
  constructor
  · intro h
    rw [← hused]
    exact h u e hself
  · intro h v e' he'
    rw [hused]
    by_cases hv : v = u
    · subst v
      rw [hself] at he'
      cases he'
      exact h
    · rw [hc,set_other hv,hother v hv] at he'
      exact hs v e' he'

theorem exact_of_kept (hm : s'.msgs = s.msgs)
    (hc : ∀ u e', s'.cache.entries u = some e' →
      ∃ e, s.cache.entries u = some e ∧ e'.usedBytes = e.usedBytes) : UsageExact s' := by
  intro u e' he'
  obtain ⟨e,he,hused⟩ := hc u e' he'
  rw [hused,hs u e he,Storage.used,Storage.used,hm]

theorem ensureRow_exact (f : Faults) (now : Int) (u : String) :
    UsageExact (s.ensureRow f now u) := by
  obtain ⟨hm,hc,_⟩ := ensureRow_frame s f now u
  exact exact_of_kept hs hm (fun v e he => ⟨e,hc ▸ he,rfl⟩)

theorem createIMAPAcct_exact : UsageExact (s.createIMAPAcct f now u a) := by
  unfold Storage.createIMAPAcct
  split
  · exact hs
  · exact @ensureRow_exact (s.addUser a) hs f now u

theorem getOrCreateIMAPAcct_exact : UsageExact (s.getOrCreateIMAPAcct f jit now u a) := by
  unfold Storage.getOrCreateIMAPAcct
  split
  · split
    · exact hs
    · exact @ensureRow_exact (s.addUser a) hs f now u
  · split
    · exact hs
    · exact ensureRow_exact hs f now u

theorem deleteAccount_exact : UsageExact (s.deleteAccount {} u u) := by
  obtain ⟨hcache,_,_,hmsgs⟩ := deleteAccount_frame s
  intro v e he
  rw [hcache] at he
  by_cases hv : v = u
  · subst v
    simp [Cache.invalidate] at he
  · simp only [Cache.invalidate,Function.update_of_ne hv] at he
    rw [hs v e he,Storage.used,Storage.used]
    rcases hmsgs with h | h
    · rw [h]
    · rw [h]
      symm
      apply sumBodyLen_filter_iff.2.mpr
      intro m _ hu hv'
      have hu' : m.account = u := by simpa using hu
      exact absurd (hv'.symm.trans hu') hv

theorem updateUsed_exact {c : Cache} (hm : s'.msgs = s.msgs)
    (hc : s'.cache = c.updateUsed u (s.used u))
    (hother : ∀ v, v ≠ u → c.entries v = s.cache.entries v) : UsageExact s' :=
  (set_exact_iff hs c u { c.entryOrDefault u with usedBytes := s.used u } hm hc hother).mpr rfl

theorem getQuota_exact : UsageExact (s.getQuota {} u).1 := by
  unfold Storage.getQuota Cache.get
  cases he : s.cache.entries u with
  | some e => exact hs
  | none =>
    simp only [Bool.false_eq_true,↓reduceIte]
    cases hq : s.quotas u with
    | some row => exact updateUsed_exact hs rfl rfl (fun v hv => setMax_other hv)
    | none => exact updateUsed_exact hs rfl rfl (fun v hv => rfl)

theorem resetQuota_exact : UsageExact (s.resetQuota {} u) := by
  refine exact_of_kept hs rfl ?_
  intro v e' he'
  change (s.cache.resetMax u).entries v = some e' at he'
  by_cases hv : v = u
  · subst v
    rw [resetMax_self] at he'
    obtain ⟨e,he,heq⟩ := Option.map_eq_some_iff.mp he'
    exact ⟨e,he,by rw [← heq]⟩
  · rw [resetMax_other hv] at he'
    exact ⟨e',he',rfl⟩

theorem setDefaultQuota_exact {max : Int} : UsageExact (s.setDefaultQuota {} max) := by
  refine exact_of_kept hs rfl ?_
  intro v e' he'
  obtain ⟨e,he,heq⟩ := Option.map_eq_some_iff.mp he'
  refine ⟨e,he,?_⟩
  rw [← heq]
  split <;> rfl

theorem setQuota_exact_iff {max : Int} :
    UsageExact (s.setQuota {} now u max) ↔ s.cache.entries u ≠ none ∨ s.used u = 0 := by
  have hset : UsageExact (s.setQuota {} now u max) ↔
      ((s.cache.entries u).getD {}).usedBytes = s.used u :=
    set_exact_iff hs s.cache u { (s.cache.entries u).getD {} with maxBytes := max, isDefault := false }
      rfl rfl (fun _ _ => rfl)
  rw [hset]
  cases he : s.cache.entries u with
  | none => simp [eq_comm]
  | some e => simpa using hs u e he

theorem append_exact_iff :
    UsageExact (s.append u len date) ↔ (s.users u = true → s.cache.entries u ≠ none → len = 0) := by
  unfold Storage.append
  split
  · rename_i hu
    constructor
    · intro h _ hc
      obtain ⟨e,he⟩ := Option.ne_none_iff_exists'.mp hc
      have hnew := h u e he
      rw [used_addMsg,hs u e he] at hnew
      simpa using hnew
    · intro h v e he
      rw [used_addMsg,hs v e he]
      by_cases hv : u = v
      · subst v
        have hc : s.cache.entries u = some e := he
        have hlen : len = 0 := h hu (by simp [hc])
        simp [hlen]
      · simp [hv]
  · rename_i hu
    simp [hu,hs]

theorem addUsed_exact_iff {body : Nat} (hb : 0 < body) :
    (∀ e, (s.cache.addUsed u body).entries u = some e →
      e.usedBytes = s.used u + ((header + body : Nat) : Int)) ↔
    match s.cache.entries u with
    | none => body = 0 ∨ (header = 0 ∧ s.used u = 0)
    | some _ => header = 0 := by
  have hnonneg : 0 ≤ s.used u := sumBodyLen_nonneg
  rw [addUsed_self]
  cases he : s.cache.entries u with
  | none =>
    have hentry : s.cache.entryOrDefault u = ⟨0,s.cache.defaultQuota,true⟩ := by
      simp [Cache.entryOrDefault,he]
    simp only [hentry,Option.some.injEq,forall_eq',Int.zero_add]
    rw [if_neg (by omega)]
    omega
  | some e =>
    have hentry : s.cache.entryOrDefault u = e := by simp [Cache.entryOrDefault,he]
    have hused := hs u e he
    simp only [hentry,Option.some.injEq,forall_eq']
    rw [if_neg (by omega)]
    omega

theorem commit_exact_iff : UsageExact (s.commit d) ↔ UsageOK s (.commit d) := by
  unfold Storage.commit UsageOK
  by_cases hall : d.addedRcpts.all s.users = true
  · simp only [hall,Bool.not_true,Bool.false_eq_true,↓reduceIte,forall_const]
    obtain ⟨_,_,hadd⟩ := addMsgs_frame d.addedRcpts s
      (fun rcpt => d.headerLen rcpt + d.bodyLen) d.date
    have hcache := congrArg Storage.cache hadd
    have hused := used_addMsgs d.nodup s (fun rcpt => d.headerLen rcpt + d.bodyLen) d.date
    generalize d.addedRcpts.foldl
      (fun s rcpt => s.addMsg rcpt (d.headerLen rcpt + d.bodyLen) d.date) s = t at hcache hused ⊢
    by_cases hb : 0 < d.bodyLen
    · rw [if_pos hb]
      apply forall_congr'
      intro u
      change (∀ e, (d.addedRcpts.foldl (fun c rcpt => c.addUsed rcpt d.bodyLen) t.cache).entries u =
        some e → e.usedBytes = t.used u) ↔ _
      rw [hused,addUsed_fold d.nodup,hcache]
      by_cases hu : u ∈ d.addedRcpts
      · simp only [hu,↓reduceIte,forall_const]
        exact addUsed_exact_iff hs hb
      · simp only [hu,↓reduceIte,false_implies,iff_true,Int.add_zero]
        exact fun e he => hs u e he
    · rw [if_neg hb]
      have hzero : d.bodyLen = 0 := by omega
      apply forall_congr'
      intro u
      rw [hused,hcache]
      by_cases hu : u ∈ d.addedRcpts
      · simp only [hu,hzero,↓reduceIte,forall_const,Nat.add_zero,true_or]
        cases he : s.cache.entries u with
        | none => simp
        | some e =>
          have hused := hs u e he
          simp only [Option.some.injEq,forall_eq']
          omega
      · simp only [hu,↓reduceIte,false_implies,iff_true,Int.add_zero]
        exact fun e he => hs u e he
  · simpa [hall] using hs

/-- One operation keeps the cached usage exact under its condition only. -/
theorem step_exact_iff : UsageExact (s.step op) ↔ UsageOK s op := by
  cases op with
  | createIMAPAcct u now => exact iff_of_true (createIMAPAcct_exact hs) trivial
  | getOrCreateIMAPAcct u jit now =>
    exact iff_of_true (getOrCreateIMAPAcct_exact hs) trivial
  | deleteAccount u => exact iff_of_true (deleteAccount_exact hs) trivial
  | getQuota u => exact iff_of_true (getQuota_exact hs) trivial
  | resetQuota u => exact iff_of_true (resetQuota_exact hs) trivial
  | setDefaultQuota max => exact iff_of_true (setDefaultQuota_exact hs) trivial
  | setQuota u max now => exact setQuota_exact_iff hs
  | commit d => exact commit_exact_iff hs
  | append u len date => exact append_exact_iff hs
  | expunge u ids | pruneMessages cutoff | purgeIMAPMsgs u | purgeAllIMAPMsgs | purgeReadIMAPMsgs
  | pruneUnreadIMAPMsgs cutoff =>
    exact deleteMsgs_exact_iff hs

end Step

theorem loadEntry_used {max : Option Int} (h : loadEntry used max dq = some e) :
    e.usedBytes = used.getD 0 := by
  obtain ⟨e',he',rfl⟩ := Option.map_eq_some_iff.mp h
  have hused : e'.usedBytes = used.getD 0 := by
    cases max with
    | none =>
      obtain ⟨n,hn,rfl⟩ := Option.map_eq_some_iff.mp he'
      simp [hn]
    | some m =>
      simp only [Option.some.injEq] at he'
      subst e'
      cases used <;> split <;> rfl
  split <;> exact hused

theorem init_exact (s : Storage) (loaded : Bool) : UsageExact (s.init loaded) := by
  cases loaded with
  | false => intro u e he; cases he
  | true =>
    intro u e he
    change loadEntry (s.usedMap u) (s.quotaMap u) _ = some e at he
    change e.usedBytes = s.used u
    have hnone (h : ¬ s.msgs.any (fun m => m.account = u) = true) : s.used u = 0 := by
      have hfilter : s.msgs.filter (fun m => m.account = u) = [] := by
        simpa [filter_eq_nil_iff] using h
      simp [Storage.used,sumBodyLen,hfilter]
    have hentry : e.usedBytes = (s.usedMap u).getD 0 := loadEntry_used he
    rw [hentry,Storage.usedMap]
    split
    · rfl
    · rename_i h
      rw [hnone h]
      split <;> rfl

/-- The cached usage is exact throughout a run exactly when every operation of
the run meets its condition. -/
theorem usage_exact_iff (s : Storage) (loaded : Bool) (ops : List Op) :
    (∀ t ∈ visited Storage.step (s.init loaded) ops, UsageExact t) ↔
      Guarded Storage.step UsageOK (s.init loaded) ops :=
  visited_iff_guarded (fun _ _ ht => step_exact_iff ht) (init_exact s loaded)

def smallMessage : Delivery := ⟨["ann@mail.example"],by decide,fun _ => 40,5,0⟩

theorem cached_usage_drifts :
    ¬ ∀ (s : Storage) (loaded : Bool) (ops : List Op),
      ∀ t ∈ visited Storage.step (s.init loaded) ops, UsageExact t := by
  intro h
  have hdrift := h emptyServer true [.createIMAPAcct ann 0,.getQuota ann,.commit smallMessage]
    ((((emptyServer.init true).step (.createIMAPAcct ann 0)).step (.getQuota ann)).step
      (.commit smallMessage)) (by simp [visited]) ann ⟨5,0,false⟩ (by decide)
  exact absurd hdrift (by decide)

end Madmail.Proofs.QuotaUsage
