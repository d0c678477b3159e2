import Madmail.Storage.QuotaCache

namespace Madmail.Proofs.QuotaDefault
open Quota Function

/-- What the cache is for: each user's own limit if they have one, and the default for the
others. -/
structure Limits where
  own : String → Option Int
  default : Int

namespace Limits

def of (l : Limits) (username : String) : Int := (l.own username).getD l.default

def apply (l : Limits) : Call → Limits
  | .load _ quotaMap defaultQuota =>
    ⟨fun username => (quotaMap username).filter (0 < ·),defaultQuota⟩
  | .setMax username maxBytes => { l with own := update l.own username (some maxBytes) }
  | .resetMax username | .invalidate username =>
    { l with own := update l.own username none }
  | .setDefaultQuota newDefault => { l with default := newDefault }
  | .updateUsed _ _ | .addUsed _ _ => l
  | .invalidateAll => { l with own := fun _ => none }

end Limits

def ownLimit (e : Entry) : Option Int := if e.isDefault then none else some e.maxBytes

def limits (c : Cache) : Limits where
  own username := (c.entries username).bind ownLimit
  default := c.defaultQuota

def Honest (defaultQuota : Int) (e : Entry) : Prop := e.isDefault = true → e.maxBytes = defaultQuota

def Inv (c : Cache) : Prop := ∀ username, ∀ e ∈ c.entries username, Honest c.defaultQuota e

variable {c : Cache}

theorem loadEntry_spec {max : Option Int} :
    (∀ e ∈ loadEntry used max d, Honest d e) ∧
      (loadEntry used max d).bind ownLimit = max.filter (0 < ·) := by
  cases max with
  | none => cases used <;> simp [loadEntry,Honest,ownLimit]
  | some max =>
    by_cases hmax : 0 < max
    · have hne : max ≠ 0 := by omega
      cases used <;> simp [loadEntry,Honest,ownLimit,Option.filter,hmax,hne]
    · cases used <;> simp [loadEntry,Honest,ownLimit,Option.filter,hmax]

theorem honest_entryOrDefault (h : Inv c) (username : String) :
    Honest c.defaultQuota (c.entryOrDefault username) := by
  unfold Cache.entryOrDefault
  cases he : c.entries username with
  | none => exact fun _ => rfl
  | some e => exact h username e he

theorem inv_update (h : Inv c) (username : String) (ho : ∀ e ∈ o, Honest c.defaultQuota e) :
    Inv { c with entries := update c.entries username o } :=
  (forall_update_iff c.entries fun _ o => ∀ e ∈ o, Honest c.defaultQuota e).mpr
    ⟨ho,fun name _ => h name⟩

theorem inv_set (h : Inv c) (he : Honest c.defaultQuota e) : Inv (c.set username e) :=
  inv_update h username fun _ he' => Option.some.inj he' ▸ he

theorem honest_newDefault (h : Honest d e) :
    Honest n (if e.isDefault ∧ e.maxBytes = d then { e with maxBytes := n } else e) := by
  intro hdefault
  split at hdefault
  · rename_i hboth
    rw [if_pos hboth]
  · rename_i hnot
    exact absurd ⟨hdefault,h hdefault⟩ hnot

theorem inv_apply (h : Inv c) (call : Call) : Inv (c.apply call) := by
  cases call with
  | load usedMap quotaMap d => exact fun name => loadEntry_spec.1
  | setMax username maxBytes => exact inv_set h nofun
  | resetMax username =>
    simp only [Cache.apply,Cache.resetMax]
    split
    · exact h
    · exact inv_set h fun _ => rfl
  | setDefaultQuota n =>
    intro name e he
    obtain ⟨e₀,he₀,rfl⟩ := Option.map_eq_some_iff.mp he
    exact honest_newDefault (h name e₀ he₀)
  | updateUsed username used | addUsed username delta =>
    exact inv_set h (honest_entryOrDefault h username)
  | invalidate username => exact inv_update h username nofun
  | invalidateAll => exact nofun

theorem inv_run (calls : List Call) : Inv (calls.foldl Cache.apply Cache.new) :=
  List.foldlRecOn calls Cache.apply nofun fun _ h call _ => inv_apply h call

theorem get_spec (h : Inv c) (username : String) :
    (c.get username).1.maxBytes = (limits c).of username ∧
      ((c.get username).1.isDefault = true ↔ (limits c).own username = none) := by
  simp only [Cache.get,Limits.of,limits]
  cases he : c.entries username with
  | none => simp
  | some e =>
    by_cases hd : e.isDefault = true
    · simp [ownLimit,hd,h username e he hd]
    · simp [ownLimit,hd]

theorem limits_update :
    limits { c with entries := update c.entries username o } =
      { limits c with own := update (limits c).own username (o.bind ownLimit) } := by
  simp only [limits,Limits.mk.injEq,and_true]
  funext name
  exact apply_update (fun _ o => o.bind ownLimit) c.entries username o name

theorem limits_set_same (h : ownLimit e = (limits c).own username) : limits (c.set username e) = limits c := by
  rw [Cache.set,limits_update,Option.bind_some,h,update_eq_self]

theorem ownLimit_entryOrDefault :
    ownLimit (c.entryOrDefault username) = (limits c).own username := by
  simp only [Cache.entryOrDefault,limits]
  cases c.entries username with
  | none => rfl
  | some e => rfl

theorem ownLimit_newDefault :
    ownLimit (if e.isDefault ∧ e.maxBytes = d then { e with maxBytes := n } else e) =
      ownLimit e := by
  by_cases hd : e.isDefault = true
  · split <;> simp [ownLimit,hd]
  · rw [if_neg fun h => hd h.1]

theorem limits_apply (c : Cache) (call : Call) : limits (c.apply call) = (limits c).apply call := by
  cases call with
  | load usedMap quotaMap d =>
    simp only [Cache.apply,Cache.load,limits,Limits.apply,Limits.mk.injEq,and_true]
    funext name
    exact loadEntry_spec.2
  | setMax username maxBytes | invalidate username => exact limits_update
  | resetMax username =>
    simp only [Cache.apply,Cache.resetMax,Limits.apply]
    cases he : c.entries username with
    | none =>
      have hown : (limits c).own username = none := by simp only [limits,he,Option.bind_none]
      rw [← hown,update_eq_self]
    | some e => exact limits_update
  | setDefaultQuota n =>
    simp only [Cache.apply,Cache.setDefaultQuota,limits,Limits.apply,Limits.mk.injEq,and_true]
    funext name
    rw [Option.bind_map]
    exact congrArg _ (funext fun e => ownLimit_newDefault)
  | updateUsed username used | addUsed username delta =>
    exact limits_set_same ownLimit_entryOrDefault
  | invalidateAll => rfl

theorem entries_apply (h : ¬ call.Concerns username) :
    (c.apply call).entries username = c.entries username := by
  cases call with
  | load | setDefaultQuota | invalidateAll => exact absurd trivial h
  | setMax name _ | updateUsed name _ | addUsed name _ | invalidate name =>
    exact update_of_ne (Ne.symm h) _ _
  | resetMax name =>
    simp only [Cache.apply,Cache.resetMax]
    split
    · rfl
    · exact update_of_ne (Ne.symm h) _ _

/-- The default is in all entries that come from it, a new one reaches exactly these users, and
other calls only change the entry of the user that they name. -/
theorem default_kept (calls : List Call) :
    let c := calls.foldl Cache.apply Cache.new
    (∀ username e, c.entries username = some e → e.isDefault = true → e.maxBytes = c.defaultQuota) ∧
    (∀ n username, ((c.setDefaultQuota n).get username).1.maxBytes =
      if (c.get username).1.isDefault then n else (c.get username).1.maxBytes) ∧
    ∀ call username, ¬ call.Concerns username →
      (c.apply call).entries username = c.entries username := by
  intro c
  have hinv : Inv c := inv_run calls
  refine ⟨hinv,fun n username => ?_,fun _ _ => entries_apply⟩
  have hafter := (get_spec (inv_apply hinv (.setDefaultQuota n)) username).1
  rw [limits_apply] at hafter
  obtain ⟨hlimit,hdefault⟩ := get_spec hinv username
  apply hafter.trans
  rw [hlimit]
  cases hown : (limits c).own username with
  | none =>
    rw [if_pos (hdefault.mpr hown)]
    simp [Limits.apply,Limits.of,hown]
  | some own =>
    rw [if_neg fun hd => by simp [hdefault.mp hd] at hown]
    simp [Limits.apply,Limits.of,hown]

end Madmail.Proofs.QuotaDefault
