import Madmail.Smtpconn.Pool

namespace Madmail.Proofs.RecentConns
open Pool Lib

variable {κ : Type} {m : Conn κ} {cfg : Config} {p : P κ} {key key' : String} {now : Int}
  {bucket : Slot κ} {conn : κ} {conns : List κ}

inductive Call (κ : Type) where
  | get (key : String) (now : Int)
  | returnConn (key : String) (conn : κ) (now : Int)
  | cleanUp (now : Int)

namespace Call

def clock : Call κ → Int
  | get _ now | returnConn _ _ now | cleanUp now => now

def gets (key : String) : Call κ → Prop
  | get key' _ => key' = key
  | _ => False

def make (m : Conn κ) (cfg : Config) (p : P κ) : Call κ → P κ
  | get key now => (p.get m cfg now key).1
  | returnConn key conn now => p.returnConn cfg now key conn
  | cleanUp now => p.cleanUp cfg now

end Call

section Lookups

theorem slots_remove :
    (p.remove drop).slots = p.slots.filter (fun entry => !drop entry.1 entry.2) := by
  unfold P.remove
  rw [P.slots_map rfl]

theorem slots_setConns :
    (p.setConns key conns).slots = p.slots.map (fun entry =>
      if entry.1 = key then (key,{ entry.2 with conns := conns }) else entry) := by
  unfold P.setConns
  rw [P.slots_map rfl]

theorem lookup_setConns :
    (p.setConns key conns).slots.lookup key' =
      if key' = key then (p.slots.lookup key').map (fun bucket => { bucket with conns := conns })
      else p.slots.lookup key' := by
  rw [slots_setConns]
  exact lookup_map_key (fun bucket : Slot κ => { bucket with conns := conns }) key key'

theorem lookup_cleanUp (h : p.slots.lookup key = some bucket)
    (hyoung : unix now < bucket.lastUse + cfg.staleKeyLifetimeSec) :
    (p.cleanUp cfg now).slots.lookup key = some bucket := by
  unfold P.cleanUp
  rw [slots_remove]
  apply lookup_filter h
  simpa [P.stale] using hyoung

theorem lookup_cleanUp_stale (h : p.slots.lookup key = some bucket)
    (hunique : (p.slots.map Prod.fst).Nodup)
    (hold : ¬unix now < bucket.lastUse + cfg.staleKeyLifetimeSec) :
    (p.cleanUp cfg now).slots.lookup key = none := by
  unfold P.cleanUp
  rw [slots_remove]
  apply lookup_filter_dropped h hunique
  simpa [P.stale] using hold

theorem lookup_get (h : p.slots.lookup key = some bucket) (hne : key' ≠ key) :
    (p.get m cfg now key').1.slots.lookup key = some bucket := by
  unfold P.get
  cases p.slots.lookup key' with
  | none => exact h
  | some other =>
    dsimp only
    split
    · rw [slots_remove]
      apply lookup_filter h
      simpa using hne.symm
    · rw [lookup_setConns,if_neg hne.symm]
      exact h

theorem slots_newBucket (hopen : p.keys ≠ none) :
    ({ keys := p.keys.map (fun slots => slots ++ [(key,⟨[],unix now⟩)]) } : P κ).slots =
      p.slots ++ [(key,⟨[],unix now⟩)] := by
  unfold P.slots
  cases hk : p.keys with
  | none => exact absurd hk hopen
  | some slots => rfl

theorem keys_cleanUp (hopen : p.keys ≠ none) : (p.cleanUp cfg now).keys ≠ none := by
  unfold P.cleanUp P.remove
  simpa using hopen

theorem lookup_bucketFor (hopen : p.keys ≠ none) (h : p.slots.lookup key = some bucket)
    (hyoung : unix now < bucket.lastUse + cfg.staleKeyLifetimeSec) :
    (p.bucketFor cfg now key').slots.lookup key = some bucket := by
  unfold P.bucketFor
  cases hl : p.slots.lookup key' with
  | some _ => exact h
  | none =>
    dsimp only
    split
    · rw [slots_newBucket (keys_cleanUp hopen),List.lookup_append,lookup_cleanUp h hyoung]
      rfl
    · rw [slots_newBucket hopen,List.lookup_append,h]
      rfl

end Lookups

section Steps

structure Good (p : P κ) : Prop where
  isOpen : p.keys ≠ none
  unique : (p.slots.map Prod.fst).Nodup

theorem Good.remove (h : Good p) (drop : String → Slot κ → Bool) : Good (p.remove drop) := by
  constructor
  · simpa [P.remove] using h.isOpen
  · rw [slots_remove]
    exact h.unique.sublist (List.Sublist.map _ List.filter_sublist)

theorem Good.setConns (h : Good p) (key : String) (conns : List κ) : Good (p.setConns key conns) := by
  constructor
  · simpa [P.setConns] using h.isOpen
  · have hkeys : (p.setConns key conns).slots.map Prod.fst = p.slots.map Prod.fst := by
      rw [slots_setConns,List.map_map]
      refine List.map_congr_left fun entry _ => ?_
      dsimp only [Function.comp]
      split
      · rename_i heq
        exact heq.symm
      · rfl
    rw [hkeys]
    exact h.unique

theorem Good.bucketFor (h : Good p) (cfg : Config) (now : Int) (key : String) :
    Good (p.bucketFor cfg now key) := by
  unfold P.bucketFor
  cases hl : p.slots.lookup key with
  | some _ => exact h
  | none =>
    dsimp only
    -- the pool with or without the clean-up
    have hnew : ∀ p' : P κ, Good p' → (∀ entry ∈ p'.slots, entry ∈ p.slots) →
        Good { p' with keys := p'.keys.map (fun slots => slots ++ [(key,⟨[],unix now⟩)]) } := by
      intro p' hp' hsub
      constructor
      · simpa using hp'.isOpen
      · rw [slots_newBucket hp'.isOpen,List.map_append,List.map_cons,List.map_nil]
        refine List.nodup_append.mpr ⟨hp'.unique,List.nodup_singleton _,fun a ha b hb => ?_⟩
        obtain ⟨entry,hentry,rfl⟩ := List.mem_map.mp ha
        rw [List.mem_singleton.mp hb]
        exact not_mem_of_lookup hl entry (hsub entry hentry)
    split
    · refine hnew _ (h.remove _) fun entry hentry => ?_
      unfold P.cleanUp at hentry
      rw [slots_remove] at hentry
      exact List.mem_of_mem_filter hentry
    · exact hnew p h fun entry hentry => hentry

theorem Good.make (h : Good p) (m : Conn κ) (cfg : Config) (call : Call κ) :
    Good (call.make m cfg p) := by
  cases call with
  | get key now =>
    simp only [Call.make,P.get]
    cases p.slots.lookup key with
    | none => exact h
    | some bucket =>
      dsimp only
      split
      · exact h.remove fun k _ => k = key
      · exact h.setConns _ _
  | returnConn key conn now =>
    have hb := h.bucketFor cfg now key
    simp only [Call.make,P.returnConn,P.send]
    split
    · exact hb
    · split
      · exact hb.setConns _ _
      · exact hb
  | cleanUp now =>
    simp only [Call.make,P.cleanUp]
    exact h.remove _

theorem good_calls (calls : List (Call κ)) (h : Good p) :
    Good (calls.foldl (Call.make m cfg) p) := by
  induction calls generalizing p with
  | nil => exact h
  | cons call rest ih => exact ih (h.make m cfg call)

theorem good_empty : Good ({} : P κ) := ⟨by simp,by simp [P.slots]⟩

theorem lookup_returnConn (h : Good p) (t : Int) (conn : κ)
    (hroom : ((p.slots.lookup key).elim [] Slot.conns).length < cfg.maxConnsPerKey) :
    (p.returnConn cfg t key conn).slots.lookup key = some
      { conns := (p.slots.lookup key).elim [] Slot.conns ++ [conn]
        lastUse := (p.slots.lookup key).elim (unix t) Slot.lastUse } := by
  unfold P.returnConn P.send P.bucketFor
  cases hl : p.slots.lookup key with
  | some bucket =>
    rw [hl] at hroom
    dsimp only [Option.elim] at hroom ⊢
    simp [hl,hroom,lookup_setConns]
  | none =>
    rw [hl] at hroom
    dsimp only [Option.elim] at hroom ⊢
    -- after the clean-up there still is no bucket of the key
    have hnew : ∀ p' : P κ, p'.keys ≠ none → (∀ entry ∈ p'.slots, entry ∈ p.slots) →
        ({ p' with keys := p'.keys.map (fun slots => slots ++ [(key,⟨[],unix t⟩)]) } :
          P κ).slots.lookup key = some ⟨[],unix t⟩ := by
      intro p' hopen hsub
      have hno : p'.slots.lookup key = none := by
        rw [List.lookup_eq_none_iff]
        intro entry hentry
        exact bne_iff_ne.mpr (not_mem_of_lookup hl entry (hsub entry hentry)).symm
      rw [slots_newBucket hopen,List.lookup_append,hno]
      simp
    have hbucket : ({ (if p.slots.length = cfg.maxKeys then p.cleanUp cfg t else p) with
        keys := (if p.slots.length = cfg.maxKeys then p.cleanUp cfg t else p).keys.map
          (fun slots => slots ++ [(key,⟨[],unix t⟩)]) } : P κ).slots.lookup key =
        some ⟨[],unix t⟩ := by
      split
      · refine hnew _ (keys_cleanUp h.isOpen) fun entry hentry => ?_
        unfold P.cleanUp at hentry
        rw [slots_remove] at hentry
        exact List.mem_of_mem_filter hentry
      · exact hnew p h.isOpen fun entry hentry => hentry
    rw [hbucket]
    simp only [List.length_nil] at hroom ⊢
    rw [if_pos hroom,lookup_setConns,if_pos rfl,hbucket]
    rfl

end Steps

section Kept

def Holds (p : P κ) (key : String) (made : Int) (conns : List κ) : Prop :=
  ∃ bucket, p.slots.lookup key = some bucket ∧ bucket.lastUse = made ∧
    ∀ conn ∈ conns, conn ∈ bucket.conns

/-- A call that does not get connections of the key, made while the bucket is not
too old, leaves them there. -/
theorem Holds.make (hg : Good p) (h : Holds p key made conns) (m : Conn κ) (call : Call κ)
    (hget : ¬call.gets key) (hyoung : unix call.clock < made + cfg.staleKeyLifetimeSec) :
    Holds (call.make m cfg p) key made conns := by
  obtain ⟨bucket,hl,hmade,hconns⟩ := h
  cases call with
  | get key' now => exact ⟨bucket,lookup_get hl hget,hmade,hconns⟩
  | cleanUp now =>
    subst hmade
    exact ⟨bucket,lookup_cleanUp hl hyoung,rfl,hconns⟩
  | returnConn key' conn now =>
    subst hmade
    have hb : (p.bucketFor cfg now key').slots.lookup key = some bucket :=
      lookup_bucketFor hg.isOpen hl hyoung
    simp only [Call.make,P.returnConn,P.send]
    cases hother : (p.bucketFor cfg now key').slots.lookup key' with
    | none => exact ⟨bucket,hb,rfl,hconns⟩
    | some other =>
      dsimp only
      split
      · by_cases hkey : key = key'
        · subst hkey
          rw [hb] at hother
          cases hother
          refine ⟨{ bucket with conns := bucket.conns ++ [conn] },?_,rfl,fun c hc => ?_⟩
          · rw [lookup_setConns,if_pos rfl,hb]
            rfl
          · exact List.mem_append_left _ (hconns c hc)
        · refine ⟨bucket,?_,rfl,hconns⟩
          rw [lookup_setConns,if_neg hkey]
          exact hb
      · exact ⟨bucket,hb,rfl,hconns⟩

theorem Holds.calls (calls : List (Call κ)) (hg : Good p) (h : Holds p key made conns)
    (hget : ∀ call ∈ calls, ¬call.gets key)
    (hyoung : ∀ call ∈ calls, unix call.clock < made + cfg.staleKeyLifetimeSec) :
    Holds (calls.foldl (Call.make m cfg) p) key made conns := by
  induction calls generalizing p with
  | nil => exact h
  | cons call rest ih =>
    obtain ⟨hget₁,hgets⟩ := List.forall_mem_cons.mp hget
    obtain ⟨hyoung₁,hyoungs⟩ := List.forall_mem_cons.mp hyoung
    exact ih (hg.make m cfg call) (h.make hg m call hget₁ hyoung₁) hgets hyoungs

def Fit (m : Conn κ) (cfg : Config) (now : Int) (conn : κ) : Prop :=
  (m.usable conn).2 = true ∧
    now ≤ m.lastUseAt (m.usable conn).1 + cfg.maxConnLifetimeSec * 1000000000

theorem receive_some_iff :
    (∃ conn, (P.receive m cfg now conns).2 = some conn) ↔ ∃ conn ∈ conns, Fit m cfg now conn := by
  induction conns with
  | nil => simp [P.receive]
  | cons conn rest ih =>
    rw [List.exists_mem_cons_iff,← ih]
    unfold Fit
    rcases hu : m.usable conn with ⟨asked,usable⟩
    cases usable with
    | false =>
      have hskip : P.receive m cfg now (conn :: rest) = P.receive m cfg now rest := by
        simp [P.receive,hu]
      simp [hskip]
    | true =>
      by_cases hold : m.lastUseAt asked + cfg.maxConnLifetimeSec * 1000000000 < now
      · have hskip : P.receive m cfg now (conn :: rest) = P.receive m cfg now rest := by
          simp [P.receive,hu,hold]
        simp [hskip,Int.not_le.mpr hold]
      · have hgive : P.receive m cfg now (conn :: rest) = (rest,some asked) := by
          simp [P.receive,hu,hold]
        simp [hgive,Int.not_lt.mp hold]

theorem get_some_iff (h : p.slots.lookup key = some bucket) :
    (∃ conn, (p.get m cfg now key).2 = some conn) ↔
      unix now - bucket.lastUse ≤ cfg.maxConnLifetimeSec ∧
        ∃ conn ∈ bucket.conns, Fit m cfg now conn := by
  unfold P.get
  rw [h]
  dsimp only
  split
  · rename_i hold
    simp [Int.not_le.mpr hold]
  · rename_i hyoung
    rw [receive_some_iff,and_iff_right (Int.not_lt.mp hyoung)]

theorem get_none (h : p.slots.lookup key = none) : (p.get m cfg now key).2 = none := by
  unfold P.get
  rw [h]

end Kept

def WithinKeys (m : Conn κ) (cfg : Config) : P κ → List (Call κ) → Prop
  | p, [] => p.slots.length ≤ cfg.maxKeys
  | p, call :: calls => p.slots.length ≤ cfg.maxKeys ∧ WithinKeys m cfg (call.make m cfg p) calls

/-- Whatever calls are made between the two times, but for a `Get` of the key, a `Get`
of the key then gives out a connection. -/
def StaysPooled (m : Conn κ) (cfg : Config) (p : P κ) (key : String) (t now : Int) : Prop :=
  ∀ calls : List (Call κ), (∀ call ∈ calls, ¬call.gets key) →
    (∀ call ∈ calls, t ≤ call.clock ∧ call.clock ≤ now) → WithinKeys m cfg p calls →
    ∃ conn, ((calls.foldl (Call.make m cfg) p).get m cfg now key).2 = some conn

theorem unix_mono (h : a ≤ b) : unix a ≤ unix b :=
  Int.ediv_le_ediv (by decide) h

/-- A connection that was put in a bucket stays there exactly as long as the bucket is
young enough, whenever it was used itself. -/
theorem stays_pooled_iff (m : Conn κ) (cfg : Config) (before : List (Call κ)) (p : P κ)
    (key : String) (conn : κ) (t now : Int) (hp : p = before.foldl (Call.make m cfg) {})
    (hroom : ((p.slots.lookup key).elim [] Slot.conns).length < cfg.maxConnsPerKey)
    (hkeys : (p.returnConn cfg t key conn).slots.length ≤ cfg.maxKeys) (ht : t ≤ now) :
    StaysPooled m cfg (p.returnConn cfg t key conn) key t now ↔
      unix now < (p.slots.lookup key).elim (unix t) Slot.lastUse + cfg.staleKeyLifetimeSec ∧
      unix now - (p.slots.lookup key).elim (unix t) Slot.lastUse ≤ cfg.maxConnLifetimeSec ∧
      ∃ c ∈ (p.slots.lookup key).elim [] Slot.conns ++ [conn], Fit m cfg now c := by
  have hgood : Good p := hp ▸ good_calls before good_empty
  have hlookup := lookup_returnConn hgood t conn hroom
  have hgood' : Good (p.returnConn cfg t key conn) := hgood.make m cfg (.returnConn key conn t)
  generalize (p.slots.lookup key).elim (unix t) Slot.lastUse = made at hlookup ⊢
  generalize (p.slots.lookup key).elim [] Slot.conns ++ [conn] = conns at hlookup ⊢
  generalize p.returnConn cfg t key conn = p₁ at hlookup hgood' hkeys ⊢
  constructor
  · intro h
    have hnow := h [] (by simp) (by simp) hkeys
    rw [List.foldl_nil,get_some_iff hlookup] at hnow
    refine ⟨?_,hnow⟩
    by_contra hold
    have hclean := lookup_cleanUp_stale hlookup hgood'.unique hold
    have hwithin : WithinKeys m cfg p₁ [.cleanUp now] := by
      refine ⟨hkeys,Nat.le_trans ?_ hkeys⟩
      simp only [Call.make,P.cleanUp,slots_remove]
      exact List.length_filter_le _ _
    obtain ⟨conn',hget⟩ := h [.cleanUp now] (by simp [Call.gets]) (by simp [Call.clock,ht]) hwithin
    rw [List.foldl_cons,List.foldl_nil] at hget
    simp only [Call.make,get_none hclean] at hget
    cases hget
  · intro h calls hget hclock _
    obtain ⟨hyoung,hage,c,hc,hfit⟩ := h
    have hholds : Holds p₁ key made conns := ⟨_,hlookup,rfl,fun conn hconn => hconn⟩
    have hall : ∀ call ∈ calls, unix call.clock < made + cfg.staleKeyLifetimeSec := by
      intro call hcall
      exact Int.lt_of_le_of_lt (unix_mono (hclock call hcall).2) hyoung
    obtain ⟨bucket,hl,hmade,hconns⟩ := hholds.calls (m := m) calls hgood' hget hall
    rw [get_some_iff hl,hmade]
    exact ⟨hage,c,hconns c hc,hfit⟩

def timed : Conn Int := { usable := fun conn => (conn,true), lastUseAt := id }

def hundredSeconds : Config :=
  { maxKeys := 10
    maxConnsPerKey := 10
    maxConnLifetimeSec := 100
    staleKeyLifetimeSec := 100 }

theorem new_bucket_stays_pooled :
    StaysPooled timed hundredSeconds
      (({} : P Int).returnConn hundredSeconds 0 "example.org" 0) "example.org" 0 50000000000 := by
  apply (stays_pooled_iff timed hundredSeconds [] {} "example.org" 0 0 50000000000 rfl (by decide)
    (by decide) (by decide)).mpr
  exact ⟨by decide,by decide,0,List.mem_singleton.mpr rfl,rfl,by decide⟩

/-- A connection that is put in a bucket made 90 seconds earlier is gone 60 seconds
later, though connections are kept for 100 seconds. -/
theorem old_bucket_dropped :
    (timed.usable 90000000000).2 = true ∧
    (90000000000 : Int) ≤ 150000000000 ∧
    (150000000000 : Int) < 90000000000 + min hundredSeconds.maxConnLifetimeSec
      hundredSeconds.staleKeyLifetimeSec * 1000000000 ∧
    ¬StaysPooled timed hundredSeconds
      ((({} : P Int).returnConn hundredSeconds 0 "example.org" 0).returnConn hundredSeconds
        90000000000 "example.org" 90000000000) "example.org" 90000000000 150000000000 := by
  refine ⟨rfl,by decide,by decide,fun h => ?_⟩
  obtain ⟨conn,hget⟩ := h [] (by simp) (by simp) (by unfold WithinKeys; decide)
  have hnone : (((({} : P Int).returnConn hundredSeconds 0 "example.org" 0).returnConn
      hundredSeconds 90000000000 "example.org" 90000000000).get timed hundredSeconds 150000000000
      "example.org").2 = none := by decide
  rw [List.foldl_nil,hnone] at hget
  cases hget

end Madmail.Proofs.RecentConns
