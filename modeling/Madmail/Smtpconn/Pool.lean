import Madmail.Lib.Holdings

namespace Madmail.Pool
open List

structure Config where
  maxKeys : Nat
  maxConnsPerKey : Nat
  maxConnLifetimeSec : Int
  staleKeyLifetimeSec : Int

/-- The methods of a pooled connection. Asking if it is usable may change it. Times
are in nanoseconds. -/
structure Conn (κ : Type) where
  usable : κ → κ × Bool
  lastUseAt : κ → Int

/-- `slot`, with what its channel holds and a time in seconds. -/
structure Slot (κ : Type) where
  conns : List κ
  lastUse : Int

/-- `pool.P`. The map is nil once the pool is closed. -/
structure P (κ : Type) where
  keys : Option (List (String × Slot κ)) := some []

def unix (now : Int) : Int := now / 1000000000

namespace P
variable {κ : Type}

def slots (p : P κ) : List (String × Slot κ) := p.keys.getD []

/-- The loop of `Get` over a channel: what is left in it, and the connection. Those
before it are closed. -/
def receive (m : Conn κ) (cfg : Config) (now : Int) : List κ → List κ × Option κ
  | [] => ([],none)
  | conn :: rest =>
    let (conn,usable) := m.usable conn
    if !usable then receive m cfg now rest
    else if m.lastUseAt conn + cfg.maxConnLifetimeSec * 1000000000 < now then receive m cfg now rest
    else (rest,some conn)

def setConns (p : P κ) (key : String) (conns : List κ) : P κ :=
  { p with
    keys := p.keys.map (fun slots => slots.map (fun entry =>
      if entry.1 = key then (key,{ entry.2 with conns := conns }) else entry)) }

def remove (p : P κ) (drop : String → Slot κ → Bool) : P κ :=
  { p with keys := p.keys.map (fun slots => slots.filter (fun entry => !drop entry.1 entry.2)) }

def get (m : Conn κ) (cfg : Config) (now : Int) (p : P κ) (key : String) : P κ × Option κ :=
  match p.slots.lookup key with
  | none => (p,none)
  | some bucket =>
    if unix now - bucket.lastUse > cfg.maxConnLifetimeSec then
      (p.remove (fun k _ => k = key),none)
    else
      let (conns,conn) := receive m cfg now bucket.conns
      (p.setConns key conns,conn)

def stale (cfg : Config) (now : Int) (bucket : Slot κ) : Bool :=
  !(bucket.lastUse + cfg.staleKeyLifetimeSec > unix now)

def cleanUp (cfg : Config) (now : Int) (p : P κ) : P κ :=
  p.remove (fun _ bucket => stale cfg now bucket)

def bucketFor (cfg : Config) (now : Int) (p : P κ) (key : String) : P κ :=
  match p.slots.lookup key with
  | some _ => p
  | none =>
    let p := if p.slots.length = cfg.maxKeys then p.cleanUp cfg now else p
    { p with keys := p.keys.map (fun slots => slots ++ [(key,⟨[],unix now⟩)]) }

/-- A connection that does not fit is closed. -/
def send (cfg : Config) (p : P κ) (key : String) (conn : κ) : P κ :=
  match p.slots.lookup key with
  | none => p
  | some bucket =>
    if bucket.conns.length < cfg.maxConnsPerKey then p.setConns key (bucket.conns ++ [conn]) else p

/-- `Return`. The time of use it notes is that of a copy of the bucket, so the
bucket keeps the time it was made. -/
def returnConn (cfg : Config) (now : Int) (p : P κ) (key : String) (conn : κ) : P κ :=
  (p.bucketFor cfg now key).send cfg key conn

def All (Q : String → κ → Prop) (p : P κ) : Prop :=
  ∀ key bucket, (key,bucket) ∈ p.slots → ∀ conn ∈ bucket.conns, Q key conn

section All
variable {Q : String → κ → Prop} {p : P κ}

theorem slots_map (hf : f [] = []) : ({ keys := p.keys.map f } : P κ).slots = f p.slots := by
  unfold slots
  cases p.keys with
  | none => exact hf.symm
  | some keys => rfl

theorem All.remove (h : All Q p) (drop : String → Slot κ → Bool) : All Q (p.remove drop) := by
  intro key bucket hm
  unfold P.remove at hm
  rw [slots_map rfl] at hm
  exact h key bucket (mem_filter.mp hm).1

theorem All.setConns (h : All Q p) (hc : ∀ conn ∈ conns, Q key conn) :
    All Q (p.setConns key conns) := by
  intro key' bucket hm
  unfold P.setConns at hm
  rw [slots_map rfl] at hm
  obtain ⟨entry,hentry,heq⟩ := mem_map.mp hm
  split at heq
  · cases heq
    exact hc
  · subst heq
    exact h key' bucket hentry

theorem receive_all (hasked : ∀ conn, Q key conn → Q key (m.usable conn).1)
    (h : ∀ conn ∈ conns, Q key conn) :
    (∀ conn ∈ (receive m cfg now conns).1, Q key conn) ∧
      ∀ conn, (receive m cfg now conns).2 = some conn → Q key conn := by
  induction conns with
  | nil => exact ⟨nofun,nofun⟩
  | cons first rest ih =>
    obtain ⟨hfirst,hrest⟩ := forall_mem_cons.mp h
    unfold receive
    dsimp only
    split
    · exact ih hrest
    split
    · exact ih hrest
    · refine ⟨hrest,fun conn hc => ?_⟩
      cases hc
      exact hasked first hfirst

theorem All.get (h : All Q p) (m : Conn κ) (cfg : Config) (now : Int) (key : String)
    (hasked : ∀ conn, Q key conn → Q key (m.usable conn).1) :
    All Q (p.get m cfg now key).1 ∧ ∀ conn, (p.get m cfg now key).2 = some conn → Q key conn := by
  unfold P.get
  cases hl : p.slots.lookup key with
  | none => exact ⟨h,nofun⟩
  | some bucket =>
    dsimp only
    obtain ⟨hleft,hgot⟩ := receive_all hasked (h key bucket (Lib.mem_of_lookup hl))
    split
    · exact ⟨h.remove _,nofun⟩
    · exact ⟨h.setConns hleft,hgot⟩

theorem All.returnConn (h : All Q p) (cfg : Config) (now : Int) (hc : Q key conn) :
    All Q (p.returnConn cfg now key conn) := by
  have hbucket : All Q (p.bucketFor cfg now key) := by
    unfold bucketFor
    split
    · exact h
    · dsimp only
      intro key' bucket hm
      have hclean : All Q (if p.slots.length = cfg.maxKeys then p.cleanUp cfg now else p) := by
        split
        · exact h.remove _
        · exact h
      generalize (if p.slots.length = cfg.maxKeys then p.cleanUp cfg now else p) = p' at hm hclean
      have hcases : (key',bucket) ∈ p'.slots ∨ bucket = ⟨[],unix now⟩ := by
        unfold slots at hm ⊢
        cases hk : p'.keys with
        | none =>
          rw [hk] at hm
          cases hm
        | some keys =>
          rw [hk] at hm
          rcases mem_append.mp hm with hm | hm
          · exact .inl hm
          · cases mem_singleton.mp hm
            exact .inr rfl
      rcases hcases with hm | rfl
      · exact hclean key' bucket hm
      · exact nofun
  unfold P.returnConn send
  split
  · exact hbucket
  · rename_i bucket hl
    split
    · refine hbucket.setConns fun conn' hm => ?_
      rcases mem_append.mp hm with hm | hm
      · exact hbucket key bucket (Lib.mem_of_lookup hl) conn' hm
      · rw [mem_singleton.mp hm]
        exact hc
    · exact hbucket

end All

end P

end Madmail.Pool
