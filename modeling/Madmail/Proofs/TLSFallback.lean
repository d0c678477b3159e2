import Madmail.Lib.Loop
import Madmail.Proofs.RemoteSteps

namespace Madmail.Proofs.TLSFallback
open Exterrors Madmail.Module Remote Smtpconn EndpointCache Lib RemoteSteps

structure Vars where
  made : Nat
  c : C
  tlsCfg : Option TLSConfig
  tlsLevel : TLSLevel
  tlsErr : Option Err

variable {rt : Target} {net : Net} {cache : Option Cache} {record : Nat} {host : String}
  {v v' : Vars} {r : C × Except Err (TLSLevel × Option Err)}

def round (rt : Target) (net : Net) (record : Nat) (host : String) (v : Vars) :
    (C × Except Err (TLSLevel × Option Err)) ⊕ Vars :=
  match attempt rt net (net.dial record v.made host) host v.c v.tlsCfg v.tlsLevel v.tlsErr with
  | (c,.done res) => .inl (c,res)
  | (c,.retry tlsCfg tlsLevel tlsErr) => .inr ⟨v.made + 1,c,tlsCfg,tlsLevel,some tlsErr⟩

def first (rt : Target) (net : Net) (cache : Option Cache) (c : C) (host : String) : Vars :=
  if rt.isIP (connectHost rt net cache host) then
    ⟨0,c,some { insecureSkipVerify := true },.encrypted,none⟩
  else ⟨0,c,rt.tlsConfig,.authenticated,none⟩

theorem connect_eq :
    Remote.connect rt net cache record c host =
      attempts rt net record (connectHost rt net cache host) 3 (first rt net cache c host).made
        (first rt net cache c host).c (first rt net cache c host).tlsCfg
        (first rt net cache c host).tlsLevel (first rt net cache c host).tlsErr := by
  unfold Remote.connect first
  dsimp only
  split <;> rfl

theorem round_done (h : round rt net record host v = .inl r) :
    Attempted rt net host v.c (net.dial record v.made host) v.tlsCfg v.tlsLevel v.tlsErr r.1
      (.done r.2) := by
  unfold round at h
  split at h
  · rename_i ha
    cases h
    exact attempt_cases ha
  · cases h

theorem round_again (h : round rt net record host v = .inr v') :
    v'.made = v.made + 1 ∧ ∃ e, v'.tlsErr = some e ∧
      Attempted rt net host v.c (net.dial record v.made host) v.tlsCfg v.tlsLevel v.tlsErr v'.c
        (.retry v'.tlsCfg v'.tlsLevel e) := by
  unfold round at h
  split at h
  · cases h
  · rename_i ha
    cases h
    exact ⟨rfl,_,rfl,attempt_cases ha⟩

theorem attempts_succ :
    attempts rt net record host (left + 1) v.made v.c v.tlsCfg v.tlsLevel v.tlsErr =
      (round rt net record host v).elim id fun v' =>
        attempts rt net record host left v'.made v'.c v'.tlsCfg v'.tlsLevel v'.tlsErr := by
  unfold round
  rw [attempts]
  rcases attempt rt net (net.dial record v.made host) host v.c v.tlsCfg v.tlsLevel v.tlsErr with
    ⟨c,res | ⟨tlsCfg,tlsLevel,tlsErr⟩⟩
  all_goals rfl

theorem attempts_of_ends (h : Ends (round rt net record host) v n r) (k : Nat) :
    attempts rt net record host (n + k) v.made v.c v.tlsCfg v.tlsLevel v.tlsErr = r := by
  induction h with
  | done hb =>
    rw [Nat.add_comm,attempts_succ,hb]
    rfl
  | again hb _ ih =>
    rw [Nat.add_right_comm,attempts_succ,hb]
    exact ih

def fallbacks (v : Vars) : Nat :=
  match v.tlsCfg, v.tlsLevel with
  | none, _ => 0
  | some _, .authenticated => 2
  | some _, _ => 1

theorem round_falls_back (v v' : Vars) (h : round rt net record host v = .inr v') :
    fallbacks v' < fallbacks v := by
  obtain ⟨made,c,tlsCfg,tlsLevel,tlsErr⟩ := v
  obtain ⟨made',c',tlsCfg',tlsLevel',tlsErr'⟩ := v'
  obtain ⟨-,e, -,ha⟩ := round_again h
  generalize net.dial record made host = dialled at ha
  cases ha with
  | unverified _ _ _ => exact Nat.lt_add_one 1
  | failed _ _ _ => cases tlsLevel <;> simp [fallbacks]

theorem fallbacks_le_two (v : Vars) : fallbacks v ≤ 2 := by
  unfold fallbacks
  split
  all_goals omega

theorem connect_ends (rt : Target) (net : Net) (cache : Option Cache) (record : Nat) (c : C)
    (host : String) :
    ∃ n ≤ 3, Ends (round rt net record (connectHost rt net cache host))
      (first rt net cache c host) n (Remote.connect rt net cache record c host) := by
  obtain ⟨n,r,hn,hr⟩ := ends_within fallbacks
    (@round_falls_back rt net record (connectHost rt net cache host)) (first rt net cache c host)
  have hle := fallbacks_le_two (first rt net cache c host)
  have hr' := attempts_of_ends hr (3 - n)
  rw [Nat.add_sub_cancel' (by omega)] at hr'
  rw [connect_eq,hr']
  exact ⟨n,by omega,hr⟩

/-- A handshake was completed on a connection: the first command after STARTTLS
was answered. -/
def Handshake (cl : Client) (skip : Bool) : Prop :=
  ∃ before hostname, before ++ [.startTLS skip,.hello hostname] <+: cl.log ∧
    cl.server.reply before (.startTLS skip) = none ∧
    cl.server.reply (before ++ [.startTLS skip]) (.hello hostname) = none

/-- What the level of a connection says about its handshake. -/
structure Says (level : TLSLevel) (cl : Client) : Prop where
  authenticated : level = .authenticated → Handshake cl false
  encrypted : level = .encrypted → Handshake cl true
  none : level = .none ↔ ∀ skip, ¬Handshake cl skip

/-- The level goes with the configuration as long as there is one. -/
def Agree (v : Vars) : Prop :=
  ∀ cfg, v.tlsCfg = some cfg →
    (v.tlsLevel = .authenticated ∧ cfg.insecureSkipVerify = false) ∨
      (v.tlsLevel = .encrypted ∧ cfg.insecureSkipVerify = true)

theorem first_agree (c : C) (host : String)
    (hcfg : ∀ cfg, rt.tlsConfig = some cfg → cfg.insecureSkipVerify = false) :
    Agree (first rt net cache c host) := by
  unfold first
  split
  · intro cfg h
    cases h
    exact .inr ⟨rfl,rfl⟩
  · intro cfg h
    exact .inl ⟨rfl,hcfg cfg h⟩

theorem round_agree (h : round rt net record host v = .inr v') : Agree v' := by
  obtain ⟨made',c',tlsCfg',tlsLevel',tlsErr'⟩ := v'
  obtain ⟨-,e, -,ha⟩ := round_again h
  intro cfg hcfg
  cases hcfg
  generalize net.dial record v.made host = dialled at ha
  generalize v.tlsCfg = tlsCfg at ha
  generalize v.tlsLevel = tlsLevel at ha
  cases ha with
  | unverified _ _ _ => exact .inr ⟨rfl,rfl⟩

theorem says_greeted : Says .none { server := server, log := [.hello hostname], ext := ext } := by
  have hnone (skip : Bool) :
      ¬Handshake { server := server, log := [.hello hostname], ext := ext } skip := by
    intro hs
    obtain ⟨before,name,hlog, -⟩ := hs
    have hlen := hlog.length_le
    simp at hlen
  exact ⟨nofun,nofun,iff_of_true rfl hnone⟩

theorem says_completed (hs : Handshake cl skip)
    (hv : (level = .authenticated ∧ skip = false) ∨ (level = .encrypted ∧ skip = true)) :
    Says level cl := by
  have hsome : ¬∀ skip, ¬Handshake cl skip := fun h => h skip hs
  obtain ⟨rfl,rfl⟩ | ⟨rfl,rfl⟩ := hv
  · exact ⟨fun _ => hs,nofun,iff_of_false (by decide) hsome⟩
  · exact ⟨nofun,fun _ => hs,iff_of_false (by decide) hsome⟩

theorem round_says (v : Vars) (r : C × Except Err (TLSLevel × Option Err)) (hv : Agree v)
    (h : round rt net record host v = .inl r) (level : TLSLevel) (tlsErr : Option Err)
    (hr : r.2 = .ok (level,tlsErr)) : ∃ cl, r.1.cl = some cl ∧ Says level cl := by
  obtain ⟨made,c,tlsCfg,tlsLevel,tlsErr'⟩ := v
  obtain ⟨c',res⟩ := r
  have ha := round_done h
  rw [hr] at ha
  generalize net.dial record made host = dialled at ha
  cases ha with
  | plain _ _ => exact ⟨_,rfl,says_greeted⟩
  | completed starts hreply =>
    refine ⟨_,rfl,says_completed ?_ (hv _ rfl)⟩
    exact ⟨[.hello c.hostname],rt.hostname,List.prefix_rfl,starts.accepted,hreply⟩

/-- `connect` ends after at most three attempts, whatever the server does in each
of them, and the level it reports is that of the connection it leaves. -/
theorem tls_fallback_sound (rt : Target) (net : Net) (cache : Option Cache) (record : Nat) (c : C)
    (host : String)
    (hcfg : ∀ cfg, rt.tlsConfig = some cfg → cfg.insecureSkipVerify = false) :
    (∃ n ≤ 3, ∀ m r, Ends (round rt net record (connectHost rt net cache host))
      (first rt net cache c host) m r ↔
        m = n ∧ r = Remote.connect rt net cache record c host) ∧
    ∀ c' level tlsErr,
      Remote.connect rt net cache record c host = (c',.ok (level,tlsErr)) →
        ∃ cl, c'.cl = some cl ∧ (level = .authenticated → Handshake cl false) ∧
          (level = .encrypted → Handshake cl true) ∧
          (level = .none ↔ ∀ skip, ¬Handshake cl skip) := by
  obtain ⟨n,hn,hends⟩ := connect_ends rt net cache record c host
  constructor
  · refine ⟨n,hn,fun m r => ⟨hends.unique,?_⟩⟩
    intro hmr
    rw [hmr.1,hmr.2]
    exact hends
  · intro c' level tlsErr hc
    rw [hc] at hends
    obtain ⟨cl,hcl, hsays⟩ := Ends.rule (Q := fun r => ∀ level tlsErr, r.2 = .ok (level,tlsErr) →
      ∃ cl, r.1.cl = some cl ∧ Says level cl) round_says (fun v v' _ => round_agree) hends
      (first_agree c host hcfg) level tlsErr rfl
    exact ⟨cl,hcl, hsays.authenticated, hsays.encrypted, hsays.none⟩

def dialling : C := { hostname := "mx.example.com" }

def tlsNet : Net := Net.plain (.accepting .none) (serverWith ["STARTTLS"])

theorem tls_server_authenticated :
    ∃ c' cl, Remote.connect .plain tlsNet none 0 dialling "mx.example.org" =
        (c',.ok (.authenticated,none)) ∧ c'.cl = some cl ∧ Handshake cl false := by
  obtain ⟨-,hlevel⟩ := tls_fallback_sound .plain tlsNet none 0 dialling "mx.example.org"
    fun cfg h => by
      cases h
      rfl
  obtain ⟨cl,hcl,hauth, -⟩ := hlevel _ _ _ rfl
  exact ⟨_,cl,rfl,hcl,hauth rfl⟩

end Madmail.Proofs.TLSFallback
