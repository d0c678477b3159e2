import Madmail.Proofs.TLSFallback

namespace Madmail.Proofs.ForcedIPv4
open Exterrors Madmail.Module Remote Smtpconn EndpointCache Lib RemoteSteps TLSFallback List

variable {rt : Target} {net : Net} {cache : Option Cache} {record made : Nat} {host : String}
  {c : C} {dialled : Except Err Server} {cfg : TLSConfig} {level : TLSLevel} {tlsErr : Option Err}
  {r : C × Except Err (TLSLevel × Option Err)}

def reported (r : C × Except Err (TLSLevel × Option Err)) : TLSLevel :=
  match r.2 with
  | .ok (level,_) => level
  | .error _ => .none

/-- A connection on which STARTTLS is accepted, and the reply to the EHLO after it,
which may be an error of the handshake. -/
def Replies (rt : Target) (c : C) (dialled : Except Err Server) (skip : Bool)
    (reply : Option Err) : Prop :=
  ∃ server, dialled = .ok server ∧ StartsTLS server c.hostname skip ∧
    server.reply [.hello c.hostname,.startTLS skip] (.hello rt.hostname) = reply

def Completes (rt : Target) (c : C) (dialled : Except Err Server) (skip : Bool) : Prop :=
  Replies rt c dialled skip none

def Unverified (rt : Target) (net : Net) (c : C) (dialled : Except Err Server) (skip : Bool) :
    Prop :=
  ∃ e, Replies rt c dialled skip (some e) ∧ net.isVerifyError e = true

theorem Replies.unique (h : Replies rt c dialled skip reply) (h' : Replies rt c dialled skip reply') :
    reply = reply' := by
  obtain ⟨server,rfl, -,rfl⟩ := h
  obtain ⟨server',hs, -,rfl⟩ := h'
  cases hs
  rfl

theorem not_completes (h : Replies rt c dialled skip (some e)) : ¬Completes rt c dialled skip :=
  fun hc => Option.some_ne_none e (h.unique hc)

theorem reported_done
    (ha : Attempted rt net host c dialled (some cfg) level tlsErr r.1 (.done r.2)) :
    (Completes rt c dialled cfg.insecureSkipVerify ∧ reported r = level) ∨
      ((∀ reply, ¬Replies rt c dialled cfg.insecureSkipVerify reply) ∧ reported r = .none) := by
  obtain ⟨c',res⟩ := r
  cases ha with
  | unconnected e hno =>
    refine .inr ⟨fun reply h => ?_,rfl⟩
    obtain ⟨server,hs,starts, -⟩ := h
    exact hno server hs starts.hello
  | plain hello hno =>
    refine .inr ⟨fun reply h => ?_,rfl⟩
    obtain ⟨server,hs,starts, -⟩ := h
    cases hs
    obtain hnone | hno := hno
    · cases hnone
    · simp [starts.offered] at hno
  | refused e hno =>
    refine .inr ⟨fun reply h => ?_,rfl⟩
    obtain ⟨server,hs,starts, -⟩ := h
    cases hs
    simp [starts.accepted] at hno
  | completed starts hreply => exact .inl ⟨⟨_,rfl,starts,hreply⟩,rfl⟩

theorem reported_plain (h : Ends (round rt net record host) ⟨made,c,none,level,tlsErr⟩ n r) :
    reported r = .none := by
  cases h with
  | done hb =>
    obtain ⟨c',res⟩ := r
    have ha := round_done hb
    generalize net.dial record made host = dialled at ha
    cases ha with
    | unconnected e _ => rfl
    | plain _ _ => rfl
  | again hb _ =>
    rename_i v' _ _
    obtain ⟨made',c',tlsCfg',tlsLevel',tlsErr'⟩ := v'
    obtain ⟨-,e, -,ha⟩ := round_again hb
    generalize net.dial record made host = dialled at ha
    cases ha

/-- The level after an attempt with TLS: that of the attempt, or none, or what the
next attempt makes of an error of the verification. -/
theorem reported_cases
    (h : Ends (round rt net record host) ⟨made,c,some cfg,level,tlsErr⟩ n r) :
    (Completes rt c (net.dial record made host) cfg.insecureSkipVerify ∧ reported r = level) ∨
    (¬Completes rt c (net.dial record made host) cfg.insecureSkipVerify ∧
      (Unverified rt net c (net.dial record made host) cfg.insecureSkipVerify →
        level ≠ .authenticated) ∧ reported r = .none) ∨
    (Unverified rt net c (net.dial record made host) cfg.insecureSkipVerify ∧
      level = .authenticated ∧ ∃ n e, Ends (round rt net record host)
        ⟨made + 1,c.directClose,some { insecureSkipVerify := true },.encrypted,some e⟩ n r) := by
  cases h with
  | done hb =>
    obtain hc | ⟨hno,hr⟩ := reported_done (round_done hb)
    · exact .inl hc
    · refine .inr (.inl ⟨hno _,fun hu => ?_,hr⟩)
      obtain ⟨e,he, -⟩ := hu
      exact absurd he (hno _)
  | again hb hrest =>
    rename_i v' m
    obtain ⟨made',c',tlsCfg',tlsLevel',tlsErr'⟩ := v'
    obtain ⟨hmade,e,he,ha⟩ := round_again hb
    subst hmade he
    generalize net.dial record made host = dialled at ha ⊢
    cases ha with
    | unverified starts hreply hv =>
      exact .inr (.inr ⟨⟨e,⟨_,rfl,starts,hreply⟩,hv⟩,rfl,m,e,hrest⟩)
    | failed starts hreply hv =>
      have hre : Replies rt c (.ok _) cfg.insecureSkipVerify (some e) := ⟨_,rfl,starts,hreply⟩
      refine .inr (.inl ⟨not_completes hre,fun hu hauth => ?_,reported_plain hrest⟩)
      obtain ⟨e',he',hv'⟩ := hu
      cases hre.unique he'
      exact hv ⟨hv',hauth⟩

theorem reported_encrypted
    (h : Ends (round rt net record host) ⟨made,c,some cfg,.encrypted,tlsErr⟩ n r) :
    (reported r = .encrypted ↔
        Completes rt c (net.dial record made host) cfg.insecureSkipVerify) ∧
      reported r ≠ .authenticated := by
  obtain ⟨hc,hr⟩ | ⟨hc, -,hr⟩ | ⟨-,hauth, -⟩ := reported_cases h
  · exact ⟨iff_of_true hr hc,by simp [hr]⟩
  · exact ⟨iff_of_false (by simp [hr]) hc,by simp [hr]⟩
  · cases hauth

theorem reported_authenticated
    (h : Ends (round rt net record host) ⟨made,c,some cfg,.authenticated,tlsErr⟩ n r) :
    (reported r = .authenticated ↔
        Completes rt c (net.dial record made host) cfg.insecureSkipVerify) ∧
      (reported r = .encrypted ↔
        Unverified rt net c (net.dial record made host) cfg.insecureSkipVerify ∧
          Completes rt c (net.dial record (made + 1) host) true) := by
  obtain ⟨hc,hr⟩ | ⟨hc,hu,hr⟩ | ⟨hu, -,m,e,hrest⟩ := reported_cases h
  · refine ⟨iff_of_true hr hc,iff_of_false (by simp [hr]) fun hboth => ?_⟩
    obtain ⟨⟨e,he, -⟩, -⟩ := hboth
    exact not_completes he hc
  · refine ⟨iff_of_false (by simp [hr]) hc,iff_of_false (by simp [hr]) fun hboth => ?_⟩
    exact hu hboth.1 rfl
  · obtain ⟨hiff,hlow⟩ := reported_encrypted hrest
    obtain ⟨e',he', -⟩ := id hu
    refine ⟨iff_of_false hlow (not_completes he'),?_⟩
    rw [hiff,and_iff_right hu]
    rfl

section Hosts

def dialHost (rt : Target) (net : Net) (cache : Option Cache) (host : String) : String :=
  connectHost { rt with ipv4 := false } net cache host

def forcedHost (rt : Target) (net : Net) (host dialHost : String) : String :=
  if !rt.isIP dialHost then
    match net.lookupIP4 dialHost with
    | .ok (addr :: _) => addr
    | _ => dialHost
  else if !rt.isIPv4 dialHost then
    match net.lookupIP4 (Strings.trimSuffix host ".") with
    | .ok (addr :: _) => addr
    | _ => dialHost
  else dialHost

theorem dialHost_cases (net : Net)
    (hcache : ∀ cache', cache = some cache' →
      cache'.isIP = rt.isIP ∧ cache'.override host = none) :
    dialHost rt net cache host = host ∨ rt.isIP (dialHost rt net cache host) = true := by
  cases cache with
  | none => exact .inl rfl
  | some cache' =>
    obtain ⟨hparse,hno⟩ := hcache cache' rfl
    have hdial : dialHost rt net (some cache') host =
        if cache'.resolve host ≠ "" then cache'.resolve host else host := rfl
    rw [hdial]
    split
    · right
      rename_i hne
      rw [Cache.resolve,hno,hparse] at hne ⊢
      dsimp only at hne ⊢
      split at hne
      · rwa [if_pos ‹_›]
      · exact absurd rfl hne
    · exact .inl rfl

theorem connectHost_forced
    (haddr : ∀ name addrs, net.lookupIP4 name = .ok addrs → ∀ addr ∈ addrs, rt.isIP addr = true)
    (hrecord : ∃ addr rest, net.lookupIP4 host = .ok (addr :: rest))
    (hdial : dialHost rt net cache host = host ∨ rt.isIP (dialHost rt net cache host) = true) :
    rt.isIP (connectHost { rt with ipv4 := true } net cache host) = true := by
  have hforced : connectHost { rt with ipv4 := true } net cache host =
      forcedHost rt net host (dialHost rt net cache host) := rfl
  rw [hforced,forcedHost]
  cases hip : rt.isIP (dialHost rt net cache host) with
  | true =>
    simp only [Bool.not_true,Bool.false_eq_true,↓reduceIte]
    repeat' split
    · exact haddr _ _ ‹_› _ mem_cons_self
    · exact hip
    · exact hip
  | false =>
    obtain hdial | hdial := hdial
    · obtain ⟨addr,rest,hlookup⟩ := hrecord
      rw [hdial,hlookup]
      exact haddr _ _ hlookup _ mem_cons_self
    · simp [hip] at hdial

end Hosts

section Reports

theorem address_reported (record : Nat) (c : C)
    (hip : rt.isIP (connectHost rt net cache host) = true) :
    (reported (Remote.connect rt net cache record c host) = .encrypted ↔
        Completes rt c (net.dial record 0 (connectHost rt net cache host)) true) ∧
      reported (Remote.connect rt net cache record c host) ≠ .authenticated := by
  obtain ⟨n, -,hends⟩ := connect_ends rt net cache record c host
  rw [first,if_pos hip] at hends
  exact reported_encrypted hends

theorem name_reported (record : Nat) (c : C)
    (hname : ¬rt.isIP (connectHost rt net cache host) = true) :
    (reported (Remote.connect rt net cache record c host) = .authenticated ↔
        ∃ cfg, rt.tlsConfig = some cfg ∧
          Completes rt c (net.dial record 0 (connectHost rt net cache host))
            cfg.insecureSkipVerify) ∧
      (reported (Remote.connect rt net cache record c host) = .encrypted ↔
        ∃ cfg, rt.tlsConfig = some cfg ∧
          Unverified rt net c (net.dial record 0 (connectHost rt net cache host))
            cfg.insecureSkipVerify ∧
          Completes rt c (net.dial record 1 (connectHost rt net cache host)) true) := by
  obtain ⟨n, -,hends⟩ := connect_ends rt net cache record c host
  rw [first,if_neg hname] at hends
  cases htls : rt.tlsConfig with
  | none =>
    rw [htls] at hends
    simp [reported_plain hends]
  | some cfg =>
    rw [htls] at hends
    simpa using reported_authenticated hends

theorem eq_iff_of_unauthenticated (h : level ≠ .authenticated) :
    level = level' ↔
      level' ≠ .authenticated ∧ (level = .encrypted ↔ level' = .encrypted) := by
  cases level <;> cases level' <;> simp at h ⊢

end Reports

/-- With `force_ipv4` the level is the same exactly if the handshake with
verification is not completed, and the one without verification is completed
exactly if `connect` falls back to it. (It is also the same for a host that is
dialled as an address anyway.) A server with a valid certificate is never reported
as authenticated. -/
theorem forced_ipv4_iff (rt : Target) (net : Net) (cache : Option Cache) (record : Nat) (c : C)
    (host : String)
    (hcache : ∀ cache', cache = some cache' →
      cache'.isIP = rt.isIP ∧ cache'.override host = none)
    (haddr : ∀ name addrs, net.lookupIP4 name = .ok addrs → ∀ addr ∈ addrs, rt.isIP addr = true)
    (hrecord : ∃ addr rest, net.lookupIP4 host = .ok (addr :: rest))
    (hserver : ∀ record made host host', net.dial record made host = net.dial record made host') :
    (reported (Remote.connect { rt with ipv4 := true } net cache record c host) =
        reported (Remote.connect { rt with ipv4 := false } net cache record c host) ↔
      rt.isIP (connectHost { rt with ipv4 := false } net cache host) = true ∨
      ((∀ cfg, rt.tlsConfig = some cfg →
          ¬Completes rt c (net.dial record 0 host) cfg.insecureSkipVerify) ∧
        (Completes rt c (net.dial record 0 host) true ↔
          ∃ cfg, rt.tlsConfig = some cfg ∧
            Unverified rt net c (net.dial record 0 host) cfg.insecureSkipVerify ∧
            Completes rt c (net.dial record 1 host) true))) ∧
    ((∀ cfg, rt.tlsConfig = some cfg →
        Completes rt c (net.dial record 0 host) cfg.insecureSkipVerify →
          reported (Remote.connect { rt with ipv4 := true } net cache record c host) =
              .authenticated ∧
            reported (Remote.connect { rt with ipv4 := false } net cache record c host) =
              .authenticated) ↔
      ∀ cfg, rt.tlsConfig = some cfg →
        ¬Completes rt c (net.dial record 0 host) cfg.insecureSkipVerify) := by
  have hdial := dialHost_cases net hcache
  have hforced := connectHost_forced haddr hrecord hdial
  obtain ⟨hon,hlow⟩ := @address_reported { rt with ipv4 := true } net cache host record c hforced
  rw [hserver _ _ _ host] at hon
  constructor
  · rw [eq_iff_of_unauthenticated hlow,hon]
    by_cases hip : rt.isIP (connectHost { rt with ipv4 := false } net cache host) = true
    · obtain ⟨hoff,hlow'⟩ := @address_reported { rt with ipv4 := false } net cache host record c hip
      rw [hserver _ _ _ host] at hoff
      exact iff_of_true ⟨hlow',hoff.symm⟩ (.inl hip)
    · obtain ⟨hauth,henc⟩ := @name_reported { rt with ipv4 := false } net cache host record c hip
      rw [hserver _ _ _ host] at hauth henc
      rw [hserver _ 1 _ host] at henc
      rw [or_iff_right hip,Ne,hauth,henc,not_exists]
      simp only [not_and]
      rfl
  · constructor
    · intro h cfg htls hc
      exact hlow (h cfg htls hc).1
    · intro h cfg htls hc
      exact absurd hc (h cfg htls)

def oneAddress : Target := { Target.plain with isIP := fun text => text == "192.0.2.1" }

def addressNet (extensions : List String) : Net :=
  { Net.plain (.accepting .none) (serverWith extensions) with
    lookupIP4 := fun _ => .ok ["192.0.2.1"] }

theorem plain_server_same :
    reported (Remote.connect { oneAddress with ipv4 := true } (addressNet []) none 0 dialling
        "mx.example.org") =
      reported (Remote.connect { oneAddress with ipv4 := false } (addressNet []) none 0 dialling
        "mx.example.org") := by
  have haddr : ∀ name addrs, (addressNet []).lookupIP4 name = .ok addrs →
      ∀ addr ∈ addrs, oneAddress.isIP addr = true := by
    intro name addrs h addr hmem
    cases h
    cases mem_singleton.mp hmem
    rfl
  have hno (made : Nat) (skip : Bool) :
      ¬Completes oneAddress dialling ((addressNet []).dial 0 made "mx.example.org") skip := by
    intro hc
    obtain ⟨server,hs,starts, -⟩ := hc
    cases hs
    cases starts.offered
  apply (forced_ipv4_iff oneAddress (addressNet []) none 0 dialling "mx.example.org"
    nofun haddr ⟨_,_,rfl⟩ fun _ _ _ _ => rfl).1.mpr
  right
  refine ⟨fun cfg _ => hno 0 _,iff_of_false (hno 0 true) fun h => ?_⟩
  obtain ⟨cfg, -, -,hc⟩ := h
  exact hno 1 true hc

/-- A server with a valid certificate. -/
theorem forced_ipv4_unauthenticated :
    reported (Remote.connect { oneAddress with ipv4 := true } (addressNet ["STARTTLS"]) none 0
        dialling "mx.example.org") = .encrypted ∧
      reported (Remote.connect { oneAddress with ipv4 := false } (addressNet ["STARTTLS"]) none 0
        dialling "mx.example.org") = .authenticated :=
  ⟨rfl,rfl⟩

end Madmail.Proofs.ForcedIPv4
