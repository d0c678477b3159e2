import Madmail.Proofs.RemoteSteps

namespace Madmail.Proofs.MXAttempts
open Exterrors Madmail.Module Remote Smtpconn EndpointCache Lib RemoteSteps List

def fresh (rt : Target) : C := { hostname := rt.hostname }

def reached (rt : Target) (net : Net) (record : Nat) (host : String) : Bool :=
  match net.dial record 0 host with
  | .ok server => (server.reply [] (.hello rt.hostname)).isNone
  | .error _ => false

inductive Outcome where
  -- no connection is made: a policy refuses the record, or the host cannot be reached
  | unmade
  -- a connection is made, but not one that can be used
  | dropped
  -- a policy refuses the connection
  | refused (c : C) (tlsErr : Option Err) (e : Err)
  | established (c : C) (mxLevel : MXLevel) (tlsLevel : TLSLevel)

structure Trial where
  rt : Target
  net : Net
  cache : Option Cache
  -- the policies that are asked
  policies : List Nat
  domain : String
  dnssecOk : Bool

namespace Trial
variable (t : Trial)

def checkMX (record : Nat) (mx : MX) : Except Err MXLevel :=
  (consult .mx MXLevel.raise
    (fun p level => (t.net.policy record p).checkMX level t.domain mx.host t.dnssecOk)
    t.policies .none).2

def checkConn (record : Nat) (mx : MX) (mxLevel : MXLevel) (tlsLevel : TLSLevel) (c : C) :
    Except Err TLSLevel :=
  (consult .conn TLSLevel.raise
    (fun p level => (t.net.policy record p).checkConn mxLevel level t.domain mx.host c.tlsState)
    t.policies tlsLevel).2

def outcome (record : Nat) (mx : MX) : Outcome :=
  match t.checkMX record mx with
  | .error _ => .unmade
  | .ok mxLevel =>
    match Remote.connect t.rt t.net t.cache record (fresh t.rt) mx.host with
    | (_,.error _) =>
      if reached t.rt t.net record (connectHost t.rt t.net t.cache mx.host) then .dropped
      else .unmade
    | (c,.ok (tlsLevel,tlsErr)) =>
      match t.checkConn record mx mxLevel tlsLevel c with
      | .error e => .refused c tlsErr e
      | .ok tlsLevel => .established c mxLevel tlsLevel

/-- The connection before an attempt: whatever the attempts before it have left, it
is for this domain, and nothing was sent on it. -/
structure Fits (conn : MxConn) : Prop where
  c : conn.c.directClose = fresh t.rt
  domain : conn.domain = t.domain
  dnssecOk : conn.dnssecOk = t.dnssecOk

end Trial

def refusal (tlsErr : Option Err) (e : Err) : Err :=
  .fieldsWrap e [("tls_err",match tlsErr with | none => .nil | some err => .str (errorText err))]

/-- What an attempt does to the connection object, for each outcome. -/
inductive Comes (t : Trial) (conn : MxConn) : Outcome → MxConn → Option Err → Prop where
  | unmade (checks : List PolicyCheck) (e : Err) :
      Comes t conn .unmade { conn with checks := checks } (some e)
  | dropped (checks : List PolicyCheck) (e : Err) :
      Comes t conn .dropped { conn with checks := checks, c := fresh t.rt } (some e)
  | refused (checks : List PolicyCheck) (c : C) (tlsErr : Option Err) (e : Err)
      (hc : c.cl.isSome = true) (hfits : c.directClose = fresh t.rt) :
      Comes t conn (.refused c tlsErr e) { conn with checks := checks, c := c.close }
        (some (refusal tlsErr e))
  | established (checks : List PolicyCheck) (c : C) (mxLevel : MXLevel) (tlsLevel : TLSLevel)
      (hc : c.cl.isSome = true) :
      Comes t conn (.established c mxLevel tlsLevel)
        { conn with checks := checks, c := c, mxLevel := mxLevel, tlsLevel := tlsLevel } none

section Connect
variable {rt : Target} {net : Net} {cache : Option Cache} {record : Nat} {host : String} {c : C}
variable {tlsCfg : Option TLSConfig} {tlsLevel : TLSLevel} {left : Nat}

theorem hostname_of_directClose (hc : c.directClose = fresh rt) : c.hostname = rt.hostname :=
  congrArg C.hostname hc

theorem fresh_directClose (rt : Target) : (fresh rt).directClose = fresh rt := rfl

theorem attempt_fresh (hc : c.directClose = fresh rt)
    (hello : server.reply [] (.hello rt.hostname) = none) :
    attempt rt net (.ok server) host c tlsCfg tlsLevel tlsErr =
      attempt rt net (.ok server) host (fresh rt) tlsCfg tlsLevel tlsErr := by
  have hhost := hostname_of_directClose hc
  have hgreeted : greeted c host server [.hello c.hostname] =
      greeted (fresh rt) host server [.hello (fresh rt).hostname] := by
    calc greeted c host server [.hello c.hostname]
        = greeted c.directClose host server [.hello c.directClose.hostname] := rfl
      _ = greeted (fresh rt) host server [.hello (fresh rt).hostname] := by rw [hc]
  unfold attempt
  rw [connect_greeted (hhost ▸ hello),connect_greeted (c := fresh rt) hello,hgreeted]

theorem attempts_fresh (hc : c.directClose = fresh rt) (hr : reached rt net record host = true) :
    attempts rt net record host (left + 1) 0 c tlsCfg tlsLevel none =
      attempts rt net record host (left + 1) 0 (fresh rt) tlsCfg tlsLevel none := by
  unfold reached at hr
  unfold attempts
  cases hd : net.dial record 0 host with
  | error e => simp [hd] at hr
  | ok server =>
    rw [hd] at hr
    rw [attempt_fresh hc (Option.isNone_iff_eq_none.mp hr)]

theorem attempts_unreached (hc : c.directClose = fresh rt)
    (hr : reached rt net record host = false) :
    ∃ e, attempts rt net record host (left + 1) 0 c tlsCfg tlsLevel none = (c,.error e) := by
  have hhost := hostname_of_directClose hc
  unfold reached at hr
  unfold attempts attempt
  cases hd : net.dial record 0 host with
  | error e => exact ⟨_,rfl⟩
  | ok server =>
    rw [hd] at hr
    obtain ⟨e,he⟩ := Option.isSome_iff_exists.mp (Option.isNone_eq_false_iff.mp hr)
    simp only [C.connect,Client.send,hhost,he]
    exact ⟨_,rfl⟩

theorem connect_fresh (hc : c.directClose = fresh rt)
    (hr : reached rt net record (connectHost rt net cache host) = true) :
    Remote.connect rt net cache record c host =
      Remote.connect rt net cache record (fresh rt) host := by
  unfold Remote.connect
  dsimp only
  rw [attempts_fresh hc hr,attempts_fresh hc hr]

theorem connect_unreached (hc : c.directClose = fresh rt)
    (hr : reached rt net record (connectHost rt net cache host) = false) :
    ∃ e, Remote.connect rt net cache record c host = (c,.error e) := by
  unfold Remote.connect
  dsimp only
  split <;> exact attempts_unreached hc hr

theorem connect_leaves (h : Remote.connect rt net cache record (fresh rt) host = (c',res)) :
    (∀ e, res = .error e → c' = fresh rt) ∧
      (∀ level, res = .ok level → c'.cl.isSome = true ∧ c'.directClose = fresh rt) := by
  refine connect_rule (Q := fun c' res => (∀ e, res = .error e → c' = fresh rt) ∧
    (∀ level, res = .ok level → c'.cl.isSome = true ∧ c'.directClose = fresh rt)) ?_ h
  intro host tlsCfg tlsLevel c' res ha
  refine attempts_rule (I := fun c => c = fresh rt) (Q := fun c' res =>
    (∀ e, res = .error e → c' = fresh rt) ∧
      (∀ level, res = .ok level → c'.cl.isSome = true ∧ c'.directClose = fresh rt))
    ?_ ?_ ?_ 3 rfl ha
  · intro c e hc
    exact ⟨fun _ _ => hc,nofun⟩
  · intro dialled c tlsCfg tlsLevel tlsErr c' res hc hdone
    subst hc
    cases attempt_cases hdone with
    | unconnected e _ | refused e _ => exact ⟨fun _ _ => rfl,nofun⟩
    | plain _ _ | completed _ _ => exact ⟨nofun,fun _ _ => ⟨rfl,rfl⟩⟩
  · intro dialled c tlsCfg tlsLevel tlsErr c' cfg level err hc hretry
    subst hc
    cases attempt_cases hretry with
    | unverified _ _ _ => rfl
    | failed _ _ _ => rfl

end Connect

theorem isSome_close {c : C} (hc : c.cl.isSome = true) :
    c.close.cl.isSome = (c.ask .quit).2.isSome := by
  obtain ⟨cl,hcl⟩ := Option.isSome_iff_exists.mp hc
  rw [C.close,C.ask,hcl]
  dsimp only
  rcases cl.send .quit with ⟨cl',_ | e⟩ <;> rfl

theorem close_directClose (c : C) : c.close.directClose = c.directClose := by
  unfold C.close
  split
  · rfl
  · split
    · rfl
    · rfl

section Attempts
variable {t : Trial} {conn conn' : MxConn} {o : Outcome} {err : Option Err}

theorem attemptMX_comes (policies : List Nat) (cacheOverride : Bool)
    (hp : t.policies = if cacheOverride then [] else policies) (hf : t.Fits conn) (record : Nat)
    (mx : MX) :
    Comes t conn (t.outcome record mx)
      (attemptMX t.rt t.net t.cache policies record conn mx cacheOverride).1
      (attemptMX t.rt t.net t.cache policies record conn mx cacheOverride).2 := by
  obtain ⟨c₀,domain,dnssecOk,errored,reuseLimit,transactions,lastUseAt,mxLevel₀,tlsLevel₀,
    checks₀⟩ := conn
  obtain ⟨hc,hdomain,hdnssec⟩ := hf
  subst hdomain hdnssec
  unfold attemptMX
  rw [← hp]
  unfold Trial.outcome
  rcases hmx : consult .mx MXLevel.raise
    (fun p level => (t.net.policy record p).checkMX level t.domain mx.host t.dnssecOk)
    t.policies .none with ⟨checks,e | mxLevel⟩
  · simp only [Trial.checkMX,hmx]
    exact .unmade checks e
  · simp only [Trial.checkMX,hmx]
    cases hr : reached t.rt t.net record (connectHost t.rt t.net t.cache mx.host) with
    | false =>
      obtain ⟨e,he⟩ := connect_unreached hc hr
      obtain ⟨e',he'⟩ := connect_unreached (fresh_directClose t.rt) hr
      rw [he,he']
      exact .unmade checks e
    | true =>
      rw [connect_fresh hc hr]
      rcases hcon : Remote.connect t.rt t.net t.cache record (fresh t.rt) mx.host with
        ⟨c,e | ⟨tlsLevel,tlsErr⟩⟩
      · rw [(connect_leaves hcon).1 e rfl]
        exact .dropped checks e
      · obtain ⟨hsome,hclose⟩ := (connect_leaves hcon).2 _ rfl
        unfold checkConns Trial.checkConn
        dsimp only
        rcases consult .conn TLSLevel.raise
          (fun p level => (t.net.policy record p).checkConn mxLevel level t.domain mx.host c.tlsState)
          t.policies tlsLevel with ⟨checks',e | level⟩
        · exact .refused _ c tlsErr e hsome hclose
        · exact .established _ c mxLevel level hsome

theorem Comes.fits (h : Comes t conn o conn' (some e)) (hf : t.Fits conn) : t.Fits conn' := by
  cases h with
  | unmade checks e => exact ⟨hf.c,hf.domain,hf.dnssecOk⟩
  | dropped checks e => exact ⟨rfl,hf.domain,hf.dnssecOk⟩
  | refused checks c tlsErr e hc hfits =>
    exact ⟨(close_directClose c).trans hfits,hf.domain,hf.dnssecOk⟩

end Attempts

section Loop
variable {t : Trial} {conn conn' : MxConn} {policies : List Nat} {cacheOverride : Bool}
variable {record : Nat} {mx : MX} {records : List MX} {s s' : MxConn × Option Err}

def Trial.outcomes (t : Trial) : Nat → List MX → List Outcome
  | _, [] => []
  | record, mx :: rest => t.outcome record mx :: t.outcomes (record + 1) rest

def Trial.Stops (t : Trial) (record : Nat) (records : List MX) : Prop :=
  (∃ mx ∈ records, mx.host = ".") ∨
    ∃ c mxLevel tlsLevel, Outcome.established c mxLevel tlsLevel ∈ t.outcomes record records

variable (t : Trial) (policies : List Nat) (cacheOverride : Bool) in
/-- The attempts at these records fail, one after the other. -/
inductive Fails : Nat → MxConn × Option Err → List MX → MxConn × Option Err → Prop where
  | nil (record : Nat) (s : MxConn × Option Err) : Fails record s [] s
  | cons {record : Nat} {conn conn₁ : MxConn} {lastErr : Option Err} {s : MxConn × Option Err}
      {mx : MX} {rest : List MX} {e : Err} (hnull : mx.host ≠ ".")
      (h : attemptMX t.rt t.net t.cache policies record conn mx cacheOverride = (conn₁,some e))
      (hrest : Fails (record + 1) (conn₁,some e) rest s) :
      Fails record (conn,lastErr) (mx :: rest) s

/-- The attempt at one of these records succeeds, after those before it have failed,
and the connection has the levels that it has established. -/
def Uses (t : Trial) (policies : List Nat) (cacheOverride : Bool) (record : Nat)
    (s : MxConn × Option Err) (records : List MX) (conn' : MxConn) : Prop :=
  ∃ before mx after s₁ c, records = before ++ mx :: after ∧
    Fails t policies cacheOverride record s before s₁ ∧ mx.host ≠ "." ∧
    attemptMX t.rt t.net t.cache policies (record + before.length) s₁.1 mx cacheOverride =
      (conn',none) ∧
    t.outcome (record + before.length) mx = .established c conn'.mxLevel conn'.tlsLevel

theorem Trial.stops_cons (h : t.Stops (record + 1) rest) : t.Stops record (mx :: rest) := by
  obtain ⟨mx',hmem,hnull⟩ | ⟨c,mxLevel,tlsLevel,hmem⟩ := h
  · exact .inl ⟨mx',mem_cons_of_mem _ hmem,hnull⟩
  · exact .inr ⟨c,mxLevel,tlsLevel,mem_cons_of_mem _ hmem⟩

theorem Fails.not_stops (hp : t.policies = if cacheOverride then [] else policies)
    (h : Fails t policies cacheOverride record s records s') (hf : t.Fits s.1) :
    ¬t.Stops record records := by
  induction h with
  | nil record s =>
    intro hs
    obtain ⟨mx,hmem, -⟩ | ⟨c,mxLevel,tlsLevel,hmem⟩ := hs <;> cases hmem
  | @cons record conn conn₁ lastErr s mx rest e hnull h _ ih =>
    have hcomes := attemptMX_comes policies cacheOverride hp hf record mx
    rw [h] at hcomes
    have hno := ih (hcomes.fits hf)
    intro hs
    obtain ⟨mx',hmem,hnull'⟩ | ⟨c,mxLevel,tlsLevel,hmem⟩ := hs
    · rcases mem_cons.mp hmem with rfl | hmem
      · exact hnull hnull'
      · exact hno (.inl ⟨mx',hmem,hnull'⟩)
    · rcases mem_cons.mp hmem with heq | hmem
      · rw [← heq] at hcomes
        cases hcomes
      · exact hno (.inr ⟨c,mxLevel,tlsLevel,hmem⟩)

theorem Fails.keeps (hp : t.policies = if cacheOverride then [] else policies)
    (h : Fails t policies cacheOverride record s records s') (hf : t.Fits s.1) :
    t.Fits s'.1 ∧ s'.1.mxLevel = s.1.mxLevel ∧ s'.1.tlsLevel = s.1.tlsLevel := by
  induction h with
  | nil record s => exact ⟨hf,rfl,rfl⟩
  | @cons record conn conn₁ lastErr s mx rest e hnull h _ ih =>
    have hcomes := attemptMX_comes policies cacheOverride hp hf record mx
    rw [h] at hcomes
    obtain ⟨hfits,hmx,htls⟩ := ih (hcomes.fits hf)
    rw [hmx,htls]
    generalize t.outcome record mx = o at hcomes
    cases hcomes with
    | unmade | dropped | refused => exact ⟨hfits,rfl,rfl⟩

theorem Fails.last (h : Fails t policies cacheOverride record s (init ++ [mx]) s') :
    ∃ s₁ e, Fails t policies cacheOverride record s init s₁ ∧
      attemptMX t.rt t.net t.cache policies (record + init.length) s₁.1 mx cacheOverride =
        (s'.1,some e) ∧ s'.2 = some e := by
  induction init generalizing record s with
  | nil =>
    cases h with
    | cons hnull h hrest =>
      cases hrest with
      | nil => exact ⟨_,_,.nil record _,h,rfl⟩
  | cons mx' init ih =>
    cases h with
    | cons hnull h hrest =>
      obtain ⟨s₁,e,hinit,hlast,he⟩ := ih hrest
      have hindex : record + 1 + init.length = record + (mx' :: init).length := by
        rw [length_cons]
        omega
      rw [hindex] at hlast
      exact ⟨s₁,e,.cons hnull h hinit,hlast,he⟩

variable (t : Trial) (policies : List Nat) (cacheOverride : Bool) (record : Nat)
  (s : MxConn × Option Err) (records : List MX) in
/-- How the loop of `newConn` ends: at a null MX, with a connection, or after every
attempt has failed. -/
inductive Ended : Except Err (MxConn × Option Err) → Prop where
  | null (e : Err) (h : ∃ mx ∈ records, mx.host = ".") :
      Ended (.error e)
  | used (s' : MxConn × Option Err) (hcl : s'.1.c.cl.isSome = true) (hs : t.Stops record records)
      (h : Uses t policies cacheOverride record s records s'.1) :
      Ended (.ok s')
  | failed (s' : MxConn × Option Err) (h : Fails t policies cacheOverride record s records s') :
      Ended (.ok s')

theorem attemptMXs_ended (hp : t.policies = if cacheOverride then [] else policies)
    (records : List MX) (record : Nat) (lastErr : Option Err) (hf : t.Fits conn) :
    Ended t policies cacheOverride record (conn,lastErr) records
      (attemptMXs t.rt t.net t.cache policies cacheOverride record records conn lastErr) := by
  induction records generalizing record conn lastErr with
  | nil => exact .failed _ (.nil record _)
  | cons mx rest ih =>
    unfold attemptMXs
    by_cases hnull : mx.host = "."
    · rw [if_pos hnull]
      exact .null _ ⟨mx,mem_cons_self,hnull⟩
    · rw [if_neg hnull]
      have hcomes := attemptMX_comes policies cacheOverride hp hf record mx
      rcases ha : attemptMX t.rt t.net t.cache policies record conn mx cacheOverride with
        ⟨conn₁,_ | e⟩
      · rw [ha] at hcomes
        generalize ho : t.outcome record mx = o at hcomes
        cases hcomes with
        | established checks c mxLevel tlsLevel hc =>
          refine .used _ hc (.inr ⟨c,mxLevel,tlsLevel,?_⟩) ?_
          · rw [← ho]
            exact mem_cons_self
          · exact ⟨[],mx,rest,_,c,rfl,.nil record _,hnull,ha,ho⟩
      · rw [ha] at hcomes
        dsimp only
        have hended := ih (record + 1) (some e) (hcomes.fits hf)
        generalize attemptMXs t.rt t.net t.cache policies cacheOverride (record + 1) rest conn₁
          (some e) = res at hended ⊢
        cases hended with
        | null e' h =>
          obtain ⟨mx',hmem,hnull'⟩ := h
          exact .null e' ⟨mx',mem_cons_of_mem _ hmem,hnull'⟩
        | used s' hcl hs h =>
          obtain ⟨before,mx',after,s₁,c,hrecords,hfails,hnull',hatt,hout⟩ := h
          have hindex : record + 1 + before.length = record + (mx :: before).length := by
            rw [length_cons]
            omega
          rw [hindex] at hatt hout
          exact .used s' hcl (t.stops_cons hs)
            ⟨mx :: before,mx',after,s₁,c,by rw [hrecords]; rfl,.cons hnull ha hfails,
              hnull',hatt,hout⟩
        | failed s' h => exact .failed s' (.cons hnull ha h)

end Loop

end Madmail.Proofs.MXAttempts
