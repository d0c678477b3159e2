import Madmail.Proofs.RemoteBooks

namespace Madmail.Proofs.ConnReuse
open Exterrors Madmail.Module Remote Smtpconn EndpointCache Lib RemoteSteps List

variable {rt : Target} {net : Net} {cache : Option Cache} {w w' : World} {a : Action}
  {rd rd' : Delivery} {conn conn' : MxConn} {c c' : C}

/-- Every policy of the target was asked about the MX and about the connection, and
had no objection. -/
def Verified (rt : Target) (conn : MxConn) : Prop :=
  ∀ p ∈ rt.policies, ⟨p,.mx,true⟩ ∈ conn.checks ∧ ⟨p,.conn,true⟩ ∈ conn.checks

/-- Messages that turn no policies off, to domains without an override, went only
over connections that the policies had verified. -/
def Applied (rt : Target) (w : World) : Prop :=
  ∀ e ∈ w.sent, ∀ conn, e.via = .smtp conn → e.overridden = false → e.cacheOverride = false →
    Verified rt conn

def takenForOverride (rt : Target) (cache : Option Cache) (domain : String) : Bool :=
  match addressLiteral rt domain with
  | some host => (addressMX cache host).2.2
  | none => if rt.isIP domain then (addressMX cache domain).2.2 else hasOverride cache domain

theorem lookupMX_override
    (h : lookupMX rt net cache domain = .ok (dnssecOk,records,cacheOverride)) :
    cacheOverride = takenForOverride rt cache domain := by
  unfold lookupMX at h
  unfold takenForOverride
  cases hl : addressLiteral rt domain with
  | some host =>
    rw [hl] at h
    exact (congrArg (fun r => r.2.2) (Except.ok.inj h)).symm
  | none =>
    rw [hl] at h
    by_cases hip : rt.isIP domain = true
    · rw [if_pos hip] at h ⊢
      exact (congrArg (fun r => r.2.2) (Except.ok.inj h)).symm
    · rw [if_neg hip] at h ⊢
      unfold hasOverride
      change (match cache.bind (fun cache => cache.override domain) with
        | some target => _
        | none => _) = _ at h
      cases ho : cache.bind (fun cache => cache.override domain) with
      | some target =>
        rw [ho] at h
        cases h
        rfl
      | none =>
        rw [ho] at h
        cases hr : resolverMX rt net domain with
        | error e =>
          rw [hr] at h
          cases h
        | ok res =>
          rw [hr] at h
          cases h
          rfl

def Shut (c : C) : Prop := ∀ cl, c.cl = some cl → cl.closed = true

theorem Shut.of_none (h : c.cl = none) : Shut c := by
  intro cl hcl
  rw [h] at hcl
  cases hcl

theorem shut_close (c : C) : Shut c.close := by
  unfold C.close
  cases h : c.cl with
  | none => exact .of_none h
  | some cl =>
    dsimp only
    rcases cl.send .quit with ⟨cl',_ | e⟩
    · exact .of_none rfl
    · intro cl'' hcl
      cases hcl
      rfl

theorem Shut.ask (h : Shut c) (cmd : Command) : (c.ask cmd).2 ≠ none := by
  unfold C.ask
  cases hc : c.cl with
  | none => exact Option.some_ne_none _
  | some cl =>
    dsimp only
    unfold Client.send
    rw [if_pos (h cl hc)]
    exact Option.some_ne_none _

theorem not_shut_of_mail (h : c.mail env mailFrom opts = (c',none)) : ¬ Shut c := by
  intro hs
  unfold C.mail at h
  dsimp only at h
  split at h
  · cases h
  · rename_i spelling _
    have hask := hs.ask (.mail spelling { utf8 := opts.utf8 && c.extension "SMTPUTF8",
                                          requireTLS := opts.requireTLS })
    have hnone := congrArg Prod.snd h
    exact hask (Option.map_eq_none_iff.mp hnone)

theorem attempt_shut (hs : Shut c)
    (h : attempt rt net dialled host c tlsCfg tlsLevel tlsErr = (c',res))
    (hres : ∀ r, res ≠ .done (.ok r)) : Shut c' := by
  cases attempt_cases h with
  | unconnected e _ => exact hs
  | plain _ _ | completed _ _ => exact absurd rfl (hres _)
  | refused e _ | unverified _ _ _ | failed _ _ _ => exact .of_none rfl

theorem connect_shut (hs : Shut c) (h : Remote.connect rt net cache record c host = (c',.error e)) :
    Shut c' := by
  refine connect_rule (Q := fun c res => (∃ e, res = .error e) → Shut c)
    (fun host tlsCfg tlsLevel c' res h => ?_) h ⟨e,rfl⟩
  refine attempts_rule (I := Shut) (Q := fun c res => (∃ e, res = .error e) → Shut c)
    (fun c e hs _ => hs) ?_ ?_ 3 hs h
  · rintro dialled c tlsCfg tlsLevel tlsErr c' res hs ha ⟨e,rfl⟩
    exact attempt_shut hs ha nofun
  · intro dialled c tlsCfg tlsLevel tlsErr c' cfg level err hs ha
    exact attempt_shut hs ha nofun

theorem consult_ok (ps : List Nat) {checks : List PolicyCheck}
    (h : consult kind raise ask ps level = (checks,.ok level')) :
    ∀ p ∈ ps, ⟨p,kind,true⟩ ∈ checks := by
  induction ps generalizing level checks with
  | nil => exact nofun
  | cons q rest ih =>
    unfold consult at h
    cases hq : ask q level with
    | error e =>
      rw [hq] at h
      cases h
    | ok policyLevel =>
      rw [hq] at h
      dsimp only at h
      rcases hc : consult kind raise ask rest (raise level policyLevel) with ⟨checks',res⟩
      rw [hc] at h
      cases h
      intro p hp
      rcases mem_cons.mp hp with rfl | hp
      · exact mem_cons_self
      · exact mem_cons_of_mem _ (ih hc p hp)

theorem attemptMX_cases (hs : Shut conn.c)
    (h : attemptMX rt net cache rt.policies record conn mx false = (conn',err)) :
    (err = none ∧ Verified rt conn') ∨ (err ≠ none ∧ Shut conn'.c) := by
  unfold attemptMX at h
  dsimp only at h
  rw [if_neg (by simp)] at h
  rcases hmx : consult .mx MXLevel.raise
    (fun p level => (net.policy record p).checkMX level conn.domain mx.host conn.dnssecOk)
    rt.policies .none with ⟨checks,e | mxLevel⟩
  · rw [hmx] at h
    cases h
    exact .inr ⟨Option.some_ne_none _,hs⟩
  · rw [hmx] at h
    dsimp only at h
    rcases hc : Remote.connect rt net cache record conn.c mx.host with ⟨c₁,e | ⟨tlsLevel,tlsErr⟩⟩ <;>
      rw [hc] at h
    · cases h
      exact .inr ⟨Option.some_ne_none _,connect_shut hs hc⟩
    · dsimp only [checkConns] at h
      rcases hconn : consult .conn TLSLevel.raise
        (fun p level => (net.policy record p).checkConn mxLevel level conn.domain mx.host c₁.tlsState)
        rt.policies tlsLevel with ⟨checks',e | level⟩
      · rw [hconn] at h
        cases h
        exact .inr ⟨Option.some_ne_none _,shut_close _⟩
      · rw [hconn] at h
        cases h
        refine .inl ⟨rfl,fun p hp => ⟨?_,?_⟩⟩
        · exact mem_append_left _ (consult_ok rt.policies hmx p hp)
        · exact mem_append_right _ (consult_ok rt.policies hconn p hp)

theorem newConn_verified (hover : takenForOverride rt cache domain = false)
    (h : newConn rt net cache rt.policies now domain = .ok conn) :
    Verified rt conn ∨ Shut conn.c := by
  obtain ⟨dnssecOk,records,cacheOverride,lastErr,hl,hm⟩ := newConn_cases h
  have hfalse : cacheOverride = false := (lookupMX_override hl).trans hover
  rw [hfalse] at hm
  refine attemptMXs_rule (Q := Verified rt) (I := fun conn => Shut conn.c)
    (fun _ _ _ _ hs ha => ?_) (fun _ _ _ _ _ hs ha => ?_) records (.of_none rfl) hm
  · rcases attemptMX_cases hs ha with ⟨-,hv⟩ | ⟨hne, -⟩
    · exact hv
    · exact absurd rfl hne
  · rcases attemptMX_cases hs ha with ⟨hnone, -⟩ | ⟨-,hs'⟩
    · cases hnone
    · exact hs'

theorem usable_checks (conn : MxConn) : conn.usable.1.checks = conn.checks := by
  unfold MxConn.usable
  split <;> rfl

/-- For a domain without an override the connection is verified. -/
def Stands (rt : Target) (cache : Option Cache) (domain : String) (conn : MxConn) : Prop :=
  hasOverride cache domain = false → Verified rt conn

theorem Stands.asked (h : Stands rt cache domain conn) : Stands rt cache domain conn.usable.1 := by
  unfold Stands Verified at h ⊢
  rwa [usable_checks]

def Vetted (rt : Target) : Routine → Prop
  | .connected conn => Verified rt conn
  | r => ∀ conn, r.holds = some conn → Verified rt conn ∨ Shut conn.c

/-- What holds of a delivery whose message turns no policies off. -/
structure Vetting (rt : Target) (cache : Option Cache) (rd : Delivery) : Prop where
  policies : rd.policies = rt.policies
  routines : ∀ domain r, rd.routines domain = some r → hasOverride cache domain = false →
    Vetted rt r
  connections : rd.phase ≠ .closed → ∀ domain conn, rd.connections domain = some conn →
    Stands rt cache domain conn

/-- A connection to the domain is in the pool or with a delivery that is not at its end. -/
def InUse (w : World) (domain : String) : Prop :=
  (∃ bucket, (domain,bucket) ∈ w.pool.slots ∧ bucket.conns ≠ []) ∨
  ∃ (i : Nat) (rd : Delivery), w.deliveries[i]? = some rd ∧
    ((∃ r, rd.routines domain = some r ∧ r.holds ≠ none) ∨
      (rd.phase ≠ .closed ∧ rd.connections domain ≠ none))

/-- A message that turns the policies off puts no connection into the pool, a domain is
taken for an override only if the cache has one for it, and no override is removed while
a connection of its domain is in use. -/
def Vets (rt : Target) (w : World) : Action → Prop
  | .go i domain (.acquire _ _) => ∀ rd, w.deliveries[i]? = some rd →
      overridden rt rd.msgMeta = false → hasOverride w.cache domain = false →
      takenForOverride rt w.cache domain = false
  | .close i order _ => ∀ rd, w.deliveries[i]? = some rd → overridden rt rd.msgMeta = true →
      ∀ domain ∈ order, ∀ conn, rd.connections domain = some conn →
      hasOverride w.cache domain = false →
      { conn with transactions := conn.transactions + 1 }.usable.2 = false
  | .setCache cache => ∀ domain, hasOverride w.cache domain = true →
      hasOverride cache domain = false → ¬ InUse w domain
  | _ => True

theorem start_vetting (h : Remote.start rt msgMeta mailFrom none = .ok rd)
    (hover : overridden rt rd.msgMeta = false) : Vetting rt cache rd := by
  unfold Remote.start at h
  split at h
  · cases h
  · cases h
    exact ⟨by rw [hover]; rfl,fun _ _ => nofun,fun _ _ _ => nofun⟩

theorem acquire_vetted (hpool : pool.All (Stands rt cache)) (hpol : rd.policies = rt.policies)
    (hcache : hasOverride cache domain = false) (hover : takenForOverride rt cache domain = false)
    (h : acquire rt cache pool rd domain net now = (pool',.ok conn)) :
    Verified rt conn ∨ Shut conn.c := by
  obtain ⟨-,⟨conn',hfound,heq⟩ | hnew⟩ := acquire_cases h
  · cases heq
    exact .inl ((hpool.get _ _ _ _ fun _ hs => hs.asked).2 conn hfound hcache)
  · rw [hpol] at hnew
    exact newConn_verified hover hnew

theorem moves_pool (hpool : pool.All (Stands rt cache)) (hm : Moves rt cache pool rd domain r st m) :
    m.pool.All (Stands rt cache) := by
  have hacquired : ∀ {net now pool' res}, acquire rt cache pool rd domain net now = (pool',res) →
      pool'.All (Stands rt cache) := by
    intro net now pool' res h
    rw [(acquire_cases h).1]
    exact (hpool.get _ _ _ _ fun _ hs => hs.asked).1
  cases hm with
  | noConn net now pool' e h | acquire net now pool' conn h => exact hacquired h
  | _ => exact hpool

/-- A goroutine of a vetted delivery. -/
theorem go_vetted (hok : Vets rt w (.go i domain st)) (hi : w.deliveries[i]? = some rd)
    (hm : Moves rt w.cache w.pool rd domain r st m) (hpool : w.pool.All (Stands rt w.cache))
    (hover : overridden rt rd.msgMeta = false) (hcache : hasOverride w.cache domain = false)
    (hpol : rd.policies = rt.policies) (hv : Vetted rt r) :
    Vetted rt m.routine ∧ (∀ conn, m.connection = some conn → Verified rt conn) ∧
      ∀ conn, .smtp conn ∈ m.sent → Verified rt conn := by
  have hnone : ∀ conn, none = some conn → Verified rt conn := fun _ => nofun
  have hnil : ∀ conn, Via.smtp conn ∈ [] → Verified rt conn := fun _ => nofun
  cases hm with
  | http env tried htried =>
    refine ⟨?_,hnone,fun conn hc => ?_⟩
    · split
      · exact fun _ => nofun
      · exact fun _ => nofun
    · obtain ⟨request, -,hreq⟩ := mem_map.mp hc
      cases hreq
  | noConn net now pool' e h | refused conn takeDest e | noMail conn now e =>
    exact ⟨fun _ => nofun,hnone,hnil⟩
  | acquire net now pool' conn h =>
    refine ⟨fun conn' hc => ?_,hnone,hnil⟩
    cases hc
    exact acquire_vetted hpool hpol hcache (hok rd hi hover hcache) h
  | check conn h | relax conn => exact ⟨hv,hnone,hnil⟩
  | mail conn now c h =>
    have hver : Verified rt conn := by
      rcases hv conn rfl with hver | hshut
      · exact hver
      · exact absurd hshut (not_shut_of_mail h)
    refine ⟨hver,fun conn' hc => ?_,hnil⟩
    rw [← Option.some.inj hc]
    exact hver
  | transfer conn conn' reading now statuses out h =>
    obtain ⟨c,errored,lastUseAt,rfl⟩ := transfer_keeps h
    refine ⟨fun _ => nofun,fun conn'' hc => ?_,fun conn'' hc => ?_⟩
    · rw [← Option.some.inj hc]
      exact hv
    · split at hc
      · cases mem_singleton.mp hc
        exact hv
      · cases hc

theorem changes_vetting (hok : Vets rt w a) (hi : w.deliveries[i]? = some rd)
    (hpool : w.pool.All (Stands rt w.cache)) (hc : Changes rt w i rd a rd' pool sent)
    (hv : overridden rt rd.msgMeta = false → Vetting rt w.cache rd) :
    overridden rt rd'.msgMeta = false → Vetting rt w.cache rd' := by
  cases hc with
  | addRcpt rcptTo hphase =>
    obtain ⟨domains,rcptsByDomain,recipients,heq⟩ := addRcpt_keeps rd rcptTo
    rw [heq]
    exact fun hover => ⟨(hv hover).policies,(hv hover).routines,(hv hover).connections⟩
  | quarantine =>
    exact fun hover => ⟨(hv hover).policies,(hv hover).routines,(hv hover).connections⟩
  | body message hphase =>
    have hopen : rd.phase ≠ .closed := by rw [hphase]; exact nofun
    unfold Delivery.startBody
    split
    · exact fun hover => ⟨(hv hover).policies,(hv hover).routines,
        fun _ => (hv hover).connections hopen⟩
    · refine fun hover => ⟨(hv hover).policies,fun domain r hr _ => ?_,
        fun _ => (hv hover).connections hopen⟩
      dsimp only at hr
      split at hr
      · cases hr
        exact fun _ => nofun
      · cases hr
  | go domain r st m hr hm =>
    intro hover
    obtain ⟨hpol,hvet,hconns⟩ := hv hover
    have hgo := fun hcache => go_vetted hok hi hm hpool hover hcache hpol (hvet domain r hr hcache)
    refine ⟨hpol,fun other r' hr' hcache => ?_,fun hphase other conn hconn hcache => ?_⟩
    · simp only [Delivery.moved,Function.update_apply] at hr'
      split at hr'
      · rename_i heq
        cases hr'
        exact (hgo (heq ▸ hcache)).1
      · exact hvet other r' hr' hcache
    · simp only [Delivery.moved] at hconn
      cases hmc : m.connection with
      | none =>
        rw [hmc] at hconn
        exact hconns hphase other conn hconn hcache
      | some conn' =>
        rw [hmc] at hconn
        simp only [Function.update_apply] at hconn
        split at hconn
        · rename_i heq
          cases hconn
          exact (hgo (heq ▸ hcache)).2.1 conn hmc
        · exact hconns hphase other conn hconn hcache
  | close order now hidle =>
    exact fun hover => ⟨(hv hover).policies,(hv hover).routines,fun h => absurd rfl h⟩

theorem release_stands (hpool : pool.All (Stands rt cache)) (hdomain : conn.domain = domain)
    (h : { conn with transactions := conn.transactions + 1 }.usable.2 = true →
      Stands rt cache domain conn) :
    (release rt now pool conn).All (Stands rt cache) := by
  have hsame : ({ conn with transactions := conn.transactions + 1 } : MxConn).usable.1.domain =
      conn.domain := by
    unfold MxConn.usable
    split <;> rfl
  have hchecks := usable_checks { conn with transactions := conn.transactions + 1 }
  unfold release
  rcases hu : ({ conn with transactions := conn.transactions + 1 } : MxConn).usable with ⟨conn',_ | _⟩
  · exact hpool
  · rw [hu] at hsame hchecks
    refine hpool.returnConn rt.pool now ?_
    rw [hsame,hdomain]
    have hstands := h (congrArg Prod.snd hu)
    unfold Stands Verified at hstands ⊢
    rwa [hchecks]

theorem changes_pool (hok : Vets rt w a) (hi : w.deliveries[i]? = some rd)
    (hb : RemoteBooks.Booked rd) (hpool : w.pool.All (Stands rt w.cache))
    (hc : Changes rt w i rd a rd' pool sent)
    (hv : overridden rt rd.msgMeta = false → Vetting rt w.cache rd) :
    pool.All (Stands rt w.cache) := by
  cases hc with
  | go domain r st m hr hm => exact moves_pool hpool hm
  | close order now hidle hopen =>
    refine foldlRecOn _ _ hpool fun pool hpool conn hconn => ?_
    obtain ⟨domain,horder,hd⟩ := mem_filterMap.mp hconn
    refine release_stands hpool (hb.connections domain conn hd).domain fun husable hcache => ?_
    cases hover : overridden rt rd.msgMeta with
    | false => exact (hv hover).connections hopen domain conn hd hcache
    | true =>
      have hno := hok rd hi hover domain horder conn hd hcache
      rw [husable] at hno
      cases hno
  | _ => exact hpool

structure Inv (rt : Target) (w : World) : Prop where
  books : RemoteBooks.Inv w
  vetting : ∀ (i : Nat) rd, w.deliveries[i]? = some rd → overridden rt rd.msgMeta = false →
    Vetting rt w.cache rd
  pool : w.pool.All (Stands rt w.cache)
  applied : Applied rt w

/-- A domain that loses its override has no connection in use. -/
theorem setCache_inv (hinv : Inv rt w) (hok : Vets rt w (.setCache cache)) :
    (∀ (i : Nat) rd, w.deliveries[i]? = some rd → overridden rt rd.msgMeta = false →
      Vetting rt cache rd) ∧ w.pool.All (Stands rt cache) := by
  have hwas : ∀ {domain}, hasOverride cache domain = false →
      InUse w domain → hasOverride w.cache domain = false := by
    intro domain hnow huse
    cases hbefore : hasOverride w.cache domain with
    | false => rfl
    | true => exact absurd huse (hok domain hbefore hnow)
  refine ⟨fun i rd hi hover => ?_,fun domain bucket hm conn hconn hnow => ?_⟩
  · obtain ⟨hpol,hvet,hconns⟩ := hinv.vetting i rd hi hover
    refine ⟨hpol,fun domain r hr hnow => ?_,fun hphase domain conn hconn hnow => ?_⟩
    · by_cases hnone : r.holds = none
      · cases r with
        | connected conn => cases hnone
        | _ => exact fun conn hc => by rw [hnone] at hc; cases hc
      · exact hvet domain r hr (hwas hnow (.inr ⟨i,rd,hi,.inl ⟨r,hr,hnone⟩⟩))
    · have hsome : rd.connections domain ≠ none := by rw [hconn]; exact Option.some_ne_none _
      exact hconns hphase domain conn hconn (hwas hnow (.inr ⟨i,rd,hi,.inr ⟨hphase,hsome⟩⟩))
  · exact hinv.pool domain bucket hm conn hconn
      (hwas hnow (.inl ⟨bucket,hm,ne_nil_of_mem hconn⟩))

theorem step_inv (hinv : Inv rt w) (hok : Vets rt w a) (h : step rt w a = some w') :
    Inv rt w' := by
  have hbooks := RemoteBooks.step_inv hinv.books h
  have hs := steps_of_step h
  have hdel := hs.deliveries hinv.vetting (fun _ _ _ hstart hover => start_vetting hstart hover)
    fun i rd rd' pool sent hi hc hv => changes_vetting hok hi hinv.pool hc hv
  cases hs with
  | start msgMeta mailFrom rd h => exact ⟨hbooks,hdel,hinv.pool,hinv.applied⟩
  | cleanUp now => exact ⟨hbooks,hdel,hinv.pool.remove _,hinv.applied⟩
  | setCache cache => exact ⟨hbooks,(setCache_inv hinv hok).1,(setCache_inv hinv hok).2,hinv.applied⟩
  | change i rd rd' pool sent hi hc =>
    have hpool : pool.All (Stands rt w.cache) :=
      changes_pool hok hi (hinv.books.booked i rd hi) hinv.pool hc (hinv.vetting i rd hi)
    refine ⟨hbooks,hdel,hpool,fun e he conn hvia hover hcache => ?_⟩
    rcases mem_append.mp he with hold | hnew
    · exact hinv.applied e hold conn hvia hover hcache
    · cases hc with
      | go domain r st m hr hm =>
        obtain ⟨via,hm',rfl⟩ := mem_map.mp hnew
        obtain ⟨hpol,hvet, -⟩ := hinv.vetting i rd hi hover
        have hgo := go_vetted hok hi hm hinv.pool hover hcache hpol (hvet domain r hr hcache)
        exact hgo.2.2 conn (hvia ▸ hm')
      | _ => cases hnew

/-- In a run whose steps vet their connections, the policies are applied
everywhere. -/
theorem vetted_run_applies_policies (acts : List Action) (w : World)
    (hok : Meets (step rt) (Vets rt) {} acts) (hrun : run (step rt) {} acts = some w) :
    Applied rt w := by
  have hinit : Inv rt {} :=
    ⟨RemoteBooks.inv_init,fun i rd h => by simp at h,nofun,fun e he => by simp at he⟩
  exact (run_invariant_of_meets (fun _ _ _ hi hok h => step_inv hi hok h) hinit hok hrun).applied

def rejectingNet (server : Server) : Net :=
  Net.plain
    { checkMX := fun _ _ _ _ => .ok .none
      checkConn := fun _ _ _ _ _ => .error (.leaf "not authenticated" none) }
    server

/-- A delivery of one message by SMTP, from its start to its end. -/
def wholeDelivery (i : Nat) (msgMeta : MsgMetadata) (net : Net) : List Action :=
  handOver i msgMeta ["ann@example.net"] ++ sendBySMTP i "example.net" net ++
    [.close i ["example.net"] 0]

def emptyCache : Cache :=
  { find := fun _ => .ok none
    toLower := fun text => String.ofList (text.toList.map Char.toLower)
    isIP := fun _ => true }

def addressTarget : Target := { Target.plain with isIP := fun text => text == "2001:DB8::1" }

/-- A delivery to an address that the cache spells otherwise, to the end of its only
transaction. -/
def toAddress : List Action :=
  .setCache (some emptyCache) :: handOver 0 { id := "m1" } ["ann@[2001:DB8::1]"] ++
    sendBySMTP 0 "[2001:DB8::1]" (rejectingNet (serverWith []))

/-- Policies are bypassed: the first message turns them off, and the second one uses
its connection. They are bypassed without reuse too, by a domain that is an IPv6
address in upper case. -/
theorem policies_bypassed :
    (¬ ∀ (rt : Target) (acts : List Action) (w : World),
      run (step rt) {} acts = some w → Applied rt w) ∧
    ¬ ∀ (rt : Target) (acts : List Action) (w : World),
      (∀ i order now, .close i order now ∉ acts) →
      run (step rt) {} acts = some w → Applied rt w := by
  constructor
  · intro h
    have hsent := h Target.plain
      (wholeDelivery 0 { id := "m1", tlsRequireOverride := true } (rejectingNet (serverWith [])) ++
        wholeDelivery 1 { id := "m2" } (rejectingNet (serverWith []))) _ rfl
    have hver := hsent _ (mem_cons_of_mem _ mem_cons_self) _ rfl rfl rfl 0
      mem_cons_self
    exact not_mem_nil hver.1
  · intro h
    have hsent := h addressTarget toAddress _
      (fun i order now => by simp [toAddress,handOver,sendBySMTP,openBySMTP,checkBySMTP]) rfl
    have hver := hsent _ mem_cons_self _ rfl rfl rfl 0 mem_cons_self
    exact not_mem_nil hver.1

/-- A server that takes one transaction only. -/
def onceOnly : Server :=
  { serverWith [] with
    reply := fun _ cmd =>
      match cmd with
      | .reset => some (.goSmtp { code := 421, enhancedCode := ⟨4,3,2⟩, message := "Bye" })
      | _ => none }

/-- The connection of the first message, which turns the policies off, cannot be used
again. The third one goes over that of the second. -/
def reuse : List Action :=
  wholeDelivery 0 { id := "m1", tlsRequireOverride := true } (rejectingNet onceOnly) ++
    wholeDelivery 1 { id := "m2" } (Net.plain (.accepting .none) (serverWith [])) ++
    wholeDelivery 2 { id := "m3" } (Net.plain (.accepting .none) (serverWith []))

theorem opening_vets (i : Nat) (msgMeta : MsgMetadata) (net : Net) :
    ∀ a ∈ handOver i msgMeta ["ann@example.net"] ++ sendBySMTP i "example.net" net,
      ∀ w, Vets Target.plain w a := by
  intro a ha w
  simp only [handOver,sendBySMTP,openBySMTP,checkBySMTP,map_cons,map_nil,cons_append,nil_append,
    mem_cons,not_mem_nil,or_false] at ha
  rcases ha with rfl | rfl | rfl | rfl | rfl | rfl | rfl | rfl | rfl
  case inr.inr.inr.inr.inl => exact fun rd _ _ hcache => hcache
  all_goals trivial

theorem reuse_vets : Meets (step Target.plain) (Vets Target.plain) {} reuse := by
  refine meets_append (meets_append ?_ fun t ht => ?_) fun t ht => ?_
  all_goals
    refine meets_append (meets_of_free (opening_vets _ _ _)) fun u hu => ⟨?_,fun _ _ => trivial⟩
  · cases hu
    rintro rd ⟨⟩ - domain hd conn hconn -
    cases mem_singleton.mp hd
    cases hconn
    rfl
  all_goals
    cases ht
    cases hu
    rintro rd ⟨⟩ ⟨⟩

theorem verified_connection_reused :
    Meets (step Target.plain) (Vets Target.plain) {} reuse ∧
      ∃ w, run (step Target.plain) {} reuse = some w ∧ w.sent.length = 3 ∧
        Applied Target.plain w :=
  ⟨reuse_vets,_,rfl,rfl,vetted_run_applies_policies reuse _ reuse_vets rfl⟩

end Madmail.Proofs.ConnReuse
