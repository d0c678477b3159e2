import Madmail.Remote.Delivery

namespace Madmail.Proofs.RemoteSteps
open Exterrors Madmail.Module Remote Smtpconn EndpointCache Lib List

variable {rt : Target} {cache : Option Cache} {pool : Pool.P MxConn} {rd rd' : Delivery}
  {domain : String} {r : Routine} {st : Step} {m : Move} {w w' : World} {a : Action}

theorem addRcpt_keeps (rd : Delivery) (rcptTo : String) :
    ∃ domains rcptsByDomain recipients, (rd.addRcpt rcptTo).1 =
      { rd with domains := domains, rcptsByDomain := rcptsByDomain, recipients := recipients } := by
  unfold Delivery.addRcpt
  repeat' split
  all_goals exact ⟨_,_,_,rfl⟩

theorem transfer_keeps (h : transfer env conn rcptsTo msg reading now = (conn',statuses,out)) :
    ∃ c errored lastUseAt, conn' =
      { conn with c := c, errored := errored, lastUseAt := lastUseAt } := by
  unfold transfer at h
  dsimp only at h
  split at h
  all_goals
    cases h
    exact ⟨_,_,_,rfl⟩

section Opening
variable {net : Net} {conn conn' : MxConn} {policies : List Nat} {cacheOverride : Bool}

def greeted (c : C) (host : String) (server : Server) (log : List Command) : C :=
  { c with
    serverName := host
    cl := some { server := server, log := log, ext := server.extension log } }

/-- A server that lets itself be greeted, offers STARTTLS and accepts it. -/
structure StartsTLS (server : Server) (hostname : String) (skip : Bool) : Prop where
  hello : server.reply [] (.hello hostname) = none
  offered : server.extension [.hello hostname] "STARTTLS" = true
  accepted : server.reply [.hello hostname] (.startTLS skip) = none

inductive Attempted (rt : Target) (net : Net) (host : String) (c : C) :
    Except Err Server → Option TLSConfig → TLSLevel → Option Err → C → Attempt → Prop
  | unconnected (e : Err)
      (h : ∀ server, dialled = .ok server → server.reply [] (.hello c.hostname) ≠ none) :
      Attempted rt net host c dialled tlsCfg tlsLevel tlsErr c (.done (.error e))
  | plain (hello : server.reply [] (.hello c.hostname) = none)
      (h : tlsCfg = none ∨ server.extension [.hello c.hostname] "STARTTLS" = false) :
      Attempted rt net host c (.ok server) tlsCfg tlsLevel tlsErr
        (greeted c host server [.hello c.hostname]) (.done (.ok (.none,tlsErr)))
  | refused (e : Err)
      (h : server.reply [.hello c.hostname] (.startTLS cfg.insecureSkipVerify) = some e) :
      Attempted rt net host c (.ok server) (some cfg) tlsLevel tlsErr c.directClose (.done (.error e))
  | completed (starts : StartsTLS server c.hostname cfg.insecureSkipVerify)
      (h : server.reply [.hello c.hostname,.startTLS cfg.insecureSkipVerify]
        (.hello rt.hostname) = none) :
      Attempted rt net host c (.ok server) (some cfg) tlsLevel tlsErr
        (greeted c host server
          [.hello c.hostname,.startTLS cfg.insecureSkipVerify,.hello rt.hostname])
        (.done (.ok (tlsLevel,tlsErr)))
  | unverified (starts : StartsTLS server c.hostname cfg.insecureSkipVerify)
      (h : server.reply [.hello c.hostname,.startTLS cfg.insecureSkipVerify]
        (.hello rt.hostname) = some e)
      (hv : net.isVerifyError e = true) :
      Attempted rt net host c (.ok server) (some cfg) .authenticated tlsErr c.directClose
        (.retry (some { insecureSkipVerify := true }) .encrypted e)
  | failed (starts : StartsTLS server c.hostname cfg.insecureSkipVerify)
      (h : server.reply [.hello c.hostname,.startTLS cfg.insecureSkipVerify]
        (.hello rt.hostname) = some e)
      (hv : ¬(net.isVerifyError e = true ∧ tlsLevel = .authenticated)) :
      Attempted rt net host c (.ok server) (some cfg) tlsLevel tlsErr c.directClose
        (.retry none .none e)

theorem connect_greeted (hello : server.reply [] (.hello c.hostname) = none) :
    c.connect env host (.ok server) = (greeted c host server [.hello c.hostname],none) := by
  simp [C.connect,Client.send,hello,greeted]

theorem attempt_cases (h : attempt rt net dialled host c tlsCfg tlsLevel tlsErr = (c',res)) :
    Attempted rt net host c dialled tlsCfg tlsLevel tlsErr c' res := by
  cases dialled with
  | error e =>
    cases h
    exact .unconnected _ nofun
  | ok server =>
    unfold attempt at h
    cases hello : server.reply [] (.hello c.hostname) with
    | some e =>
      simp only [C.connect,Client.send,hello] at h
      cases h
      apply Attempted.unconnected
      intro server' hs
      cases hs
      simp [hello]
    | none =>
      rw [connect_greeted hello] at h
      cases tlsCfg with
      | none =>
        cases h
        exact .plain hello (.inl rfl)
      | some cfg =>
        cases hoffer : server.extension [.hello c.hostname] "STARTTLS" with
        | false =>
          simp only [C.extension,greeted,hoffer] at h
          cases h
          exact .plain hello (.inr hoffer)
        | true =>
          cases hstart : server.reply [.hello c.hostname] (.startTLS cfg.insecureSkipVerify) with
          | some e =>
            simp only [C.extension,greeted,hoffer,C.ask,Client.send,hstart] at h
            cases h
            exact .refused e hstart
          | none =>
            have hs : StartsTLS server c.hostname cfg.insecureSkipVerify := ⟨hello,hoffer,hstart⟩
            simp only [C.extension,greeted,hoffer,C.ask,Client.send,hstart] at h
            cases hreply : server.reply [.hello c.hostname,.startTLS cfg.insecureSkipVerify]
                (.hello rt.hostname) with
            | none =>
              simp only [Bool.false_eq_true,↓reduceIte,cons_append,nil_append,hreply] at h
              cases h
              exact .completed hs hreply
            | some e =>
              simp only [Bool.false_eq_true,↓reduceIte,cons_append,nil_append,hreply] at h
              by_cases hv : net.isVerifyError e = true ∧ tlsLevel = .authenticated
              · rw [if_pos hv] at h
                cases h
                obtain ⟨hv,rfl⟩ := hv
                exact .unverified hs hreply hv
              · rw [if_neg hv] at h
                cases h
                exact .failed hs hreply hv

/-- What holds before each attempt of `connect` and, by the last one, of its
result. -/
theorem attempts_rule {I : C → Prop} {Q : C → Except Err (TLSLevel × Option Err) → Prop}
    (hout : ∀ c e, I c → Q c (.error e)) (hdone : ∀ dialled c tlsCfg tlsLevel tlsErr c' res, I c →
      attempt rt net dialled host c tlsCfg tlsLevel tlsErr = (c',.done res) → Q c' res)
    (hretry : ∀ dialled c tlsCfg tlsLevel tlsErr c' cfg level err, I c →
      attempt rt net dialled host c tlsCfg tlsLevel tlsErr = (c',.retry cfg level err) → I c')
    (left : Nat) (hc : I c)
    (h : attempts rt net record host left made c tlsCfg tlsLevel tlsErr = (c',res)) : Q c' res := by
  induction left generalizing made c tlsCfg tlsLevel tlsErr with
  | zero =>
    cases h
    exact hout _ _ hc
  | succ left ih =>
    unfold attempts at h
    rcases ha : attempt rt net (net.dial record made host) host c tlsCfg tlsLevel tlsErr with
      ⟨c₁,res | ⟨cfg,level,err⟩⟩
    · rw [ha] at h
      cases h
      exact hdone _ _ _ _ _ _ _ hc ha
    · rw [ha] at h
      exact ih (hretry _ _ _ _ _ _ _ _ _ hc ha) h

theorem connect_rule {Q : C → Except Err (TLSLevel × Option Err) → Prop}
    (hattempts : ∀ host tlsCfg tlsLevel c' res,
      attempts rt net record host 3 0 c tlsCfg tlsLevel none = (c',res) → Q c' res)
    (h : Remote.connect rt net cache record c host = (c',res)) : Q c' res := by
  unfold Remote.connect at h
  dsimp only at h
  split at h <;> exact hattempts _ _ _ _ _ h

/-- What holds before each MX is tried, and what holds of a connection to one. -/
theorem attemptMXs_rule {I Q : MxConn → Prop} (hok : ∀ record mx conn conn', I conn →
      attemptMX rt net cache policies record conn mx cacheOverride = (conn',none) → Q conn')
    (hfailed : ∀ record mx conn conn' e, I conn →
      attemptMX rt net cache policies record conn mx cacheOverride = (conn',some e) → I conn')
    (records : List MX) (hc : I conn)
    (h : attemptMXs rt net cache policies cacheOverride record records conn lastErr =
      .ok (conn',lastErr')) : Q conn' ∨ I conn' := by
  induction records generalizing record conn lastErr with
  | nil =>
    cases h
    exact .inr hc
  | cons mx rest ih =>
    unfold attemptMXs at h
    split at h
    · cases h
    · rcases ha : attemptMX rt net cache policies record conn mx cacheOverride with ⟨conn₁,_ | e⟩ <;>
        rw [ha] at h
      · cases h
        exact .inl (hok _ _ _ _ hc ha)
      · exact ih (hfailed _ _ _ _ _ hc ha) h

theorem newConn_cases (h : newConn rt net cache policies now domain = .ok conn) :
    ∃ dnssecOk records cacheOverride lastErr,
      lookupMX rt net cache domain = .ok (dnssecOk,records,cacheOverride) ∧
      attemptMXs rt net cache policies cacheOverride 0 records
        { c := { hostname := rt.hostname }, domain := domain, dnssecOk := dnssecOk,
          reuseLimit := rt.connReuseLimit, lastUseAt := now } none = .ok (conn,lastErr) := by
  unfold newConn at h
  split at h
  · cases h
  · rename_i dnssecOk records cacheOverride hl
    dsimp only at h
    split at h
    · cases h
    · rename_i conn₁ lastErr hm
      split at h
      · cases h
      · cases h
        exact ⟨dnssecOk,records,cacheOverride,lastErr,hl,hm⟩

end Opening

theorem acquire_cases (h : acquire rt cache pool rd domain net now = (pool',res)) :
    pool' = (pool.get MxConn.pooled rt.pool now domain).1 ∧
      ((∃ conn, (pool.get MxConn.pooled rt.pool now domain).2 = some conn ∧ res = .ok conn) ∨
        newConn rt net cache rd.policies now domain = res) := by
  unfold acquire at h
  rcases hg : pool.get MxConn.pooled rt.pool now domain with ⟨pool₁,_ | conn⟩ <;> rw [hg] at h
  · obtain ⟨hpool,hres⟩ := Prod.mk.inj h
    exact ⟨hpool.symm,.inr hres⟩
  · dsimp only at h
    split at h
    · cases h
      exact ⟨rfl,.inl ⟨conn,rfl,rfl⟩⟩
    · obtain ⟨hpool,hres⟩ := Prod.mk.inj h
      exact ⟨hpool.symm,.inr hres⟩

variable (rt : Target) (cache : Option Cache) (pool : Pool.P MxConn) (rd : Delivery)
  (domain : String) in
inductive Moves : Routine → Step → Move → Prop where
  | http (env : HttpEnv) (tried : Tried)
      (htried : tried = tryHTTP ⟨rt.endpointRewrite,cache⟩ env rd.mailFrom domain
        (rd.rcptsByDomain domain) rd.message) :
      Moves .http (.http env)
        { pool := pool
          routine := if tried.err.isNone then .delivered else .acquire
          sent := (tried.requests.filter (fun request => request.2)).map
            (fun request => .http request.1) }
  | noConn (net : Net) (now : Int) (pool' : Pool.P MxConn) (e : Err)
      (h : acquire rt cache pool rd domain net now = (pool',.error e)) :
      Moves .acquire (.acquire net now)
        { pool := pool', routine := .failed e }
  | acquire (net : Net) (now : Int) (pool' : Pool.P MxConn) (conn : MxConn)
      (h : acquire rt cache pool rd domain net now = (pool',.ok conn)) :
      Moves .acquire (.acquire net now)
        { pool := pool', routine := .check conn }
  | refused (conn : MxConn) (takeDest : Option Err) (e : Err)
      (h : ((if rd.msgMeta.smtpOpts.requireTLS then checkLevels conn else none) <|> takeDest) = some e) :
      Moves (.check conn) (.check takeDest)
        { pool := pool, routine := .failed e }
  | check (conn : MxConn)
      (h : rd.msgMeta.smtpOpts.requireTLS = true → checkLevels conn = none) :
      Moves (.check conn) (.check none)
        { pool := pool, routine := .relax conn }
  | relax (conn : MxConn) :
      Moves (.relax conn) .relax
        { pool := pool
          relaxes := rt.relaxedREQUIRETLS && !conn.c.extension "REQUIRETLS"
          routine := .mail conn }
  | noMail (conn : MxConn) (now : Int) (e : Err)
      (h : (conn.c.mail rt.smtp rd.mailFrom rd.msgMeta.smtpOpts).2 = some e) :
      Moves (.mail conn) (.mail now)
        { pool := pool, routine := .failed e }
  | mail (conn : MxConn) (now : Int) (c : C)
      (h : conn.c.mail rt.smtp rd.mailFrom rd.msgMeta.smtpOpts = (c,none)) :
      Moves (.mail conn) (.mail now)
        { pool := pool
          routine := .connected { conn with c := c, lastUseAt := now }
          connection := some { conn with c := c, lastUseAt := now } }
  | transfer (conn conn' : MxConn) (reading : Reading) (now : Int) (statuses : List Status)
      (out : Bool)
      (h : transfer rt.smtp conn (rd.rcptsByDomain domain) rd.message reading now =
        (conn',statuses,out)) :
      Moves (.connected conn) (.transfer reading now)
        { pool := pool
          routine := .sent conn reading
          connection := some conn'
          sent := if out then [.smtp conn'] else [] }

theorem moves_of_move (h : rd.move rt cache pool domain r st = some m) :
    Moves rt cache pool rd domain r st m := by
  revert h
  fun_cases Delivery.move rt cache pool rd domain r st <;> intro h <;> cases h
  · exact .http _ _ rfl
  · split
    · exact .noConn _ _ _ _ ‹_›
    · exact .acquire _ _ _ _ ‹_›
  · split
    · exact .refused _ _ _ ‹_›
    · rename_i conn takeDest refusal _ hnone
      obtain ⟨hrefusal,rfl⟩ := (Option.orElse_eq_none _ _).mp hnone
      exact .check conn fun hreq => (if_pos hreq).symm.trans hrefusal
  · exact .relax _
  · exact .noMail _ _ _ (congrArg Prod.snd ‹_›)
  · exact .mail _ _ _ ‹_›
  · exact .transfer _ _ _ _ _ _ ‹_›

variable (rt : Target) (w : World) (i : Nat) (rd : Delivery) in
/-- What a step of the target does to one of its deliveries, with the pool after
it and what goes out. -/
inductive Changes : Action → Delivery → Pool.P MxConn → List Sent → Prop where
  | addRcpt (rcptTo : String) (h : rd.phase = .opened) :
      Changes (.addRcpt i rcptTo) (rd.addRcpt rcptTo).1 w.pool []
  | quarantine :
      Changes (.quarantine i)
        { rd with msgMeta := { rd.msgMeta with quarantine := true } } w.pool []
  | body (message : Message) (h : rd.phase = .opened) :
      Changes (.body i message) (rd.startBody message) w.pool []
  | go (domain : String) (r : Routine) (st : Step) (m : Move)
      (hr : rd.routines domain = some r) (hm : Moves rt w.cache w.pool rd domain r st m) :
      Changes (.go i domain st) (rd.moved domain m) m.pool
        (m.sent.map (fun via =>
          ⟨domain,via,rd.requireTLS,overridden rt rd.msgMeta,hasOverride w.cache domain⟩))
  | close (order : List String) (now : Int) (h : rd.idle = true) (hopen : rd.phase ≠ .closed)
      (horder : order.Perm rd.domains) :
      Changes (.close i order now) { rd with phase := .closed }
        ((order.filterMap rd.connections).foldl (release rt now) w.pool) []

inductive Steps (rt : Target) (w : World) : Action → World → Prop where
  | start (msgMeta : MsgMetadata) (mailFrom : String) (rd : Delivery)
      (h : Remote.start rt msgMeta mailFrom none = .ok rd) :
      Steps rt w (.start msgMeta mailFrom) { w with deliveries := w.deliveries ++ [rd] }
  | change {a : Action} (i : Nat) (rd rd' : Delivery) (pool : Pool.P MxConn) (sent : List Sent)
      (hi : w.deliveries[i]? = some rd) (h : Changes rt w i rd a rd' pool sent) :
      Steps rt w a
        { w with pool := pool, deliveries := w.deliveries.set i rd', sent := w.sent ++ sent }
  | setCache (cache : Option Cache) : Steps rt w (.setCache cache) { w with cache := cache }
  | cleanUp (now : Int) :
      Steps rt w (.cleanUp now) { w with pool := w.pool.cleanUp rt.pool now }

theorem Steps.quiet (hi : w.deliveries[i]? = some rd) (h : Changes rt w i rd a rd' pool []) :
    Steps rt w a { w with pool := pool, deliveries := w.deliveries.set i rd' } := by
  have hchange := Steps.change i rd rd' pool [] hi h
  rwa [append_nil] at hchange

theorem steps_of_step (h : step rt w a = some w') : Steps rt w a w' := by
  revert h
  fun_cases step rt w a <;> intro h
  all_goals try simp only [Option.bind_eq_bind,Option.bind_eq_some_iff] at h
  · cases h
  · cases h
    exact .start _ _ _ ‹_›
  · obtain ⟨rd,hi,h⟩ := h
    split at h <;> cases h
    exact .quiet hi (.addRcpt _ ‹_›)
  · obtain ⟨rd,hi,h⟩ := h
    cases h
    exact .quiet hi .quarantine
  · obtain ⟨rd,hi,h⟩ := h
    split at h <;> cases h
    exact .quiet hi (.body _ ‹_›)
  · obtain ⟨rd,hi,r,hr,m,hm,h⟩ := h
    cases h
    exact .change _ rd _ _ _ hi (.go _ r _ m hr (moves_of_move hm))
  · obtain ⟨rd,hi,h⟩ := h
    split at h <;> cases h
    rename_i hclose
    exact .quiet hi (.close _ _ hclose.2.1 hclose.1 (isPerm_iff.mp hclose.2.2))
  · cases h
    exact .setCache _
  · cases h
    exact .cleanUp _

theorem mem_deliveries_set {ds : List Delivery} (hj : (ds.set i rd')[j]? = some x) :
    ds[j]? = some x ∨ (j = i ∧ x = rd') := by
  rw [getElem?_set] at hj
  by_cases h : i = j
  · rw [if_pos h] at hj
    split at hj
    · cases hj
      exact .inr ⟨h.symm,rfl⟩
    · cases hj
  · rw [if_neg h] at hj
    exact .inl hj

theorem mem_deliveries_append {i : Nat} (hi : (ds ++ [rd])[i]? = some x) :
    ds[i]? = some x ∨ x = rd := by
  rw [getElem?_append] at hi
  split at hi
  · exact .inl hi
  · obtain ⟨hlt,hx⟩ := List.getElem?_eq_some_iff.mp hi
    have hzero : i - ds.length = 0 := by simpa using hlt
    simp only [hzero,getElem_cons_zero] at hx
    exact .inr hx.symm

/-- What holds of new deliveries and is kept by every change of one, in a step
that leaves the cache alone, holds of all deliveries after the step. -/
theorem Steps.deliveries {D : Delivery → Prop} (h : Steps rt w a w')
    (hw : ∀ (i : Nat) rd, w.deliveries[i]? = some rd → D rd)
    (hstart : ∀ msgMeta mailFrom rd, Remote.start rt msgMeta mailFrom none = .ok rd → D rd)
    (hchange : ∀ (i : Nat) rd rd' pool sent, w.deliveries[i]? = some rd → Changes rt w i rd a rd' pool sent →
      D rd → D rd') :
    ∀ (i : Nat) rd, w'.deliveries[i]? = some rd → D rd := by
  intro j x hj
  cases h with
  | start msgMeta mailFrom rd hs =>
    rcases mem_deliveries_append hj with hold | rfl
    · exact hw j x hold
    · exact hstart msgMeta mailFrom x hs
  | change i rd rd' pool sent hi hc =>
    rcases mem_deliveries_set hj with hold | ⟨rfl,rfl⟩
    · exact hw j x hold
    · exact hchange j rd x pool sent hi hc (hw j rd hi)
  | setCache cache | cleanUp now => exact hw j x hj

end Madmail.Proofs.RemoteSteps
