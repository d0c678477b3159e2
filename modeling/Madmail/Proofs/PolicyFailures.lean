import Madmail.Proofs.DaneRecords
import Madmail.Proofs.UsableMX
import Madmail.Remote.Policies

namespace Madmail.Proofs.PolicyFailures
open List
open Exterrors Madmail.Module Remote Smtpconn EndpointCache Lib RemoteSteps MXAttempts UsableMX
open Remote.Security (Configured X509 TLSA verifyPeer mtastsCheckConn daneCheckConn localCheckConn)

section Refusals
variable {env : Security.Env} {x : X509}

/-- A failed verification is a permanent error, whatever it has found. -/
theorem verifyPeer_permanent (h : verifyPeer x serverName leaf chain recs tlsState = .error e) :
    isTemporary e = false := by
  obtain ⟨r,hr,hd⟩ := @DaneRecords.verifyDANE_decides x
    { handshakeComplete := tlsState.handshakeComplete
      serverName := serverName
      peerCertificates := leaf :: chain } leaf chain recs rfl
  rw [verifyPeer,hr] at h
  cases hd with
  | noRecords | noneUsable | authenticated => cases h
  | noHandshake | unmatched =>
    cases h
    rfl

/-- Every refusal is a temporary error, but for those that go by TLSA records. -/
theorem isTemporary_checkConn {q : Configured}
    (h : (q.policy env x).checkConn mxLevel tlsLevel domain mx tlsState = .error e) :
    isTemporary e = !q.hasRecords := by
  cases q with
  | mtasts found =>
    simp only [Configured.policy,mtastsCheckConn] at h
    repeat' split at h
    all_goals first | (cases h; rfl) | cases h
  | stsPreload => cases h
  | dnssec => cases h
  | dane extResolver found serverName leaf chain =>
    cases extResolver with
    | false => cases h
    | true =>
      simp only [Configured.policy,Bool.not_true,Bool.false_eq_true,↓reduceIte,daneCheckConn] at h
      cases found with
      | error e' =>
        dsimp only at h
        split at h
        · cases h
        · cases h
          rfl
      | ok recs =>
        dsimp only at h
        cases hv : verifyPeer x serverName leaf chain recs tlsState with
        | error e' =>
          rw [hv] at h
          cases h
          exact verifyPeer_permanent hv
        | ok overridePKIX =>
          rw [hv] at h
          cases h
  | localPolicy minTLSLevel minMXLevel =>
    simp only [Configured.policy,localCheckConn] at h
    split at h
    · cases h
      rfl
    · cases h

def refuser {L : Type} (raise : L → L → L) (ask : Nat → L → Except Err L) : List Nat → L → Option Nat
  | [], _ => none
  | p :: rest, level =>
    match ask p level with
    | .error _ => some p
    | .ok policyLevel => refuser raise ask rest (raise level policyLevel)

theorem consult_error (h : (consult kind raise ask policies level).2 = .error e) :
    ∃ p level', refuser raise ask policies level = some p ∧ ask p level' = .error e := by
  induction policies generalizing level with
  | nil => cases h
  | cons p rest ih =>
    unfold consult at h
    unfold refuser
    cases ha : ask p level with
    | error e' =>
      rw [ha] at h
      cases h
      exact ⟨p,level,rfl,ha⟩
    | ok policyLevel =>
      rw [ha] at h
      exact ih h

def Trial.refuser (t : Trial) (record : Nat) (mx : MX) : Option Nat :=
  match t.checkMX record mx, Remote.connect t.rt t.net t.cache record (fresh t.rt) mx.host with
  | .ok mxLevel, (c,.ok (tlsLevel,_)) =>
    PolicyFailures.refuser TLSLevel.raise
      (fun p level => (t.net.policy record p).checkConn mxLevel level t.domain mx.host c.tlsState)
      t.policies tlsLevel
  | _, _ => none

def configuredNet (net : Net) (conf : Nat → Nat → Configured) (env : Security.Env) (x : X509) : Net :=
  { net with policy := fun record p => (conf record p).policy env x }

theorem isTemporary_refused (hnet : t.net = configuredNet net conf env x)
    (h : t.outcome record mx = .refused c tlsErr e) :
    ∃ p, Trial.refuser t record mx = some p ∧ isTemporary e = !(conf record p).hasRecords := by
  unfold Trial.outcome at h
  unfold Trial.refuser
  cases hmx : t.checkMX record mx with
  | error e' =>
    rw [hmx] at h
    cases h
  | ok mxLevel =>
    rw [hmx] at h
    rcases hcon : Remote.connect t.rt t.net t.cache record (fresh t.rt) mx.host with
      ⟨c',e' | ⟨tlsLevel,tlsErr'⟩⟩
    · rw [hcon] at h
      dsimp only at h
      split at h
      · cases h
      · cases h
    · rw [hcon] at h
      dsimp only at h ⊢
      cases hc : t.checkConn record mx mxLevel tlsLevel c' with
      | ok level =>
        rw [hc] at h
        cases h
      | error e' =>
        rw [hc] at h
        cases h
        obtain ⟨p,level,hp,hask⟩ := consult_error hc
        rw [hnet] at hask
        exact ⟨p,hp,isTemporary_checkConn hask⟩

end Refusals

section Opened
variable {rt : Target} {net : Net} {cache : Option Cache} {policies : List Nat} {now : Int}
  {domain : String} {dnssecOk cacheOverride : Bool} {records : List MX} {t : Trial}

def AllRefused (t : Trial) (records : List MX) : Prop :=
  ∀ record mx, records[record]? = some mx →
    mx.host ≠ "." ∧ ∃ c tlsErr e, t.outcome record mx = .refused c tlsErr e

theorem mem_outcomes (h : o ∈ t.outcomes record records) :
    ∃ i mx, records[i]? = some mx ∧ o = t.outcome (record + i) mx := by
  induction records generalizing record with
  | nil => cases h
  | cons mx rest ih =>
    rcases mem_cons.mp h with rfl | h
    · exact ⟨0,mx,rfl,rfl⟩
    · obtain ⟨i,mx',hi,ho⟩ := ih h
      refine ⟨i + 1,mx',hi,?_⟩
      rw [ho]
      congr 1
      omega

theorem AllRefused.not_stops (h : AllRefused t records) : ¬t.Stops 0 records := by
  intro hs
  obtain ⟨mx,hmem,hnull⟩ | ⟨c,mxLevel,tlsLevel,hmem⟩ := hs
  · obtain ⟨i,hi⟩ := mem_iff_getElem?.mp hmem
    exact (h i mx hi).1 hnull
  · obtain ⟨i,mx,hi,ho⟩ := mem_outcomes hmem
    obtain ⟨-,c',tlsErr,e,hr⟩ := h i mx hi
    rw [Nat.zero_add,hr] at ho
    cases ho

theorem lookupMX_ne_nil
    (hl : lookupMX rt net cache domain = .ok (dnssecOk,records,cacheOverride)) : records ≠ [] := by
  have haddress {host : String} {found : Bool × List MX × Bool}
      (h : addressMX cache host = found) : found.2.1 ≠ [] := by
    subst h
    unfold addressMX
    cases cache with
    | none => exact cons_ne_nil _ _
    | some cache =>
      dsimp only
      split <;> exact cons_ne_nil _ _
  unfold lookupMX at hl
  split at hl
  · exact haddress (Except.ok.inj hl)
  split at hl
  · exact haddress (Except.ok.inj hl)
  split at hl
  · cases hl
    exact cons_ne_nil _ _
  split at hl
  · cases hl
  · cases hl
    split
    · exact cons_ne_nil _ _
    · assumption

/-- If every connection is refused, the last refusal is the error of `newConn`. But a
server that does not take QUIT makes it return the connection. -/
theorem newConn_refused
    (hl : lookupMX rt net cache domain = .ok (dnssecOk,records,cacheOverride))
    (h : AllRefused (trial rt net cache policies domain dnssecOk cacheOverride) records) :
    ∃ init mx c tlsErr e, records = init ++ [mx] ∧
      (trial rt net cache policies domain dnssecOk cacheOverride).outcome init.length mx =
        .refused c tlsErr e ∧
      ((c.ask .quit).2 = none →
        newConn rt net cache policies now domain = .error (noUsableMX domain (refusal tlsErr e))) ∧
      ((c.ask .quit).2 ≠ none →
        ∃ conn, newConn rt net cache policies now domain = .ok conn ∧ conn.c = c.close ∧
          conn.tlsLevel = .none) := by
  obtain ⟨init,mx,rfl⟩ : ∃ init mx, records = init ++ [mx] :=
    (eq_nil_or_concat' records).resolve_left (lookupMX_ne_nil hl)
  have hlast := h init.length mx (by simp)
  obtain ⟨-,c,tlsErr,e,hout⟩ := hlast
  refine ⟨init,mx,c,tlsErr,e,rfl,hout,?_⟩
  have hnew := @newConn_eq rt net cache policies now domain dnssecOk cacheOverride _ hl
  have hended := @attemptMXs_ended (trial rt net cache policies domain dnssecOk cacheOverride)
    (opening rt now domain dnssecOk) policies cacheOverride rfl (init ++ [mx]) 0 none opening_fits
  change Ended _ _ _ _ _ _ (attemptMXs rt net cache policies cacheOverride 0 _ _ none) at hended
  generalize attemptMXs rt net cache policies cacheOverride 0 (init ++ [mx])
    (opening rt now domain dnssecOk) none = res at hnew hended
  cases hended with
  | null e' hnull => exact absurd (.inl hnull) h.not_stops
  | used s hcl hs _ => exact absurd hs h.not_stops
  | failed s hfails =>
    obtain ⟨s₁,e',hinit,hatt,hs⟩ := hfails.last
    have hlevel := (hfails.keeps rfl opening_fits).2.2
    have hcomes := attemptMX_comes policies cacheOverride
      (t := trial rt net cache policies domain dnssecOk cacheOverride) rfl
      (hinit.keeps rfl opening_fits).1 (0 + init.length) mx
    rw [hatt,Nat.zero_add,hout] at hcomes
    obtain ⟨conn,lastErr⟩ := s
    subst hs
    rw [hnew]
    cases hcomes with
    | refused checks _ _ _ hc _ =>
      have hsome := isSome_close hc
      constructor
      · intro hq
        rw [hq,Option.isSome_none] at hsome
        rw [Except.bind,if_pos (Option.isSome_eq_false_iff.mp hsome)]
        rfl
      · intro hq
        rw [Option.isSome_iff_ne_none.mpr hq] at hsome
        refine ⟨_,?_,rfl,hlevel⟩
        rw [Except.bind,if_neg]
        exact Bool.eq_false_iff.mp (Option.isNone_eq_false_iff.mpr hsome)

end Opened

section Reported
variable {rt : Target} {w : World} {i : Nat} {rd rd' : Delivery} {domain : String}
  {r r' : Routine} {st : Step} {rest : List Step} {m : Move} {e : Err}

def connecting (net : Net) (now : Int) (takeDest : Option Err) (now' : Int) : List Step :=
  [.acquire net now,.check takeDest,.relax,.mail now']

def At (w : World) (i : Nat) (domain : String) (rd : Delivery) (r : Routine) : Prop :=
  w.deliveries[i]? = some rd ∧ rd.routines domain = some r

/-- The goroutine fails with this error on its way through some steps. -/
def Reports (rt : Target) (w : World) (i : Nat) (domain : String) (steps : List Step) (e : Err) :
    Prop :=
  ∃ taken w' rd', taken <+: steps ∧
    run (Remote.step rt) w (taken.map (.go i domain)) = some w' ∧ At w' i domain rd' (.failed e)

theorem At.unique (h : At w i domain rd r) (h' : At w i domain rd' r') : r = r' := by
  have hrd : rd = rd' := Option.some.inj (h.1.symm.trans h'.1)
  subst hrd
  exact Option.some.inj (h.2.symm.trans h'.2)

theorem At.after (h : At w i domain rd r) (rt : Target) (m : Move) :
    At (w.after rt i domain rd m) i domain (rd.moved domain m) m.routine := by
  obtain ⟨hlt, -⟩ := List.getElem?_eq_some_iff.mp h.1
  exact ⟨getElem?_set_self hlt,Function.update_self _ _ _⟩

theorem step_at (h : At w i domain rd r) :
    Remote.step rt w (.go i domain st) =
      (rd.move rt w.cache w.pool domain r st).map (w.after rt i domain rd) := by
  simp only [Remote.step,h.1,h.2,Option.bind_eq_bind,Option.bind_some]
  cases rd.move rt w.cache w.pool domain r st with
  | none => rfl
  | some m => rfl

theorem reports_nil (h : At w i domain rd r) : Reports rt w i domain [] e ↔ r = .failed e := by
  constructor
  · intro hr
    obtain ⟨taken,w',rd',htaken,hrun,hat⟩ := hr
    rw [prefix_nil.mp htaken] at hrun
    cases hrun
    exact h.unique hat
  · intro hr
    subst hr
    exact ⟨[],w,rd,prefix_rfl,rfl,h⟩

theorem reports_cons (h : At w i domain rd r) :
    Reports rt w i domain (st :: rest) e ↔
      r = .failed e ∨ ∃ m, rd.move rt w.cache w.pool domain r st = some m ∧
        Reports rt (w.after rt i domain rd m) i domain rest e := by
  constructor
  · intro hr
    obtain ⟨taken,w',rd',htaken,hrun,hat⟩ := hr
    cases taken with
    | nil =>
      cases hrun
      exact .inl (h.unique hat)
    | cons st' taken =>
      obtain ⟨rfl,htaken'⟩ := cons_prefix_cons.mp htaken
      obtain ⟨w₁,hstep,hrun⟩ := run_cons hrun
      rw [step_at h] at hstep
      obtain ⟨m,hm,rfl⟩ := Option.map_eq_some_iff.mp hstep
      exact .inr ⟨m,hm,taken,w',rd',htaken',hrun,hat⟩
  · intro hr
    obtain rfl | ⟨m,hm,taken,w',rd',htaken,hrun,hat⟩ := hr
    · exact ⟨[],w,rd, nil_prefix,rfl,h⟩
    · refine ⟨st :: taken,w',rd',cons_prefix_cons.mpr ⟨rfl,htaken⟩,?_,hat⟩
      rw [map_cons,run_cons_some (t := w.after rt i domain rd m)]
      · exact hrun
      · rw [step_at h,hm]
        rfl

theorem reports_failed (h : At w i domain rd (.failed e')) :
    Reports rt w i domain steps e ↔ e' = e := by
  cases steps with
  | nil =>
    rw [reports_nil h]
    exact ⟨Routine.failed.inj,congrArg _⟩
  | cons st rest =>
    rw [reports_cons h]
    constructor
    · intro hr
      obtain heq | ⟨m,hm, -⟩ := hr
      · exact Routine.failed.inj heq
      · cases st <;> cases hm
    · exact fun heq => .inl (congrArg _ heq)

def reported (rt : Target) (rd : Delivery) (takeDest : Option Err) : Except Err MxConn → Option Err
  | .error e => some e
  | .ok conn =>
    (if rd.msgMeta.smtpOpts.requireTLS then checkLevels conn else none) <|> takeDest <|>
      (conn.c.mail rt.smtp rd.mailFrom
        { rd.msgMeta.smtpOpts with
          requireTLS := !(rt.relaxedREQUIRETLS && !conn.c.extension "REQUIRETLS") &&
            rd.msgMeta.smtpOpts.requireTLS }).2

theorem reports_step (h : At w i domain rd r) (hr : r ≠ .failed e)
    (hm : rd.move rt w.cache w.pool domain r st = some m) :
    Reports rt w i domain (st :: rest) e ↔
      Reports rt (w.after rt i domain rd m) i domain rest e := by
  rw [reports_cons h,or_iff_right hr,hm]
  simp

theorem reports_mail (h : At w i domain rd (.mail conn)) :
    Reports rt w i domain [.mail now] e ↔
      (conn.c.mail rt.smtp rd.mailFrom rd.msgMeta.smtpOpts).2 = some e := by
  rcases hx : conn.c.mail rt.smtp rd.mailFrom rd.msgMeta.smtpOpts with ⟨c,_ | e'⟩
  · have hm : rd.move rt w.cache w.pool domain (.mail conn) (.mail now) = some
        { pool := w.pool
          routine := .connected { conn with c := c, lastUseAt := now }
          connection := some { conn with c := c, lastUseAt := now } } := by
      simp only [Delivery.move,hx]
    rw [reports_step h (by simp) hm,reports_nil (h.after rt _)]
    simp
  · have hm : rd.move rt w.cache w.pool domain (.mail conn) (.mail now) =
        some { pool := w.pool, routine := .failed e' } := by
      simp only [Delivery.move,hx]
    rw [reports_step h (by simp) hm,reports_failed (h.after rt _),Option.some.injEq]

/-- From the connection on, the errors come in the order of the source. -/
theorem reports_check (h : At w i domain rd (.check conn)) :
    Reports rt w i domain [.check takeDest,.relax,.mail now] e ↔
      reported rt rd takeDest (.ok conn) = some e := by
  have hfail (e' : Err) (hx : ((if rd.msgMeta.smtpOpts.requireTLS then checkLevels conn else none) <|>
      takeDest) = some e') :
      Reports rt w i domain [.check takeDest,.relax,.mail now] e ↔ some e' = some e := by
    have hm : rd.move rt w.cache w.pool domain (.check conn) (.check takeDest) =
        some { pool := w.pool, routine := .failed e' } := by
      simp only [Delivery.move,hx]
    rw [reports_step h (by simp) hm,reports_failed (h.after rt _),Option.some.injEq]
  rw [reported]
  cases hr : (if rd.msgMeta.smtpOpts.requireTLS then checkLevels conn else none) with
  | some e' => exact hfail e' (by rw [hr]; rfl)
  | none =>
    cases takeDest with
    | some e' => exact hfail e' (by rw [hr]; rfl)
    | none =>
      have hm : rd.move rt w.cache w.pool domain (.check conn) (.check none) =
          some { pool := w.pool, routine := .relax conn } := by
        simp only [Delivery.move,hr]
        rfl
      have hrelax := h.after rt { pool := w.pool, routine := .relax conn }
      refine (reports_step h (by simp) hm).trans ?_
      refine (reports_step hrelax (by simp) rfl).trans ?_
      have hmail := hrelax.after rt
        { pool := w.pool
          relaxes := rt.relaxedREQUIRETLS && !conn.c.extension "REQUIRETLS"
          routine := .mail conn }
      exact reports_mail hmail

theorem reports_connecting (h : At w i domain rd .acquire) :
    Reports rt w i domain (connecting net now takeDest now') e ↔
      reported rt rd takeDest (acquire rt w.cache w.pool rd domain net now).2 = some e := by
  rcases hx : acquire rt w.cache w.pool rd domain net now with ⟨pool,e' | conn⟩
  · have hm : rd.move rt w.cache w.pool domain .acquire (.acquire net now) =
        some { pool := pool, routine := .failed e' } := by
      simp only [Delivery.move,hx]
    rw [connecting,reports_step h (by simp) hm,reports_failed (h.after rt _)]
    exact Option.some.injEq _ _ ▸ Iff.rfl
  · have hm : rd.move rt w.cache w.pool domain .acquire (.acquire net now) =
        some { pool := pool, routine := .check conn } := by
      simp only [Delivery.move,hx]
    rw [connecting,reports_step h (by simp) hm,reports_check (h.after rt _)]
    rfl

theorem acquire_new (hpool : (w.pool.get MxConn.pooled rt.pool now domain).2 = none ∨
      rd.msgMeta.smtpOpts.requireTLS = true) :
    (acquire rt w.cache w.pool rd domain net now).2 =
      newConn rt net w.cache rd.policies now domain := by
  unfold acquire
  rcases hg : w.pool.get MxConn.pooled rt.pool now domain with ⟨pool,_ | conn⟩
  · rfl
  · obtain hnone | hreq := hpool
    · rw [hg] at hnone
      cases hnone
    · simp [hreq]

theorem isTemporaryOrUnspec_noUsableMX :
    isTemporaryOrUnspec (noUsableMX domain (refusal tlsErr e)) = isTemporary e := by
  have hcode : isTemporary (refusal tlsErr e) = isTemporary e := rfl
  unfold noUsableMX smtpCode
  rw [hcode]
  cases isTemporary e with
  | false => rfl
  | true => rfl

end Reported

/-- When the last refusal leads to another try: if the server takes QUIT, no TLSA
records are behind it; and if not, what fails on the connection that is left is a
temporary error. -/
structure Retried (rt : Target) (rd : Delivery) (takeDest : Option Err)
    (conf : Nat → Nat → Configured) (t : Trial) (record : Nat) (mx : MX) (c : C) : Prop where
  polite : (c.ask .quit).2 = none →
    ∀ p, Trial.refuser t record mx = some p → (conf record p).hasRecords = false
  impolite : (c.ask .quit).2 ≠ none → rd.msgMeta.smtpOpts.requireTLS = false ∧
    ∀ e, (takeDest <|> (c.close.mail rt.smtp rd.mailFrom rd.msgMeta.smtpOpts).2) = some e →
      isTemporaryOrUnspec e = true

theorem reported_temporary_iff (hlevel : conn.tlsLevel = .none) :
    (∀ e, reported rt rd takeDest (.ok conn) = some e → isTemporaryOrUnspec e = true) ↔
      rd.msgMeta.smtpOpts.requireTLS = false ∧
        ∀ e, (takeDest <|> (conn.c.mail rt.smtp rd.mailFrom rd.msgMeta.smtpOpts).2) = some e →
          isTemporaryOrUnspec e = true := by
  cases hreq : rd.msgMeta.smtpOpts.requireTLS with
  | true =>
    have hcheck : checkLevels conn = some (.smtp
        { code := 550
          enhancedCode := ⟨5,7,30⟩
          message := "TLS it not available or unauthenticated but required (REQUIRETLS)"
          misc := [("tls_level",.int conn.tlsLevel.rank)] }) := by
      unfold checkLevels
      rw [hlevel]
      rfl
    refine iff_of_false (fun h => ?_) fun h => Bool.noConfusion h.1
    simp only [reported,hreq,↓reduceIte,hcheck] at h
    cases h _ rfl
  | false =>
    have hopts : { rd.msgMeta.smtpOpts with requireTLS := false } = rd.msgMeta.smtpOpts := by
      rw [← hreq]
    simp only [reported,hreq,Bool.false_eq_true,↓reduceIte,Bool.and_false,hopts,true_and]
    exact Iff.rfl

/-- If policies refuse every connection, the recipients get a temporary error exactly if
the last refusal is one that leads to another try. -/
theorem policy_failures_iff (rt : Target) (net : Net) (conf : Nat → Nat → Configured)
    (env : Security.Env) (x : X509) (w : World) (i : Nat) (rd : Delivery) (domain : String)
    (now : Int) (takeDest : Option Err) (now' : Int) (dnssecOk : Bool) (records : List MX)
    (cacheOverride : Bool) (hat : At w i domain rd .acquire)
    (hpool : (w.pool.get MxConn.pooled rt.pool now domain).2 = none ∨
      rd.msgMeta.smtpOpts.requireTLS = true)
    (hl : lookupMX rt (configuredNet net conf env x) w.cache domain =
      .ok (dnssecOk,records,cacheOverride))
    (hall : AllRefused (trial rt (configuredNet net conf env x) w.cache rd.policies domain dnssecOk
      cacheOverride) records) :
    (∀ e, Reports rt w i domain (connecting (configuredNet net conf env x) now takeDest now') e →
      isTemporaryOrUnspec e = true) ↔
    ∀ init mx c tlsErr e, records = init ++ [mx] →
      (trial rt (configuredNet net conf env x) w.cache rd.policies domain dnssecOk
        cacheOverride).outcome init.length mx = .refused c tlsErr e →
      Retried rt rd takeDest conf (trial rt (configuredNet net conf env x) w.cache rd.policies domain
        dnssecOk cacheOverride) init.length mx c := by
  obtain ⟨init,mx,c,tlsErr,e,rfl,hout,hpolite,himpolite⟩ := @newConn_refused rt
    (configuredNet net conf env x) w.cache rd.policies now domain dnssecOk cacheOverride records hl
    hall
  -- only the last record counts
  have hlast (X : Prop) (hX : X ↔ Retried rt rd takeDest conf
      (trial rt (configuredNet net conf env x) w.cache rd.policies domain dnssecOk cacheOverride)
      init.length mx c) : X ↔ ∀ init' mx' c' tlsErr' e', init ++ [mx] = init' ++ [mx'] →
        (trial rt (configuredNet net conf env x) w.cache rd.policies domain dnssecOk
          cacheOverride).outcome init'.length mx' = .refused c' tlsErr' e' →
        Retried rt rd takeDest conf (trial rt (configuredNet net conf env x) w.cache rd.policies
          domain dnssecOk cacheOverride) init'.length mx' c' := by
    rw [hX]
    constructor
    · intro h init' mx' c' tlsErr' e' heq hout'
      obtain ⟨rfl,hmx⟩ := append_inj' heq rfl
      cases hmx
      rw [hout] at hout'
      cases hout'
      exact h
    · intro h
      exact h init mx c tlsErr e rfl hout
  apply hlast
  simp only [reports_connecting hat,acquire_new hpool]
  obtain ⟨p,hp,htemp⟩ := isTemporary_refused rfl hout
  cases hquit : (c.ask .quit).2 with
  | none =>
    rw [hpolite hquit]
    constructor
    · intro h
      refine ⟨fun _ p' hp' => ?_,fun hne => absurd hquit hne⟩
      rw [hp] at hp'
      cases hp'
      have hcode := h _ rfl
      rw [isTemporaryOrUnspec_noUsableMX,htemp] at hcode
      simpa using hcode
    · intro h e' he'
      cases he'
      rw [isTemporaryOrUnspec_noUsableMX,htemp,h.polite hquit p hp]
      rfl
  | some e' =>
    have hne : (c.ask .quit).2 ≠ none := by simp [hquit]
    obtain ⟨conn,hnew,hclose,hlevel⟩ := himpolite hne
    rw [hnew,reported_temporary_iff hlevel,hclose]
    constructor
    · intro h
      exact ⟨fun hnone => absurd hnone hne,fun _ => h⟩
    · intro h
      exact h.impolite hne

def waiting : World :=
  { deliveries := [
      { mailFrom := "from@example.com"
        msgMeta := { id := "msg" }
        phase := .body false
        recipients := ["to@example.org"]
        domains := ["example.org"]
        rcptsByDomain := fun domain => if domain = "example.org" then ["to@example.org"] else []
        policies := [0]
        routines := fun domain => if domain = "example.org" then some .acquire else none }] }

def noLookups : Security.Env :=
  { mtastsGet := fun _ => .error (.leaf "not found" none)
    matchMX := fun _ _ => true
    checkCNAMEAD := fun _ => .error (.leaf "not found" none)
    authLookupCNAME := fun _ => .error (.leaf "not found" none)
    authLookupTLSA := fun _ => (false,[],none)
    isNotFound := fun _ => false
    verifyDANE := fun _ _ => .ok false }

def oneServer (server : Server) : Net := Net.plain (.accepting .none) server

/-- An enforced MTA-STS policy, and a server without STARTTLS. -/
theorem mtasts_refusal_temporary :
    AllRefused (trial .plain (configuredNet (oneServer { serverWith [] with tlsState := fun _ => {} })
      (fun _ _ => .mtasts (.ok ⟨.enforce,["example.org"]⟩)) noLookups .plain) none [0] "example.org"
        true false) [⟨"example.org",10⟩] ∧
    ∀ e, Reports .plain waiting 0 "example.org"
      (connecting (configuredNet (oneServer { serverWith [] with tlsState := fun _ => {} })
        (fun _ _ => .mtasts (.ok ⟨.enforce,["example.org"]⟩)) noLookups .plain) 0 none 0) e →
      isTemporaryOrUnspec e = true := by
  refine and_iff_left_of_imp ?_ |>.mpr ?_
  · intro hall
    apply (policy_failures_iff .plain (oneServer { serverWith [] with tlsState := fun _ => {} })
      (fun _ _ => .mtasts (.ok ⟨.enforce,["example.org"]⟩)) noLookups .plain waiting 0 _
      "example.org" 0 none 0 true [⟨"example.org",10⟩] false ⟨rfl,rfl⟩ (.inl rfl) rfl hall).mpr
    intro init mx c tlsErr e hrecords hout
    refine ⟨fun _ p _ => rfl,fun hquit => absurd ?_ hquit⟩
    cases init with
    | nil =>
      cases hrecords
      cases hout
      rfl
    | cons first rest => simp at hrecords
  · intro record mx hmx
    cases record with
    | zero =>
      cases hmx
      exact ⟨by decide,_,_,_,rfl⟩
    | succ record => cases hmx

/-- A TLSA record that does not match makes the error permanent. -/
theorem dane_refusal_permanent :
    AllRefused (trial .plain (configuredNet (oneServer (serverWith ["STARTTLS"]))
      (fun _ _ => .dane true (.ok [⟨3,0,1,"other"⟩]) "example.org" ⟨"leaf",false⟩ [])
        noLookups .plain) none [0] "example.org" true false) [⟨"example.org",10⟩] ∧
    ∃ e, Reports .plain waiting 0 "example.org"
      (connecting (configuredNet (oneServer (serverWith ["STARTTLS"]))
        (fun _ _ => .dane true (.ok [⟨3,0,1,"other"⟩]) "example.org" ⟨"leaf",false⟩ [])
        noLookups .plain) 0 none 0) e ∧ isTemporaryOrUnspec e = false := by
  constructor
  · intro record mx hmx
    cases record with
    | zero =>
      cases hmx
      exact ⟨by decide,_,_,_,rfl⟩
    | succ record => cases hmx
  · exact ⟨_,⟨[.acquire _ _],_,_,⟨_,rfl⟩,rfl,rfl,rfl⟩,rfl⟩

end Madmail.Proofs.PolicyFailures
