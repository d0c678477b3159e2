import Madmail.Proofs.RemoteSteps

namespace Madmail.Proofs.RequireTLS
open Exterrors Madmail.Module Remote Smtpconn Lib RemoteSteps List

variable {rt : Target} {w w' : World} {a : Action} {rd rd' : Delivery}

def Strong (conn : MxConn) : Prop :=
  TLSLevel.authenticated.rank ≤ conn.tlsLevel.rank ∧ MXLevel.mtasts.rank ≤ conn.mxLevel.rank

def Protected : Via → Prop
  | .http _ => False
  | .smtp conn => Strong conn

/-- No message that was started with REQUIRETLS went out otherwise. -/
def Honoured (w : World) : Prop := ∀ e ∈ w.sent, e.requireTLS = true → Protected e.via

def unchecked : Routine → Bool
  | .http | .acquire | .check _ => true
  | _ => false

def checked : Routine → Option MxConn
  | .relax conn | .mail conn | .connected conn => some conn
  | _ => none

theorem strong_of_checkLevels (h : checkLevels conn = none) : Strong conn := by
  unfold checkLevels at h
  split at h
  · cases h
  split at h
  · cases h
  · exact ⟨by omega,by omega⟩

/-- While the flag of a delivery is cleared, all its goroutines are past the
check. -/
structure Guarding (rd : Delivery) : Prop where
  opened : rd.phase = .opened →
    rd.msgMeta.smtpOpts.requireTLS = rd.requireTLS ∧ ∀ domain, rd.routines domain = none
  flag : rd.requireTLS = true → rd.msgMeta.smtpOpts.requireTLS = true ∨
    ∀ domain r, rd.routines domain = some r → unchecked r = false
  strong : rd.requireTLS = true → ∀ domain r conn, rd.routines domain = some r →
    checked r = some conn → Strong conn

/-- None of the URLs, which are tried until one takes the request, gets a part of it:
the body cannot be opened for the URL, or nothing goes out to it. -/
def Silent (env : HttpEnv) (request : Chatmail.Request) (urls : List String) : Prop :=
  ∀ before url after, urls = before ++ url :: after →
    (∀ u ∈ before, env.openBody u ≠ none ∨ (env.send u request).code ≠ .ok 200) →
    env.openBody url = none → (env.send url request).transmitted = false

/-- No URL of the domain gets a part of a message with REQUIRETLS, and the flag is
cleared only when no other goroutine of the delivery has its check to come. -/
def Careful (rt : Target) (w : World) : Action → Prop
  | .go i domain (.http env) => ∀ rd, w.deliveries[i]? = some rd → rd.requireTLS = true →
      Silent env (httpRequest env rd.mailFrom (rd.rcptsByDomain domain) rd.message)
        (httpURLs ⟨rt.endpointRewrite,w.cache⟩ domain)
  | .go i domain .relax => ∀ rd conn, w.deliveries[i]? = some rd → rd.requireTLS = true →
      rd.routines domain = some (.relax conn) → rt.relaxedREQUIRETLS = true →
      conn.c.extension "REQUIRETLS" = false →
      ∀ other r, other ≠ domain → rd.routines other = some r → unchecked r = false
  | _ => True

theorem silent_tryURLs (h : Silent env (httpRequest env mailFrom rcptsTo msg) urls) :
    ∀ request ∈ (tryURLs env mailFrom rcptsTo msg urls).requests, request.2 = false := by
  induction urls with
  | nil => simp [tryURLs]
  | cons url rest ih =>
    have hfirst : (doHTTPRequestURL env mailFrom rcptsTo msg url).1 = false := by
      unfold doHTTPRequestURL
      cases ho : env.openBody url with
      | some e => rfl
      | none => exact h [] url rest rfl (by simp) ho
    rcases hd : doHTTPRequestURL env mailFrom rcptsTo msg url with ⟨sent,_ | err⟩
    · simpa [tryURLs,hd] using hfirst
    · have hfails : env.openBody url ≠ none ∨
          (env.send url (httpRequest env mailFrom rcptsTo msg)).code ≠ .ok 200 := by
        by_contra hno
        obtain ⟨ho,hcode⟩ := not_or.mp hno
        simp [doHTTPRequestURL,not_not.mp ho,not_not.mp hcode,answerErr] at hd
      have hrest := ih fun before u after hs hb => h (url :: before) u after (by rw [hs]; rfl)
        (forall_mem_cons.mpr ⟨hfails,hb⟩)
      rw [hd] at hfirst
      cases rest with
      | nil => simpa [tryURLs,hd] using hfirst
      | cons second more =>
        simp only [tryURLs,hd]
        exact forall_mem_cons.mpr ⟨hfirst,hrest⟩

theorem start_guarding (h : Remote.start rt msgMeta mailFrom none = .ok rd) : Guarding rd := by
  unfold Remote.start at h
  split at h
  · cases h
  · cases h
    exact ⟨fun _ => ⟨rfl,fun _ => rfl⟩,fun hreq => .inl hreq,fun _ domain r conn hr => by cases hr⟩

theorem moved_routines (domain other : String) (m : Move) :
    (rd.moved domain m).routines other =
      if other = domain then some m.routine else rd.routines other := by
  simp only [Delivery.moved,Function.update_apply]

theorem Guarding.moved (hg : Guarding rd) (hphase : rd.phase ≠ .opened)
    (hflag : rd.requireTLS = true → (!m.relaxes && rd.msgMeta.smtpOpts.requireTLS) = true ∨
      (unchecked m.routine = false ∧
        ∀ other r, other ≠ domain → rd.routines other = some r → unchecked r = false))
    (hstrong : rd.requireTLS = true → ∀ conn, checked m.routine = some conn → Strong conn) :
    Guarding (rd.moved domain m) := by
  refine ⟨fun hopen => absurd hopen hphase,fun hreq => ?_,fun hreq other r conn hr hc => ?_⟩
  · rcases hflag hreq with htrue | ⟨hown,hothers⟩
    · exact .inl htrue
    · right
      intro other r hr
      rw [moved_routines] at hr
      split at hr
      · cases hr
        exact hown
      · rename_i hne
        exact hothers other r hne hr
  · rw [moved_routines] at hr
    split at hr
    · cases hr
      exact hstrong hreq conn hc
    · exact hg.strong hreq other r conn hr hc

theorem go_guarding (hok : Careful rt w (.go i domain st)) (hi : w.deliveries[i]? = some rd)
    (hr : rd.routines domain = some r) (hm : Moves rt w.cache w.pool rd domain r st m)
    (hg : Guarding rd) :
    Guarding (rd.moved domain m) ∧
      (rd.requireTLS = true → ∀ via ∈ m.sent, Protected via) := by
  have hphase : rd.phase ≠ .opened := fun h => by
    have hnone := (hg.opened h).2 domain
    rw [hr] at hnone
    cases hnone
  -- a goroutine before its check finds the flag as it was
  have hbefore : unchecked r = true → rd.requireTLS = true →
      rd.msgMeta.smtpOpts.requireTLS = true := by
    intro hun hreq
    rcases hg.flag hreq with h | h
    · exact h
    · have hfalse := h domain r hr
      rw [hun] at hfalse
      cases hfalse
  have hkeep : unchecked m.routine = false → rd.requireTLS = true →
      m.relaxes = false → (!m.relaxes && rd.msgMeta.smtpOpts.requireTLS) = true ∨
        (unchecked m.routine = false ∧
          ∀ other r, other ≠ domain → rd.routines other = some r → unchecked r = false) := by
    intro hun hreq hsame
    rcases hg.flag hreq with h | h
    · exact .inl (by rw [hsame,h]; rfl)
    · exact .inr ⟨hun,fun other r _ hr => h other r hr⟩
  cases hm with
  | http env tried htried =>
    refine ⟨hg.moved hphase (fun hreq => .inl (hbefore rfl hreq)) fun hreq conn hc => ?_,
      fun hreq via hvia => ?_⟩
    · split at hc <;> cases hc
    · obtain ⟨request,hmem,rfl⟩ := mem_map.mp hvia
      obtain ⟨hreqs,hout⟩ := mem_filter.mp hmem
      have hno := silent_tryURLs (hok rd hi hreq) request (by rw [htried] at hreqs; exact hreqs)
      rw [hno] at hout
      cases hout
  | noConn net now pool' e h | acquire net now pool' conn h | refused conn takeDest e =>
    exact ⟨hg.moved hphase (fun hreq => .inl (hbefore rfl hreq)) fun _ _ => nofun,
      fun _ _ => nofun⟩
  | check conn h =>
    refine ⟨hg.moved hphase (fun hreq => .inl (hbefore rfl hreq)) fun hreq conn' hc => ?_,
      fun _ _ => nofun⟩
    cases hc
    exact strong_of_checkLevels (h (hbefore rfl hreq))
  | relax conn =>
    refine ⟨hg.moved hphase (fun hreq => ?_) fun hreq conn' hc => ?_,
      fun _ _ => nofun⟩
    · by_cases hclear : rt.relaxedREQUIRETLS = true ∧ conn.c.extension "REQUIRETLS" = false
      · exact .inr ⟨rfl,hok rd conn hi hreq hr hclear.1 hclear.2⟩
      · exact hkeep rfl hreq (by simpa using hclear)
    · cases hc
      exact hg.strong hreq domain _ conn hr rfl
  | noMail conn now e =>
    exact ⟨hg.moved hphase (fun hreq => hkeep rfl hreq rfl) fun _ _ => nofun,
      fun _ _ => nofun⟩
  | mail conn now c h =>
    refine ⟨hg.moved hphase (fun hreq => hkeep rfl hreq rfl) fun hreq conn' hc => ?_,
      fun _ _ => nofun⟩
    cases hc
    exact hg.strong hreq domain _ conn hr rfl
  | transfer conn conn' reading now statuses out h =>
    refine ⟨hg.moved hphase (fun hreq => hkeep rfl hreq rfl) fun _ _ => nofun,
      fun hreq via hvia => ?_⟩
    split at hvia
    · rw [mem_singleton.mp hvia]
      obtain ⟨c,errored,lastUseAt,rfl⟩ := transfer_keeps h
      exact hg.strong hreq domain _ conn hr rfl
    · cases hvia

theorem changes_guarding (hok : Careful rt w a) (hi : w.deliveries[i]? = some rd)
    (hc : Changes rt w i rd a rd' pool sent) (hg : Guarding rd) : Guarding rd' := by
  cases hc with
  | addRcpt rcptTo hphase =>
    obtain ⟨domains,rcptsByDomain,recipients,heq⟩ := addRcpt_keeps rd rcptTo
    rw [heq]
    exact ⟨hg.opened,hg.flag,hg.strong⟩
  | quarantine => exact ⟨hg.opened,hg.flag,hg.strong⟩
  | body message hphase =>
    obtain ⟨hflag,hnone⟩ := hg.opened hphase
    unfold Delivery.startBody
    split
    · exact ⟨nofun,hg.flag,hg.strong⟩
    · refine ⟨nofun,fun hreq => .inl (hflag.trans hreq),?_⟩
      intro hreq domain r conn hr hc
      dsimp only at hr
      split at hr
      · cases hr
        cases hc
      · cases hr
  | go domain r st m hr hm => exact (go_guarding hok hi hr hm hg).1
  | close order now hidle => exact ⟨nofun,hg.flag,hg.strong⟩

structure Inv (w : World) : Prop where
  guarding : ∀ (i : Nat) rd, w.deliveries[i]? = some rd → Guarding rd
  honoured : Honoured w

theorem step_inv (hinv : Inv w) (hok : Careful rt w a) (h : step rt w a = some w') : Inv w' := by
  have hs := steps_of_step h
  refine ⟨hs.deliveries hinv.guarding (fun _ _ _ hstart => start_guarding hstart)
    fun i rd rd' pool sent hi hc hg => changes_guarding hok hi hc hg,?_⟩
  cases hs with
  | start msgMeta mailFrom rd h | setCache cache | cleanUp now => exact hinv.honoured
  | change i rd rd' pool sent hi hc =>
    intro e he hreq
    rcases mem_append.mp he with hold | hnew
    · exact hinv.honoured e hold hreq
    · cases hc with
      | go domain r st m hr hm =>
        obtain ⟨via,hvia,rfl⟩ := mem_map.mp hnew
        exact (go_guarding hok hi hr hm (hinv.guarding i rd hi)).2 hreq via hvia
      | _ => cases hnew

/-- A careful run honours REQUIRETLS in every state it reaches. -/
theorem careful_run_honours (acts : List Action) (w : World)
    (hok : Meets (step rt) (Careful rt) {} acts) (hrun : run (step rt) {} acts = some w) :
    Honoured w := by
  have hinit : Inv {} := ⟨fun i rd h => by simp at h,fun e he => by simp at he⟩
  exact (run_invariant_of_meets (fun _ _ _ hi hok h => step_inv hi hok h) hinit hok hrun).honoured

def httpTakes : HttpEnv :=
  { openBody := fun _ => none
    writeHeader := fun _ => ""
    send := fun _ _ => { transmitted := true, code := .ok 200 } }

def secret : MsgMetadata := { id := "m1", smtpOpts := { requireTLS := true } }

theorem failing_silent (request : Chatmail.Request) (urls : List String) :
    Silent .failing request urls := by
  intro before url after _ _ hopen
  cases hopen

def secureNet : Net := Net.plain (.accepting .mtasts) (serverWith ["STARTTLS"])

def insecureNet : Net := Net.plain (.accepting .none) (serverWith [])

/-- REQUIRETLS is not honoured: the message goes out by HTTP before anything is
checked. It is not honoured without HTTP either: the domain that is served first
has a secure server without REQUIRETLS, and the second one has no TLS. -/
theorem requireTLS_not_honoured :
    (¬ ∀ (rt : Target) (acts : List Action) (w : World),
      run (step rt) {} acts = some w → Honoured w) ∧
    ¬ ∀ (rt : Target) (acts : List Action) (w : World),
      (∀ i domain env, .go i domain (.http env) ∈ acts → ∀ url, env.openBody url ≠ none) →
      run (step rt) {} acts = some w → Honoured w := by
  constructor
  · intro h
    have hsent := h Target.plain
      (handOver 0 secret ["ann@example.org"] ++ [.go 0 "example.org" (.http httpTakes)]) _ rfl
    exact hsent _ mem_cons_self rfl
  · intro h
    have hsent := h Target.plain
      (handOver 0 secret ["ann@example.org","bob@example.net"] ++
        sendBySMTP 0 "example.org" secureNet ++ sendBySMTP 0 "example.net" insecureNet) _
      (fun i domain env hmem url => ?_) rfl
    · have hweak := hsent _ (mem_cons_of_mem _ mem_cons_self) rfl
      exact absurd hweak.1 (by decide)
    · simp only [handOver,sendBySMTP,openBySMTP,checkBySMTP,map_cons,map_nil,cons_append,nil_append,
        mem_cons,not_mem_nil,reduceCtorEq,Action.go.injEq,Step.http.injEq,false_or,or_false,and_false] at hmem
      rcases hmem with ⟨-, -,rfl⟩ | ⟨-, -,rfl⟩
      · exact Option.some_ne_none _
      · exact Option.some_ne_none _

/-- The flag is cleared after both connections have been checked. -/
def secureRun : List Action :=
  handOver 0 secret ["ann@example.org","bob@example.net"] ++ checkBySMTP 0 "example.org" secureNet ++
    checkBySMTP 0 "example.net" secureNet ++
    [.go 0 "example.org" .relax,.go 0 "example.org" (.mail 0),.go 0 "example.org" (.transfer {} 0),
      .go 0 "example.net" .relax,.go 0 "example.net" (.mail 0),.go 0 "example.net" (.transfer {} 0)]

theorem secureRun_careful : Meets (step Target.plain) (Careful Target.plain) {} secureRun := by
  refine meets_cons rfl trivial (meets_cons rfl trivial (meets_cons rfl trivial
    (meets_cons rfl trivial ?_)))
  refine meets_cons rfl (fun rd hi _ => failing_silent _ _) (meets_cons rfl trivial
    (meets_cons rfl trivial ?_))
  refine meets_cons rfl (fun rd hi _ => failing_silent _ _) (meets_cons rfl trivial
    (meets_cons rfl trivial ?_))
  refine meets_cons rfl (fun rd conn hi _ _ _ _ other r hne hr => ?_) (meets_cons rfl trivial
    (meets_cons rfl trivial (meets_cons rfl (fun rd conn hi _ _ _ _ other r hne hr => ?_)
      (meets_cons rfl trivial (meets_cons rfl trivial trivial)))))
  · cases hi
    simp only [moved_routines,hne,if_false] at hr
    by_cases hnet : other = "example.net"
    · cases (if_pos hnet).symm.trans hr
      rfl
    · simp only [hnet,if_false] at hr
      change (if other ∈ ["example.org","example.net"] then some Routine.http else none) = some r at hr
      simp [hne,hnet] at hr
  · cases hi
    simp only [moved_routines,hne,if_false] at hr
    by_cases horg : other = "example.org"
    · cases (if_pos horg).symm.trans hr
      rfl
    · simp only [horg,if_false] at hr
      change (if other ∈ ["example.org","example.net"] then some Routine.http else none) = some r at hr
      simp [hne,horg] at hr

/-- A message with REQUIRETLS for two domains. -/
theorem secure_domains_honoured :
    Meets (step Target.plain) (Careful Target.plain) {} secureRun ∧
      ∃ w, run (step Target.plain) {} secureRun = some w ∧ w.sent.length = 2 ∧ Honoured w :=
  ⟨secureRun_careful,_,rfl,rfl,careful_run_honours secureRun _ secureRun_careful rfl⟩

end Madmail.Proofs.RequireTLS
