import Madmail.Proofs.RemoteTransfer

namespace Madmail.Proofs.RemoteBooks
open Function
open Exterrors Madmail.Module Remote Smtpconn EndpointCache Lib ClientSteps RemoteSteps List
  RemoteTransfer

variable {rt : Target} {net : Net} {cache : Option Cache} {w w' : World} {a : Action}
  {rd rd' : Delivery} {conn conn' : MxConn} {c c' : C} {domain : String}

/-- The addresses on the list of a connection: a server without SMTPUTF8 was only
given ASCII, and other addresses are recipients of the domain. -/
structure Kept (d : String) (conn : MxConn) : Prop where
  domain : conn.domain = d
  rcpts : ∀ x ∈ conn.c.rcpts, Address.isASCII x = true ∨
    (conn.c.extension "SMTPUTF8" = true ∧ ∃ mbox, Address.split x = .ok (mbox,d))

theorem Kept.same (h : Kept domain conn) (hs : SameList conn.c conn'.c)
    (hd : conn'.domain = conn.domain) : Kept domain conn' := by
  refine ⟨hd.trans h.domain,?_⟩
  rw [hs.rcpts,hs.extension]
  exact h.rcpts

section Opening

theorem close_rcpts (c : C) : c.close.rcpts = c.rcpts := by
  unfold C.close
  repeat' split
  all_goals rfl

theorem attempt_rcpts (h : attempt rt net dialled host c tlsCfg tlsLevel tlsErr = (c',res)) :
    c'.rcpts = c.rcpts := by
  cases attempt_cases h
  all_goals rfl

theorem remote_connect_rcpts (h : Remote.connect rt net cache record c host = (c',res)) :
    c'.rcpts = c.rcpts := by
  have hkeep : ∀ {dialled host c₁ tlsCfg tlsLevel tlsErr c₂ res}, c₁.rcpts = c.rcpts →
      attempt rt net dialled host c₁ tlsCfg tlsLevel tlsErr = (c₂,res) → c₂.rcpts = c.rcpts := by
    intro dialled host c₁ tlsCfg tlsLevel tlsErr c₂ res h₁ ha
    exact (attempt_rcpts ha).trans h₁
  refine connect_rule (Q := fun c' _ => c'.rcpts = c.rcpts) (fun _ _ _ _ _ h => ?_) h
  exact attempts_rule (I := fun c' => c'.rcpts = c.rcpts) (Q := fun c' _ => c'.rcpts = c.rcpts)
    (fun _ _ hc => hc) (fun _ _ _ _ _ _ _ hc ha => hkeep hc ha)
    (fun _ _ _ _ _ _ _ _ _ hc ha => hkeep hc ha) 3 rfl h

/-- A connection before its first transaction. -/
def Blank (domain : String) (conn : MxConn) : Prop := conn.domain = domain ∧ conn.c.rcpts = []

theorem attemptMX_blank (rt : Target) (net : Net) (cache : Option Cache) (policies : List Nat)
    (record : Nat) (mx : MX) (cacheOverride : Bool) (h : Blank domain conn) :
    Blank domain (attemptMX rt net cache policies record conn mx cacheOverride).1 := by
  unfold attemptMX
  dsimp only
  split
  · exact h
  · rcases hc : Remote.connect rt net cache record conn.c mx.host with ⟨c₁,e | ⟨tlsLevel,tlsErr⟩⟩
    · exact ⟨h.1,(remote_connect_rcpts hc).trans h.2⟩
    · dsimp only [checkConns]
      split
      · exact ⟨h.1,(close_rcpts _).trans ((remote_connect_rcpts hc).trans h.2)⟩
      · exact ⟨h.1,(remote_connect_rcpts hc).trans h.2⟩

/-- A new connection has nothing on its list. -/
theorem newConn_kept (h : newConn rt net cache policies now domain = .ok conn) :
    Kept domain conn := by
  obtain ⟨dnssecOk,records,cacheOverride,lastErr, -,hm⟩ := newConn_cases h
  have hkeep : ∀ record mx conn conn' err, Blank domain conn →
      attemptMX rt net cache policies record conn mx cacheOverride = (conn',err) →
      Blank domain conn' := by
    intro record mx conn conn' err hb ha
    have hblank := attemptMX_blank rt net cache policies record mx cacheOverride hb
    rwa [ha] at hblank
  have hblank : Blank domain conn :=
    or_self_iff.mp (attemptMXs_rule (fun _ _ _ _ hb ha => hkeep _ _ _ _ _ hb ha)
      (fun _ _ _ _ _ hb ha => hkeep _ _ _ _ _ hb ha) records ⟨rfl,rfl⟩ hm)
  refine ⟨hblank.1,fun x hx => ?_⟩
  rw [hblank.2] at hx
  cases hx

end Opening

theorem rcpts_kept (env : Smtpconn.Env) (rcptsTo : List String) (h : Kept domain conn)
    (hdom : ∀ r ∈ rcptsTo, ∃ mbox, Address.split r = .ok (mbox,domain)) :
    Kept domain { conn with c := (rcpts env rcptsTo conn.c).1 } := by
  obtain ⟨hlist,hext⟩ := rcpts_list env rcptsTo conn.c
  refine ⟨h.domain,fun x hx => ?_⟩
  rw [hext]
  rw [hlist] at hx
  rcases mem_append.mp hx with hx | hx
  · exact h.rcpts x hx
  · obtain ⟨r,hr,rfl⟩ := mem_map.mp hx
    obtain ⟨hm,s,hs⟩ := accepted_mem env rcptsTo conn.c hr
    have hsent : sentAs env conn.c r = s := by simp [sentAs,hs,Except.toOption]
    rw [hsent]
    rcases spelling_cases hs with ⟨rfl,ha | hu⟩ | ⟨ha, -, -⟩
    · exact .inl ha
    · exact .inr ⟨hu,hdom s hm⟩
    · exact .inl ha

/-- A transaction adds recipients of the domain to the list, or what they were converted to. -/
theorem transfer_kept (h : Kept domain conn)
    (hdom : ∀ r ∈ rcptsTo, ∃ mbox, Address.split r = .ok (mbox,domain))
    (ht : transfer rt.smtp conn rcptsTo msg reading now = (conn',statuses,out)) :
    Kept domain conn' := by
  have hk := rcpts_kept rt.smtp rcptsTo h hdom
  unfold transfer at ht
  dsimp only at ht
  split at ht
  · cases ht
    exact hk
  · cases ht
    exact hk.same (data_same _ _ _ _) rfl

theorem usable_kept (h : Kept domain conn) : Kept domain conn.usable.1 := by
  unfold MxConn.usable
  split
  · exact h
  · exact h.same (ask_same conn.c .reset nofun) rfl

/-- The connection that a goroutine works with. -/
def uses : Routine → Option MxConn
  | .sent conn _ => some conn
  | r => r.holds

/-- The books of a delivery: its domains, their recipients, and its goroutines and connections. -/
structure Booked (rd : Delivery) : Prop where
  nodup : rd.domains.Nodup
  rcpt : ∀ d, ∀ r ∈ rd.rcptsByDomain d, ∃ mbox, Address.split r = .ok (mbox,d)
  sublist : ∀ d, (rd.rcptsByDomain d).Sublist rd.recipients
  domain : ∀ r ∈ rd.recipients, ∃ d ∈ rd.domains, r ∈ rd.rcptsByDomain d
  routine : ∀ d r, rd.routines d = some r → d ∈ rd.domains
  quiet : rd.phase = .opened ∨ rd.phase = .body true → ∀ d, rd.routines d = none
  uses : ∀ d r conn, rd.routines d = some r → uses r = some conn → Kept d conn
  connections : ∀ d conn, rd.connections d = some conn → Kept d conn

theorem start_booked (h : Remote.start rt msgMeta mailFrom none = .ok rd) : Booked rd := by
  unfold Remote.start at h
  split at h
  · cases h
  · cases h
    exact ⟨.nil,nofun,fun d => nil_sublist _,nofun,
      fun d r hr => (by cases hr),fun _ d => rfl,fun d r conn hr => (by cases hr),
      fun _ _ => nofun⟩

theorem addDomain_spec (ds : List String) (dom : String) (hn : ds.Nodup) :
    (if dom ∈ ds then ds else ds ++ [dom]).Nodup ∧
      ∀ d, d ∈ (if dom ∈ ds then ds else ds ++ [dom]) ↔ d ∈ ds ∨ d = dom := by
  split
  · rename_i hin
    refine ⟨hn,fun d => ⟨.inl,fun hd => ?_⟩⟩
    rcases hd with hd | rfl
    · exact hd
    · exact hin
  · rename_i hnew
    refine ⟨?_,fun d => by simp⟩
    refine nodup_append.mpr ⟨hn,nodup_singleton dom,fun x hx y hy heq => hnew ?_⟩
    rwa [← mem_singleton.mp hy,← heq]

theorem addRcpt_booked (rcptTo : String) (hphase : rd.phase = .opened) (hb : Booked rd) :
    Booked (rd.addRcpt rcptTo).1 := by
  unfold Delivery.addRcpt
  split
  · exact hb
  split
  · exact hb
  split
  · exact hb
  rename_i mbox dom hsplit hdom
  obtain ⟨hnodup,hmem⟩ := addDomain_spec rd.domains dom hb.nodup
  refine ⟨hnodup,fun d r hr => ?_,fun d => ?_,fun r hr => ?_,fun d r hr => ?_,hb.quiet,hb.uses,
    hb.connections⟩
  · simp only [update_apply] at hr
    split at hr
    · rename_i heq
      rcases mem_append.mp hr with hr | hr
      · exact heq ▸ hb.rcpt dom r hr
      · rw [mem_singleton.mp hr,heq]
        exact ⟨mbox,hsplit⟩
    · exact hb.rcpt d r hr
  · simp only [update_apply]
    split
    · exact (hb.sublist dom).append (.refl _)
    · exact (hb.sublist d).trans (sublist_append_left _ _)
  · rcases mem_append.mp hr with hr | hr
    · obtain ⟨d,hd,hrd⟩ := hb.domain r hr
      refine ⟨d,(hmem d).mpr (.inl hd),?_⟩
      simp only [update_apply]
      split
      · rename_i heq
        exact mem_append_left _ (heq ▸ hrd)
      · exact hrd
    · refine ⟨dom,(hmem dom).mpr (.inr rfl),?_⟩
      simp only [update_self]
      exact mem_append_right _ hr
  · have hnone := hb.quiet (.inl hphase) d
    rw [hnone] at hr
    cases hr

theorem body_booked (message : Message) (hphase : rd.phase = .opened) (hb : Booked rd) :
    Booked (rd.startBody message) := by
  have hnone := hb.quiet (.inl hphase)
  unfold Delivery.startBody
  split
  · exact ⟨hb.nodup,hb.rcpt,hb.sublist,hb.domain,hb.routine,fun _ => hnone,hb.uses,
      hb.connections⟩
  · refine ⟨hb.nodup,hb.rcpt,hb.sublist,hb.domain,fun d r hr => ?_,fun h => ?_,
      fun d r conn hr hu => ?_,hb.connections⟩
    · dsimp only at hr
      split at hr
      · assumption
      · cases hr
    · rcases h with h | h
      · cases h
      · cases h
    · dsimp only at hr
      split at hr
      · cases hr
        cases hu
      · cases hr

theorem Booked.moved (hb : Booked rd) (hr : rd.routines domain = some r)
    (huse : ∀ conn, RemoteBooks.uses m.routine = some conn → Kept domain conn)
    (hconn : ∀ conn, m.connection = some conn → Kept domain conn) : Booked (rd.moved domain m) := by
  refine ⟨hb.nodup,hb.rcpt,hb.sublist,hb.domain,fun d r' hr' => ?_,fun h => ?_,
    fun d r' conn hr' hu => ?_,fun d conn hc => ?_⟩
  · simp only [Delivery.moved,update_apply] at hr'
    split at hr'
    · rename_i heq
      exact heq ▸ hb.routine domain r hr
    · exact hb.routine d r' hr'
  · have hnone := hb.quiet h domain
    rw [hr] at hnone
    cases hnone
  · simp only [Delivery.moved,update_apply] at hr'
    split at hr'
    · rename_i heq
      cases hr'
      exact heq ▸ huse conn hu
    · exact hb.uses d r' conn hr' hu
  · simp only [Delivery.moved] at hc
    cases hmc : m.connection with
    | none =>
      rw [hmc] at hc
      exact hb.connections d conn hc
    | some conn' =>
      rw [hmc] at hc
      simp only [update_apply] at hc
      split at hc
      · rename_i heq
        cases hc
        exact heq ▸ hconn conn hmc
      · exact hb.connections d conn hc

theorem acquire_kept (hpool : pool.All Kept)
    (h : acquire rt cache pool rd domain net now = (pool',res)) :
    pool'.All Kept ∧ ∀ conn, res = .ok conn → Kept domain conn := by
  obtain ⟨hleft,hgot⟩ := hpool.get MxConn.pooled rt.pool now domain fun conn hk => usable_kept hk
  obtain ⟨rfl,hres⟩ := acquire_cases h
  refine ⟨hleft,fun conn hok => ?_⟩
  rcases hres with ⟨conn',hfound,heq⟩ | hnew
  · cases heq.symm.trans hok
    exact hgot conn hfound
  · exact newConn_kept (hnew.trans hok)

/-- A step of a goroutine leaves the lists right, in the pool too. -/
theorem moves_kept (hold : ∀ conn, r.holds = some conn → Kept domain conn)
    (hdom : ∀ x ∈ rd.rcptsByDomain domain, ∃ mbox, Address.split x = .ok (mbox,domain))
    (hpool : pool.All Kept) (hm : Moves rt cache pool rd domain r st m) :
    (∀ conn, uses m.routine = some conn → Kept domain conn) ∧
      (∀ conn, m.connection = some conn → Kept domain conn) ∧ m.pool.All Kept := by
  cases hm with
  | http env tried htried =>
    refine ⟨fun conn hu => ?_,fun _ => nofun,hpool⟩
    split at hu <;> cases hu
  | noConn net now pool' e h =>
    exact ⟨fun _ => nofun,fun _ => nofun,(acquire_kept hpool h).1⟩
  | acquire net now pool' conn h =>
    obtain ⟨hleft,hgot⟩ := acquire_kept hpool h
    refine ⟨fun conn' hu => ?_,fun _ => nofun,hleft⟩
    cases hu
    exact hgot conn rfl
  | refused conn takeDest e | noMail conn now e =>
    exact ⟨fun _ => nofun,fun _ => nofun,hpool⟩
  | check conn h | relax conn =>
    refine ⟨fun conn' hu => ?_,fun _ => nofun,hpool⟩
    cases hu
    exact hold conn rfl
  | mail conn now c h =>
    have hmail : SameList conn.c (conn.c.mail rt.smtp rd.mailFrom rd.msgMeta.smtpOpts).1 :=
      mail_same
    rw [h] at hmail
    have hk : Kept domain { conn with c := c, lastUseAt := now } := (hold conn rfl).same hmail rfl
    refine ⟨fun conn' hu => ?_,fun conn' hc => ?_,hpool⟩
    · cases hu
      exact hk
    · cases hc
      exact hk
  | transfer conn conn' reading now statuses out h =>
    refine ⟨fun conn'' hu => ?_,fun conn'' hc => ?_,hpool⟩
    · cases hu
      exact hold conn rfl
    · cases hc
      exact transfer_kept (hold conn rfl) hdom h

theorem go_booked (hb : Booked rd) (hpool : pool.All Kept) (hr : rd.routines domain = some r)
    (hm : Moves rt cache pool rd domain r st m) :
    Booked (rd.moved domain m) ∧ m.pool.All Kept := by
  have hold : ∀ conn, r.holds = some conn → Kept domain conn := by
    intro conn hh
    refine hb.uses domain r conn hr ?_
    cases r <;> first | exact hh | cases hh
  obtain ⟨huse,hconn,hpool'⟩ := moves_kept hold (hb.rcpt domain) hpool hm
  exact ⟨hb.moved hr huse hconn,hpool'⟩

theorem release_kept (hpool : pool.All Kept) (h : Kept domain conn) :
    (release rt now pool conn).All Kept := by
  have hcounted : Kept domain { conn with transactions := conn.transactions + 1 } :=
    ⟨h.domain,h.rcpts⟩
  have hk := usable_kept hcounted
  unfold release
  rcases hu : ({ conn with transactions := conn.transactions + 1 } : MxConn).usable with ⟨conn',_ | _⟩
  · exact hpool
  · rw [hu] at hk
    refine hpool.returnConn rt.pool now ?_
    rw [hk.domain]
    exact hk

/-- So does every other call on a delivery. -/
theorem changes_booked (hb : Booked rd) (hpool : w.pool.All Kept)
    (hc : Changes rt w i rd a rd' pool sent) : Booked rd' ∧ pool.All Kept := by
  cases hc with
  | addRcpt rcptTo hphase => exact ⟨addRcpt_booked rcptTo hphase hb,hpool⟩
  | quarantine =>
    exact ⟨⟨hb.nodup,hb.rcpt,hb.sublist,hb.domain,hb.routine,hb.quiet,hb.uses,
      hb.connections⟩,hpool⟩
  | body message hphase => exact ⟨body_booked message hphase hb,hpool⟩
  | go domain r st m hr hm => exact go_booked hb hpool hr hm
  | close order now hidle =>
    refine ⟨⟨hb.nodup,hb.rcpt,hb.sublist,hb.domain,hb.routine,fun h => ?_,hb.uses,
      hb.connections⟩,?_⟩
    · rcases h with h | h
      · cases h
      · cases h
    · refine List.foldlRecOn _ _ hpool fun pool hpool conn hconn => ?_
      obtain ⟨d, -,hd⟩ := mem_filterMap.mp hconn
      exact release_kept hpool (hb.connections d conn hd)

structure Inv (w : World) : Prop where
  booked : ∀ (i : Nat) rd, w.deliveries[i]? = some rd → Booked rd
  kept : w.pool.All Kept

theorem step_inv (hinv : Inv w) (h : step rt w a = some w') : Inv w' := by
  have hs := steps_of_step h
  have hdel := hs.deliveries hinv.booked (fun _ _ _ hstart => start_booked hstart)
    fun i rd rd' pool sent hi hc hb => (changes_booked hb hinv.kept hc).1
  cases hs with
  | start msgMeta mailFrom rd h | setCache cache => exact ⟨hdel,hinv.kept⟩
  | change i rd rd' pool sent hi hc =>
    exact ⟨hdel,(changes_booked (hinv.booked i rd hi) hinv.kept hc).2⟩
  | cleanUp now => exact ⟨hdel,hinv.kept.remove _⟩

theorem inv_init : Inv {} := by
  refine ⟨fun i rd h => by simp at h,fun key bucket hm => ?_⟩
  cases hm

/-- The books of a delivery are right in every state that a run reaches. -/
theorem run_booked {i : Nat} (hrun : run (step rt) {} acts = some w)
    (hi : w.deliveries[i]? = some rd) : Booked rd := by
  have hfree : ∀ a ∈ acts, (fun _ : Action => True) a := fun _ _ => trivial
  have hinv := run_invariant (fun _ _ _ hinv _ h => step_inv hinv h) inv_init hfree hrun
  exact hinv.booked i rd hi

end Madmail.Proofs.RemoteBooks
