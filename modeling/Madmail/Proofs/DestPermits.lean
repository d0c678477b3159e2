import Madmail.Proofs.RemoteBooks

namespace Madmail.Proofs.DestPermits
open Exterrors Madmail.Module Remote Smtpconn EndpointCache Lib RemoteSteps RemoteBooks List

variable {rt : Target} {w w' : World} {rd rd' : Delivery} {d domain : String} {r : Routine}
  {st : Step} {m : Move} {a : Action} {i : Nat} {cache : Option Cache} {pool : Pool.P MxConn}

/-- The permits that a step of a goroutine takes for its domain. -/
def takes (rd : Delivery) (domain : String) (st : Step) : Nat :=
  match rd.routines domain, st with
  | some (.check conn), .check none =>
    if rd.msgMeta.smtpOpts.requireTLS = true ∧ (checkLevels conn).isSome = true then 0 else 1
  | _, _ => 0

def mailFails (rt : Target) (rd : Delivery) (domain : String) (st : Step) : Bool :=
  match rd.routines domain, st with
  | some (.mail conn), .mail _ => (conn.c.mail rt.smtp rd.mailFrom rd.msgMeta.smtpOpts).2.isSome
  | _, _ => false

def taken (i : Nat) (d : String) (w : World) : Action → Nat
  | .go j domain st =>
    if j = i ∧ domain = d then w.deliveries[i]?.elim 0 (fun rd => takes rd d st) else 0
  | _ => 0

/-- The permits for a domain that the end of a delivery gives back: one for each connection. -/
def released (i : Nat) (d : String) (w : World) : Action → Nat
  | .close j order _ =>
    if j = i then
      w.deliveries[i]?.elim 0
        (fun rd => (order.filterMap rd.connections).countP (fun conn => conn.domain == d))
    else 0
  | _ => 0

def mailTaken (rt : Target) (i : Nat) (w : World) : Action → Bool
  | .go j domain st =>
    j != i || w.deliveries[i]?.all (fun rd => !mailFails rt rd domain st)
  | _ => true

/-- A goroutine that ends with a failed MAIL has a permit that nobody gives back. -/
def leaked (rt : Target) (i : Nat) (d : String) (w : World) : Action → Nat
  | .go j domain st =>
    if j = i ∧ domain = d then w.deliveries[i]?.elim 0 (fun rd => (mailFails rt rd d st).toNat)
    else 0
  | _ => 0

/-- A goroutine has a permit from the check of its connection on. -/
def permit : Routine → Nat
  | .relax _ | .mail _ | .connected _ | .sent _ _ => 1
  | _ => 0

def held (rd : Delivery) (d : String) : Nat :=
  if rd.phase = .closed then 0 else (rd.routines d).elim 0 permit

def heldBy (i : Nat) (d : String) (w : World) : Nat := w.deliveries[i]?.elim 0 (fun rd => held rd d)

section Links

def linked : Routine → Bool
  | .connected _ | .sent _ _ => true
  | _ => false

/-- There is a connection for a domain exactly when its goroutine has got past MAIL. -/
structure Paired (rd : Delivery) : Prop where
  link : ∀ d, (rd.connections d).isSome = (rd.routines d).any linked
  closed : rd.phase = .closed → rd.idle = true

theorem moves_linked (hm : Moves rt cache pool rd domain r st m) :
    r.done = false ∧ (m.connection.isSome = linked m.routine) ∧
      (m.connection = none → linked r = false) := by
  cases hm with
  | http env tried htried =>
    refine ⟨rfl,?_,fun _ => rfl⟩
    dsimp only
    split <;> rfl
  | transfer conn conn' reading now statuses out h => exact ⟨rfl,rfl,nofun⟩
  | _ => exact ⟨rfl,rfl,fun _ => rfl⟩

theorem Paired.running (hp : Paired rd) (hb : Booked rd) (hr : rd.routines d = some r)
    (hdone : r.done = false) : rd.phase ≠ .closed := by
  intro hclosed
  have hidle := all_eq_true.mp (hp.closed hclosed) d (hb.routine d r hr)
  rw [hr] at hidle
  rw [Option.all_some,hdone] at hidle
  cases hidle

theorem Paired.moved (hp : Paired rd) (hb : Booked rd) (hr : rd.routines domain = some r)
    (hm : Moves rt cache pool rd domain r st m) : Paired (rd.moved domain m) := by
  obtain ⟨hdone,hconn,hnone⟩ := moves_linked hm
  refine ⟨fun d => ?_,fun h => absurd h (hp.running hb hr hdone)⟩
  have hold := hp.link d
  simp only [Delivery.moved,Function.update_apply]
  by_cases hd : d = domain
  · subst hd
    rw [hr,Option.any_some] at hold
    rw [if_pos rfl,Option.any_some,← hconn]
    cases hmc : m.connection with
    | none => exact hold.trans (hnone hmc)
    | some conn => simp
  · rw [if_neg hd,← hold]
    cases m.connection with
    | none => rfl
    | some conn => simp [hd]

theorem addRcpt_paired (rcptTo : String) (hphase : rd.phase = .opened) (hp : Paired rd) :
    Paired (rd.addRcpt rcptTo).1 := by
  obtain ⟨domains,rcptsByDomain,recipients,heq⟩ := addRcpt_keeps rd rcptTo
  rw [heq]
  refine ⟨hp.link,fun h => ?_⟩
  rw [hphase] at h
  cases h

theorem body_paired (message : Message) (hphase : rd.phase = .opened) (hb : Booked rd)
    (hp : Paired rd) : Paired (rd.startBody message) := by
  have hnone := hb.quiet (.inl hphase)
  unfold Delivery.startBody
  split
  · exact ⟨hp.link,nofun⟩
  · refine ⟨fun d => ?_,nofun⟩
    have hold := hp.link d
    rw [hnone d] at hold
    dsimp only
    split
    · exact hold
    · exact hold

theorem changes_paired {sent : List Sent} (hb : Booked rd) (hp : Paired rd)
    (hc : Changes rt w i rd a rd' pool sent) : Paired rd' := by
  cases hc with
  | addRcpt rcptTo hphase => exact addRcpt_paired rcptTo hphase hp
  | quarantine => exact ⟨hp.link,hp.closed⟩
  | body message hphase => exact body_paired message hphase hb hp
  | go domain r st m hr hm => exact hp.moved hb hr hm
  | close order now hidle => exact ⟨hp.link,fun _ => hidle⟩

theorem start_paired {msgMeta : MsgMetadata} {mailFrom : String}
    (h : Remote.start rt msgMeta mailFrom none = .ok rd) :
    Paired rd ∧ ∀ d, held rd d = 0 := by
  unfold Remote.start at h
  split at h
  · cases h
  · cases h
    exact ⟨⟨fun d => rfl,nofun⟩,fun d => rfl⟩

end Links

structure Linked (w : World) : Prop where
  inv : Inv w
  paired : ∀ (i : Nat) rd, w.deliveries[i]? = some rd → Paired rd

theorem step_linked (hl : Linked w) (h : step rt w a = some w') : Linked w' :=
  ⟨step_inv hl.inv h,(steps_of_step h).deliveries hl.paired (fun _ _ _ hs => (start_paired hs).1)
    fun i rd _ _ _ hi hc hp => changes_paired (hl.inv.booked i rd hi) hp hc⟩

section Balance

/-- What a step takes is held after it, or lost with a failed MAIL. -/
theorem move_permit (hr : rd.routines domain = some r)
    (hm : Moves rt cache pool rd domain r st m) :
    permit m.routine + (mailFails rt rd domain st).toNat = permit r + takes rd domain st := by
  unfold mailFails takes
  rw [hr]
  cases hm with
  | http env tried htried =>
    dsimp only
    split <;> rfl
  | refused conn takeDest e h =>
    cases takeDest with
    | some _ => rfl
    | none =>
      obtain ⟨hreq,hlevels⟩ : rd.msgMeta.smtpOpts.requireTLS = true ∧ checkLevels conn = some e := by
        simpa using h
      simp [hreq,hlevels,permit]
  | check conn h =>
    by_cases hreq : rd.msgMeta.smtpOpts.requireTLS = true
    · simp [hreq,h hreq,permit]
    · simp [hreq,permit]
  | noMail conn now e h | mail conn now c h => simp [h,permit]
  | _ => rfl

/-- A delivery that ends gives back what its goroutines hold. -/
theorem count_released {order : List String} (hb : Booked rd) (hp : Paired rd)
    (hidle : rd.idle = true) (horder : order.Perm rd.domains) (d : String) :
    (order.filterMap rd.connections).countP (fun conn => conn.domain == d) =
      (rd.routines d).elim 0 permit := by
  have hcount : (order.filterMap rd.connections).countP (fun conn => conn.domain == d) =
      order.countP (fun x => (rd.connections d).isSome && x == d) := by
    rw [countP_filterMap]
    refine countP_congr fun x _ => ?_
    cases hx : rd.connections x with
    | none =>
      simp only [Option.map_none,Option.getD_none,Bool.and_eq_true,beq_iff_eq]
      refine ⟨nofun,fun h => ?_⟩
      rw [← h.2,hx] at h
      cases h.1
    | some conn =>
      have hdom := (hb.connections x conn hx).domain
      simp only [Option.map_some,Option.getD_some,hdom,Bool.and_eq_true,beq_iff_eq]
      refine ⟨fun h => ⟨?_,h⟩,fun h => h.2⟩
      rw [← h,hx]
      rfl
  rw [hcount]
  have hlink := hp.link d
  cases hr : rd.routines d with
  | none =>
    rw [hr] at hlink
    rw [hlink]
    simp
  | some r =>
    have hd := hb.routine d r hr
    have hdone := all_eq_true.mp hidle d hd
    rw [hr] at hdone hlink
    have hone : order.countP (fun x => x == d) = 1 :=
      count_eq_one_of_mem (horder.nodup_iff.mpr hb.nodup) (horder.mem_iff.mpr hd)
    rw [hlink]
    cases r with
    | sent conn reading => simpa [linked,permit] using hone
    | delivered | failed e => simp [linked,permit]
    | _ => cases hdone

theorem heldBy_set {j : Nat} (hj : w.deliveries[j]? = some rd) (rd' : Delivery)
    (pool : Pool.P MxConn) (sent : List Sent) (i : Nat) (d : String) :
    heldBy i d { w with pool := pool, deliveries := w.deliveries.set j rd', sent := sent } +
      (if j = i then held rd d else 0) = heldBy i d w + (if j = i then held rd' d else 0) := by
  unfold heldBy
  dsimp only
  rw [getElem?_set]
  by_cases h : j = i
  · subst h
    have hlt : j < w.deliveries.length := (List.getElem?_eq_some_iff.mp hj).1
    rw [if_pos rfl,if_pos hlt,if_pos rfl,if_pos rfl,hj]
    exact Nat.add_comm _ _
  · rw [if_neg h,if_neg h,if_neg h]

theorem heldBy_append (h : held rd d = 0) :
    heldBy i d { w with deliveries := w.deliveries ++ [rd] } = heldBy i d w := by
  unfold heldBy
  dsimp only
  rw [getElem?_append]
  split
  · rfl
  · rename_i hlt
    rw [getElem?_eq_none (Nat.not_lt.mp hlt)]
    cases hx : [rd][i - w.deliveries.length]? with
    | none => rfl
    | some x =>
      have hmem := mem_of_getElem? hx
      rw [mem_singleton.mp hmem]
      exact h

theorem held_moved (hphase : rd.phase ≠ .closed) (hr : rd.routines domain = some r) :
    held (rd.moved domain m) d + (if domain = d then permit r else 0) =
      held rd d + (if domain = d then permit m.routine else 0) := by
  unfold held
  rw [if_neg hphase,if_neg (by exact hphase)]
  simp only [Delivery.moved,Function.update_apply]
  by_cases h : d = domain
  · subst h
    rw [if_pos rfl,if_pos rfl,if_pos rfl,hr]
    exact Nat.add_comm _ _
  · rw [if_neg h,if_neg (Ne.symm h),if_neg (Ne.symm h)]

theorem held_startBody (message : Message) (hb : Booked rd) (hphase : rd.phase = .opened) :
    held (rd.startBody message) d = held rd d := by
  have hnone := hb.quiet (.inl hphase) d
  unfold held Delivery.startBody
  rw [hphase,hnone]
  split
  · rw [hnone]
    rfl
  · dsimp only
    by_cases hd : d ∈ rd.domains
    · rw [if_pos hd]
      rfl
    · rw [if_neg hd]
      rfl

/-- The permits taken in a step are held after it, given back or lost. -/
theorem step_balance (hl : Linked w) (h : step rt w a = some w') :
    heldBy i d w' + (released i d w a + leaked rt i d w a) = heldBy i d w + taken i d w a := by
  cases steps_of_step h with
  | start msgMeta mailFrom rd hs => exact heldBy_append ((start_paired hs).2 d)
  | change j rd rd' pool sent hj hc =>
    have hb := hl.inv.booked j rd hj
    have hp := hl.paired j rd hj
    have hworld := heldBy_set hj rd' pool (w.sent ++ sent) i d
    cases hc with
    | addRcpt rcptTo hphase =>
      obtain ⟨domains,rcptsByDomain,recipients,heq⟩ := addRcpt_keeps rd rcptTo
      rw [heq] at hworld ⊢
      exact Nat.add_right_cancel hworld
    | quarantine => exact Nat.add_right_cancel hworld
    | body message hphase =>
      rw [held_startBody message hb hphase] at hworld
      exact Nat.add_right_cancel hworld
    | go domain r st m hr hm =>
      have hroutine := held_moved (d := d) (m := m) (hp.running hb hr (moves_linked hm).1) hr
      have hpermit := move_permit hr hm
      simp only [released,leaked,taken]
      by_cases hji : j = i
      · subst hji
        by_cases hd : domain = d
        · subst hd
          simp only [if_true,and_self,hj,Option.elim_some] at hworld hroutine ⊢
          omega
        · simp only [if_true,hd,and_false,if_false] at hworld hroutine ⊢
          omega
      · simp only [hji,if_false,false_and] at hworld ⊢
        omega
    | close order now hidle hphase horder =>
      have hcount := count_released hb hp hidle horder d
      simp only [released,leaked,taken]
      by_cases hji : j = i
      · subst hji
        simp only [if_true,hj,Option.elim_some,hcount,held,if_neg hphase] at hworld ⊢
        omega
      · simp only [hji,if_false] at hworld ⊢
        omega
  | setCache cache => rfl
  | cleanUp now => rfl

end Balance

theorem leaked_eq_zero_iff : (∀ d, leaked rt i d w a = 0) ↔ mailTaken rt i w a = true := by
  cases a with
  | go j domain st =>
    simp only [leaked,mailTaken]
    by_cases hji : j = i
    · subst hji
      cases hj : w.deliveries[j]? with
      | none => simp
      | some rd =>
        constructor
        · intro h
          simpa using h domain
        · intro h d
          simp only [true_and]
          split
          · rename_i heq
            subst heq
            simpa using h
          · rfl
    · simp [hji]
  | _ => simp [leaked,mailTaken]

/-- The permits for a domain that a delivery has taken when it is closed have been
released, or were lost in a failed MAIL. -/
theorem taken_eq {acts : List Action} (hrun : run (step rt) {} acts = some w)
    (hi : w.deliveries[i]? = some rd) (hclosed : rd.phase = .closed) (d : String) :
    total (step rt) (taken i d) {} acts =
      total (step rt) (released i d) {} acts + total (step rt) (leaked rt i d) {} acts := by
  have hinit : Linked {} :=
    ⟨⟨fun i rd h => by simp at h,nofun⟩,fun i rd h => by simp at h⟩
  have hbal : heldBy i d w +
        total (step rt) (fun w a => released i d w a + leaked rt i d w a) {} acts =
      heldBy i d {} + total (step rt) (taken i d) {} acts :=
    total_balance (fun _ _ _ hl h => step_linked hl h) (fun _ _ _ hl h => step_balance hl h) hinit
      hrun
  have hend : heldBy i d w = 0 := by
    unfold heldBy held
    rw [hi,Option.elim_some,if_pos hclosed]
  have hstart : heldBy i d {} = 0 := rfl
  rw [hend,hstart,total_add] at hbal
  omega

/-- The permits for the destinations of a delivery are balanced once it is closed
exactly if the servers took every MAIL of it. -/
theorem dest_permits_balanced_iff (rt : Target) (acts : List Action) (i : Nat)
    (hrun : run (step rt) {} acts = some w) (hi : w.deliveries[i]? = some rd)
    (hclosed : rd.phase = .closed) :
    (∀ d, total (step rt) (released i d) {} acts = total (step rt) (taken i d) {} acts) ↔
      Meets (step rt) (fun w a => mailTaken rt i w a = true) {} acts := by
  have hleak : (∀ d, total (step rt) (released i d) {} acts = total (step rt) (taken i d) {} acts) ↔
      ∀ d, total (step rt) (leaked rt i d) {} acts = 0 := by
    refine forall_congr' fun d => ?_
    have htaken := taken_eq hrun hi hclosed d
    omega
  calc (∀ d, total (step rt) (released i d) {} acts = total (step rt) (taken i d) {} acts)
      ↔ ∀ d, Meets (step rt) (fun w a => leaked rt i d w a = 0) {} acts :=
        hleak.trans (forall_congr' fun d => total_eq_zero_iff)
    _ ↔ Meets (step rt) (fun w a => ∀ d, leaked rt i d w a = 0) {} acts := meets_forall.symm
    _ ↔ Meets (step rt) (fun w a => mailTaken rt i w a = true) {} acts :=
        meets_congr fun w a => leaked_eq_zero_iff

def mailBySMTP (server : Server) : List Action :=
  handOver 0 { id := "m" } ["ann@example.net"] ++
    openBySMTP 0 "example.net" (Net.plain (.accepting .none) server)

def acceptedMail : List Action :=
  mailBySMTP (serverWith []) ++ [.go 0 "example.net" (.transfer {} 0),.close 0 ["example.net"] 0]

def endPhase (rt : Target) (acts : List Action) (i : Nat) : Option Phase :=
  ((run (step rt) {} acts).bind (fun w => w.deliveries[i]?)).map (fun rd => rd.phase)

theorem closed_of_endPhase {acts : List Action} (h : endPhase rt acts i = some .closed) :
    ∃ w rd, run (step rt) {} acts = some w ∧ w.deliveries[i]? = some rd ∧ rd.phase = .closed := by
  obtain ⟨rd,hrd,hphase⟩ := Option.map_eq_some_iff.mp h
  obtain ⟨w,hrun,hi⟩ := Option.bind_eq_some_iff.mp hrd
  exact ⟨w,rd,hrun,hi,hphase⟩

theorem accepted_mail_balanced :
    endPhase Target.plain acceptedMail 0 = some .closed ∧
    ∀ d, total (step Target.plain) (released 0 d) {} acceptedMail =
      total (step Target.plain) (taken 0 d) {} acceptedMail := by
  have hphase : endPhase Target.plain acceptedMail 0 = some .closed := by decide +kernel
  obtain ⟨w,rd,hrun,hi,hclosed⟩ := closed_of_endPhase hphase
  refine ⟨hphase,(dest_permits_balanced_iff Target.plain acceptedMail 0 hrun hi hclosed).mpr ?_⟩
  exact meets_of_checks (by decide +kernel)

def refusingServer : Server :=
  { serverWith [] with
    reply := fun _ cmd =>
      match cmd with
      | .mail _ _ =>
        some (.goSmtp { code := 451, enhancedCode := ⟨4,7,1⟩, message := "Greylisted" })
      | _ => none }

def refusedMail : List Action := mailBySMTP refusingServer ++ [.close 0 ["example.net"] 0]

/-- After a MAIL that the server does not take, the permit is not released. -/
theorem refused_mail_keeps_permit :
    ¬ ∀ (rt : Target) (acts : List Action) (i : Nat) (w : World) (rd : Delivery),
      run (step rt) {} acts = some w → w.deliveries[i]? = some rd → rd.phase = .closed →
      ∀ d, total (step rt) (released i d) {} acts = total (step rt) (taken i d) {} acts := by
  intro h
  have hphase : endPhase Target.plain refusedMail 0 = some .closed := by decide +kernel
  obtain ⟨w,rd,hrun,hi,hclosed⟩ := closed_of_endPhase hphase
  have heq := h Target.plain refusedMail 0 w rd hrun hi hclosed "example.net"
  have hreleased : total (step Target.plain) (released 0 "example.net") {} refusedMail = 0 := by
    decide +kernel
  have htaken : total (step Target.plain) (taken 0 "example.net") {} refusedMail = 1 := by
    decide +kernel
  omega

end Madmail.Proofs.DestPermits
