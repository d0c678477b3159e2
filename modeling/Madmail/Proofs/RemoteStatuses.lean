import Madmail.Lib.Interleave
import Madmail.Proofs.RemoteBooks

namespace Madmail.Proofs.RemoteStatuses
open Exterrors Madmail.Module Remote Smtpconn EndpointCache Lib ClientSteps List Function
  RemoteTransfer RemoteBooks

variable {rt : Target} {w : World} {rd : Delivery} {conn : MxConn} {reading : Reading}
  {calls : List Status} {d x : String} {v : Option Err}

section Collector

theorem multipleErrs_append (calls : List Status) (status : Status) :
    multipleErrs (calls ++ [status]) =
      update (multipleErrs calls) status.1 (some status.2) := by
  unfold multipleErrs
  rw [foldl_append]
  rfl

theorem multipleErrs_last {addrs : List String} (before : List Status) (hx : x ∈ addrs) :
    multipleErrs (before ++ addrs.map (fun addr => (addr,v))) x = some v := by
  induction addrs using List.reverseRecOn with
  | nil => cases hx
  | append_singleton addrs addr ih =>
    rw [map_append,← append_assoc,map_singleton,multipleErrs_append,
      update_apply]
    split
    · rfl
    · rename_i hne
      rcases mem_append.mp hx with hx | hx
      · exact ih hx
      · exact absurd (mem_singleton.mp hx) hne

theorem mem_of_multipleErrs (h : multipleErrs calls x = some v) : (x,v) ∈ calls := by
  induction calls using List.reverseRecOn with
  | nil => cases h
  | append_singleton calls status ih =>
    rw [multipleErrs_append,update_apply] at h
    split at h
    · rename_i heq
      cases h
      exact mem_append_right _ (mem_singleton.mpr (Prod.ext heq rfl))
    · exact mem_append_left _ (ih h)

end Collector

/-- The recipients of a domain whose RCPT and DATA the server has accepted in the
transaction of the delivery. -/
def acceptedBy (rt : Target) (rd : Delivery) (d : String) : List String :=
  match rd.routines d with
  | some (.sent conn reading) =>
    match finalErr rt.smtp conn (rd.rcptsByDomain d) rd.message reading with
    | none => accepted rt.smtp (rd.rcptsByDomain d) conn.c
    | some _ => []
  | _ => []

def Accepted (rt : Target) (rd : Delivery) (x : String) : Prop :=
  ∃ d ∈ rd.domains, x ∈ acceptedBy rt rd d

def Over (rd : Delivery) : Prop :=
  rd.phase = .body true ∨
  rd.phase = .body false ∧ ∀ d ∈ rd.domains,
    (∃ e, rd.routines d = some (.failed e)) ∨ ∃ conn reading, rd.routines d = some (.sent conn reading)

/-- The calls of `SetStatus` by `BodyNonAtomic`, in an order in which the goroutines
may have made them. -/
inductive BodyCalls (rt : Target) (rd : Delivery) : List Status → Prop where
  | quarantined (h : rd.phase = .body true) :
      BodyCalls rt rd (rd.recipients.map (fun rcpt => (rcpt,some Delivery.quarantined)))
  | goroutines (merged : List (String × Status)) (h : rd.phase = .body false)
      (hmerged : Interleaving rd.domains (rd.statuses rt) merged) :
      BodyCalls rt rd (merged.map Prod.snd)

structure Truthful (rt : Target) (rd : Delivery) (calls : List Status) : Prop where
  only : ∀ x v, (x,v) ∈ calls → x ∈ rd.recipients
  each : ∀ x ∈ rd.recipients, ∃ v, (x,v) ∈ calls
  last : ∀ x ∈ rd.recipients, multipleErrs calls x = some none → Accepted rt rd x
  body : bodyNil calls = true → ∀ x ∈ rd.recipients, Accepted rt rd x

/-- The condition on the connection of a domain: no accepted recipient had to be
converted for it, and the addresses it keeps from earlier transactions are recipients
of this delivery, accepted too if the message is. -/
structure Clean (rt : Target) (rd : Delivery) (d : String) (conn : MxConn) (reading : Reading) :
    Prop where
  unconverted : ∀ r ∈ accepted rt.smtp (rd.rcptsByDomain d) conn.c,
    Address.isASCII r = true ∨ conn.c.extension "SMTPUTF8" = true
  recipient : ∀ x ∈ conn.c.rcpts, x ∈ rd.recipients
  accepted : finalErr rt.smtp conn (rd.rcptsByDomain d) rd.message reading = none →
    ∀ x ∈ conn.c.rcpts, Accepted rt rd x

theorem acceptedBy_sent (hr : rd.routines d = some (.sent conn reading))
    (herr : finalErr rt.smtp conn (rd.rcptsByDomain d) rd.message reading = none) :
    acceptedBy rt rd d = accepted rt.smtp (rd.rcptsByDomain d) conn.c := by
  unfold acceptedBy
  rw [hr]
  dsimp only
  rw [herr]

theorem statuses_failed (hr : rd.routines d = some (.failed e)) :
    rd.statuses rt d = (rd.rcptsByDomain d).map (fun rcpt => (rcpt,some e)) := by
  unfold Delivery.statuses
  rw [hr]

theorem statuses_sent (hr : rd.routines d = some (.sent conn reading)) :
    rd.statuses rt d = (rcpts rt.smtp (rd.rcptsByDomain d) conn.c).2 ++
      (reported rt.smtp conn (rd.rcptsByDomain d)).map (fun rcpt =>
        (rcpt,finalErr rt.smtp conn (rd.rcptsByDomain d) rd.message reading)) := by
  unfold Delivery.statuses
  rw [hr]
  exact transfer_statuses _ _ _ _ _ _

theorem sentAs_eq (h : c.spelling env x = .ok s) : sentAs env c x = s := by
  simp [sentAs,h,Except.toOption]

theorem status_cases (hr : rd.routines d = some (.sent conn reading))
    (h : (x,v) ∈ rd.statuses rt d) :
    (x ∈ rd.rcptsByDomain d ∧ (x,v) ∈ (rcpts rt.smtp (rd.rcptsByDomain d) conn.c).2 ∧ v ≠ none) ∨
    (v = finalErr rt.smtp conn (rd.rcptsByDomain d) rd.message reading ∧
      (x ∈ conn.c.rcpts ∨ ∃ r ∈ accepted rt.smtp (rd.rcptsByDomain d) conn.c,
        r ∈ rd.rcptsByDomain d ∧ conn.c.spelling rt.smtp r = .ok x)) := by
  rw [statuses_sent hr] at h
  rcases mem_append.mp h with h | h
  · obtain ⟨hm,hv⟩ := rejected_mem _ _ _ h
    exact .inl ⟨hm,h,hv⟩
  · obtain ⟨y,hy,heq⟩ := mem_map.mp h
    cases heq
    refine .inr ⟨rfl,?_⟩
    rcases mem_append.mp hy with hy | hy
    · exact .inl hy
    · obtain ⟨r,hacc,rfl⟩ := mem_map.mp hy
      obtain ⟨hm,s,hs⟩ := accepted_mem _ _ _ hacc
      rw [sentAs_eq hs]
      exact .inr ⟨r,hacc,hm,hs⟩

theorem Clean.only (hb : Booked rd) (hc : Clean rt rd d conn reading)
    (hr : rd.routines d = some (.sent conn reading)) (h : (x,v) ∈ rd.statuses rt d) :
    x ∈ rd.recipients ∧ (v = none → Accepted rt rd x) := by
  have hd := hb.routine d _ hr
  rcases status_cases hr h with ⟨hm, -,hv⟩ | ⟨rfl,hx | ⟨r,hacc,hm,hs⟩⟩
  · exact ⟨(hb.sublist d).subset hm,fun hnone => absurd hnone hv⟩
  · exact ⟨hc.recipient x hx,fun hnone => hc.accepted hnone x hx⟩
  · have hsame : x = r := by
      rcases spelling_cases hs with ⟨heq, -⟩ | ⟨-,hnot,hext⟩
      · exact heq
      · rcases hc.unconverted r hacc with ha | hu
        · rw [hnot] at ha
          cases ha
        · rw [hext] at hu
          cases hu
    subst hsame
    refine ⟨(hb.sublist d).subset hm,fun hnone => ⟨d,hd,?_⟩⟩
    rw [acceptedBy_sent hr hnone]
    exact hacc

theorem Clean.each (hc : Clean rt rd d conn reading)
    (hr : rd.routines d = some (.sent conn reading)) (hx : x ∈ rd.rcptsByDomain d) :
    ∃ v, (x,v) ∈ rd.statuses rt d := by
  rw [statuses_sent hr]
  rcases accepted_or_rejected rt.smtp _ conn.c hx with hacc | ⟨v,hv⟩
  · have hs : conn.c.spelling rt.smtp x = .ok x := by
      unfold C.spelling
      rcases hc.unconverted x hacc with ha | hu
      · simp [ha]
      · simp [hu]
    refine ⟨_,mem_append_right _ (mem_map.mpr ⟨x,?_,rfl⟩)⟩
    exact mem_append_right _ (mem_map.mpr ⟨x,hacc,sentAs_eq hs⟩)
  · exact ⟨v,mem_append_left _ hv⟩

theorem truthful_of_clean (hb : Booked rd) (hover : Over rd)
    (hclean : ∀ d conn reading, rd.routines d = some (.sent conn reading) →
      Clean rt rd d conn reading) (hcalls : BodyCalls rt rd calls) : Truthful rt rd calls := by
  have hdone : rd.phase = .body false → ∀ d ∈ rd.domains, (∃ e, rd.routines d = some (.failed e)) ∨
      ∃ conn reading, rd.routines d = some (.sent conn reading) := by
    intro hphase
    rcases hover with hq | ⟨-,hdone⟩
    · rw [hphase] at hq
      cases hq
    · exact hdone
  have honly : ∀ x v, (x,v) ∈ calls → x ∈ rd.recipients ∧ (v = none → Accepted rt rd x) := by
    intro x v hx
    cases hcalls with
    | quarantined hq =>
      obtain ⟨y,hy,heq⟩ := mem_map.mp hx
      cases heq
      exact ⟨hy,nofun⟩
    | goroutines merged hphase hmerged =>
      obtain ⟨⟨d,status⟩,hm,rfl⟩ := mem_map.mp hx
      obtain ⟨hd,hstatus⟩ := hmerged.mem_iff.mp hm
      rcases hdone hphase d hd with ⟨e,hr⟩ | ⟨conn,reading,hr⟩
      · rw [statuses_failed hr] at hstatus
        obtain ⟨y,hy,heq⟩ := mem_map.mp hstatus
        cases heq
        exact ⟨(hb.sublist d).subset hy,nofun⟩
      · exact (hclean d conn reading hr).only hb hr hstatus
  have heach : ∀ x ∈ rd.recipients, ∃ v, (x,v) ∈ calls := by
    intro x hx
    cases hcalls with
    | quarantined hq => exact ⟨_,mem_map.mpr ⟨x,hx,rfl⟩⟩
    | goroutines merged hphase hmerged =>
      obtain ⟨d,hd,hxd⟩ := hb.domain x hx
      have hset : ∃ v, (x,v) ∈ rd.statuses rt d := by
        rcases hdone hphase d hd with ⟨e,hr⟩ | ⟨conn,reading,hr⟩
        · rw [statuses_failed hr]
          exact ⟨_,mem_map.mpr ⟨x,hxd,rfl⟩⟩
        · exact (hclean d conn reading hr).each hr hxd
      obtain ⟨v,hv⟩ := hset
      exact ⟨v,mem_map.mpr ⟨(d,x,v),hmerged.mem_iff.mpr ⟨hd,hv⟩,rfl⟩⟩
  refine ⟨fun x v h => (honly x v h).1,heach,
    fun x _ h => (honly x none (mem_of_multipleErrs h)).2 rfl,fun hnil x hx => ?_⟩
  obtain ⟨v,hv⟩ := heach x hx
  have hlast : multipleErrs calls x = some none := by
    simpa using all_eq_true.mp hnil (x,v) hv
  exact (honly x none (mem_of_multipleErrs hlast)).2 rfl

/-- A status that stands for a recipient of a domain that had to be converted can
come from nowhere. -/
theorem unconverted_of_status (hb : Booked rd) (hn : rd.recipients.Nodup)
    (hdone : ∀ d ∈ rd.domains, (∃ e, rd.routines d = some (.failed e)) ∨
      ∃ conn reading, rd.routines d = some (.sent conn reading))
    (hr : rd.routines d = some (.sent conn reading))
    (hacc : x ∈ accepted rt.smtp (rd.rcptsByDomain d) conn.c) (hd' : d' ∈ rd.domains)
    (h : (x,v) ∈ rd.statuses rt d') :
    Address.isASCII x = true ∨ conn.c.extension "SMTPUTF8" = true := by
  obtain ⟨hm, -⟩ := accepted_mem _ _ _ hacc
  obtain ⟨mbox,hsplit⟩ := hb.rcpt d x hm
  have hsame : ∀ mbox', Address.split x = .ok (mbox',d') → d' = d := by
    intro mbox' h'
    rw [hsplit] at h'
    cases h'
    rfl
  rcases hdone d' hd' with ⟨e,hr'⟩ | ⟨conn',reading',hr'⟩
  · rw [statuses_failed hr'] at h
    obtain ⟨y,hy,heq⟩ := mem_map.mp h
    cases heq
    obtain ⟨mbox',hy⟩ := hb.rcpt d' _ hy
    cases hsame mbox' hy
    rw [hr] at hr'
    cases hr'
  · have hone : d' = d → conn' = conn := by
      intro heq
      rw [heq,hr] at hr'
      cases hr'
      rfl
    rcases status_cases hr' h with ⟨hm',hrej, -⟩ | ⟨-,hx | ⟨r,hacc',hm',hs⟩⟩
    · obtain ⟨mbox',hy⟩ := hb.rcpt d' x hm'
      have hd := hsame mbox' hy
      rw [hone hd,hd] at hrej
      exact absurd hrej (accepted_not_rejected _ _ ((hb.sublist d).nodup hn) _ hacc)
    · rcases (hb.uses d' _ conn' hr' rfl).rcpts x hx with ha | ⟨hu,mbox',hy⟩
      · exact .inl ha
      · rw [hone (hsame mbox' hy)] at hu
        exact .inr hu
    · rcases spelling_cases hs with ⟨rfl,ha | hu⟩ | ⟨ha, -, -⟩
      · exact .inl ha
      · obtain ⟨mbox',hy⟩ := hb.rcpt d' x hm'
        rw [hone (hsame mbox' hy)] at hu
        exact .inr hu
      · exact .inl ha

theorem clean_of_truthful (hb : Booked rd) (hover : Over rd) (hn : rd.recipients.Nodup)
    (htrue : ∀ calls, BodyCalls rt rd calls → Truthful rt rd calls)
    (hr : rd.routines d = some (.sent conn reading)) : Clean rt rd d conn reading := by
  have hd := hb.routine d _ hr
  rcases hover with hq | ⟨hphase,hdone⟩
  · rw [hb.quiet (.inr hq) d] at hr
    cases hr
  -- the goroutine of the domain may be the last one
  obtain ⟨rest,hmerged⟩ : ∃ rest, Interleaving rd.domains (rd.statuses rt)
      (rest ++ (rd.statuses rt d).map (Prod.mk d)) := Interleaving.exists_last hb.nodup hd
  have ht := htrue _ (.goroutines _ hphase hmerged)
  have hend : (rest ++ (rd.statuses rt d).map (Prod.mk d)).map Prod.snd =
      (rest.map Prod.snd ++ (rcpts rt.smtp (rd.rcptsByDomain d) conn.c).2) ++
        (reported rt.smtp conn (rd.rcptsByDomain d)).map (fun rcpt =>
          (rcpt,finalErr rt.smtp conn (rd.rcptsByDomain d) rd.message reading)) := by
    rw [map_append,map_map,append_assoc,← statuses_sent hr]
    simp [comp_def]
  have hkept : ∀ x ∈ conn.c.rcpts, x ∈ reported rt.smtp conn (rd.rcptsByDomain d) :=
    fun x hx => mem_append_left _ hx
  have hrecipient : ∀ x ∈ conn.c.rcpts, x ∈ rd.recipients := by
    intro x hx
    refine ht.only x (finalErr rt.smtp conn (rd.rcptsByDomain d) rd.message reading) ?_
    rw [hend]
    exact mem_append_right _ (mem_map.mpr ⟨x,hkept x hx,rfl⟩)
  refine ⟨fun r hacc => ?_,hrecipient,fun herr x hx => ?_⟩
  · have hm := (hb.sublist d).subset (accepted_mem _ _ _ hacc).1
    obtain ⟨v,hv⟩ := ht.each r hm
    obtain ⟨⟨d',status⟩,hin,rfl⟩ := mem_map.mp hv
    obtain ⟨hd',hstatus⟩ := hmerged.mem_iff.mp hin
    exact unconverted_of_status hb hn hdone hr hacc hd' hstatus
  · refine ht.last x (hrecipient x hx) ?_
    rw [hend,multipleErrs_last _ (hkept x hx),herr]

/-- The statuses of a delivery are truthful, in whatever order its goroutines set
them, just when its connections are clean. -/
theorem statuses_truthful_iff (acts : List Action) (i : Nat)
    (hrun : run (step rt) {} acts = some w) (hi : w.deliveries[i]? = some rd) (hover : Over rd)
    (hn : rd.recipients.Nodup) :
    (∀ calls, BodyCalls rt rd calls → Truthful rt rd calls) ↔
      ∀ d conn reading, rd.routines d = some (.sent conn reading) → Clean rt rd d conn reading := by
  have hb := run_booked hrun hi
  constructor
  · intro htrue d conn reading hr
    exact clean_of_truthful hb hover hn htrue hr
  · intro hclean calls hcalls
    exact truthful_of_clean hb hover hclean hcalls

def deliverBySMTP (i : Nat) (domain : String) (rcptsTo : List String) (server : Server) : List Action :=
  handOver i { id := "m" } rcptsTo ++ sendBySMTP i domain (Net.plain (.accepting .none) server)

def onceServer : Server :=
  { serverWith [] with
    reply := fun log cmd =>
      match cmd with
      | .rcpt rcptTo =>
        if rcptTo = "ann@example.net" ∧ .data ∈ log then
          some (.goSmtp { code := 550, enhancedCode := ⟨5,1,1⟩, message := "No such user" })
        else none
      | _ => none }

def keptRcpt : List Action :=
  deliverBySMTP 0 "example.net" ["ann@example.net"] onceServer ++
    .close 0 ["example.net"] 0 ::
      deliverBySMTP 1 "example.net" ["ann@example.net","bob@example.net"] onceServer

def idnaTarget : Target :=
  { Target.plain with
    smtp :=
      { idnaToASCII := fun domain =>
          if domain = "exämple.net" then .ok "xn--exmple-cua.net"
          else .error (.leaf "idna: invalid label" none)
        idnaToASCII_ascii := fun domain ace h => by
          split at h
          · cases h
            rfl
          · cases h
        opError := fun _ => none } }

def convertedRcpt : List Action :=
  deliverBySMTP 0 "exämple.net" ["ann@exämple.net"] (serverWith [])

/-- What is left of a delivery to one domain: the addresses its connection had kept
and whether the server has SMTPUTF8, the addresses that got a status, whether `Body`
returns nil, and who was accepted. -/
structure Ending where
  phase : Phase
  domains : List String
  recipients : List String
  connection : Option (List String × Bool)
  named : List String
  bodyNil : Bool
  accepted : List String
  deriving DecidableEq

def endingOf (rt : Target) (d : String) (rd : Delivery) : Ending :=
  { phase := rd.phase
    domains := rd.domains
    recipients := rd.recipients
    connection := match rd.routines d with
      | some (.sent conn _) => some (conn.c.rcpts,conn.c.extension "SMTPUTF8")
      | _ => none
    named := (rd.statuses rt d).map Prod.fst
    bodyNil := bodyNil (rd.statuses rt d)
    accepted := acceptedBy rt rd d }

def ending (rt : Target) (acts : List Action) (i : Nat) (d : String) : Option Ending :=
  (run (step rt) {} acts).bind (fun w => w.deliveries[i]?.map (endingOf rt d))

theorem over_of_ending (h : ending rt acts i d = some e) (hphase : e.phase = .body false)
    (hd : e.domains = [d]) (hconn : e.connection ≠ none) :
    ∃ w rd, run (step rt) {} acts = some w ∧ w.deliveries[i]? = some rd ∧ endingOf rt d rd = e ∧
      Over rd ∧ BodyCalls rt rd (rd.statuses rt d) := by
  obtain ⟨w,hrun,h⟩ := Option.bind_eq_some_iff.mp h
  obtain ⟨rd,hi,rfl⟩ := Option.map_eq_some_iff.mp h
  have hdomains : rd.domains = [d] := hd
  refine ⟨w,rd,hrun,hi,rfl,.inr ⟨hphase,fun d' hd' => .inr ?_⟩,?_⟩
  · rw [hdomains] at hd'
    rw [mem_singleton.mp hd']
    unfold endingOf at hconn
    split at hconn
    · exact ⟨_,_,by assumption⟩
    · exact absurd rfl hconn
  · have hseq : Interleaving [d] (rd.statuses rt) _ := .sequential (nodup_singleton d)
    rw [← hdomains] at hseq
    have hcalls := BodyCalls.goroutines _ hphase hseq
    rw [hdomains] at hcalls
    simpa [comp_def] using hcalls

theorem keptRcpt_ending : ending Target.plain keptRcpt 1 "example.net" = some
    { phase := .body false
      domains := ["example.net"]
      recipients := ["ann@example.net","bob@example.net"]
      connection := some (["ann@example.net"],false)
      named := ["ann@example.net","ann@example.net","bob@example.net"]
      bodyNil := true
      accepted := ["bob@example.net"] } := by
  decide +kernel

theorem convertedRcpt_ending : ending idnaTarget convertedRcpt 0 "exämple.net" = some
    { phase := .body false
      domains := ["exämple.net"]
      recipients := ["ann@exämple.net"]
      connection := some ([],false)
      named := ["ann@xn--exmple-cua.net"]
      bodyNil := true
      accepted := ["ann@exämple.net"] } := by
  decide +kernel

/-- `Body` returns nil though the server has rejected a recipient, whose status is
overwritten because an earlier transaction of the connection had it. And without an
earlier transaction there may be no status for a recipient, but one for its
conversion. -/
theorem statuses_not_truthful :
    (¬ ∀ (rt : Target) (acts : List Action) (w : World) (i : Nat) (rd : Delivery)
      (calls : List Status), run (step rt) {} acts = some w → w.deliveries[i]? = some rd → Over rd →
      rd.recipients.Nodup → BodyCalls rt rd calls → Truthful rt rd calls) ∧
    ¬ ∀ (rt : Target) (acts : List Action) (w : World) (i : Nat) (rd : Delivery)
      (calls : List Status), (∀ i order now, .close i order now ∉ acts) →
      run (step rt) {} acts = some w → w.deliveries[i]? = some rd → Over rd →
      rd.recipients.Nodup → BodyCalls rt rd calls → Truthful rt rd calls := by
  constructor
  · intro h
    obtain ⟨w,rd,hrun,hi,he,hover,hcalls⟩ :=
      over_of_ending keptRcpt_ending rfl rfl (Option.some_ne_none _)
    have hrcpts : rd.recipients = ["ann@example.net","bob@example.net"] :=
      congrArg Ending.recipients he
    have hdomains : rd.domains = ["example.net"] := congrArg Ending.domains he
    have hacc : acceptedBy Target.plain rd "example.net" = ["bob@example.net"] :=
      congrArg Ending.accepted he
    have ht := h Target.plain keptRcpt w 1 rd _ hrun hi hover (by simp [hrcpts]) hcalls
    obtain ⟨d,hd,hx⟩ := ht.body (congrArg Ending.bodyNil he) "ann@example.net" (by simp [hrcpts])
    rw [hdomains] at hd
    rw [mem_singleton.mp hd,hacc] at hx
    simp at hx
  · intro h
    obtain ⟨w,rd,hrun,hi,he,hover,hcalls⟩ :=
      over_of_ending convertedRcpt_ending rfl rfl (Option.some_ne_none _)
    have hrcpts : rd.recipients = ["ann@exämple.net"] := congrArg Ending.recipients he
    have hnamed : (rd.statuses idnaTarget "exämple.net").map Prod.fst = ["ann@xn--exmple-cua.net"] :=
      congrArg Ending.named he
    have ht := h idnaTarget convertedRcpt w 0 rd _ (by simp [convertedRcpt,deliverBySMTP,handOver,sendBySMTP,
      openBySMTP,checkBySMTP]) hrun hi hover
      (by simp [hrcpts]) hcalls
    obtain ⟨v,hv⟩ := ht.each "ann@exämple.net" (by simp [hrcpts])
    have hin := mem_map_of_mem (f := Prod.fst) hv
    rw [hnamed] at hin
    simp at hin

def freshRcpts : List Action :=
  deliverBySMTP 0 "example.net" ["ann@example.net","bob@example.net"] (serverWith ["SMTPUTF8"])

theorem freshRcpts_ending : ending Target.plain freshRcpts 0 "example.net" = some
    { phase := .body false
      domains := ["example.net"]
      recipients := ["ann@example.net","bob@example.net"]
      connection := some ([],true)
      named := ["ann@example.net","bob@example.net"]
      bodyNil := true
      accepted := ["ann@example.net","bob@example.net"] } := by
  decide +kernel

/-- A delivery over a new connection. -/
theorem fresh_statuses_truthful : ∃ w rd, run (step Target.plain) {} freshRcpts = some w ∧
    w.deliveries[0]? = some rd ∧ Over rd ∧ rd.recipients = ["ann@example.net","bob@example.net"] ∧
    ∀ calls, BodyCalls Target.plain rd calls → Truthful Target.plain rd calls := by
  obtain ⟨w,rd,hrun,hi,he,hover, -⟩ :=
    over_of_ending freshRcpts_ending rfl rfl (Option.some_ne_none _)
  have hrcpts : rd.recipients = ["ann@example.net","bob@example.net"] :=
    congrArg Ending.recipients he
  have hdomains : rd.domains = ["example.net"] := congrArg Ending.domains he
  have hconn := congrArg Ending.connection he
  refine ⟨w,rd,hrun,hi,hover,hrcpts,?_⟩
  refine (statuses_truthful_iff freshRcpts 0 hrun hi hover (by simp [hrcpts])).mpr ?_
  intro d conn reading hr
  have hd := (run_booked hrun hi).routine d _ hr
  rw [hdomains] at hd
  rw [mem_singleton.mp hd] at hr
  simp only [endingOf,hr,Option.some.injEq,Prod.mk.injEq] at hconn
  obtain ⟨hlist,hutf8⟩ := hconn
  refine ⟨fun r _ => .inr hutf8,fun x hx => ?_,fun _ x hx => ?_⟩
  all_goals
    rw [hlist] at hx
    cases hx

end Madmail.Proofs.RemoteStatuses
