import Madmail.Msgpipeline.Config
import Madmail.Proofs.RefusedRcpt

namespace Madmail.Proofs.DroppedRcpt
open Exterrors Madmail.Module Msgpipeline Msgpipeline.Delivery Config Loops RefusedRcpt List

section Parser
variable {τ α β γ : Type}
variable {x : Parse α β} {f : β → Parse α γ} {s t : Objects α} {b : β} {e : Err} {r : β × Objects α}
  {c : Prop} {k : PUnit → Parse α β} {rcpt rcpt' : RcptBlock} {cfg : Cfg α} (nodes : List Node)

theorem bind_ok {r : γ × Objects α} :
    (x >>= f) s = .ok r ↔ ∃ b t, x s = .ok (b,t) ∧ f b t = .ok r := by
  change (x s >>= fun p => f p.1 p.2) = .ok r ↔ _
  cases x s with
  | error e => exact ⟨nofun,fun ⟨_,_,h,_⟩ => nomatch h⟩
  | ok p => exact ⟨fun h => ⟨p.1,p.2,rfl,h⟩,fun ⟨_,_,h,hf⟩ => by cases h; exact hf⟩

theorem lift_ok {x : Except Err β} : (liftM x : Parse α β) s = .ok (b,t) ↔ x = .ok b ∧ t = s := by
  cases x with
  | error e => exact ⟨nofun,fun ⟨h,_⟩ => nomatch h⟩
  | ok c =>
    constructor
    · intro h
      cases h
      exact ⟨rfl,rfl⟩
    · rintro ⟨h,rfl⟩
      cases h
      rfl

theorem pure_ok {c : β} : (pure b : Parse α β) s = .ok (c,t) ↔ c = b ∧ t = s := by
  constructor
  · intro h
    cases h
    exact ⟨rfl,rfl⟩
  · rintro ⟨rfl,rfl⟩
    rfl

theorem throw_ok : ¬ (throw e : Parse α β) s = .ok r := nofun

theorem guard_ok [Decidable c] (h : (if c then throw e >>= k else x) s = .ok r) : x s = .ok r := by
  split at h
  · obtain ⟨_,_,ht,_⟩ := bind_ok.mp h
    exact absurd ht throw_ok
  · exact h

def HandsOn (node : Node) : Prop :=
  Directive.ofName node.name = some .deliverTo ∨ Directive.ofName node.name = some .reroute

instance (node : Node) : Decidable (HandsOn node) := inferInstanceAs (Decidable (_ ∨ _))

variable {m : Modules τ} {new : List Node → Except Err α}

/-- A directive adds a target exactly if it hands messages on. -/
theorem rcptDirective_targets (h : parseRcptDirective m new rcpt node s = .ok (rcpt',t)) :
    (rcpt'.targets ≠ [] ↔ rcpt.targets ≠ [] ∨ HandsOn node) ∧ t.blocks = s.blocks := by
  unfold parseRcptDirective at h
  unfold HandsOn
  cases hd : Directive.ofName node.name with
  | none => rw [hd] at h; exact absurd h throw_ok
  | some directive =>
    rw [hd] at h
    cases directive with
    | check | modify =>
      obtain ⟨_,_,hl,hp⟩ := bind_ok.mp h
      obtain ⟨_,rfl⟩ := lift_ok.mp hl
      obtain ⟨rfl,rfl⟩ := pure_ok.mp hp
      simp
    | deliverTo =>
      obtain ⟨_,_,hl,hp⟩ := bind_ok.mp (guard_ok (guard_ok h))
      obtain ⟨_,rfl⟩ := lift_ok.mp hl
      obtain ⟨rfl,rfl⟩ := pure_ok.mp hp
      simp
    | reroute =>
      obtain ⟨pipeline,_,hl,hp⟩ := bind_ok.mp (guard_ok h)
      obtain ⟨_,rfl⟩ := lift_ok.mp hl
      cases hp
      simp
    | reject =>
      obtain ⟨_,_,hl,hp⟩ := bind_ok.mp (guard_ok h)
      obtain ⟨_,rfl⟩ := lift_ok.mp hl
      obtain ⟨rfl,rfl⟩ := pure_ok.mp hp
      simp
    | sourceIn | source | defaultSource | dmarc | destinationIn | destination
    | defaultDestination => exact absurd h throw_ok

theorem rcptDirectives_targets {nodes : List Node}
    (h : nodes.foldlM (parseRcptDirective m new) rcpt s = .ok (rcpt',t)) :
    (rcpt'.targets ≠ [] ↔ rcpt.targets ≠ [] ∨ ∃ node ∈ nodes, HandsOn node) ∧
      t.blocks = s.blocks := by
  induction nodes generalizing rcpt s with
  | nil =>
    obtain ⟨rfl,rfl⟩ := pure_ok.mp h
    simp
  | cons node nodes ih =>
    rw [foldlM_cons] at h
    obtain ⟨rcpt₁,u,hfirst,hrest⟩ := bind_ok.mp h
    obtain ⟨htargets,hblocks⟩ := rcptDirective_targets hfirst
    obtain ⟨hmore,hblocks'⟩ := ih hrest
    refine ⟨?_,hblocks'.trans hblocks⟩
    rw [hmore,htargets,or_assoc]
    simp

/-- The blocks with targets are those that have a directive which hands messages
on. -/
def BlocksOK (objects : Objects α) : Prop :=
  ∀ p ∈ objects.blocks, p.2.targets ≠ [] ↔ ∃ node ∈ p.1, HandsOn node

def KeepsBlocks (x : Parse α β) : Prop := ∀ s b t, BlocksOK s → x s = .ok (b,t) → BlocksOK t

theorem keeps_bind (hx : KeepsBlocks x) (hf : ∀ b, KeepsBlocks (f b)) : KeepsBlocks (x >>= f) := by
  intro s c u hs h
  obtain ⟨b,t,hxt,hfu⟩ := bind_ok.mp h
  exact hf b t c u (hx s b t hs hxt) hfu

theorem keeps_pure (b : β) : KeepsBlocks (pure b : Parse α β) := by
  intro s c t hs h
  obtain ⟨-,rfl⟩ := pure_ok.mp h
  exact hs

theorem keeps_throw : KeepsBlocks (throw e : Parse α β) := by
  intro s c t hs h
  exact absurd h throw_ok

theorem keeps_lift (x : Except Err β) : KeepsBlocks (liftM x : Parse α β) := by
  intro s c t hs h
  obtain ⟨-,rfl⟩ := lift_ok.mp h
  exact hs

theorem keeps_guard [Decidable c] (hx : KeepsBlocks x) :
    KeepsBlocks (if c then throw e >>= k else x) :=
  fun s b t hs h => hx s b t hs (guard_ok h)

theorem keeps_foldlM {f : β → Node → Parse α β} (hf : ∀ b node, KeepsBlocks (f b node))
    (nodes : List Node) (b : β) : KeepsBlocks (nodes.foldlM f b) := by
  induction nodes generalizing b with
  | nil => exact keeps_pure b
  | cons node nodes ih =>
    rw [foldlM_cons]
    exact keeps_bind (hf b node) ih

theorem keeps_rcptCfg : KeepsBlocks (parseMsgPipelineRcptCfg m new nodes) := by
  intro s b t hs h
  obtain ⟨rcpt,u,hfold,hset⟩ := bind_ok.mp h
  obtain ⟨htargets,hblocks⟩ := rcptDirectives_targets hfold
  cases hset
  intro p hp
  rw [hblocks] at hp
  rcases mem_append.mp hp with hp | hp
  · exact hs p hp
  · cases mem_singleton.mp hp
    simpa using htargets

theorem keeps_srcCfg : KeepsBlocks (parseMsgPipelineSrcCfg m new nodes) := by
  refine keeps_bind (keeps_foldlM ?_ nodes _) fun src => keeps_bind (keeps_lift _) fun raw =>
    keeps_bind (keeps_rcptCfg raw) fun _ => keeps_pure _
  intro src node
  unfold parseSrcDirective
  split
  · exact keeps_bind (keeps_lift _) fun _ => keeps_pure _
  · exact keeps_bind (keeps_lift _) fun _ => keeps_pure _
  · exact keeps_bind (keeps_lift _) fun _ => keeps_bind (keeps_rcptCfg _) fun _ => keeps_pure _
  · exact keeps_bind (keeps_rcptCfg _) fun _ => keeps_guard <|
      keeps_bind (keeps_lift _) fun _ => keeps_pure _
  · exact keeps_guard (keeps_pure _)
  · exact keeps_pure _
  · exact keeps_pure _
  · exact keeps_pure _
  · exact keeps_throw

theorem keeps_rootDirective (cfg : RootCfg) (node : Node) :
    KeepsBlocks (parseRootDirective m new cfg node) := by
  unfold parseRootDirective
  split
  · exact keeps_bind (keeps_lift _) fun _ => keeps_pure _
  · exact keeps_bind (keeps_lift _) fun _ => keeps_pure _
  · exact keeps_bind (keeps_lift _) fun _ => keeps_bind (keeps_srcCfg _) fun _ => keeps_pure _
  · exact keeps_bind (keeps_srcCfg _) fun _ => keeps_guard <|
      keeps_bind (keeps_lift _) fun _ => keeps_pure _
  · exact keeps_guard (keeps_pure _)
  · split
    · exact keeps_pure _
    · exact keeps_pure _
    · exact keeps_pure _
    · exact keeps_throw
    · exact keeps_pure _
  all_goals first | exact keeps_pure _ | exact keeps_throw

theorem parsed_blocks {nodes : List Node} (h : parseMsgPipelineRootCfg m new nodes = .ok cfg) :
    BlocksOK cfg.objects := by
  have hroot : KeepsBlocks (parseRoot m new nodes) :=
    keeps_bind (keeps_foldlM keeps_rootDirective nodes _) fun _ => keeps_bind (keeps_lift _)
      fun raw => keeps_bind (keeps_srcCfg raw) fun _ => keeps_pure _
  unfold parseMsgPipelineRootCfg at h
  split at h
  · cases h
  · rename_i root defaultSource objects hrun
    cases h
    exact hroot {} _ _ nofun hrun

theorem targets_iff (hb : BlocksOK cfg.objects) :
    ((cfg.pipeline m target hostname first).blocks block).targets ≠ [] ↔
      ∃ node ∈ cfg.nodesOf block, HandsOn node := by
  simp only [Cfg.pipeline,Cfg.nodesOf]
  cases hx : cfg.objects.blocks[block]? with
  | none => simp
  | some p => exact hb p (mem_of_getElem? hx)

end Parser

section Resolve
variable {τ δ : Type} {dd dd' : Delivery τ δ}

theorem mem_expansion :
    e ∈ dd.expansion tgt rcptTo ↔
      ∃ globalTo resultTo, dd.d.globalModifiers.rewriteRcpt rcptTo = .ok globalTo ∧
        (dd.rewriteSource globalTo).2 = .ok resultTo ∧
        ∃ x ∈ resultTo, ∃ block newTo, dd.rcptBlockForAddr x = .ok block ∧
          tgt ∈ (dd.d.blocks block).targets ∧
          (dd.d.blocks block).modifiers.rewriteRcpt x = .ok newTo ∧ e ∈ newTo := by
  unfold expansion
  cases hg : dd.d.globalModifiers.rewriteRcpt rcptTo with
  | error err => simp
  | ok globalTo =>
    cases hs : (dd.rewriteSource globalTo).2 with
    | error err => simp [hs]
    | ok resultTo =>
      simp only [mem_flatMap,Except.ok.injEq,exists_and_left,exists_eq_left',hs]
      refine exists_congr fun x => and_congr_right fun _ => ?_
      cases hb : dd.rcptBlockForAddr x with
      | error err => simp
      | ok block =>
        by_cases htgt : tgt ∈ (dd.d.blocks block).targets
        · cases hm : (dd.d.blocks block).modifiers.rewriteRcpt x <;> simp [htgt,hm]
        · simp [htgt]

end Resolve

section Delivered
variable {τ δ : Type}

def logged (ops : Targets τ δ) : Targets τ (δ × List String) :=
  { isPipeline := ops.isPipeline
    start := fun tgt msgMeta mailFrom =>
      ((ops.start tgt msgMeta mailFrom).1,
        (ops.start tgt msgMeta mailFrom).2.map (fun obj => (obj,[])))
    addRcpt := fun obj msgMeta rcptTo =>
      let (obj',msgMeta,err) := ops.addRcpt obj.1 msgMeta rcptTo
      ((obj',if err.isNone then obj.2 ++ [rcptTo] else obj.2),msgMeta,err)
    body := fun obj msgMeta header body =>
      ((((ops.body obj.1 msgMeta header body).1,obj.2)),(ops.body obj.1 msgMeta header body).2)
    isPartialDelivery := fun obj => ops.isPartialDelivery obj.1
    bodyNonAtomic := fun obj msgMeta header body =>
      (((ops.bodyNonAtomic obj.1 msgMeta header body).1,obj.2),
        (ops.bodyNonAtomic obj.1 msgMeta header body).2)
    commit := fun obj => (((ops.commit obj.1).1,obj.2),(ops.commit obj.1).2)
    abort := fun obj => (((ops.abort obj.1).1,obj.2),(ops.abort obj.1).2) }

def loggedKeeps (ops : Targets τ δ) : RefusedRcpt.Keeps (logged ops) where
  holds obj addr := addr ∈ obj.2
  start tgt msgMeta mailFrom obj addr h := by
    obtain ⟨_,_,rfl⟩ := map_ok h
    simp
  addRcpt obj msgMeta rcptTo addr := by
    simp only [logged]
    cases (ops.addRcpt obj.1 msgMeta rcptTo).2.2 <;> simp

variable {ops : Targets τ δ} {dd : Delivery τ (δ × List String)}

theorem addToTarget_takes (h : (addToTarget (logged ops) originalTo rcptTo tgt st).2 = none) :
    ∃ dd msgMeta hd, st.1.getDelivery (logged ops) st.2 tgt = (dd,msgMeta,.ok hd) ∧
      (Holding.final (loggedKeeps ops)).takes hd.obj msgMeta rcptTo ([],rcptTo) := by
  obtain ⟨dd,msgMeta⟩ := st
  unfold addToTarget at h
  dsimp only at h
  rcases hg : dd.getDelivery (logged ops) msgMeta tgt with ⟨dd',msgMeta',e | hd⟩ <;> rw [hg] at h
  · cases h
  · dsimp only at h
    rcases ha : (logged ops).addRcpt hd.obj msgMeta' rcptTo with ⟨obj,msgMeta'',_ | e⟩
    · exact ⟨dd',msgMeta',hd,rfl,rfl,rfl,by rw [ha]⟩
    · rw [ha] at h
      cases h

theorem accepted_taken (hnil : (dd.addRcpt (logged ops) msgMeta rcptTo).2.2 = none)
    (he : e ∈ dd.expansion tgt rcptTo) :
    Takes (Holding.final (loggedKeeps ops)) dd msgMeta rcptTo ([tgt],e) := by
  obtain ⟨globalTo,resultTo,hg,hs,x,hx,block,newTo,hb,htgt,hmod,hnew⟩ := mem_expansion.mp he
  rw [addRcpt_eq] at hnil
  rcases hr : resolveRcpt dd msgMeta rcptTo with ⟨dd',err | resultTo'⟩
  · rw [hr] at hnil
    cases hnil
  · obtain ⟨hsame,globalTo',hg',hs'⟩ := resolveRcpt_ok hr
    cases hg.symm.trans hg'
    cases hs.symm.trans hs'
    rw [hr] at hnil
    obtain ⟨st,hst,hnone⟩ := visits_done hnil hx
    have hsetup : SameSetup dd st.1 := hsame.trans <|
      visits_inv (P := fun st : Delivery τ (δ × List String) × MsgMetadata => SameSetup dd' st.1)
        (fun a st h => h.trans addEffective_setup) (.refl _) _ hst
    refine ⟨dd',resultTo,hr,(x,st),hst,?_⟩
    rw [addEffective_eq] at hnone
    rcases hre : resolveEffective st.1 st.2 x with ⟨dd₂,err | ⟨targets,newTo'⟩⟩
    · rw [hre] at hnone
      cases hnone
    · obtain ⟨block',hb',rfl,hmod'⟩ := resolveEffective_ok hre
      rw [rcptBlockForAddr_congr hsetup,hb] at hb'
      cases hb'
      rw [hsetup.pipeline,hmod] at hmod'
      cases hmod'
      rw [hre] at hnone
      obtain ⟨st',hst',hnone'⟩ := visits_done hnone hnew
      refine ⟨dd₂,_,newTo,hre,(e,st'),hst',?_⟩
      rw [hsetup.pipeline] at hnone' ⊢
      obtain ⟨st'',hst'',hlast⟩ := visits_done hnone' htgt
      exact ⟨(tgt,st''),hst'',rfl,addToTarget_takes hlast⟩

/-- Some target delivery has accepted an address that the recipient stands for. -/
def Received (dd dd' : Delivery τ (δ × List String)) (rcptTo : String) : Prop :=
  ∃ tgt h e, dd'.handle tgt = some h ∧ e ∈ dd.expansion tgt rcptTo ∧ e ∈ h.obj.2

theorem received_iff (hnil : (dd.addRcpt (logged ops) msgMeta rcptTo).2.2 = none) :
    Received dd (dd.addRcpt (logged ops) msgMeta rcptTo).1 rcptTo ↔
      ∃ tgt e, e ∈ dd.expansion tgt rcptTo := by
  constructor
  · rintro ⟨tgt,_,e,_,he,_⟩
    exact ⟨tgt,e,he⟩
  · rintro ⟨tgt,e,he⟩
    have htaken := accepted_taken hnil he
    obtain ⟨h,hh, -,hmem⟩ := (addRcpt_held _ dd msgMeta rcptTo ([tgt],e)).mpr (.inr htaken)
    exact ⟨tgt,h,e,hh,he,hmem⟩

end Delivered

/-- One of the addresses that the global and the source modifiers give belongs to
a block with a directive that hands messages on, and the modifiers of the block
leave something of it. -/
def HandedOn (cfg : Cfg α) (dd : Delivery α δ) (rcptTo : String) : Prop :=
  ∃ globalTo resultTo, dd.d.globalModifiers.rewriteRcpt rcptTo = .ok globalTo ∧
    (dd.rewriteSource globalTo).2 = .ok resultTo ∧
    ∃ x ∈ resultTo, ∃ block newTo, dd.rcptBlockForAddr x = .ok block ∧
      (∃ node ∈ cfg.nodesOf block, HandsOn node) ∧
      (dd.d.blocks block).modifiers.rewriteRcpt x = .ok newTo ∧ newTo ≠ []

theorem expansion_iff_handedOn {dd : Delivery α δ} (hb : BlocksOK cfg.objects)
    (hd : dd.d = cfg.pipeline m target hostname first) :
    (∃ tgt e, e ∈ dd.expansion tgt rcptTo) ↔ HandedOn cfg dd rcptTo := by
  have htargets : ∀ block, (dd.d.blocks block).targets ≠ [] ↔
      ∃ node ∈ cfg.nodesOf block, HandsOn node := by
    intro block
    rw [hd]
    exact targets_iff hb
  simp only [mem_expansion,HandedOn,← htargets]
  constructor
  · rintro ⟨tgt,e,globalTo,resultTo,hg,hs,x,hx,block,newTo,hblock,htgt,hmod,he⟩
    exact ⟨globalTo,resultTo,hg,hs,x,hx,block,newTo,hblock,ne_nil_of_mem htgt,hmod,
      ne_nil_of_mem he⟩
  · rintro ⟨globalTo,resultTo,hg,hs,x,hx,block,newTo,hblock,htgts,hmod,hne⟩
    obtain ⟨tgt,htgt⟩ := exists_mem_of_ne_nil _ htgts
    obtain ⟨e,he⟩ := exists_mem_of_ne_nil _ hne
    exact ⟨tgt,e,globalTo,resultTo,hg,hs,x,hx,block,newTo,hblock,htgt,hmod,he⟩

theorem new_blocks (h : Config.new m n nodes = .ok cfg) : BlocksOK cfg.objects := by
  cases n with
  | zero | succ n => exact parsed_blocks h

/-- For a configuration that the parser accepts, an accepted recipient has gone to
a target if and only if its blocks hand it on. -/
theorem accepted_rcpt_received_iff {τ δ : Type} (m : Modules τ) (n : Nat) (nodes : List Node)
    (cfg : Cfg (Tgt τ n)) (hcfg : Config.new m n nodes = .ok cfg) (ops : Targets (Tgt τ n) δ)
    (hostname : String) (first : Bool) (dd : Delivery (Tgt τ n) (δ × List String))
    (hd : dd.d = cfg.pipeline m (moduleTarget m n) hostname first) (msgMeta : MsgMetadata)
    (rcptTo : String) (hnil : (dd.addRcpt (logged ops) msgMeta rcptTo).2.2 = none) :
    Received dd (dd.addRcpt (logged ops) msgMeta rcptTo).1 rcptTo ↔ HandedOn cfg dd rcptTo :=
  (received_iff hnil).trans (expansion_iff_handedOn (new_blocks hcfg) hd)

def demoModules : Modules Unit :=
  { env := .passing
    idna := ⟨.ok,fun text => text,fun _ => false⟩
    idnaToASCII := .ok
    toLower := fun text => text
    atoi := fun _ => .error (.leaf "strconv.Atoi: invalid syntax" none)
    checksGroup := fun _ => .ok []
    modifiersGroup := fun _ => .ok []
    table := fun _ => .ok (fun _ => .ok false)
    deliveryTarget := fun _ _ => .ok 0
    target := fun _ => () }

def emptyDestination : List Node :=
  [{ name := "destination", args := ["bob@example.org"], children := some [] },
    { name := "default_destination",
      children := some [{ name := "deliver_to", args := ["&local_mailboxes"] }] }]

/-- A recipient of the default block goes to its target. -/
theorem default_rcpt_received :
    ∃ (cfg : Cfg Unit) (tx : Transaction Unit (Unit × List String)),
      Config.new demoModules 0 emptyDestination = .ok cfg ∧
      transaction (logged Targets.silent) (cfg.pipeline demoModules demoModules.target "mx" true)
        { id := "m1" } "eve@example.org" [] = some tx ∧
      (tx.dd.addRcpt (logged Targets.silent) tx.msgMeta "ann@example.org").2.2 = none ∧
      Received tx.dd (tx.dd.addRcpt (logged Targets.silent) tx.msgMeta "ann@example.org").1
        "ann@example.org" := by
  refine ⟨_,_,rfl,rfl,by decide,?_⟩
  refine (accepted_rcpt_received_iff demoModules 0 emptyDestination _ rfl Targets.silent "mx" true _
    rfl _ "ann@example.org" (by decide)).mpr ?_
  exact ⟨_,_,rfl,rfl,"ann@example.org",by decide,1,_,rfl,
    ⟨{ name := "deliver_to", args := ["&local_mailboxes"] },mem_singleton_self _,by decide⟩,rfl,
    by decide⟩

/-- A recipient of the empty block is accepted and goes nowhere. -/
theorem empty_block_drops_rcpt :
    ¬ ∀ (m : Modules Unit) (n : Nat) (nodes : List Node) (cfg : Cfg (Tgt Unit n)),
      Config.new m n nodes = .ok cfg →
      ∀ (ops : Targets (Tgt Unit n) Unit) (hostname : String) (first : Bool) (msgMeta : MsgMetadata)
        (mailFrom : String) (rcpts : List String) (tx : Transaction (Tgt Unit n) (Unit × List String)),
      transaction (logged ops) (cfg.pipeline m (moduleTarget m n) hostname first) msgMeta mailFrom
        rcpts = some tx →
      ∀ rcptTo, (tx.dd.addRcpt (logged ops) tx.msgMeta rcptTo).2.2 = none →
        Received tx.dd (tx.dd.addRcpt (logged ops) tx.msgMeta rcptTo).1 rcptTo := by
  intro h
  obtain ⟨tgt,hd,e,hh, -, -⟩ := h demoModules 0 emptyDestination _ rfl Targets.silent "mx" true
    { id := "m1" } "eve@example.org" [] _ rfl "bob@example.org" (by decide)
  exact absurd hh nofun

end Madmail.Proofs.DroppedRcpt
