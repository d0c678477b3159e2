import Madmail.Config.Tree
import Madmail.Lib.Loop

namespace Madmail.Proofs.ImportsExpanded
open Lib Cfgparser Context Msgpipeline.Config List

mutual

/-- No node of the tree is an import. -/
def ImportFree : Node → Prop
  | ⟨name,_,children,_,_⟩ => name ≠ "import" ∧ BlockFree children

def BlockFree : Option (List Node) → Prop
  | none => True
  | some children => AllFree children

def AllFree : List Node → Prop
  | [] => True
  | node :: rest => ImportFree node ∧ AllFree rest

end

theorem importFree_iff (node : Node) :
    ImportFree node ↔ node.name ≠ "import" ∧ BlockFree node.children := by
  cases node
  rw [ImportFree]

theorem allFree_iff (nodes : List Node) : AllFree nodes ↔ ∀ node ∈ nodes, ImportFree node := by
  induction nodes with
  | nil => simp [AllFree]
  | cons node rest ih => rw [AllFree,ih,forall_mem_cons]

section Tokens
variable {env : Env} {ctx ctx' : Context}

theorem next_left (h : ctx.next = some ctx') : ctx'.rest.length < ctx.rest.length := by
  unfold Context.next at h
  cases hr : ctx.rest with
  | nil => simp [hr] at h
  | cons t rest =>
    simp only [hr,Option.some.injEq] at h
    simp [← h]

theorem nextArg_left (h : ctx.nextArg = some ctx') : ctx'.rest.length < ctx.rest.length := by
  unfold nextArg at h
  split at h
  · split at h
    · exact next_left h
    · cases h
  · exact next_left h

theorem nextLine_left (h : ctx.nextLine = some ctx') : ctx'.rest.length < ctx.rest.length := by
  unfold nextLine at h
  split at h
  · split at h
    · exact next_left h
    · cases h
  · exact next_left h

theorem storeLine_left {line : Line} (h : ctx.storeLine res stop line = .ok out) :
    out.1.rest = ctx.rest := by
  revert h
  fun_cases storeLine ctx res stop line <;> intro h <;> cases h <;> rfl

theorem addLine_left {line : Line} {out : Context × List Node × Bool}
    (h : ctx.addLine res line = .ok out) : out.1.rest = ctx.rest := by
  unfold addLine at h
  split at h
  · split at h
    · cases h
    · have hsame := storeLine_left h
      exact hsame
  · exact storeLine_left h

/-- A result at which no more tokens are left than here. -/
def Onward {α : Type} (ctx : Context) (result : Context × α) : Prop :=
  result.1.rest.length ≤ ctx.rest.length

variable (inner : ∀ ctx' : Context, ctx'.rest.length < ctx.rest.length →
  Yields (readNodes env · ctx') (Onward ctx'))
include inner

theorem readArgs_yields (continueOnLF : Bool) (args : List String)
    (children : Option (List Node)) :
    Yields (readArgs env · ctx continueOnLF args children) (Onward ctx) := by
  induction hm : 2 * ctx.rest.length + args.length using Nat.strongRecOn
    generalizing ctx continueOnLF args children with
  | ind m ih =>
    have hend : ∀ (last : Context) (children : Option (List Node)),
        last.rest.length ≤ ctx.rest.length →
          Yields (endArgs env · last args children) (Onward ctx) := by
      intro last children hle
      refine .succ ?_
      refine .ite (fun hback => ?_) (fun _ => .pure hle)
      have hpos : args ≠ [] := fun h => by simp [h] at hback
      have hlen := length_pos_iff.mpr hpos
      refine (ih _ ?_ (fun c hc => inner c (hc.trans_le hle)) true args.dropLast children rfl).mono
        fun r hr => hr.trans hle
      rw [length_dropLast]
      omega
    refine .succ ?_
    simp only [readArgs]
    cases hnext : ctx.nextArg.or (if continueOnLF then ctx.nextLine else none) with
    | none => exact hend ctx children le_rfl
    | some next =>
      have hless : next.rest.length < ctx.rest.length := by
        rcases Option.or_eq_some_iff.mp hnext with h | ⟨-,h⟩
        · exact nextArg_left h
        · split at h
          · exact nextLine_left h
          · cases h
      refine .ite (fun _ => ?_) (fun _ => ?_)
      · exact .bind (inner next hless) fun r hr => hend r.1 _ (hr.trans hless.le)
      · refine (ih _ ?_ (fun c hc => inner c (hc.trans hless)) false _ _ rfl).mono
          fun r hr => hr.trans hless.le
        rw [length_append,length_singleton]
        omega

theorem readNode_yields : Yields (readNode env · ctx) (Onward ctx) := by
  refine .succ ?_
  refine .ite (fun _ => .throw _ _) (fun _ => ?_)
  exact .bind (readArgs_yields inner false [] none) fun r hr =>
    .bind (.ofExcept _ fun _ _ => trivial) fun _ _ => .pure hr

theorem readLine_yields (res : List Node) : Yields (readLine env · ctx res) (Onward ctx) := by
  induction hn : ctx.rest.length using Nat.strongRecOn generalizing ctx res with
  | ind n ih =>
    refine .succ ?_
    refine .ite (fun _ => .ite (fun _ => .throw _ _) (fun _ => .pure le_rfl)) (fun _ => ?_)
    refine .bind (readNode_yields inner) fun r hr => ?_
    refine .bind (.ofExcept _ fun out hout => (addLine_left hout : out.1.rest = r.1.rest)) ?_
    rintro ⟨last,res,stop⟩ hlast
    have hle : last.rest.length ≤ ctx.rest.length := hlast ▸ hr
    refine .ite (fun _ => .pure hle) (fun _ => ?_)
    cases hnext : last.nextLine with
    | some next =>
      have hless := (nextLine_left hnext).trans_le hle
      exact (ih _ (hn ▸ hless) (fun c hc => inner c (hc.trans hless)) res rfl).mono
        fun out hout => hout.trans hless.le
    | none =>
      cases last.next with
      | none => exact .pure hle
      | some next => exact .throw _ _

omit inner in
theorem readNodes_yields (ctx : Context) : Yields (readNodes env · ctx) (Onward ctx) := by
  induction hn : ctx.rest.length using Nat.strongRecOn generalizing ctx with
  | ind n ih =>
    refine .succ ?_
    refine .ite (fun _ => .throw _ _) (fun _ => ?_)
    cases hnext : ctx.next with
    | none => exact .pure le_rfl
    | some next =>
      have hless := next_left hnext
      refine (readLine_yields (fun c hc => ih _ ?_ c rfl) []).mono fun out hout =>
        hout.trans hless.le
      exact hn ▸ hc.trans hless

end Tokens

section Imports
variable {env : Env} {depth : Nat}

/-- The loop leaves no import, unless it has found one. It only goes on then at a depth at
which imports are resolved. -/
theorem expandEach_yields (hchild : ∀ child ∈ children, ∀ ctx,
      Yields (expandImports env · ctx child (depth + 1)) (fun r => BlockFree r.2.children))
    (hresolve : depth ≤ 255 → ∀ ctx node name,
      Yields (resolveImport env · ctx node name depth) (fun _ => True)) (ctx : Context)
    (new : List Node) (found : Bool) :
    Yields (expandEach env · ctx depth new found children) (fun r =>
      (r.2.2 = true → found = true ∨ depth ≤ 255) ∧
        (r.2.2 = false → found = false ∧ (AllFree new → AllFree r.2.1))) := by
  induction children generalizing ctx new found with
  | nil =>
    refine .succ ?_
    simp only [expandEach]
    exact .pure ⟨.inl,fun h => ⟨h,id⟩⟩
  | cons child rest ih =>
    obtain ⟨hfirst,hrest⟩ := forall_mem_cons.mp hchild
    refine .succ ?_
    simp only [expandEach]
    refine .bind (hfirst ctx) ?_
    rintro ⟨ctx,child⟩ hfree
    refine .ite (fun hname => ?_) (fun _ => .ite (fun _ => .throw _ _) (fun hdepth => ?_))
    · refine (ih hrest _ _ _).mono fun out hout => ⟨hout.1,fun hno => ⟨(hout.2 hno).1,fun hnew => ?_⟩⟩
      refine (hout.2 hno).2 ?_
      rw [allFree_iff] at hnew ⊢
      intro node hm
      rcases mem_append.mp hm with hm | hm
      · exact hnew node hm
      · cases mem_singleton.mp hm
        exact (importFree_iff _).mpr ⟨hname,hfree⟩
    · rcases hargs : child.args with _ | ⟨name,_ | _⟩
      · exact .throw _ _
      · refine .bind (hresolve (by omega) _ _ _) fun _ _ => ?_
        refine (ih hrest _ _ _).mono fun out hout => ⟨fun _ => .inr (by omega),fun hno => ?_⟩
        cases (hout.2 hno).1
      · exact .throw _ _

theorem expandImports_step (hchild : ∀ child ∈ node.nodes, ∀ ctx,
      Yields (expandImports env · ctx child (depth + 1)) (fun r => BlockFree r.2.children))
    (hresolve : depth ≤ 255 → ∀ ctx node name,
      Yields (resolveImport env · ctx node name depth) (fun _ => True))
    (hagain : depth ≤ 255 → ∀ ctx node,
      Yields (expandImports env · ctx node (depth + 1)) (fun r => BlockFree r.2.children))
    (ctx : Context) :
    Yields (expandImports env · ctx node depth) (fun r => BlockFree r.2.children) := by
  refine .succ ?_
  simp only [expandImports]
  cases hc : node.children with
  | none => exact .pure (by rw [hc]; trivial)
  | some children =>
    have hall : node.nodes = children := by rw [Node.nodes,hc]; rfl
    refine .bind (expandEach_yields (hall ▸ hchild) hresolve ctx [] false) ?_
    rintro ⟨ctx,new,found⟩ hr
    refine .ite (fun hfound => ?_) (fun hno => ?_)
    · exact hagain ((hr.1 hfound).resolve_left Bool.false_ne_true) _ _
    · exact .pure ((hr.2 (by simpa using hno)).2 trivial)

theorem readTree_step
    (h : ∀ ctx node, Yields (expandImports env · ctx node depth) (fun r => BlockFree r.2.children))
    (location : String) (tokens : List Token) :
    Yields (readTree env · location depth tokens) (fun r => AllFree r.2) := by
  refine .succ ?_
  simp only [readTree]
  refine .bind (readNodes_yields _) ?_
  rintro ⟨ctx,children⟩ -
  refine .ite (fun _ => .throw _ _) (fun _ => .bind (h _ _) fun out hout => .pure ?_)
  rw [Node.nodes]
  cases hc : out.2.children with
  | none => trivial
  | some children => rwa [hc] at hout

theorem resolveImport_step
    (h : ∀ location tokens, Yields (readTree env · location (depth + 1) tokens)
      (fun r => AllFree r.2))
    (ctx : Context) (node : Node) (name : String) :
    Yields (resolveImport env · ctx node name depth) (fun _ => True) := by
  refine .succ ?_
  simp only [resolveImport]
  cases ctx.snippets name with
  | some subtree => exact .pure trivial
  | none =>
    exact .bind (.ofExcept _ fun _ _ => trivial) fun _ _ => .bind (h _ _) fun _ _ => .pure trivial

/-- Beyond the limit no import is resolved, and the tree decides. -/
theorem expandImports_deep (hdepth : 255 < depth) (ctx : Context) (node : Node) :
    Yields (expandImports env · ctx node depth) (fun r => BlockFree r.2.children) := by
  induction hn : sizeOf node using Nat.strongRecOn generalizing depth ctx node with
  | ind n ih =>
    refine expandImports_step (fun child hm ctx => ?_) (fun h => by omega) (fun h => by omega) ctx
    refine ih _ ?_ (by omega) ctx child rfl
    obtain ⟨name,args,_ | children,file,line⟩ := node
    · cases hm
    · have hless : sizeOf child < sizeOf children := sizeOf_lt_of_mem hm
      rw [← hn,Node.mk.sizeOf_spec,Option.some.sizeOf_spec]
      omega

theorem expandImports_yields (depth : Nat) (ctx : Context) (node : Node) :
    Yields (expandImports env · ctx node depth) (fun r => BlockFree r.2.children) := by
  induction hn : 256 - depth generalizing depth ctx node with
  | zero => exact expandImports_deep (by omega) ctx node
  | succ n ih =>
    have hnext := fun ctx node => ih (depth + 1) ctx node (by omega)
    exact expandImports_step (fun child _ ctx => hnext ctx child)
      (fun _ => resolveImport_step (readTree_step hnext)) (fun _ => hnext) ctx

end Imports

/-- Reading a file ends, whatever it imports, and a tree that it returns has no import at any
depth. -/
theorem imports_expanded (env : Env) (location : String) (depth : Nat) (tokens : List Token) :
    ∃ result,
      (∃ least, ∀ fuel, least ≤ fuel →
        (readTree env fuel location depth tokens).run = some result) ∧
      ∀ ctx nodes, result = .ok (ctx,nodes) → ∀ node ∈ nodes, ImportFree node := by
  have htree : Yields (readTree env · location depth tokens) (fun r => AllFree r.2) :=
    readTree_step (expandImports_yields depth) location tokens
  obtain ⟨result,hrun,hfree⟩ := htree
  exact ⟨result,hrun,fun ctx nodes h => (allFree_iff nodes).mp (hfree (ctx,nodes) h)⟩

end Madmail.Proofs.ImportsExpanded
