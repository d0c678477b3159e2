import Madmail.Lib.Strings
import Madmail.Msgpipeline.Nested

namespace Madmail.Msgpipeline.Config
open Exterrors Madmail.Module

/-- `config.Node`. Without a block there are no children, which the parser tells
from an empty block. -/
structure Node where
  name : String
  args : List String := []
  children : Option (List Node) := none
  file : String := ""
  line : Nat := 0

def Node.nodes (node : Node) : List Node := node.children.getD []

def nodeErr (node : Node) (message : String) : Err :=
  .leaf (if node.file = "" then message
    else node.file ++ ":" ++ toString node.line ++ ": " ++ message) none

inductive Directive where
  | check | modify
  | sourceIn | source | defaultSource | dmarc
  | destinationIn | destination | defaultDestination
  | deliverTo | reroute | reject
  deriving DecidableEq, Repr

def Directive.ofName : String → Option Directive
  | "check" => some .check
  | "modify" => some .modify
  | "source_in" => some .sourceIn
  | "source" => some .source
  | "default_source" => some .defaultSource
  | "dmarc" => some .dmarc
  | "destination_in" => some .destinationIn
  | "destination" => some .destination
  | "default_destination" => some .defaultDestination
  | "deliver_to" => some .deliverTo
  | "reroute" => some .reroute
  | "reject" => some .reject
  | _ => none

/-- What the parser gets from outside: the modules that the configuration names,
and the functions of the standard library. A module is an object with an
identity, which is its number. -/
structure Modules (τ : Type) where
  env : Env
  idna : Address.Idna
  idnaToASCII : String → Except Err String
  toLower : String → String
  atoi : String → Except Err Int
  checksGroup : Node → Except Err (List Nat)
  modifiersGroup : Node → Except Err Group
  table : List String → Except Err Lookup
  deliveryTarget : List String → Node → Except Err Nat
  target : Nat → τ

/-- The objects that the parser has made: the recipient blocks, each with the
directives it was made of, and the pipelines of `reroute` directives. -/
structure Objects (α : Type) where
  blocks : List (List Node × RcptBlock) := []
  pipelines : List α := []

abbrev Parse (α : Type) := StateT (Objects α) (Except Err)

/-- The number of a target: modules have even ones, pipelines odd ones. -/
def moduleKey (number : Nat) : Nat := 2 * number

def pipelineKey (number : Nat) : Nat := 2 * number + 1

def parseEnhancedCode (atoi : String → Except Err Int) (s : String) : Except Err EnhancedCode :=
  match Lib.Strings.split s '.' with
  | [cls,subject,detail] => do
    return ⟨← atoi cls,← atoi subject,← atoi detail⟩
  | _ => .error (.leaf "wrong amount of enhanced code parts" none)

def rejectCode (atoi : String → Except Err Int) (node : Node) (arg : String) : Except Err Int :=
  match atoi arg with
  | .error e => .error (nodeErr node ("invalid error code integer: " ++ errorText e))
  | .ok code =>
    if code.tdiv 100 ≠ 4 ∧ code.tdiv 100 ≠ 5 then
      .error (nodeErr node "error code should start with either 4 or 5")
    else .ok code

def rejectEnchCode (atoi : String → Except Err Int) (node : Node) (arg : String) :
    Except Err EnhancedCode :=
  match parseEnhancedCode atoi arg with
  | .error e => .error (nodeErr node (errorText e))
  | .ok code =>
    if code.cls ≠ 4 ∧ code.cls ≠ 5 then
      .error (nodeErr node "enhanced code should use either 4 or 5 as a first number")
    else .ok code

/-- The cases of the source fall through, from the last argument to the first. -/
def parseRejectDirective (atoi : String → Except Err Int) (node : Node) : Except Err SMTPError :=
  let rejected (code : Int) (enchCode : EnhancedCode) (msg : String) : SMTPError :=
    { code := code, enhancedCode := enchCode, message := msg, reason := "reject directive used" }
  let policy := "Message rejected due to a local policy"
  match node.args with
  | [] => .ok (rejected 554 ⟨5,7,0⟩ policy)
  | [code] => do
    return rejected (← rejectCode atoi node code) ⟨5,7,0⟩ policy
  | [code,enchCode] => do
    let enchCode ← rejectEnchCode atoi node enchCode
    return rejected (← rejectCode atoi node code) enchCode policy
  | [code,enchCode,msg] => do
    if msg = "" then throw (nodeErr node "message can't be empty")
    let enchCode ← rejectEnchCode atoi node enchCode
    return rejected (← rejectCode atoi node code) enchCode msg
  | _ => .error (nodeErr node "invalid count of arguments")

section Parser
variable {τ α : Type} (m : Modules τ) (new : List Node → Except Err α)

def validMatchRule (rule : String) : Bool :=
  Address.validDomain m.idna m.idnaToASCII rule || Address.valid m.idna m.idnaToASCII rule

/-- A match rule in the form for lookups. Next to an error, the source has the
rule in lower case. -/
def normalizeRule (kind : String) (node : Node) (rule : String) : Except Err String :=
  let res := if Lib.Strings.contains rule '@' then Address.forLookup m.idna rule
    else Address.domainForLookup m.idna rule
  match res with
  | .error e =>
    .error (nodeErr node
      ("invalid " ++ kind ++ " match rule: " ++ m.toLower rule ++ ": " ++ errorText e))
  | .ok rule => .ok rule

/-- The loop over the rules of a directive. A rule that is there already keeps
its block. -/
def addRules (kind invalid : String) (node : Node) (block : β) :
    List String → List (String × β) → Except Err (List (String × β))
  | [], rules => .ok rules
  | rule :: rest, rules =>
    match normalizeRule m kind node rule with
    | .error e => .error e
    | .ok rule =>
      if !validMatchRule m rule then .error (nodeErr node (invalid ++ rule))
      else if (rules.lookup rule).isSome then addRules kind invalid node block rest rules
      else addRules kind invalid node block rest (rules ++ [(rule,block)])

def parseRcptDirective (rcpt : RcptBlock) (node : Node) : Parse α RcptBlock :=
  match Directive.ofName node.name with
  | some .check => do
    return { rcpt with checks := rcpt.checks ++ (← m.checksGroup node) }
  | some .modify => do
    return { rcpt with modifiers := rcpt.modifiers ++ (← m.modifiersGroup node) }
  | some .deliverTo => do
    if rcpt.rejectErr.isSome then
      throw (nodeErr node "can't use 'reject' and 'deliver_to' together")
    if node.args = [] then throw (nodeErr node "required at least one argument")
    let number ← m.deliveryTarget node.args node
    return { rcpt with targets := rcpt.targets ++ [moduleKey number] }
  | some .reroute => do
    if node.nodes.isEmpty then
      throw (nodeErr node "missing or empty reroute pipeline configuration")
    let pipeline ← new node.nodes
    let objects ← get
    set { objects with pipelines := objects.pipelines ++ [pipeline] }
    return { rcpt with targets := rcpt.targets ++ [pipelineKey objects.pipelines.length] }
  | some .reject => do
    if rcpt.targets ≠ [] then throw (nodeErr node "can't use 'reject' and 'deliver_to' together")
    let err ← parseRejectDirective m.atoi node
    return { rcpt with rejectErr := some (.smtp err) }
  | _ => throw (nodeErr node "invalid directive")

def parseMsgPipelineRcptCfg (nodes : List Node) : Parse α Nat := do
  let rcpt ← nodes.foldlM (parseRcptDirective m new) {}
  let objects ← get
  set { objects with blocks := objects.blocks ++ [(nodes,rcpt)] }
  return objects.blocks.length

structure SrcCfg where
  checks : List Nat := []
  modifiers : Group := []
  rcptIn : List (Lookup × Nat) := []
  perRcpt : List (String × Nat) := []
  defaultRcptRaw : Option (List Node) := none
  othersRaw : List Node := []

def SrcCfg.block (src : SrcCfg) (defaultRcpt : Nat) : SourceBlock :=
  { checks := src.checks
    modifiers := src.modifiers
    rcptIn := src.rcptIn
    perRcpt := fun rule => src.perRcpt.lookup rule
    defaultRcpt := defaultRcpt }

def parseSrcDirective (src : SrcCfg) (node : Node) : Parse α SrcCfg :=
  match Directive.ofName node.name with
  | some .check => do
    return { src with checks := src.checks ++ (← m.checksGroup node) }
  | some .modify => do
    return { src with modifiers := src.modifiers ++ (← m.modifiersGroup node) }
  | some .destinationIn => do
    let table ← m.table node.args
    let block ← parseMsgPipelineRcptCfg m new node.nodes
    return { src with rcptIn := src.rcptIn ++ [(table,block)] }
  | some .destination => do
    let block ← parseMsgPipelineRcptCfg m new node.nodes
    if node.args = [] then throw (nodeErr node "expected at least one destination match rule")
    let perRcpt ← addRules m "destination" "invalid destination match rule: " node block node.args
      src.perRcpt
    return { src with perRcpt := perRcpt }
  | some .defaultDestination => do
    if src.defaultRcptRaw.isSome then
      throw (nodeErr node "duplicate 'default_destination' block")
    return { src with defaultRcptRaw := node.children }
  | some .deliverTo | some .reroute | some .reject =>
    return { src with othersRaw := src.othersRaw ++ [node] }
  | _ => throw (nodeErr node ("unknown pipeline directive: " ++ node.name))

/-- The directives that stand for the default block: those of its own, or the
handling directives when there are neither rules nor such a block. -/
def defaultDirectives (nodes : List Node) (noRules : Bool) (defaultRaw : List Node)
    (othersRaw : List Node) (empty misplaced missing : String) : Except Err (List Node) :=
  if noRules ∧ defaultRaw.isEmpty then
    if othersRaw.isEmpty then .error (.leaf empty none) else .ok othersRaw
  else
    match othersRaw with
    | first :: _ => .error (nodeErr first misplaced)
    | [] =>
      if defaultRaw.isEmpty then .error (nodeErr (nodes.headD { name := "" }) missing)
      else .ok defaultRaw

def parseMsgPipelineSrcCfg (nodes : List Node) : Parse α SourceBlock := do
  let src ← nodes.foldlM (parseSrcDirective m new) {}
  let raw ← defaultDirectives nodes src.perRcpt.isEmpty (src.defaultRcptRaw.getD []) src.othersRaw
    "empty source block, use 'reject' to reject messages"
    "can't put handling directives together with destination rules, did you mean to put it into 'default' block or into all recipient blocks?"
    "missing or empty default destination block, use default_destination \x7b reject \x7d to reject messages"
  let defaultRcpt ← parseMsgPipelineRcptCfg m new raw
  return src.block defaultRcpt

structure RootCfg where
  globalChecks : List Nat := []
  globalModifiers : Group := []
  sourceIn : List (Lookup × SourceBlock) := []
  perSource : List (String × SourceBlock) := []
  doDMARC : Bool := false
  defaultSrcRaw : Option (List Node) := none
  othersRaw : List Node := []

def parseRootDirective (cfg : RootCfg) (node : Node) : Parse α RootCfg :=
  match Directive.ofName node.name with
  | some .check => do
    return { cfg with globalChecks := cfg.globalChecks ++ (← m.checksGroup node) }
  | some .modify => do
    return { cfg with globalModifiers := cfg.globalModifiers ++ (← m.modifiersGroup node) }
  | some .sourceIn => do
    let table ← m.table node.args
    let block ← parseMsgPipelineSrcCfg m new node.nodes
    return { cfg with sourceIn := cfg.sourceIn ++ [(table,block)] }
  | some .source => do
    let block ← parseMsgPipelineSrcCfg m new node.nodes
    if node.args = [] then throw (nodeErr node "expected at least one source matching rule")
    let perSource ← addRules m "source" "invalid source routing rule: " node block node.args
      cfg.perSource
    return { cfg with perSource := perSource }
  | some .defaultSource => do
    if cfg.defaultSrcRaw.isSome then throw (nodeErr node "duplicate 'default_source' block")
    return { cfg with defaultSrcRaw := node.children }
  | some .dmarc =>
    match node.args with
    | [] | ["yes"] => return { cfg with doDMARC := true }
    | ["no"] => return cfg
    | [_] => throw (nodeErr node "invalid argument for dmarc")
    | _ => return cfg
  | some .deliverTo | some .reroute | some .destinationIn | some .destination
  | some .defaultDestination | some .reject =>
    return { cfg with othersRaw := cfg.othersRaw ++ [node] }
  | none => throw (nodeErr node ("unknown pipeline directive: " ++ node.name))

structure Cfg (α : Type) where
  root : RootCfg
  defaultSource : SourceBlock
  objects : Objects α

def parseRoot (nodes : List Node) : Parse α (RootCfg × SourceBlock) := do
  let cfg ← nodes.foldlM (parseRootDirective m new) {}
  let raw ← defaultDirectives nodes cfg.perSource.isEmpty (cfg.defaultSrcRaw.getD []) cfg.othersRaw
    "empty pipeline configuration, use 'reject' to reject messages"
    "can't put handling directives together with source rules, did you mean to put it into 'default_source' block or into all source blocks?"
    "missing or empty default source block, use default_source \x7b reject \x7d to reject messages"
  let defaultSource ← parseMsgPipelineSrcCfg m new raw
  return (cfg,defaultSource)

def parseMsgPipelineRootCfg (nodes : List Node) : Except Err (Cfg α) :=
  match parseRoot m new nodes {} with
  | .error e => .error e
  | .ok ((cfg,defaultSource),objects) => .ok ⟨cfg,defaultSource,objects⟩

def Cfg.nodesOf (cfg : Cfg α) (block : Nat) : List Node :=
  (cfg.objects.blocks[block]?.map Prod.fst).getD []

/-- The pipeline of a configuration. What an endpoint sets in it comes last. -/
def Cfg.pipeline (cfg : Cfg α) (target : Nat → α) (hostname : String) (firstPipeline : Bool) :
    Pipeline α :=
  { env := m.env
    idna := m.idna
    hostname := hostname
    firstPipeline := firstPipeline
    doDMARC := cfg.root.doDMARC
    globalChecks := cfg.root.globalChecks
    globalModifiers := cfg.root.globalModifiers
    sourceIn := cfg.root.sourceIn
    perSource := fun rule => cfg.root.perSource.lookup rule
    defaultSource := cfg.defaultSource
    blocks := fun block => (cfg.objects.blocks[block]?.map Prod.snd).getD {}
    target := fun key =>
      if key % 2 = 0 then target (key / 2)
      else (cfg.objects.pipelines[key / 2]?).getD (target (key / 2)) }

end Parser

def moduleTarget (m : Modules τ) : (n : Nat) → Nat → Tgt τ n
  | 0, number => m.target number
  | _ + 1, number => .inl (m.target number)

/-- `New`, for `reroute` directives nested up to `n` deep. -/
def new (m : Modules τ) : (n : Nat) → List Node → Except Err (Cfg (Tgt τ n))
  | 0, nodes =>
    parseMsgPipelineRootCfg m (fun _ => .error (.leaf "pipelines are nested too deep" none)) nodes
  | n + 1, nodes =>
    parseMsgPipelineRootCfg m
      (fun children => (new m n children).map (fun cfg =>
        .inr ⟨cfg.pipeline m (moduleTarget m n) "" false,false⟩))
      nodes

end Madmail.Msgpipeline.Config
