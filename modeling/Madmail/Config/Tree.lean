import Madmail.Config.Parser

namespace Madmail.Cfgparser
open Lib Exterrors Msgpipeline.Config

/-- What the parser is given: the letters and digits of Unicode, the functions on paths, and
the tokens of the files. -/
structure Env where
  isLetter : Char → Bool
  isDigit : Char → Bool
  isAbs : String → Bool
  dir : String → String
  join : String → String → String
  openFile : String → Except Err (List Token)
  isNotExist : Err → Bool

/-- What the functions of the parser return, if they have fuel for enough calls. -/
abbrev Read := ExceptT Failure Option

def outOfFuel {α : Type} : Read α := ExceptT.mk none

/-- A node with the flags that `readNodes` looks at. -/
structure Line where
  node : Node
  isSnippet : Bool
  isMacro : Bool

def validateNodeName (env : Env) (s : String) : Except Failure Unit :=
  match s.toList with
  | [] => .error (.err (.leaf "empty directive name" none))
  | first :: _ =>
    if env.isDigit first then
      .error (.err (.leaf "directive name cannot start with a digit" none))
    else
      match s.toList.find? fun c => !env.isLetter c && !env.isDigit c && c ∉ ['.','-','_'] with
      | some c =>
        .error (.err (.leaf ("character not allowed in directive name: " ++ String.ofList [c]) none))
      | none => .ok ()

namespace Context

def isSnippet (name : String) : Option String :=
  if Strings.hasPrefix name "(" && Strings.hasSuffix name ")" then
    some (String.ofList name.toList.tail.dropLast)
  else none

/-- `parseAsMacro`: the name, which is empty if it is no declaration, and the values. -/
def parseAsMacro (ctx : Context) (node : Node) : Except Failure (String × List String) :=
  if !Strings.hasPrefix node.name "$(" then .ok ("",[])
  else if !Strings.hasSuffix node.name ")" then .error (ctx.err "macro name must end with )")
  else if node.args.length < 2 then .error (ctx.err "at least 2 arguments are required")
  else if node.args.head? ≠ some "=" then .error (ctx.err "missing = in macro declaration")
  else .ok (macroName node.name,node.args.tail)

def endNode (env : Env) (ctx : Context) (node : Node) (isSnippet : Bool) : Except Failure Line :=
  match ctx.parseAsMacro node with
  | .error e => .error e
  | .ok (name,args) =>
    if name ≠ "" then .ok ⟨{ node with name, args },isSnippet,true⟩
    else if isSnippet then .ok ⟨node,true,false⟩
    else (validateNodeName env node.name).map fun _ => ⟨node,false,false⟩

/-- What `readNodes` does with a node: its nodes so far, and whether the block is over. -/
def storeLine (ctx : Context) (res : List Node) (shouldStop : Bool) (line : Line) :
    Except Failure (Context × List Node × Bool) :=
  if line.isMacro then
    if ctx.nesting ≠ 0 then .error (ctx.err "macro declarations are only allowed at top-level")
    else
      match ctx.expandMacros line.node with
      | .error e => .error e
      | .ok node =>
        .ok ({ ctx with macros := Function.update ctx.macros node.name (some node.args) },res,false)
  else if line.isSnippet then
    if ctx.nesting ≠ 0 then .error (ctx.err "snippet declarations are only allowed at top-level")
    else if line.node.args.length ≠ 0 then
      .error (ctx.err "snippet declarations can't have arguments")
    else
      .ok ({ ctx with
        snippets := Function.update ctx.snippets line.node.name (some line.node.nodes) },res,false)
  else
    match ctx.expandMacros line.node with
    | .error e => .error e
    | .ok node => .ok (ctx,res ++ [node],shouldStop)

/-- A closing brace at the end of the line is no argument. -/
def addLine (ctx : Context) (res : List Node) (line : Line) :
    Except Failure (Context × List Node × Bool) :=
  if line.node.args.getLast? = some "\x7d" then
    if ctx.nesting - 1 < 0 then .error (ctx.err "unexpected \x7d")
    else
      storeLine { ctx with nesting := ctx.nesting - 1 } res true
        { line with node := { line.node with args := line.node.args.dropLast } }
  else storeLine ctx res false line

mutual

def readNode (env : Env) : Nat → Context → Read (Context × Line)
  | 0, _ => outOfFuel
  | fuel + 1, ctx =>
    if ctx.val = "\x7b" then throw (ctx.syntaxErr "block header")
    else do
      let (last,args,children) ← readArgs env fuel ctx false [] none
      let line ← ofExcept (last.endNode env
        ⟨(isSnippet ctx.val).getD ctx.val,args,children,ctx.file,ctx.line⟩
        (isSnippet ctx.val).isSome)
      return (last,line)

/-- The loops over the arguments and the block of a node. -/
def readArgs (env : Env) : Nat → Context → Bool → List String → Option (List Node) →
    Read (Context × List String × Option (List Node))
  | 0, _, _, _, _ => outOfFuel
  | fuel + 1, ctx, continueOnLF, args, children =>
    match ctx.nextArg.or (if continueOnLF then ctx.nextLine else none) with
    | some ctx =>
      if ctx.val = "\x7b" then do
        let (ctx,nodes) ← readNodes env fuel ctx
        endArgs env fuel ctx args (some nodes)
      else readArgs env fuel ctx false (args ++ [ctx.val]) children
    | none => endArgs env fuel ctx args children

/-- A backslash at the end makes the node go on, on the next line too. -/
def endArgs (env : Env) : Nat → Context → List String → Option (List Node) →
    Read (Context × List String × Option (List Node))
  | 0, _, _, _ => outOfFuel
  | fuel + 1, ctx, args, children =>
    if args.getLast? = some "\\" then readArgs env fuel ctx true args.dropLast children
    else return (ctx,args,children)

def readNodes (env : Env) : Nat → Context → Read (Context × List Node)
  | 0, _ => outOfFuel
  | fuel + 1, ctx =>
    if 255 < ctx.nesting then throw (ctx.err "nesting limit reached")
    else
      match ctx.next with
      | none => return ({ ctx with nesting := ctx.nesting + 1 },[])
      | some ctx => readLine env fuel { ctx with nesting := ctx.nesting + 1 } []

/-- The loop of `readNodes`, from the first token of a logical line on. -/
def readLine (env : Env) : Nat → Context → List Node → Read (Context × List Node)
  | 0, _, _ => outOfFuel
  | fuel + 1, ctx, res =>
    if ctx.val = "\x7d" then
      if ctx.nesting - 1 < 0 then throw (ctx.err "unexpected \x7d")
      else return ({ ctx with nesting := ctx.nesting - 1 },res)
    else do
      let (ctx,line) ← readNode env fuel ctx
      let (ctx,res,stop) ← ofExcept (ctx.addLine res line)
      if stop then return (ctx,res)
      else
        match ctx.nextLine, ctx.next with
        | some ctx, _ => readLine env fuel ctx res
        | none, some ctx => throw (ctx.err "newline is required after closing brace")
        | none, none => return (ctx,res)

end

end Context

/-- The tokens of an imported file, which is also looked for with a suffix. -/
def openImport (env : Env) (node : Node) (file name : String) : Except Failure (List Token) :=
  match env.openFile file with
  | .ok tokens => .ok tokens
  | .error e =>
    if !env.isNotExist e then .error (.err e)
    else
      match env.openFile (file ++ ".conf") with
      | .ok tokens => .ok tokens
      | .error e =>
        .error (.err (if env.isNotExist e then nodeErr node ("unknown import: " ++ name) else e))

mutual

def expandImports (env : Env) : Nat → Context → Node → Nat → Read (Context × Node)
  | 0, _, _, _ => outOfFuel
  | fuel + 1, ctx, node, expansionDepth =>
    match node.children with
    | none => return (ctx,node)
    | some children => do
      let (ctx,newChildrens,containsImports) ←
        expandEach env fuel ctx expansionDepth [] false children
      let node := { node with children := some newChildrens }
      if containsImports then expandImports env fuel ctx node (expansionDepth + 1)
      else return (ctx,node)

/-- The loop of `expandImports`. -/
def expandEach (env : Env) : Nat → Context → Nat → List Node → Bool → List Node →
    Read (Context × List Node × Bool)
  | 0, _, _, _, _, _ => outOfFuel
  | _ + 1, ctx, _, newChildrens, containsImports, [] =>
    return (ctx,newChildrens,containsImports)
  | fuel + 1, ctx, expansionDepth, newChildrens, containsImports, child :: rest => do
    let (ctx,child) ← expandImports env fuel ctx child (expansionDepth + 1)
    if child.name ≠ "import" then
      expandEach env fuel ctx expansionDepth (newChildrens ++ [child]) containsImports rest
    else if 255 < expansionDepth then
      throw (.err (nodeErr child "hit import expansion limit"))
    else
      match child.args with
      | [name] =>
        let (ctx,subtree) ← resolveImport env fuel ctx child name expansionDepth
        expandEach env fuel ctx expansionDepth (newChildrens ++ subtree) true rest
      | _ => throw (ctx.err "import directive requires exactly 1 argument")

def resolveImport (env : Env) : Nat → Context → Node → String → Nat → Read (Context × List Node)
  | 0, _, _, _, _ => outOfFuel
  | fuel + 1, ctx, node, name, expansionDepth =>
    match ctx.snippets name with
    | some subtree => return (ctx,subtree)
    | none => do
      let file := if env.isAbs name then name else env.join (env.dir ctx.fileLocation) name
      let tokens ← ofExcept (openImport env node file name)
      let (imported,nodes) ← readTree env fuel file (expansionDepth + 1) tokens
      return ({ ctx with
        snippets := fun name => (imported.snippets name).or (ctx.snippets name)
        macros := fun name => (imported.macros name).or (ctx.macros name) },nodes)

/-- `readTree`, with the snippets and macros in the context. -/
def readTree (env : Env) : Nat → String → Nat → List Token → Read (Context × List Node)
  | 0, _, _, _ => outOfFuel
  | fuel + 1, location, expansionDepth, tokens => do
    let (ctx,children) ← Context.readNodes env fuel { fileLocation := location, rest := tokens }
    if 0 < ctx.nesting then throw (ctx.err "unexpected EOF when looking for \x7d")
    else
      let (ctx,root) ←
        expandImports env fuel ctx ⟨"",[],some children,location,1⟩ expansionDepth
      return (ctx,root.nodes)

end

end Madmail.Cfgparser
