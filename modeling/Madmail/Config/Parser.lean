import Madmail.Lib.Patterns
import Madmail.Msgpipeline.Config

namespace Madmail.Cfgparser
open Lib Exterrors Msgpipeline.Config

structure Token where
  file : String := ""
  line : Nat
  text : String

/-- An error, or an index that is out of range. -/
inductive Failure where
  | err (e : Err)
  | panic

/-- `parseContext` with its `lexer.Dispenser`: the token at the cursor, and those after
it. The location of the file is also the name that the dispenser has. -/
structure Context where
  fileLocation : String
  cur : Option Token := none
  rest : List Token
  nesting : Int := -1
  snippets : String → Option (List Node) := fun _ => none
  macros : String → Option (List String) := fun _ => none

namespace Context

def next (ctx : Context) : Option Context :=
  match ctx.rest with
  | [] => none
  | t :: rest => some { ctx with cur := some t, rest := rest }

def endLine (t : Token) : Nat := t.line + t.text.toList.count '\n'

def nextArg (ctx : Context) : Option Context :=
  match ctx.cur, ctx.rest with
  | some t, u :: _ => if t.file = u.file ∧ endLine t = u.line then ctx.next else none
  | _, _ => ctx.next

def nextLine (ctx : Context) : Option Context :=
  match ctx.cur, ctx.rest with
  | some t, u :: _ => if t.file ≠ u.file ∨ endLine t < u.line then ctx.next else none
  | _, _ => ctx.next

def val (ctx : Context) : String := ctx.cur.elim "" Token.text

def line (ctx : Context) : Nat := ctx.cur.elim 0 Token.line

def file (ctx : Context) : String :=
  match ctx.cur with
  | none => ctx.fileLocation
  | some t => if t.file ≠ "" then t.file else ctx.fileLocation

def err (ctx : Context) (msg : String) : Failure :=
  .err (.leaf (ctx.file ++ ":" ++ toString ctx.line ++ " - Error during parsing: " ++ msg) none)

def syntaxErr (ctx : Context) (expected : String) : Failure :=
  .err (.leaf (ctx.file ++ ":" ++ toString ctx.line ++ " - Syntax error: Unexpected token '" ++
    ctx.val ++ "', expecting '" ++ expected ++ "'") none)

/-- `macroRe`. -/
def macroRe : Pattern := ⟨['$','('],')'⟩

def macroName (arg : String) : String := String.ofList (arg.toList.drop 2).dropLast

def isReference (arg : String) : Prop :=
  Strings.hasPrefix arg "$(" = true ∧ Strings.hasSuffix arg ")" = true

instance (arg : String) : Decidable (isReference arg) := by
  unfold isReference
  infer_instance

def expandSingleValueMacro (ctx : Context) (arg : String) : Except Failure String :=
  (macroRe.findAll arg.toList).foldlM
    (fun arg name =>
      let replace (value : String) : String :=
        String.ofList (replaceAll [(macroRe.wrap name,value.toList)] arg.toList)
      match ctx.macros (String.ofList name) with
      | none => .ok (replace "")
      | some [value] => .ok (replace value)
      | some [] => .error .panic
      | some _ =>
        .error (ctx.err "can't expand macro with multiple arguments inside a string"))
    arg

/-- What `expandMacros` makes of one argument. -/
def expandArg (ctx : Context) (arg : String) : Except Failure (List String) :=
  if isReference arg then .ok ((ctx.macros (macroName arg)).getD [])
  else if ['$','('] <:+: arg.toList ∧ ')' ∈ arg.toList then
    (ctx.expandSingleValueMacro arg).map fun arg => [arg]
  else .ok [arg]

mutual

def expandMacros (ctx : Context) : Node → Except Failure Node
  | ⟨name,args,children,file,line⟩ => do
    if isReference name then throw (ctx.err "can't use macro argument as directive name")
    let args ← args.mapM ctx.expandArg
    let children ← ctx.expandBlock children
    return ⟨name,args.flatten,children,file,line⟩

def expandBlock (ctx : Context) : Option (List Node) → Except Failure (Option (List Node))
  | none => return none
  | some children => return some (← ctx.expandChildren children)

def expandChildren (ctx : Context) : List Node → Except Failure (List Node)
  | [] => return []
  | child :: rest => return (← ctx.expandMacros child) :: (← ctx.expandChildren rest)

end

end Context

end Madmail.Cfgparser
