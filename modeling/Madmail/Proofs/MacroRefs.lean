import Madmail.Config.Parser

namespace Madmail.Proofs.MacroRefs
open Lib Cfgparser Context Msgpipeline.Config List

def Free (s : String) : Prop := '$' ∉ s.toList ∧ '(' ∉ s.toList ∧ ')' ∉ s.toList

/-- A part of an argument: text, or a reference to a macro that has one value. -/
inductive Piece (table : String → Option (List String)) where
  | text (s : String) (free : Free s)
  | ref (name value : String) (defined : table name = some [value]) (free : Free value)

variable {table : String → Option (List String)}

namespace Piece

def written : Piece table → List Char
  | text s _ => s.toList
  | ref name .. => macroRe.wrap name.toList

def value : Piece table → List Char
  | text s _ => s.toList
  | ref _ value .. => value.toList

def name : Piece table → Option String
  | text .. => none
  | ref name .. => some name

/-- The name is not empty, and has neither the mark that ends a reference nor the one that
starts the next. -/
def Apart : Piece table → Prop
  | text .. => True
  | ref name .. => name ≠ "" ∧ '$' ∉ name.toList ∧ ')' ∉ name.toList

def after (names : List String) : Piece table → List Char
  | text s _ => s.toList
  | ref name value .. => if name ∈ names then value.toList else macroRe.wrap name.toList

end Piece

end Madmail.Proofs.MacroRefs
