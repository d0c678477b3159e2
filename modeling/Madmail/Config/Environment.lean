import Madmail.Lib.Patterns
import Madmail.Msgpipeline.Config

namespace Madmail.Cfgparser
open Lib Msgpipeline.Config

/-- `unixEnvvarRe`. -/
def unixEnvvarRe : Pattern := ⟨['{','e','n','v',':'],'}'⟩

/-- `os.Environ`, each entry cut at its first equals sign. -/
abbrev Environ := List (String × String)

mutual

/-- Change the names and the arguments of all nodes. No block stays no block. -/
def mapTexts (f : String → String) : Option (List Node) → Option (List Node)
  | none => none
  | some nodes => some (mapNodes f nodes)

def mapNodes (f : String → String) : List Node → List Node
  | [] => []
  | node :: rest => mapNode f node :: mapNodes f rest

def mapNode (f : String → String) : Node → Node
  | ⟨name,args,children,file,line⟩ => ⟨f name,args.map f,mapTexts f children,file,line⟩

end

end Madmail.Cfgparser
