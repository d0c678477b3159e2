import Madmail.Proofs.QueueCrash
import Madmail.Queue.Purge

namespace Madmail.Proofs.QueuePurge
open Exterrors Lib.FileProg Madmail.Module Queue Queue.Disk QueueCrash List

def pending (d : QueueDir) (id : String) : Option Message := (openMessage d id).2

section Pending
variable {d e : QueueDir} {id : String}

end Pending

section Removal
variable (f : Faults) (d : QueueDir) (id : String)

def Stuck (f : Faults) (id : String) : Prop :=
  f.remove (fileName id .header) = true ∧ f.remove (fileName id .body) = true ∧
    f.remove (fileName id .metadata) = true

end Removal

section Loop
variable {f : Faults} {chosen : QueueMetadata → Bool} {id : String}

def Takes (f : Faults) (chosen : QueueMetadata → Bool) (d : QueueDir) (id : String) : Prop :=
  f.read (fileName id .metadata) = false ∧ ∃ m, readMessageMeta d id = some m ∧ chosen m = true

variable {entries : List String}

end Loop

end Madmail.Proofs.QueuePurge
