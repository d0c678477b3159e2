import Madmail.Queue.Disk

namespace Madmail.Queue.Disk
open Exterrors Lib.FileProg Madmail.Module

end Madmail.Queue.Disk
