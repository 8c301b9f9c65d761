import Brokerage.Settings.Stored

namespace Brokerage

inductive Provider where
  | memory (table : Settings)
  | file (stored : Stored) (disk : Disk)

namespace Provider

def table : Provider → Settings
  | .memory t => t
  | .file s _ => s.table

def change (f : Settings → Settings) : Provider → Provider
  | .memory t => .memory (f t)
  | .file s d => .file (s.change f) d

def ensureEntry (id : String) (n : Int32) : Provider → Provider
  | .memory t => .memory (t.ensureEntry id n).2
  | .file s d => .file (s.ensureEntry id n) d

def reload : Provider → Except Trouble Provider
  | .memory t => .ok (.memory t)
  | .file _ d => (Stored.reload d).map fun s => .file s d

end Provider

end Brokerage
