import Brokerage.Settings.Disk
import Brokerage.Settings.Reader
import Brokerage.Settings.Written

/-!
Settings kept in a file. All questions are answered from memory; a change reaches the file only when
it is saved, and reloading drops what was not.
-/

namespace Brokerage

structure Stored where
  table : Settings
  dirty : Bool
  deriving DecidableEq

namespace Stored

def read (d : Disk) : Except Trouble Settings :=
  match d.readText with
  | .error r => .error (.refused r)
  | .ok s =>
    match Settings.read? s with
    | .error f => .error (.unreadable f)
    | .ok t => .ok t.sanitize

def saveBy (w : Writing) (s : Stored) (d : Disk) : Except Trouble Stored × Disk :=
  match d.write w s.table.pretty with
  | (.error r, d) => (.error (.refused r), d)
  | (.ok _, d) => (.ok { s with dirty := false }, d)

def reload (d : Disk) : Except Trouble Stored :=
  (read d).map fun t => ⟨t, false⟩

def openBy (w : Writing) (d : Disk) : Except Trouble Stored × Disk :=
  match d with
  | .absent | .blocked => saveBy w ⟨.standard, false⟩ d
  | _ => (reload d, d)

def done : Except Trouble Stored × Disk → Except Trouble (Stored × Disk)
  | (.error t, _) => .error t
  | (.ok s, d) => .ok (s, d)

def save (s : Stored) (d : Disk) : Except Trouble (Stored × Disk) := done (s.saveBy .whole d)

def openAt (d : Disk) : Except Trouble (Stored × Disk) := done (openBy .whole d)

def change (f : Settings → Settings) (s : Stored) : Stored := ⟨f s.table, true⟩

def ensureEntry (id : String) (n : Int32) (s : Stored) : Stored :=
  let (added, t) := s.table.ensureEntry id n
  ⟨t, s.dirty || added⟩

end Stored

end Brokerage
