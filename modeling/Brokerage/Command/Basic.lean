import Brokerage.Report
import Brokerage.Settings.Stored

namespace Brokerage

open Text

inductive Command where
  | init
  | list
  | rank (id : String) (priority : Int32)
  | disable (id : String)
  | enable (id : String)
  | generous (ids : List String) (on : Bool)
  deriving DecidableEq

namespace Command

def ids : Command → List String
  | .init | .list => []
  | .rank id _ | .disable id | .enable id => [id]
  | .generous ids _ => ids

def edit? : Command → Option (Settings → Settings)
  | .init | .list => none
  | .rank id n => some (·.setPriority id n)
  | .disable id => some (·.setDisabled id true)
  | .enable id => some (·.setDisabled id false)
  | .generous ids on => some fun t => ids.foldl (fun t id => t.setGenerous id on) t

/-- Why a command failed. `unprinted`: of what was to be printed, only `taken` was. -/
inductive Failure where
  | trouble (t : Trouble)
  | badId (id : String)
  | unprinted (d : Report.Delivery) (taken : List UInt8)
  deriving DecidableEq

abbrev Result := Except Failure String

/-- What a run meets: a write of missing settings, a write of changed ones, and the room there is for
what is printed. -/
structure Host where
  opening : Writing
  saving : Writing
  room : Option Nat

namespace Host

def willing : Host := ⟨.whole, .whole, none⟩

def Clean (h : Host) : Prop := h.opening.Clean ∧ h.saving.Clean

end Host

def print (room : Option Nat) (rows : List Row) : Result :=
  match (Report.Writer.start room).write rows with
  | (.complete, _) => .ok (Report.text rows)
  | (d, w) => .error (.unprinted d w.sink.taken)

def finish (h : Host) (c : Command) (s : Stored) (d : Disk) : Result × Disk :=
  match c.edit? with
  | none => (match c with | .list => print h.room s.table.rows | _ => .ok "", d)
  | some f =>
    match c.ids.find? (! isWord ·) with
    | some id => (.error (.badId id), d)
    | none =>
      match (s.change f).saveBy h.saving d with
      | (.error t, d) => (.error (.trouble t), d)
      | (.ok _, d) => (.ok "", d)

/-- Opens the settings, making them if they are missing, and only then looks at the ids. Settings
that are changed are saved once, after all ids were found good. -/
def run (h : Host) (c : Command) (d : Disk) : Result × Disk :=
  match Stored.openBy h.opening d with
  | (.error t, d) => (.error (.trouble t), d)
  | (.ok s, d) => c.finish h s d

end Command

end Brokerage
