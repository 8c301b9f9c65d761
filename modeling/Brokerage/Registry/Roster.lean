import Brokerage.Notice
import Brokerage.Registry.Index

namespace Brokerage

open Std

/-- `known` keeps the handlers that are disabled as well, so that they can come back. -/
structure Roster (H : Type) where
  active : ExtTreeMap String (Entry H)
  index : Index H
  known : ExtTreeMap String H

namespace Roster

variable {H : Type} [Handler H]

def empty : Roster H := ⟨∅, ∅, ∅⟩

def learn (h : H) (r : Roster H) : Roster H :=
  { r with known := r.known.insert (Handler.info h).id h }

def forget (id : String) (r : Roster H) : Roster H := { r with known := r.known.erase id }

def retire (id : String) (r : Roster H) : List Notice × Roster H :=
  match r.active[id]? with
  | none => ([], r)
  | some e =>
    let (removed, index) := r.index.remove e
    (if removed then [.unregistered e.info] else [],
      { r with active := r.active.erase id, index })

def enlist (e : Entry H) (r : Roster H) : Roster H :=
  { r with active := r.active.insert e.id e, index := (r.index.add e).2 }

end Roster

end Brokerage
