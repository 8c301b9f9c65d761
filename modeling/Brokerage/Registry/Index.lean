import Brokerage.Registry.Rank

namespace Brokerage

open Std

abbrev Ranking (H : Type) := ExtTreeMap Rank (Entry H)

namespace Ranking

variable {H : Type} [Handler H]

def holds (g : Ranking H) (id : String) : Bool := g.values.any (·.id = id)

def add (e : Entry H) (g : Ranking H) : Bool × Ranking H :=
  if g.holds e.id then (false, g) else (true, g.insert e.rank e)

/-- Looks under the rank of the entry first, and for its id under any rank if it is not there. -/
def remove (e : Entry H) (g : Ranking H) : Bool × Ranking H :=
  if g.contains e.rank then (true, g.erase e.rank)
  else
    let rest := g.filter fun _ x => x.id ≠ e.id
    (rest.size ≠ g.size, rest)

end Ranking

abbrev Index (H : Type) := ExtTreeMap Kind (Ranking H)

namespace Index

variable {H : Type} [Handler H]

def ranking (ix : Index H) (k : Kind) : Ranking H := ix.getD k ∅

def holds (ix : Index H) (e : Entry H) : Bool := (ix.ranking e.kind).holds e.id

def add (e : Entry H) (ix : Index H) : Bool × Index H :=
  let (added, g) := (ix.ranking e.kind).add e
  (added, ix.insert e.kind g)

def remove (e : Entry H) (ix : Index H) : Bool × Index H :=
  match ix[e.kind]? with
  | none => (false, ix)
  | some g =>
    let (removed, g) := g.remove e
    (removed, if g.isEmpty then ix.erase e.kind else ix.insert e.kind g)

end Index

end Brokerage
