import Brokerage.Registry.Basic
import Brokerage.Text.Plain

namespace Brokerage

open Text

structure Ranked where
  info : Info
  priority : Int32
  deriving DecidableEq

def Ranked.outline (r : Ranked) : Outline :=
  .record "RankedHandler" [("info", r.info.outline),
    ("priority", .leaf (intText r.priority.toInt))] false

namespace Registry

variable {H : Type} [Handler H]

def isRegistered (r : Registry H) (id : String) : Bool := r.roster.active.contains id

def info? (r : Registry H) (id : String) : Option Info := (r.roster.active[id]?).map Entry.info

def infos (r : Registry H) : List Info := r.roster.active.values.map Entry.info

def kinds (r : Registry H) : List Kind := r.roster.index.keys

def ranking (r : Registry H) (k : Kind) : List Ranked :=
  (r.roster.index.ranking k).values.map fun e => ⟨e.info, e.priority⟩

def size (r : Registry H) : Nat := r.roster.active.size

end Registry

end Brokerage
