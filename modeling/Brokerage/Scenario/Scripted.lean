import Brokerage.Registry.Dispatch
import Brokerage.Scenario.Operation

namespace Brokerage.Scenario

/-- A plain handler takes every case, buys without more ado and never sells. -/
structure Scripted where
  key : String
  id : String
  provider : String
  kind : Kind
  priority : Int8
  unit : Direction → Option Amount
  handles : Direction → Condition
  feasible : Direction → Condition
  script : Direction → List Step
  plain : Bool

namespace Scripted

instance : Trades Scripted Item where
  info h := ⟨h.id, h.provider, h.kind⟩
  kindOf := Item.kind
  handles h d s o := h.plain || (h.handles d).holds s o.plain
  permits h d s o := h.plain || (h.feasible d).holds s o.plain

def bare (key id : String) : Scripted :=
  ⟨key, id, "tests", .text, 0, fun _ => none, fun _ => .always true, fun _ => .always true,
    fun _ => [], false⟩

def price (h : Scripted) (d : Direction) (volume : UInt32) : Option Amount :=
  if h.plain then none else (h.unit d).map (·.times volume)

def displayName (h : Scripted) (s : Scope) (o : Item) : String :=
  if h.plain then o.plain
  else o.plain ++ " (" ++ h.key ++ ", " ++ (if s.actor.isSome then "actor" else "system") ++ ")"

end Scripted

structure Deferred where
  label : Option String
  ops : List Operation

end Brokerage.Scenario
