import Brokerage.Registry.Views
import Brokerage.Scenario.Scripted
import Brokerage.Transaction.Mediator

namespace Brokerage.Scenario

open Std

structure Shown where
  info : Info
  scope : Scope
  object : Item
  displayName : String

inductive Reply where
  | nothing
  | ok
  | flag (b : Bool)
  | count (n : Nat)
  | text (s : String)
  | rejected (r : Rejection)
  | trouble (t : Trouble)
  | locked
  | tooDeep
  | noMediator
  | notASale
  | memoryOnly
  | fileOnly
  | refused (v : VolumeFault)
  | info (i : Info) (outline : String)
  | infos (is : List Info)
  | kinds (ks : List Kind)
  | size (n : Nat) (isEmpty : Bool)
  | ranking (rs : List (Ranked × String))
  | mediator (m : Shown)
  | amount (a : Amount)
  | record (r : Record Item Deferred)
  | outlines (record pretty view : String)
  | query (priority : Int32) (disabled generous : Bool)

inductive Note where
  | probe (key : String) (question : Question) (d : Direction) (answer : Bool)
  | asked (key : String) (q : Request Item)
  | drafted (key : String) (d : Draft Item)
  | action (label : String)
  | heard (name : String) (e : Event) (i : Info)
  | vetted (name : String) (i : Info) (t : Terms Item) (cancel : Bool)
  | completed (name : String) (i : Info) (t : Terms Item)
  | nested (name : String) (r : Reply)

structure Armed where
  event : Event
  ops : List Operation
  left : Nat

structure Listener where
  name : String
  cancel : Rule
  reactions : List Armed
  silent : Bool

structure Session where
  registry : Registry Scripted
  listeners : List Listener
  handlers : ExtTreeMap String Scripted
  declared : ExtTreeMap String Int8
  mediators : ExtTreeMap String (Mediator Scripted Item)
  records : ExtTreeMap String (Record Item Deferred)
  locked : Bool
  notes : List Note

abbrev Play := StateM Session

namespace Session

def start (p : Provider) (handlers : List (String × Scripted)) : Session :=
  ⟨.start p, [], .ofList handlers, ∅, ∅, ∅, false, []⟩

def declares (s : Session) (h : Scripted) : Int8 :=
  if h.plain then 0 else (s.declared[h.key]?).getD h.priority

def board (s : Session) : List (Kind × List Ranked) :=
  s.registry.kinds.map fun k => (k, s.registry.ranking k)

end Session

def note (n : Note) : Play Unit := modify fun s => { s with notes := n :: s.notes }

end Brokerage.Scenario
