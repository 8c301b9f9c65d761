import Brokerage.Settings.Basic

namespace Brokerage

open Std

structure Row where
  id : String
  priority : Option Int32
  disabled : Bool
  generous : Bool
  deriving DecidableEq

namespace Row

def order (a b : Row) : Ordering :=
  match a.priority, b.priority with
  | some x, some y => (compare y x).then (compare a.id b.id)
  | some _, none => .lt
  | none, some _ => .gt
  | none, none => compare a.id b.id

end Row

namespace Settings

def ids (t : Settings) : ExtTreeSet String := t.generous.insertMany t.standings.keys

def row (t : Settings) (id : String) : Row :=
  ⟨id, t.configured id, t.isDisabled id, t.isGenerous id⟩

def rows (t : Settings) : List Row :=
  (t.ids.toList.map t.row).mergeSort fun a b => (a.order b).isLE

end Settings

end Brokerage
