import Brokerage.Amount
import Brokerage.Direction
import Brokerage.Scope
import Brokerage.Text.Plain

namespace Brokerage

open Text

structure Terms (O : Type) where
  direction : Direction
  object : O
  scope : Scope
  volume : UInt32
  value : Amount
  listing : Bool
  deriving DecidableEq

namespace Terms

variable {O : Type}

def outline (t : Terms O) : Outline :=
  .record "TransactionView" [("direction", .leaf t.direction.title), ("scope", t.scope.outline),
    ("volume", .leaf (natText t.volume.toNat)), ("value", .leaf t.value.text),
    ("listing", .leaf (boolText t.listing))] true

end Terms

end Brokerage
