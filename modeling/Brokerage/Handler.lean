import Brokerage.Direction
import Brokerage.Kind
import Brokerage.Scope

namespace Brokerage

open Text

structure Info where
  id : String
  provider : String
  kind : Kind
  deriving DecidableEq

def Info.outline (i : Info) : Outline :=
  .record "HandlerInfo" [("id", .leaf (quoted i.id)), ("provider", .leaf (quoted i.provider)),
    ("object_type", i.kind.outline)] false

class Handler (H : Type) where
  info : H → Info

class Trades (H O : Type) extends Handler H where
  kindOf : O → Kind
  handles : H → Direction → Scope → O → Bool
  permits : H → Direction → Scope → O → Bool

end Brokerage
