import Brokerage.Text.Outline
import Brokerage.Uuid

namespace Brokerage

open Text

structure Scope where
  actor : Option Uuid
  context : Option Uuid
  deriving DecidableEq

namespace Scope

def system : Scope := ⟨none, none⟩

def isSystem (s : Scope) : Bool := s = system

def withActor (s : Scope) (u : Uuid) : Scope := { s with actor := some u }

def withContext (s : Scope) (u : Uuid) : Scope := { s with context := some u }

def outline (s : Scope) : Outline :=
  let part := Outline.maybe fun u : Uuid => .leaf u.text
  .record "Scope" [("actor", part s.actor), ("context", part s.context)] false

end Scope

end Brokerage
