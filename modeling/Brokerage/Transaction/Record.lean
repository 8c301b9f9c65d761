import Brokerage.Handler
import Brokerage.Transaction.Terms

namespace Brokerage

open Text

/-- `ready`: the action is still in the record. `settled`: it was taken out. -/
inductive Stage (A : Type) where
  | failed (reason : String)
  | ready (action : A)
  | settled
  deriving DecidableEq

structure Record (O A : Type) where
  info : Info
  terms : Terms O
  stage : Stage A
  deriving DecidableEq

namespace Record

variable {O A : Type}

def failure? (r : Record O A) : Option String :=
  match r.stage with
  | .failed reason => some reason
  | _ => none

def isSuccess (r : Record O A) : Bool := r.failure?.isNone

def isCompleted (r : Record O A) : Bool :=
  match r.stage with
  | .settled => true
  | _ => false

def outline (object : O → Outline) (r : Record O A) : Outline :=
  .record "TransactionRecord" [("handler", .leaf (quoted r.info.id)),
    ("object", object r.terms.object), ("scope", r.terms.scope.outline),
    ("volume", .leaf (natText r.terms.volume.toNat)), ("value", .leaf r.terms.value.text),
    ("listing", .leaf (boolText r.terms.listing)),
    ("failure", Outline.maybe (fun s => .leaf (quoted s)) r.failure?)] true

end Record

end Brokerage
