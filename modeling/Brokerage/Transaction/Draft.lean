import Brokerage.Transaction.Observer
import Brokerage.Transaction.Record

namespace Brokerage

structure Request (O : Type) where
  info : Info
  direction : Direction
  scope : Scope
  object : O
  volume : UInt32
  listing : Bool
  deriving DecidableEq

inductive VolumeFault where
  | zero
  deriving DecidableEq

def VolumeFault.message : VolumeFault → String
  | .zero => "transaction volume must be positive"

structure Draft (O : Type) where
  info : Info
  direction : Direction
  object : O
  scope : Scope
  volume : UInt32
  amount : Amount
  listing : Bool
  deriving DecidableEq

namespace Draft

variable {O A : Type}

def start (q : Request O) : Draft O :=
  ⟨q.info, q.direction, q.object, q.scope, 1, .zero, q.listing⟩

/-- Only a sale can be a listing, and there is no way back. -/
def setListing (d : Draft O) : Draft O := { d with listing := d.direction = .sale }

def startListing (q : Request O) : Draft O := (start q).setListing

def value (d : Draft O) : Amount := if d.listing then .zero else d.amount

def setVolume (n : UInt32) (d : Draft O) : Except VolumeFault (Draft O) :=
  if n = 0 then .error .zero else .ok { d with volume := n }

def setValue (a : Amount) (d : Draft O) : Draft O := { d with amount := a.abs }

def terms (d : Draft O) : Terms O :=
  ⟨d.direction, d.object, d.scope, d.volume, d.value, d.listing⟩

def fail (reason : String) (d : Draft O) : Record O A :=
  ⟨d.info, d.terms, .failed (if reason.isEmpty then d.direction.failureReason else reason)⟩

def conclude (cancelled : Bool) (action : A) (d : Draft O) : Record O A :=
  ⟨d.info, d.terms, if cancelled then .failed d.direction.cancelReason else .ready action⟩

def succeed {m : Type → Type} [Monad m] (obs : List (Observer m O)) (action : A) (d : Draft O) :
    m (Record O A) := do
  let cancelled ← Observer.vetAll obs d.info d.terms
  pure (d.conclude cancelled action)

end Draft

end Brokerage
