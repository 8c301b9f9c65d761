import Brokerage.Registry.Dispatch
import Brokerage.Transaction.Draft

namespace Brokerage

structure Mediator (H O : Type) where
  handler : H
  info : Info
  direction : Direction
  scope : Scope
  object : O

namespace Mediator

variable {H O : Type}

def ofEntry [Handler H] (c : Case O) (e : Entry H) : Mediator H O :=
  ⟨e.handler, e.info, c.direction, c.scope, c.object⟩

def request (m : Mediator H O) (volume : UInt32) (listing : Bool) :
    Except VolumeFault (Request O) :=
  if volume = 0 then .error .zero
  else .ok ⟨m.info, m.direction, m.scope, m.object, volume, listing && m.direction = .sale⟩

end Mediator

def Registry.mediate {H O : Type} [Trades H O] (r : Registry H) (c : Case O) :
    Option (Mediator H O) × List (Probe H) :=
  let (found, probes) := r.dispatch c
  (found.map (Mediator.ofEntry c), probes)

end Brokerage
