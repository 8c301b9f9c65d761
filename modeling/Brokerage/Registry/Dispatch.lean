import Brokerage.Registry.Basic

/-!
Finding the handler of a case: the first of its kind that claims it. A generous handler is passed
over when it could not carry the transaction out, without being asked whether it claims the case.
-/

namespace Brokerage

inductive Question where
  | handles
  | permits
  deriving DecidableEq

structure Probe (H : Type) where
  handler : H
  direction : Direction
  question : Question
  answer : Bool
  deriving DecidableEq

structure Case (O : Type) where
  direction : Direction
  scope : Scope
  object : O

section

variable {H O : Type} [Trades H O]

def Case.ask (c : Case O) (h : H) : Question → Bool
  | .handles => Trades.handles h c.direction c.scope c.object
  | .permits => Trades.permits h c.direction c.scope c.object

def Case.probe (c : Case O) (h : H) (q : Question) : Probe H := ⟨h, c.direction, q, c.ask h q⟩

def Case.fits (c : Case O) (e : Entry H) : Bool := e.kind = Trades.kindOf H c.object

def Case.select (c : Case O) (generous : String → Bool) :
    List (Entry H) → Option (Entry H) × List (Probe H)
  | [] => (none, [])
  | e :: es =>
    if ! c.fits e then c.select generous es
    else
      let first := if generous e.id then [c.probe e.handler .permits] else []
      if generous e.id && ! c.ask e.handler .permits then
        let (found, probes) := c.select generous es
        (found, first ++ probes)
      else if c.ask e.handler .handles then (some e, first ++ [c.probe e.handler .handles])
      else
        let (found, probes) := c.select generous es
        (found, first ++ c.probe e.handler .handles :: probes)

def Registry.dispatch (r : Registry H) (c : Case O) : Option (Entry H) × List (Probe H) :=
  c.select r.provider.table.isGenerous (r.roster.index.ranking (Trades.kindOf H c.object)).values

end

end Brokerage
