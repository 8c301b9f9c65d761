import Brokerage.Transaction.Observer
import Brokerage.Transaction.Record

/-!
Completing a transaction, step by step. A call looks at the record first, then takes the action out
of it, and only the call that holds the action performs and announces it.
-/

namespace Brokerage

inductive Call (A : Type) where
  | begun
  | unfailed
  | holding (action : A)
  | performed
  | done (completed : Bool)
  deriving DecidableEq

/-- What a step does outside of the call. `settle` leaves the record without its action. -/
inductive Effect (A : Type) where
  | settle
  | perform (action : A)
  | announce
  deriving DecidableEq

namespace Call

variable {A : Type}

def step : Call A → Stage A → Call A × Option (Effect A)
  | .begun, .failed _ => (.done false, none)
  | .begun, _ => (.unfailed, none)
  | .unfailed, .ready action => (.holding action, some .settle)
  | .unfailed, _ => (.done false, none)
  | .holding action, _ => (.performed, some (.perform action))
  | .performed, _ => (.done true, some .announce)
  | .done completed, _ => (.done completed, none)

/-- The steps of a call without another one between them. A call that has taken the action no longer
looks at the record. -/
def finish {m : Type → Type} [Monad m] (act : Effect A → m Unit) (stage : Stage A) :
    Nat → Call A → m Bool
  | _, .done completed => pure completed
  | 0, _ => pure false
  | n + 1, c => do
    let (next, effect) := c.step stage
    effect.forM act
    finish act stage n next

def mostSteps : Nat := 4

end Call

def Record.enact {O A : Type} {m : Type → Type} [Monad m] (settle : m Unit) (perform : A → m Unit)
    (audience : m (List (Observer m O))) (r : Record O A) : Effect A → m Unit
  | .settle => settle
  | .perform action => perform action
  | .announce => do Observer.completeAll (← audience) r.info r.terms

def Record.complete {O A : Type} {m : Type → Type} [Monad m] (act : Effect A → m Unit)
    (r : Record O A) : m Bool :=
  Call.finish act r.stage Call.mostSteps .begun

end Brokerage
