import Brokerage.Notice
import Brokerage.Transaction.Terms

namespace Brokerage

structure Observer (m : Type → Type) (O : Type) where
  registered : Info → m Unit
  unregistered : Info → m Unit
  vet : Info → Terms O → m Bool
  completed : Info → Terms O → m Unit

namespace Observer

variable {m : Type → Type} [Monad m] {O : Type}

/-- Whether any observer cancels. All of them are asked, also after one has cancelled. -/
def vetAll (obs : List (Observer m O)) (i : Info) (t : Terms O) : m Bool :=
  obs.foldlM (fun cancelled o => do
    let vetoed ← o.vet i t
    pure (cancelled || vetoed)) false

def hear (n : Notice) (o : Observer m O) : m Unit :=
  match n with
  | .registered i => o.registered i
  | .unregistered i => o.unregistered i

def notifyAll (obs : List (Observer m O)) (n : Notice) : m Unit := obs.forM (hear n)

def publish (audience : m (List (Observer m O))) (ns : List Notice) : m Unit :=
  ns.forM fun n => do notifyAll (← audience) n

def completeAll (obs : List (Observer m O)) (i : Info) (t : Terms O) : m Unit :=
  obs.forM fun o => o.completed i t

end Observer

end Brokerage
