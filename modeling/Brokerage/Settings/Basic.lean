import Brokerage.Text.Blank
import Std.Data.ExtTreeMap
import Std.Data.ExtTreeSet

/-!
What an operator has settled about handlers: which priority each has, which are disabled, and which
are generous, that is, give way when they could not carry a transaction out.
-/

namespace Brokerage

open Std Text

inductive Standing where
  | ranked (priority : Int32)
  | disabled
  deriving DecidableEq

structure Settings where
  standings : ExtTreeMap String Standing
  generous : ExtTreeSet String
  deriving DecidableEq

namespace Settings

def empty : Settings := ⟨∅, ∅⟩

def standard : Settings where
  standings := .ofList ([("autoeconomy", 200), ("guishop", 100), ("economy++", 50),
    ("FactionsShop", 25), ("totaleconomy", 10), ("conjurate-shop", 5)].map
      fun e => (e.1, Standing.ranked e.2))
  generous := ∅

def sanitize (t : Settings) : Settings :=
  { t with standings := t.standings.filter fun id _ => isWord id }

def configured (t : Settings) (id : String) : Option Int32 :=
  match t.standings[id]? with
  | some (.ranked n) => some n
  | _ => none

def priority (t : Settings) (id : String) (declared : Int8) : Int32 :=
  (t.configured id).getD declared.toInt32

def isDisabled (t : Settings) (id : String) : Bool := t.standings[id]? = some .disabled

def isGenerous (t : Settings) (id : String) : Bool := t.generous.contains id

def setPriority (id : String) (n : Int32) (t : Settings) : Settings :=
  { t with standings := t.standings.insert id (.ranked n) }

/-- Disabling replaces a priority. Enabling leaves no standing, and changes nothing for an id that
is not disabled. -/
def setDisabled (id : String) (on : Bool) (t : Settings) : Settings :=
  if on then { t with standings := t.standings.insert id .disabled }
  else if t.isDisabled id then { t with standings := t.standings.erase id }
  else t

def setGenerous (id : String) (on : Bool) (t : Settings) : Settings :=
  { t with generous := if on then t.generous.insert id else t.generous.erase id }

def clearPriority (id : String) (t : Settings) : Bool × Settings :=
  (t.standings.contains id, { t with standings := t.standings.erase id })

def ensureEntry (id : String) (n : Int32) (t : Settings) : Bool × Settings :=
  if t.standings.contains id then (false, t) else (true, t.setPriority id n)

end Settings

end Brokerage
