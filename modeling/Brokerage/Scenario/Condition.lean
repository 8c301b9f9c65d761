import Brokerage.Item
import Brokerage.Transaction.Terms
import Brokerage.Handler

namespace Brokerage.Scenario

open Text

/-- `among`: the text is one of these. `digits`: whether it consists of digits. `multiple`: it is a
number of 64 bits and a multiple of `n`. -/
inductive Condition where
  | always (b : Bool)
  | among (texts : List String)
  | startsWith (s : String)
  | digits (b : Bool)
  | multiple (n : Nat)
  | atMost (length : Nat)
  | actor (b : Bool)
  | context (b : Bool)
  | non (c : Condition)
  | all (cs : List Condition)
  | any (cs : List Condition)

def allDigits (s : String) : Bool :=
  let (ds, rest) := takeDigits s.toList
  ! ds.isEmpty && rest.isEmpty

def isMultiple (n : Nat) (s : String) : Bool :=
  let value := decimal (takeDigits s.toList).1
  allDigits s && value < UInt64.size && n ≠ 0 && value % n = 0

namespace Condition

mutual

def holds (scope : Scope) (text : String) : Condition → Bool
  | .always b => b
  | .among texts => texts.contains text
  | .startsWith s => s.toList.isPrefixOf text.toList
  | .digits b => allDigits text = b
  | .multiple n => isMultiple n text
  | .atMost length => text.length ≤ length
  | .actor b => scope.actor.isSome = b
  | .context b => scope.context.isSome = b
  | .non c => ! c.holds scope text
  | .all cs => allHold scope text cs
  | .any cs => anyHolds scope text cs

def allHold (scope : Scope) (text : String) : List Condition → Bool
  | [] => true
  | c :: cs => c.holds scope text && allHold scope text cs

def anyHolds (scope : Scope) (text : String) : List Condition → Bool
  | [] => false
  | c :: cs => c.holds scope text || anyHolds scope text cs

end

end Condition

inductive Rule where
  | always (b : Bool)
  | side (d : Direction)
  | volumeAtLeast (n : Nat)
  | value (text : String)
  | listing (b : Bool)
  | handler (id : String)
  | object (f : Option Item.Form)
  | actor (b : Bool)
  | context (b : Bool)
  | non (r : Rule)
  | all (rs : List Rule)
  | any (rs : List Rule)

namespace Rule

mutual

def holds (i : Info) (t : Terms Item) : Rule → Bool
  | .always b => b
  | .side d => t.direction = d
  | .volumeAtLeast n => n ≤ t.volume.toNat
  | .value text => t.value.text = text
  | .listing b => t.listing = b
  | .handler id => i.id = id
  | .object f => some t.object.form = f
  | .actor b => t.scope.actor.isSome = b
  | .context b => t.scope.context.isSome = b
  | .non r => ! r.holds i t
  | .all rs => allHold i t rs
  | .any rs => anyHolds i t rs

def allHold (i : Info) (t : Terms Item) : List Rule → Bool
  | [] => true
  | r :: rs => r.holds i t && allHold i t rs

def anyHolds (i : Info) (t : Terms Item) : List Rule → Bool
  | [] => false
  | r :: rs => r.holds i t || anyHolds i t rs

end

end Rule

end Brokerage.Scenario
