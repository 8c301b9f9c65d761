import Brokerage.Json.Place
import Brokerage.Json.Tokens
import Brokerage.Settings.Basic
import Brokerage.Settings.Fault

/-!
Reading settings token by token, so that the first fault of the text is the one reported. Fields of
other names are passed over; all else is held to what it should say as soon as that can be told.
-/

namespace Brokerage

open Std Json Text

def Standing.ofTokens? : List Token → Option Standing
  | [.number n] => do
    let i ← n.int?
    if Int32.minValue.toInt ≤ i ∧ i ≤ Int32.maxValue.toInt then some (.ranked (Int32.ofInt i)) else none
  | [.string (some s)] => if s = "disabled" then some .disabled else none
  | [.opening .curly, .string (some s), .colon, .null, .closing .curly] =>
    if s = "disabled" then some .disabled else none
  | _ => none

namespace Settings

/-- `field` is the outer field at hand, `id` the standing at hand and `said` the tokens of it. A
field that was not met yet is `none`. -/
structure Reading where
  place : Place
  field : Field
  id : String
  said : List Token
  standings : Option (ExtTreeMap String Standing)
  generous : Option (ExtTreeSet String)
  deriving DecidableEq

namespace Reading

def start : Reading := ⟨.start, .other, "", [], none, none⟩

def passes (r : Reading) : Bool :=
  r.field = .other && match r.place.opened with
    | [] => false
    | [.curly] => r.place.due = .value
    | [.square] => false
    | _ => true

/-- The most brackets that may be open in what is not passed over. -/
def deepest : Nat := 127

def advance (r : Reading) (t : Token) : Except Fault Place :=
  match r.place.step t with
  | none => .error (.lapse .malformed)
  | some p =>
    if r.passes then .ok p
    else if ! t.sound || deepest < p.opened.length then .error (.lapse .malformed)
    else .ok p

def name (r : Reading) (s : String) : Except Fault Reading :=
  let f := Field.ofName s
  if (f = .priorities ∧ r.standings.isSome) ∨ (f = .generous ∧ r.generous.isSome) then
    .error (.misfit (.repeated f))
  else .ok { r with field := f }

def enter (r : Reading) (f : Field) (t : Token) : Except Fault Reading :=
  match f, t with
  | .priorities, .opening .curly => .ok { r with field := f, standings := some ∅ }
  | .priorities, _ => .error (.misfit (.unexpected t .standings))
  | .generous, .string (some s) =>
    .ok { r with field := f, generous := some (.ofList (words s)) }
  | .generous, _ => .error (.misfit (.unexpected t .words))
  | .other, _ => .ok { r with field := f }

def nextField (r : Reading) : Field :=
  if r.standings.isNone then .priorities
  else if r.generous.isNone then .generous
  else .other

def settle (r : Reading) : Except Fault Reading :=
  match Standing.ofTokens? r.said with
  | none => .error (.misfit .standing)
  | some s =>
    .ok { r with standings := r.standings.map (·.insert r.id s), said := [] }

def inside (r : Reading) (t : Token) (after : Place) : Except Fault Reading :=
  if r.field ≠ .priorities then .ok r
  else if r.place.opened.length = 2 ∧ r.place.due ≠ .value then
    match t with
    | .string (some s) => .ok { r with id := s }
    | _ => .ok r
  else
    let r := { r with said := r.said ++ [t] }
    if after.opened.length = 2 then r.settle else .ok r

def outside (r : Reading) (b : Bracket) (t : Token) : Except Fault Reading :=
  match b, r.place.due, t with
  | .curly, .key, .string (some s) => r.name s
  | .curly, .member, .string (some s) => r.name s
  | .curly, .value, t => r.enter r.field t
  | .square, .item, .closing _ => .ok r
  | .square, .item, t => r.enter r.nextField t
  | .square, .value, t => r.enter r.nextField t
  | .square, .separator, .comma =>
    if r.generous.isSome then .error (.lapse .malformed) else .ok r
  | _, _, _ => .ok r

def mean (r : Reading) (t : Token) (after : Place) : Except Fault Reading :=
  match r.place.opened, t with
  | [], .opening _ => .ok r
  | [], t => .error (.misfit (.unexpected t .settings))
  | [b], t => r.outside b t
  | _, t => r.inside t after

def step (r : Reading) (t : Token) : Except Fault Reading := do
  let after ← r.advance t
  let r ← r.mean t after
  .ok { r with place := after }

def finish (r : Reading) : Ending → Except Fault Settings
  | .clean =>
    if r.place = .finish then .ok ⟨r.standings.getD ∅, r.generous.getD ∅⟩
    else .error (.lapse .early)
  | .broken inString read passed =>
    let lapse := if r.passes then passed else read
    match r.place.due with
    | .value | .item => .error (.lapse lapse)
    | .key | .member => .error (.lapse (if inString then lapse else .malformed))
    | .colon | .separator => .error (.lapse .malformed)

end Reading

def ofTokens? (ts : List Token × Ending) : Except Fault Settings := do
  let r ← ts.1.foldlM Reading.step Reading.start
  r.finish ts.2

def read? (s : String) : Except Fault Settings := ofTokens? (tokens s.toList)

end Settings

end Brokerage
