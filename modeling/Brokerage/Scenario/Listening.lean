import Brokerage.Scenario.Session

namespace Brokerage.Scenario

abbrev Nested := List Operation → Play Unit

def fire (i j : Nat) (e : Event) : Play (List Operation) := do
  match (← get).listeners[i]? with
  | none => pure []
  | some l =>
    match l.reactions[j]? with
    | none => pure []
    | some a =>
      if a.event = e ∧ 0 < a.left then
        let spent := { l with reactions := l.reactions.set j { a with left := a.left - 1 } }
        modify fun s => { s with listeners := s.listeners.set i spent }
        pure a.ops
      else pure []

def hear (nested : Nested) (i : Nat) (e : Event) (verdict : Rule → Bool)
    (text : String → Bool → Note) : Play Bool := do
  match (← get).listeners[i]? with
  | none => pure false
  | some l =>
    if l.silent then pure false
    else
      let cancel := verdict l.cancel
      note (text l.name cancel)
      (List.range l.reactions.length).forM fun j => do nested (← fire i j e)
      pure cancel

def observer (nested : Nested) (i : Nat) : Observer Play Item where
  registered info := do
    let _ ← hear nested i .registered (fun _ => false) fun name _ => .heard name .registered info
  unregistered info := do
    let _ ← hear nested i .unregistered (fun _ => false) fun name _ =>
      .heard name .unregistered info
  vet info terms :=
    hear nested i (.vetting terms.direction) (·.holds info terms) fun name cancel =>
      .vetted name info terms cancel
  completed info terms := do
    let _ ← hear nested i (.completed terms.direction) (fun _ => false) fun name _ =>
      .completed name info terms

def observers (nested : Nested) : Play (List (Observer Play Item)) := do
  pure ((List.range (← get).listeners.length).map (observer nested))

def publish (nested : Nested) (notices : List Notice) : Play Unit := do
  modify fun s => { s with locked := true }
  Observer.publish (observers nested) notices
  modify fun s => { s with locked := false }

def govern {α : Type} (nested : Nested) (f : Session → Outcome Scripted α) : Play α := do
  let o := f (← get)
  modify fun s => { s with registry := o.registry }
  publish nested o.notices
  pure o.answer

end Brokerage.Scenario
