import Brokerage.Scenario.Listening
import Brokerage.Transaction.Completion

namespace Brokerage.Scenario

def probeNote (p : Probe Scripted) : List Note :=
  if p.handler.plain then [] else [.probe p.handler.key p.question p.direction p.answer]

def shown (m : Mediator Scripted Item) : Reply :=
  .mediator ⟨m.info, m.scope, m.object, m.handler.displayName m.scope m.object⟩

def find (d : Direction) (o : Item) (scope : Scope) (keep : Option String) : Play Reply := do
  let (m, probes) := (← get).registry.mediate ⟨d, scope, o⟩
  (probes.flatMap probeNote).forM note
  if let some name := keep then
    modify fun s => { s with mediators := s.mediators.alter name fun _ => m }
  pure ((m.map shown).getD .nothing)

def can (m : Mediator Scripted Item) : Play Reply := do
  let c : Case Item := ⟨m.direction, m.scope, m.object⟩
  let p := c.probe m.handler .permits
  (probeNote p).forM note
  pure (.flag p.answer)

def conclude (nested : Nested) (action : Deferred) (d : Draft Item) :
    Play (Except VolumeFault (Record Item Deferred)) := do
  let r ← d.succeed (← observers nested) action
  pure (.ok r)

def follow (nested : Nested) (h : Scripted) (q : Request Item) :
    List Step → Draft Item → Play (Except VolumeFault (Record Item Deferred))
  | [], d => conclude nested ⟨none, []⟩ d
  | step :: steps, d => do
    let go (d : Draft Item) : Play (Except VolumeFault (Record Item Deferred)) := do
      note (.drafted h.key d)
      follow nested h q steps d
    match step with
    | .volume n =>
      match d.setVolume n with
      | .error v => pure (.error v)
      | .ok d => go d
    | .requestedVolume =>
      match d.setVolume q.volume with
      | .error v => pure (.error v)
      | .ok d => go d
    | .value a => go (d.setValue a)
    | .pricedValue => go (d.setValue ((h.price q.direction q.volume).getD .zero))
    | .listing => go d.setListing
    | .startListing => go d
    | .failUnlessFeasible reason =>
      if Trades.permits h q.direction q.scope q.object then go d
      else pure (.ok (d.fail reason))
    | .success => conclude nested ⟨none, []⟩ d
    | .failure reason => pure (.ok (d.fail reason))
    | .successWith label ops => conclude nested ⟨some label, ops⟩ d

def trade (nested : Nested) (h : Scripted) (q : Request Item) :
    Play (Except VolumeFault (Record Item Deferred)) := do
  if h.plain then
    match q.direction with
    | .purchase => conclude nested ⟨none, []⟩ (.start q)
    | .sale => pure (.ok ((Draft.start q).fail ""))
  else
    let steps := h.script q.direction
    note (.asked h.key q)
    let d := match steps with
      | .startListing :: _ => Draft.startListing q
      | _ => Draft.start q
    note (.drafted h.key d)
    follow nested h q steps d

def transact (nested : Nested) (m : Mediator Scripted Item) (volume : UInt32) (listing : Bool)
    (keep : Option String) : Play Reply := do
  match m.request volume listing with
  | .error v => pure (.refused v)
  | .ok q =>
    match ← trade nested m.handler q with
    | .error v => pure (.refused v)
    | .ok r =>
      if let some name := keep then
        modify fun s => { s with records := s.records.insert name r }
      pure (.record r)

def effect (nested : Nested) (name : String) (r : Record Item Deferred) :
    Effect Deferred → Play Unit :=
  r.enact
    (modify fun s => { s with records := s.records.insert name { r with stage := .settled } })
    (fun action => do
      if let some label := action.label then note (.action label)
      nested action.ops)
    (observers nested)

def complete (nested : Nested) (name : String) (r : Record Item Deferred) : Play Bool :=
  r.complete (effect nested name r)

end Brokerage.Scenario
