import Brokerage.Scenario.Trade
import Brokerage.Text.Octets

namespace Brokerage.Scenario

open Text

def configure (f : Settings → Settings) : Play Reply := do
  modify fun s => { s with registry := s.registry.configure f }
  pure .nothing

def setProvider (p : Provider) : Play Unit :=
  modify fun s => { s with registry := { s.registry with provider := p } }

def onFile (f : Stored → Disk → Play Reply) : Play Reply := do
  match (← get).registry.provider with
  | .memory _ => pure .fileOnly
  | .file stored disk => f stored disk

def withHandler (key : String) (f : Scripted → Play Reply) : Play Reply := do
  match (← get).handlers[key]? with
  | none => pure .nothing
  | some h => f h

def withMediator (name : String) (missing : Reply) (f : Mediator Scripted Item → Play Reply) :
    Play Reply := do
  match (← get).mediators[name]? with
  | none => pure missing
  | some m => f m

def withRecord (name : String) (f : Record Item Deferred → Play Reply) : Play Reply := do
  match (← get).records[name]? with
  | none => pure .nothing
  | some r => f r

def lastNamed (name : String) (ls : List Listener) : Option Nat :=
  (List.range ls.length).reverse.find? fun i =>
    (ls[i]?).any fun l => l.name = name && ! l.silent

def settled : Except Trouble Unit → Reply
  | .ok () => .ok
  | .error t => .trouble t

def administer (nested : Nested) : Operation → Play Reply
  | .register key => withHandler key fun h => do
    match ← govern nested fun s => s.registry.register s.declares h with
    | .ok () => pure .ok
    | .error r => pure (.rejected r)
  | .unregister id => do pure (.flag (← govern nested fun s => s.registry.unregister id))
  | .unregisterHandler key => withHandler key fun h => do
    pure (.flag (← govern nested fun s => s.registry.unregister h.id))
  | .isRegistered id => do pure (.flag ((← get).registry.isRegistered id))
  | .isHandlerRegistered key => withHandler key fun h => do
    pure (.flag ((← get).registry.isRegistered h.id))
  | .unregisterAll => do
    modify fun s => { s with registry := s.registry.clear }
    pure .nothing
  | .reload => do pure (settled (← govern nested fun s => s.registry.reload s.declares))
  | .declare key n => do
    modify fun s => { s with declared := s.declared.insert key n }
    pure .nothing
  | .info id => do
    pure ((((← get).registry.info? id).map fun i => .info i i.outline.inline).getD .nothing)
  | .handlers => do pure (.infos (← get).registry.infos)
  | .types => do pure (.kinds (← get).registry.kinds)
  | .size => do
    let n := (← get).registry.size
    pure (.size n (n = 0))
  | .ranking k => do
    pure (.ranking (((← get).registry.ranking k).map fun r => (r, r.outline.inline)))
  | .subscribe name cancel reactions silent => do
    let armed := reactions.map fun | .on event ops times => (⟨event, ops, times⟩ : Armed)
    modify fun s => { s with listeners := s.listeners ++ [⟨name, cancel, armed, silent⟩] }
    pure (.count (← get).listeners.length)
  | .subscriberCount => do pure (.count (← get).listeners.length)
  | .setCancel name cancel => do
    modify fun s => match lastNamed name s.listeners with
      | none => s
      | some i => { s with listeners := s.listeners.modify i fun l => { l with cancel } }
    pure .nothing
  | .dispatch d item scope keep => find d item scope keep
  | .mediator name => withMediator name .nothing fun m => pure (shown m)
  | .can name => withMediator name .nothing can
  | .price name volume => withMediator name .nothing fun m =>
    pure (((m.handler.price m.direction volume).map .amount).getD .nothing)
  | .transact name volume keep => withMediator name .noMediator fun m =>
    transact nested m volume false keep
  | .list name volume keep => withMediator name .noMediator fun m =>
    if m.direction = .sale then transact nested m volume true keep else pure .notASale
  | .record name => withRecord name fun r => pure (.record r)
  | .complete name => withRecord name fun r => do pure (.flag (← complete nested name r))
  | .completeThreads name n => withRecord name fun r => do
    if n = 0 then pure (.count 0)
    else pure (.count (if ← complete nested name r then 1 else 0))
  | .recordDebug name => withRecord name fun r => do
    let o := r.outline Item.outline
    pure (.outlines o.inline (o.indented 0) r.terms.outline.inline)
  | .setPriority id n => configure (·.setPriority id n)
  | .setDisabled id on => configure (·.setDisabled id on)
  | .setGenerous id on => configure (·.setGenerous id on)
  | .configClearPriority id => do
    match (← get).registry.provider with
    | .memory t =>
      let (cleared, t) := t.clearPriority id
      setProvider (.memory t)
      pure (.flag cleared)
    | .file _ _ => pure .memoryOnly
  | .configQuery id declared => do
    let t := (← get).registry.provider.table
    pure (.query (t.priority id declared) (t.isDisabled id) (t.isGenerous id))
  | .configEnsure id n => do
    setProvider ((← get).registry.provider.ensureEntry id n)
    pure .nothing
  | .configTable => do pure (.text (← get).registry.provider.table.compact)
  | .configDirty => onFile fun stored _ => pure (.flag stored.dirty)
  | .configSave => onFile fun stored disk =>
    match stored.save disk with
    | .error t => pure (.trouble t)
    | .ok (stored, disk) => do
      setProvider (.file stored disk)
      pure .ok
  | .configDisk => onFile fun _ disk =>
    pure ((disk.bytes?.map fun b => .text (shownOctets b)).getD .nothing)
  | .configWrite bytes => onFile fun stored disk => do
    setProvider (.file stored (disk.put bytes))
    pure .nothing
  | .configDelete => onFile fun stored disk => do
    setProvider (.file stored disk.delete)
    pure .nothing

def runNested (run : Operation → Play Reply) (op : Operation) : Play Unit := do
  let r ← if (← get).locked && ! op.sparesHandlers then pure .locked else run op
  note (.nested op.name r)

def run : Nat → Operation → Play Reply
  | 0, _ => pure .tooDeep
  | depth + 1, op => administer (fun ops => ops.forM (runNested (run depth))) op

def greatestDepth : Nat := 4096

structure Turn where
  reply : Reply
  notes : List Note
  board : Option (List (Kind × List Ranked))

def playOne (op : Operation) : Play Turn := do
  modify fun s => { s with notes := [] }
  let reply ← run greatestDepth op
  let s ← get
  pure ⟨reply, s.notes.reverse, if op.movesHandlers then some s.board else none⟩

def play (ops : List Operation) (s : Session) : List Turn × List (Kind × List Ranked) :=
  let (turns, s) := (ops.mapM playOne).run s
  (turns, s.board)

end Brokerage.Scenario
