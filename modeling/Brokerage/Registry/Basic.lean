import Brokerage.Registry.Provider
import Brokerage.Registry.Roster
import Brokerage.Text.Quoted

namespace Brokerage

open Std Text

structure Registry (H : Type) where
  roster : Roster H
  provider : Provider

inductive Rejection where
  | invalidId (id : String)
  | disabled (id : String)
  | duplicate (id : String)
  deriving DecidableEq

namespace Rejection

def message : Rejection → String
  | .invalidId id => "handler id " ++ quoted id ++ " is empty or contains whitespace"
  | .disabled id => "handler " ++ id ++ " is disabled by configuration"
  | .duplicate id => "handler " ++ id ++ " is already present in its type group"

def label : Rejection → String
  | .invalidId _ => "InvalidId"
  | .disabled _ => "Disabled"
  | .duplicate _ => "Duplicate"

def id : Rejection → String
  | .invalidId id | .disabled id | .duplicate id => id

def outline (r : Rejection) : Outline := .tuple r.label [.leaf (quoted r.id)]

end Rejection

/-- What an operation answers, the registry after it, and what has to be announced, in order. -/
structure Outcome (H α : Type) where
  answer : α
  registry : Registry H
  notices : List Notice

namespace Registry

variable {H : Type} [Handler H]

def start (p : Provider) : Registry H := ⟨.empty, p⟩

/-- Offers a handler. It takes the place of an active handler of its id. A disabled handler is only
remembered, and not even that while another one is active under its id. -/
def register (declared : H → Int8) (h : H) (r : Registry H) : Outcome H (Except Rejection Unit) :=
  let id := (Handler.info h).id
  if ! isWord id then ⟨.error (.invalidId id), r, []⟩
  else if r.provider.table.isDisabled id then
    let roster := if r.roster.active.contains id then r.roster else r.roster.learn h
    ⟨.error (.disabled id), { r with roster }, []⟩
  else
    let (notices, roster) := (r.roster.learn h).retire id
    let e : Entry H := ⟨h, r.provider.table.priority id (declared h)⟩
    if roster.index.holds e then ⟨.error (.duplicate id), { r with roster }, notices⟩
    else ⟨.ok (), ⟨roster.enlist e, r.provider.ensureEntry id e.priority⟩,
      notices ++ [.registered e.info]⟩

def unregister (id : String) (r : Registry H) : Outcome H Bool :=
  let (notices, roster) := (r.roster.forget id).retire id
  ⟨! notices.isEmpty, { r with roster }, notices⟩

def clear (r : Registry H) : Registry H := { r with roster := .empty }

def registerAll (declared : H → Int8) (hs : List H) (r : Registry H) :
    Registry H × List Notice :=
  hs.foldl (fun s h =>
    let o := s.1.register declared h
    (o.registry, s.2 ++ o.notices)) (r, [])

def returned (before : Roster H) (notices : List Notice) : List Notice :=
  notices.filter fun
    | .registered i => ! before.active.contains i.id
    | .unregistered _ => false

def dropped (before after : Roster H) : List Notice :=
  (before.active.toList.filter fun e => ! after.active.contains e.1).map
    fun e => .unregistered e.2.info

/-- Reads the settings again and offers all known handlers to an empty roster. Only changes are
announced. Nothing changes when the settings cannot be read. -/
def reload (declared : H → Int8) (r : Registry H) : Outcome H (Except Trouble Unit) :=
  match r.provider.reload with
  | .error t => ⟨.error t, r, []⟩
  | .ok p =>
    let (next, notices) := registerAll declared r.roster.known.values ⟨.empty, p⟩
    ⟨.ok (), next, returned r.roster notices ++ dropped r.roster next.roster⟩

def configure (f : Settings → Settings) (r : Registry H) : Registry H :=
  { r with provider := r.provider.change f }

end Registry

end Brokerage
