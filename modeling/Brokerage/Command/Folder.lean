import Brokerage.Command.Exit
import Brokerage.Command.Path
import Std.Data.ExtTreeMap

namespace Brokerage

open Std

abbrev Location := List String

inductive Node where
  | file (bytes : ByteArray)
  | directory

def Node.isDirectory : Node → Bool
  | .file _ => false
  | .directory => true

inductive Obstacle where
  | missing
  | taken
  | barred
  deriving DecidableEq

structure Folder where
  nodes : ExtTreeMap Location Node

namespace Folder

def home : Location := ["work", "tmp"]

def fresh : Folder :=
  ⟨.ofList ([[], home.tail, home].map fun l => (l, Node.directory))⟩

def isDirectory (f : Folder) (l : Location) : Bool := f.nodes[l]?.any Node.isDirectory

def start (p : Path) : Location := if p.rooted then [] else home

def follow (f : Folder) : Location → List String → Except Obstacle Location
  | l, [] => .ok l
  | l, n :: ns =>
    if ! f.isDirectory l then .error .barred
    else if Path.stays n then f.follow l ns
    else if Path.leaves n then f.follow l.tail ns
    else if ! Path.nameFits n then .error .barred
    else if f.nodes.contains (n :: l) then f.follow (n :: l) ns
    else .error .missing

def node? (f : Folder) (p : Path) : Option Node :=
  if p.fits then (f.follow (start p) p.names).toOption.bind fun l => f.nodes[l]?
  else none

def entry (f : Folder) (p : Path) : Except Obstacle (Location × String) :=
  if ! p.fits then .error .barred
  else do
    let l ← f.follow (start p) p.names.dropLast
    let n := p.names.getLast?.getD ""
    if f.isDirectory l && Path.nameFits n then .ok (l, n) else .error .barred

def makeDirectory (p : Path) (f : Folder) : Except Obstacle Folder := do
  let (l, n) ← f.entry p
  if Path.stays n || Path.leaves n || f.nodes.contains (n :: l) then .error .taken
  else .ok ⟨f.nodes.insert (n :: l) .directory⟩

def makeDirectories (p : Path) (f : Folder) : Bool × Folder :=
  if _h : p.names = [] then (true, f)
  else match f.makeDirectory p with
    | .ok f => (true, f)
    | .error .missing =>
      let (made, f) := f.makeDirectories p.parent
      match f.makeDirectory p with
      | .ok f => (made, f)
      | .error _ => (made && (f.node? p).any Node.isDirectory, f)
    | .error _ => ((f.node? p).any Node.isDirectory, f)
termination_by p.names.length
decreasing_by exact Path.parent_length ‹_›

def writeFile (p : Path) (bytes : ByteArray) (f : Folder) : Option Folder := do
  let (l, n) ← (f.entry p).toOption
  if Path.stays n || Path.leaves n || f.isDirectory (n :: l) then none
  else some ⟨f.nodes.insert (n :: l) (.file bytes)⟩

def disk (f : Folder) (path : String) : Disk :=
  let p := Path.read path
  match f.node? p with
  | some (.file bytes) => .file bytes
  | some .directory => .directory
  | none =>
    let (made, f) := f.makeDirectories p.parent
    if made && (f.writeFile p .empty).isSome then .absent else .blocked

def keep (path : String) (d : Disk) (f : Folder) : Folder :=
  let p := Path.read path
  let f := (f.makeDirectories p.parent).2
  (d.bytes?.bind fun bytes => f.writeFile p bytes).getD f

def runBy (h : Command.Host) (args : List String) (f : Folder) : Exit × Folder :=
  match Invocation.ofArguments args with
  | .error s => (.ofStop s, f)
  | .ok i =>
    let (e, d) := Exit.ofInvocation h (.ok i) (f.disk i.path)
    (e, f.keep i.path d)

def run (args : List String) (f : Folder) : Exit × Folder := f.runBy .willing args

end Folder

end Brokerage
