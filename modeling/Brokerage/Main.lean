import Brokerage.Command.Exit
import Brokerage.Command.Path

namespace Brokerage.Program

def isDirectoryCode : UInt32 := 21

def look (path : String) : IO Disk := do
  try
    pure (.file (← IO.FS.readBinFile path))
  catch
    | .noFileOrDirectory _ _ _ => pure .absent
    | .inappropriateType _ code _ => pure (if code = isDirectoryCode then .directory else .blocked)
    | e => throw e

def store (path : String) (before after : Disk) : IO Unit := do
  if let some bytes := after.bytes? then
    if before.bytes?.map ByteArray.data ≠ some bytes.data then
      let above := (Path.read path).parent
      unless above.names.isEmpty do IO.FS.createDirAll above.text
      IO.FS.writeBinFile path bytes

def runAt (i : Invocation) : IO Exit := do
  let before ← look i.path
  let (e, after) := Exit.ofInvocation .willing (.ok i) before
  store i.path before after
  pure e

end Brokerage.Program

def main (args : List String) : IO UInt32 := do
  let e ← match Brokerage.Invocation.ofArguments args with
    | .ok i => Brokerage.Program.runAt i
    | .error s => pure (.ofStop s)
  IO.print e.output
  if e.code = 2 then IO.eprintln Brokerage.Exit.guide
  if let some reason := e.reason then IO.eprintln ("Error: " ++ reason)
  pure (UInt32.ofNat e.code)
