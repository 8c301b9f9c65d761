import Brokerage.Settings.Fault

namespace Brokerage

/-- What stands at the place. `blocked`: nothing, and nothing can be written there, as below a
file. -/
inductive Disk where
  | absent
  | file (bytes : ByteArray)
  | directory
  | blocked

inductive Refusal where
  | notFound
  | isDirectory
  | alreadyExists
  | notDirectory
  | notText
  deriving DecidableEq

/-- What the system makes of a write to a file. One that is cut short has emptied the file first, and
leaves the octets in it that were taken before it failed. -/
inductive Writing where
  | whole
  | refused (r : Refusal)
  | cut (taken : Nat) (r : Refusal)

/-- The file has all of the new octets afterwards, or those it had. -/
def Writing.Clean : Writing → Prop
  | .cut _ _ => False
  | _ => True

inductive Trouble where
  | refused (r : Refusal)
  | unreadable (f : Fault)
  deriving DecidableEq

namespace Disk

def bytes? : Disk → Option ByteArray
  | .file b => some b
  | _ => none

def readText : Disk → Except Refusal String
  | .file b =>
    match String.fromUTF8? b with
    | some s => .ok s
    | none => .error .notText
  | .absent => .error .notFound
  | .directory => .error .isDirectory
  | .blocked => .error .notDirectory

def write (w : Writing) (text : String) : Disk → Except Refusal Unit × Disk
  | .directory => (.error .isDirectory, .directory)
  | .blocked => (.error .alreadyExists, .blocked)
  | d =>
    match w with
    | .whole => (.ok (), .file text.toUTF8)
    | .refused r => (.error r, d)
    | .cut taken r => (.error r, .file (text.toUTF8.extract 0 taken))

def put (bytes : ByteArray) : Disk → Disk
  | .absent | .file _ => .file bytes
  | d => d

def delete : Disk → Disk
  | .blocked => .blocked
  | _ => .absent

def makeDirectory : Disk → Disk
  | .blocked => .blocked
  | _ => .directory

end Disk

end Brokerage
