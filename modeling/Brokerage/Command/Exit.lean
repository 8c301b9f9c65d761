import Brokerage.Command.Arguments
import Brokerage.Text.Octets

namespace Brokerage

structure Exit where
  code : Nat
  output : String
  reason : Option String
  deriving DecidableEq

namespace Exit

def guide : String :=
  "usage: broker [-v] [--config PATH] init | show | priority ID N | disable ID | enable ID | "
    ++ "generous ID... [--off]"

def ofStop : Invocation.Stop → Exit
  | .misuse => ⟨2, "", none⟩
  | .help => ⟨0, guide ++ "\n", none⟩
  | .version => ⟨0, "broker 0.1.0\n", none⟩

def ofFailure : Command.Failure → Exit
  | .trouble (.refused _) => ⟨1, "", some "IO error"⟩
  | .trouble (.unreadable _) => ⟨1, "", some "Config error"⟩
  | .badId _ => ⟨1, "", some "invalid handler id"⟩
  | .unprinted d taken =>
    ⟨1, Text.shownOctets ⟨taken.toArray⟩, if d = .refused then some "IO error" else none⟩

def ofResult : Command.Result → Exit
  | .ok output => ⟨0, output, none⟩
  | .error f => ofFailure f

def ofInvocation (h : Command.Host) (i : Except Invocation.Stop Invocation) (d : Disk) :
    Exit × Disk :=
  match i with
  | .error s => (ofStop s, d)
  | .ok i =>
    let (r, d) := i.command.run h d
    (ofResult r, d)

end Exit

end Brokerage
