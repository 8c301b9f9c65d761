import Brokerage.Json.Value
import Brokerage.Settings.Basic

namespace Brokerage

open Json

def Standing.value : Standing → Value
  | .ranked n => .number (.ofInt n.toInt)
  | .disabled => .string "disabled"

namespace Settings

def value (t : Settings) : Value :=
  .object [("priorities", .object (t.standings.toList.map fun e => (e.1, e.2.value))),
    ("generous", .string (" ".intercalate t.generous.toList))]

def compact (t : Settings) : String := String.ofList t.value.compact

def pretty (t : Settings) : String := String.ofList (t.value.pretty 0)

end Settings

end Brokerage
