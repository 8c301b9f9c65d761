import Brokerage.Json.Token
import Brokerage.Text.Plain
import Brokerage.Text.Quoted

namespace Brokerage

open Json Text

inductive Field where
  | priorities
  | generous
  | other
  deriving DecidableEq

def Field.ofName (s : String) : Field :=
  if s = "priorities" then .priorities
  else if s = "generous" then .generous
  else .other

def Field.name : Field → String
  | .priorities => "priorities"
  | .generous => "generous"
  | .other => ""

inductive Wanted where
  | settings
  | standings
  | words
  deriving DecidableEq

def Wanted.label : Wanted → String
  | .settings => "struct ConfigTable"
  | .standings => "a map"
  | .words => "a string"

inductive Misfit where
  | unexpected (found : Token) (wanted : Wanted)
  | repeated (f : Field)
  | standing
  deriving DecidableEq

def Json.Token.described : Token → String
  | .opening .curly => "map"
  | .opening .square => "sequence"
  | .flag b => "boolean `" ++ boolText b ++ "`"
  | .number n => n.described
  | .string s => "string " ++ quoted (s.getD "")
  | _ => "null"

def Misfit.message : Misfit → String
  | .unexpected t w => "invalid type: " ++ t.described ++ ", expected " ++ w.label
  | .repeated f => "duplicate field `" ++ f.name ++ "`"
  | .standing => "data did not match any variant of untagged enum PrioritySetting"

inductive Fault where
  | lapse (l : Lapse)
  | misfit (m : Misfit)
  deriving DecidableEq

end Brokerage
