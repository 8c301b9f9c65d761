import Brokerage.Amount
import Brokerage.Kind
import Brokerage.Text.Plain

namespace Brokerage

open Text

inductive Item where
  | text (s : String)
  | natural (n : UInt64)
  | integer (n : Int64)
  | flag (b : Bool)
  | amount (a : Amount)
  | texts (ss : List String)
  deriving DecidableEq

namespace Kind

def text : Kind := ⟨"alloc::string::String"⟩

def natural : Kind := ⟨"u64"⟩

def integer : Kind := ⟨"i64"⟩

def flag : Kind := ⟨"bool"⟩

def amount : Kind := ⟨"rust_decimal::decimal::Decimal"⟩

def texts : Kind := ⟨"alloc::vec::Vec<alloc::string::String>"⟩

end Kind

namespace Item

def kind : Item → Kind
  | .text _ => .text
  | .natural _ => .natural
  | .integer _ => .integer
  | .flag _ => .flag
  | .amount _ => .amount
  | .texts _ => .texts

def plain : Item → String
  | .text s => s
  | .natural n => natText n.toNat
  | .integer n => intText n.toInt
  | .flag b => boolText b
  | .amount a => a.text
  | .texts ss => ",".intercalate ss

inductive Form where
  | text (s : String)
  | number (n : Int)
  | flag (b : Bool)
  | texts (ss : List String)
  deriving DecidableEq

def form : Item → Form
  | .text s => .text s
  | .natural n => .number n.toNat
  | .integer n => .number n.toInt
  | .flag b => .flag b
  | .amount a => .text a.text
  | .texts ss => .texts ss

def outline : Item → Outline
  | .text s => .leaf (quoted s)
  | .texts ss => .list (ss.map fun s => .leaf (quoted s))
  | i => .leaf i.plain

end Item

end Brokerage
