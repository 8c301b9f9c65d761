import Brokerage.Json.Token

namespace Brokerage.Json

/-- `item` and `member` follow an opening bracket, where the closing one may come at once. -/
inductive Due where
  | value
  | item
  | key
  | member
  | colon
  | separator
  deriving DecidableEq

structure Place where
  opened : List Bracket
  due : Due
  deriving DecidableEq

namespace Place

def start : Place := ⟨[], .value⟩

def finish : Place := ⟨[], .separator⟩

def first : Bracket → Due
  | .curly => .member
  | .square => .item

def takeValue (opened : List Bracket) : Token → Option Place
  | .opening b => some ⟨b :: opened, first b⟩
  | .null | .flag _ | .number _ | .string _ => some ⟨opened, .separator⟩
  | _ => none

def close (b : Bracket) : List Bracket → Option Place
  | c :: opened => if b = c then some ⟨opened, .separator⟩ else none
  | [] => none

def step (p : Place) (t : Token) : Option Place :=
  match p.due, t with
  | .value, t => takeValue p.opened t
  | .item, .closing b => close b p.opened
  | .item, t => takeValue p.opened t
  | .key, .string _ => some ⟨p.opened, .colon⟩
  | .member, .string _ => some ⟨p.opened, .colon⟩
  | .member, .closing b => close b p.opened
  | .colon, .colon => some ⟨p.opened, .value⟩
  | .separator, .comma =>
    match p.opened with
    | [] => none
    | .curly :: _ => some { p with due := .key }
    | .square :: _ => some { p with due := .value }
  | .separator, .closing b => close b p.opened
  | _, _ => none

end Place

end Brokerage.Json
