import Brokerage.Json.Number
import Brokerage.Json.Text

namespace Brokerage.Json

inductive Bracket where
  | curly
  | square
  deriving DecidableEq

inductive Token where
  | opening (b : Bracket)
  | closing (b : Bracket)
  | comma
  | colon
  | null
  | flag (b : Bool)
  | number (n : Number)
  | string (s : Option String)
  deriving DecidableEq

namespace Token

def sound : Token → Bool
  | .number n => n.double?.isSome
  | .string s => s.isSome
  | _ => true

end Token

/-- How a text ends after its last whole token. A broken token has one lapse where values are read
and one where they are only passed over. -/
inductive Ending where
  | clean
  | broken (inString : Bool) (read passed : Lapse)
  deriving DecidableEq

inductive Next where
  | token (t : Token) (rest : List Char)
  | ending (e : Ending)

def isGap (c : Char) : Bool := c = ' ' || c = '\n' || c = '\r' || c = '\t'

def scanWord (t : Token) : List Char → List Char → Next
  | [], rest => .token t rest
  | _ :: _, [] => .ending (.broken false .early .early)
  | w :: ws, c :: cs => if w = c then scanWord t ws cs
    else .ending (.broken false .malformed .malformed)

def nextNumber (cs : List Char) : Next :=
  match Number.scan cs with
  | .ok (n, rest) => .token (.number n) rest
  | .error lapse => .ending (.broken false lapse .malformed)

def nextString (cs : List Char) : Next :=
  match scanString cs with
  | .closed ps rest => .token (.string ((characters ps).map String.ofList)) rest
  | .broken ps lapse =>
    .ending (.broken true (if strays ps then .malformed else lapse) lapse)

def mark? : Char → Option Token
  | '\x7b' => some (.opening .curly)
  | '\x7d' => some (.closing .curly)
  | '[' => some (.opening .square)
  | ']' => some (.closing .square)
  | ',' => some .comma
  | ':' => some .colon
  | _ => none

def nextScalar (c : Char) (cs : List Char) : Next :=
  match c with
  | '"' => nextString cs
  | 'n' => scanWord .null ['u', 'l', 'l'] cs
  | 't' => scanWord (.flag true) ['r', 'u', 'e'] cs
  | 'f' => scanWord (.flag false) ['a', 'l', 's', 'e'] cs
  | c =>
    if c = '-' ∨ (Text.digit? c).isSome then nextNumber (c :: cs)
    else .ending (.broken false .malformed .malformed)

def next : List Char → Next
  | [] => .ending .clean
  | c :: cs =>
    if isGap c then next cs
    else match mark? c with
      | some t => .token t cs
      | none => nextScalar c cs

end Brokerage.Json
