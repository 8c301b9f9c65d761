import Brokerage.Json.Lapse
import Brokerage.Text.Digits

namespace Brokerage.Json

open Text

def lowHex (n : Nat) : Char := Nat.digitChar (n % 16)

def escapeChar (c : Char) : List Char :=
  if c = '"' then ['\\', '"']
  else if c = '\\' then ['\\', '\\']
  else if c = '\x08' then ['\\', 'b']
  else if c = '\x0C' then ['\\', 'f']
  else if c = '\n' then ['\\', 'n']
  else if c = '\r' then ['\\', 'r']
  else if c = '\t' then ['\\', 't']
  else if c.toNat < 0x20 then ['\\', 'u', '0', '0', lowHex (c.toNat / 16), lowHex c.toNat]
  else [c]

def stringChars (s : String) : List Char :=
  '"' :: (s.toList.flatMap escapeChar ++ ['"'])

inductive Piece where
  | char (c : Char)
  | unit (n : Nat)
  deriving DecidableEq

inductive Scanned where
  | closed (pieces : List Piece) (rest : List Char)
  | broken (pieces : List Piece) (lapse : Lapse)

def Scanned.cons (p : Piece) : Scanned → Scanned
  | .closed ps rest => .closed (p :: ps) rest
  | .broken ps lapse => .broken (p :: ps) lapse

def simpleEscape? : Char → Option Char
  | '"' => some '"'
  | '\\' => some '\\'
  | '/' => some '/'
  | 'b' => some '\x08'
  | 'f' => some '\x0C'
  | 'n' => some '\n'
  | 'r' => some '\r'
  | 't' => some '\t'
  | _ => none

def unit? (a b c d : Char) : Option Nat := do
  some (ofDigits 16 [← hexDigit? a, ← hexDigit? b, ← hexDigit? c, ← hexDigit? d])

def shortUnit (cs : List Char) : Lapse :=
  if (String.ofList cs).utf8ByteSize < 4 then .early else .malformed

def scanString : List Char → Scanned
  | [] => .broken [] .early
  | '"' :: cs => .closed [] cs
  | ['\\'] => .broken [] .early
  | '\\' :: 'u' :: a :: b :: c :: d :: cs =>
    match unit? a b c d with
    | some n => (scanString cs).cons (.unit n)
    | none => .broken [] .malformed
  | '\\' :: 'u' :: cs => .broken [] (shortUnit cs)
  | '\\' :: c :: cs =>
    match simpleEscape? c with
    | some x => (scanString cs).cons (.char x)
    | none => .broken [] .malformed
  | c :: cs =>
    if c.toNat < 0x20 then .broken [] .malformed else (scanString cs).cons (.char c)

def isLead (n : Nat) : Bool := 0xD800 ≤ n && n ≤ 0xDBFF

def isTrail (n : Nat) : Bool := 0xDC00 ≤ n && n ≤ 0xDFFF

def pair (n m : Nat) : Char := Char.ofNat ((n - 0xD800) * 0x400 + (m - 0xDC00) + 0x10000)

def characters : List Piece → Option (List Char)
  | [] => some []
  | .char c :: ps => (characters ps).map (c :: ·)
  | .unit n :: .unit m :: ps =>
    if isLead n then
      if isTrail m then (characters ps).map (pair n m :: ·) else none
    else if isTrail n then none
    else (characters (.unit m :: ps)).map (Char.ofNat n :: ·)
  | .unit n :: ps =>
    if isLead n || isTrail n then none else (characters ps).map (Char.ofNat n :: ·)

/-- Whether a string that was cut off already holds a surrogate that can find no partner. A lead at
the very end still could. -/
def strays : List Piece → Bool
  | [] => false
  | .char _ :: ps => strays ps
  | [.unit n] => isTrail n
  | .unit n :: .unit m :: ps =>
    if isLead n then (if isTrail m then strays ps else true)
    else isTrail n || strays (.unit m :: ps)
  | .unit n :: ps => isLead n || isTrail n || strays ps

end Brokerage.Json
