import Brokerage.Decimal.Shortest
import Brokerage.Json.Lapse

namespace Brokerage.Json

open Text Decimal

structure Number where
  negative : Bool
  whole : Nat
  fraction : List (Fin 10)
  exponent : Option Int
  deriving DecidableEq

namespace Number

def ofInt (n : Int) : Number := ⟨n < 0, n.natAbs, [], none⟩

def chars (n : Number) : List Char :=
  (if n.negative then ['-'] else []) ++ digitsOf n.whole ++
    (if n.fraction.isEmpty then [] else '.' :: n.fraction.map digitChar) ++
    (match n.exponent with | none => [] | some e => 'e' :: intChars e)

def int? (n : Number) : Option Int :=
  if n.fraction.isEmpty && n.exponent.isNone && ! (n.negative && n.whole = 0) then
    some (if n.negative then -n.whole else n.whole)
  else none

def someDigits (cs : List Char) : Except Lapse (List (Fin 10) × List Char) :=
  match takeDigits cs with
  | ([], []) => .error .early
  | ([], _ :: _) => .error .malformed
  | r => .ok r

def scanWhole (cs : List Char) : Except Lapse (Nat × List Char) := do
  let (ds, rest) ← someDigits cs
  if ds.head?.map Fin.val = some 0 ∧ ds.length ≠ 1 then .error .malformed
  else .ok (Text.decimal ds, rest)

def scanFraction : List Char → Except Lapse (List (Fin 10) × List Char)
  | '.' :: cs => someDigits cs
  | cs => .ok ([], cs)

def scanSign : List Char → Bool × List Char
  | '-' :: cs => (true, cs)
  | '+' :: cs => (false, cs)
  | cs => (false, cs)

def scanExponent (cs : List Char) : Except Lapse (Option Int × List Char) :=
  match cs with
  | c :: cs =>
    if c = 'e' ∨ c = 'E' then do
      let (negative, cs) := scanSign cs
      let (ds, rest) ← someDigits cs
      let e : Int := Text.decimal ds
      .ok (some (if negative then -e else e), rest)
    else .ok (none, c :: cs)
  | [] => .ok (none, [])

def scanMinus : List Char → Bool × List Char
  | '-' :: cs => (true, cs)
  | cs => (false, cs)

def scan (cs : List Char) : Except Lapse (Number × List Char) := do
  let (negative, cs) := scanMinus cs
  let (whole, cs) ← scanWhole cs
  let (fraction, cs) ← scanFraction cs
  let (exponent, cs) ← scanExponent cs
  .ok (⟨negative, whole, fraction, exponent⟩, cs)

/-- A number is read as a significand below `2 ^ 64` and a power of ten, and only then as a double.
Digits beyond the significand are dropped. -/
structure Parts where
  significand : Nat
  power : Int
  full : Bool

def Parts.pushWhole (p : Parts) (d : Nat) : Parts :=
  if p.full ∨ UInt64.size ≤ 10 * p.significand + d then { p with power := p.power + 1, full := true }
  else { p with significand := 10 * p.significand + d }

def Parts.pushFraction (p : Parts) (d : Nat) : Parts :=
  if p.full ∨ UInt64.size ≤ 10 * p.significand + d then { p with full := true }
  else { p with significand := 10 * p.significand + d, power := p.power - 1 }

def parts (n : Number) : Parts :=
  let whole : Parts := ((digitsOf n.whole).filterMap digit?).foldl
    (fun (p : Parts) (d : Fin 10) => p.pushWhole d.val) ⟨0, 0, false⟩
  n.fraction.foldl (fun (p : Parts) d => p.pushFraction d.val) { whole with full := false }

def scale : Nat → Double → Int → Option Double
  | 0, x, _ => some x
  | fuel + 1, x, power =>
    if power.natAbs ≤ 308 then do
      let ten ← Double.ofNat (Nat.pow 10 power.natAbs)
      if 0 ≤ power then x.mul ten else x.div ten
    else if x.mantissa = 0 then some x
    else if 0 ≤ power then none
    else do
      let ten ← Double.ofNat (Nat.pow 10 308)
      scale fuel (← x.div ten) (power + 308)

/-- The double without its sign; `none` for a number beyond the doubles. Three divisions by the
308th power leave nothing of any significand. -/
def double? (n : Number) : Option Double := do
  let p := n.parts
  let x ← Double.ofNat p.significand
  match n.exponent with
  | none => scale 4 x p.power
  | some e =>
    if e.natAbs < Nat.pow 2 31 then scale 4 x (p.power + e)
    else if p.significand ≠ 0 ∧ 0 < e then none
    else some ⟨0, Double.leastExponent⟩

def doubleText (n : Number) : String :=
  (if n.negative then "-" else "") ++ ((n.double?.map Double.text).getD "")

def described (n : Number) : String :=
  match n.int?.filter fun i => Int64.minValue.toInt ≤ i && i < UInt64.size with
  | some i => "integer `" ++ String.ofList (intChars i) ++ "`"
  | none => "floating point `" ++ n.doubleText ++ "`"

end Number

end Brokerage.Json
