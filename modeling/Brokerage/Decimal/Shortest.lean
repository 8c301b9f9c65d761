import Brokerage.Decimal.Double
import Brokerage.Text.Digits

namespace Brokerage.Decimal

open Text

namespace Double

/-- Whether a ratio rounds to `x`. The ends of the interval do when the mantissa is even. -/
def reads (x : Double) (num den : Nat) : Bool :=
  let gap := if x.mantissa = Nat.pow 2 52 ∧ x.exponent > leastExponent then 1 else 2
  let (n, d) := shifted num den x.exponent
  let low := (4 * x.mantissa - gap) * d
  let high := (4 * x.mantissa + 2) * d
  if x.mantissa % 2 = 0 then low ≤ 4 * n && 4 * n ≤ high else low < 4 * n && 4 * n < high

def magnitude (x : Double) : Int :=
  let (num, den) := x.ratio
  if den ≤ num then (digitsOf (num / den)).length
  else match (List.range 400).find? fun j => den ≤ num * Nat.pow 10 j with
    | some j => 1 - j
    | none => 0

def power (c : Nat) (p : Int) : Nat × Nat :=
  if 0 ≤ p then (c * Nat.pow 10 p.toNat, 1) else (c, Nat.pow 10 (-p).toNat)

/-- The neighbours of `x` among the multiples of `10 ^ p` that read back, the nearer one if both
do. -/
def onGrid (x : Double) (p : Int) : Option Nat :=
  let (num, den) := x.ratio
  let (a, b) := power 1 p
  let c := num * b / (den * a)
  let hits (c : Nat) : Bool := x.reads (power c p).1 (power c p).2
  match hits c, hits (c + 1) with
  | true, true => some (nearest (num * b) (den * a))
  | true, false => some c
  | false, true => some (c + 1)
  | false, false => none

/-- The fewest digits that read back, and the power of ten of the last one. A neighbour above that
carried into a power of ten is that power. -/
def shortest (x : Double) : Nat × Int :=
  let k := x.magnitude
  ((List.range 17).findSome? fun (i : Nat) =>
    let p := k - (i + 1)
    (x.onGrid p).map fun c => if c = Nat.pow 10 (i + 1) then (1, k) else (c, p)).getD (0, 0)

def exponentChars (e : Int) : List Char := (if e < 0 then '-' else '+') :: digitsOf e.natAbs

def text (x : Double) : String :=
  if x.mantissa = 0 then "0.0"
  else
    let (c, p) := x.shortest
    let ds := digitsOf c
    let k : Int := ds.length + p
    let chars : List Char :=
      if 0 ≤ p ∧ k ≤ 16 then ds ++ List.replicate p.toNat '0' ++ ['.', '0']
      else if 0 < k ∧ k ≤ 16 then ds.take k.toNat ++ '.' :: ds.drop k.toNat
      else if -5 < k ∧ k ≤ 0 then '0' :: '.' :: (List.replicate (-k).toNat '0' ++ ds)
      else match ds with
        | [d] => d :: 'e' :: exponentChars (k - 1)
        | d :: ds => d :: '.' :: (ds ++ 'e' :: exponentChars (k - 1))
        | [] => []
    String.ofList chars

end Double

end Brokerage.Decimal
