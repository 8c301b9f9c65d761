namespace Brokerage.Decimal

structure Double where
  mantissa : Nat
  exponent : Int
  deriving DecidableEq

def nearest (num den : Nat) : Nat :=
  let q := num / den
  let r := num % den
  if 2 * r > den ∨ (2 * r = den ∧ q % 2 = 1) then q + 1 else q

def shifted (num den : Nat) (e : Int) : Nat × Nat :=
  if 0 ≤ e then (num, den * Nat.pow 2 e.toNat) else (num * Nat.pow 2 (-e).toNat, den)

namespace Double

def leastExponent : Int := -1074

def greatestExponent : Int := 971

def ofRatio (num den : Nat) : Option Double :=
  if num = 0 then some ⟨0, leastExponent⟩
  else
    let bits : Int := num.log2 - den.log2
    let (n, d) := shifted num den bits
    let e := max (if d ≤ n then bits - 52 else bits - 53) leastExponent
    let (n, d) := shifted num den e
    let m := nearest n d
    let x : Double := if m = Nat.pow 2 53 then ⟨Nat.pow 2 52, e + 1⟩ else ⟨m, e⟩
    if x.exponent > greatestExponent then none else some x

def ofNat (n : Nat) : Option Double := ofRatio n 1

def ratio (x : Double) : Nat × Nat :=
  if 0 ≤ x.exponent then (x.mantissa * Nat.pow 2 x.exponent.toNat, 1)
  else (x.mantissa, Nat.pow 2 (-x.exponent).toNat)

def mul (x y : Double) : Option Double :=
  ofRatio (x.ratio.1 * y.ratio.1) (x.ratio.2 * y.ratio.2)

def div (x y : Double) : Option Double :=
  ofRatio (x.ratio.1 * y.ratio.2) (x.ratio.2 * y.ratio.1)

end Double

end Brokerage.Decimal
