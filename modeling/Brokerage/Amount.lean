import Brokerage.Text.Digits

namespace Brokerage

open Text

structure Amount where
  coefficient : Int
  places : Nat
  deriving DecidableEq

namespace Amount

def zero : Amount := ⟨0, 0⟩

def abs (a : Amount) : Amount := ⟨a.coefficient.natAbs, a.places⟩

def times (a : Amount) (n : UInt32) : Amount :=
  if a.coefficient = 0 ∨ n = 0 then zero else ⟨a.coefficient * n.toNat, a.places⟩

def text (a : Amount) : String :=
  let digits := digitsOf a.coefficient.natAbs
  let padded := List.replicate (a.places + 1 - digits.length) '0' ++ digits
  let whole := padded.take (padded.length - a.places)
  let fraction := padded.drop (padded.length - a.places)
  String.ofList
    ((if a.coefficient < 0 then ['-'] else []) ++ whole ++
      (if a.places = 0 then [] else '.' :: fraction))

def mostPlaces : Nat := 28

def bound : Nat := Nat.pow 2 96

/-- Rounds at a digit that has no place, a half up. A coefficient that grows too large by it gives up
a place. -/
def rounded (c places : Nat) (d : Fin 10) : Option (Nat × Nat) :=
  if d.val < 5 then some (c, places)
  else if c + 1 < bound then some (c + 1, places)
  else if places = 0 then none
  else some ((c + 5) / 10, places - 1)

def append (c places : Nat) : List (Fin 10) → Option (Nat × Nat)
  | [] => some (c, places)
  | d :: ds =>
    if places < mostPlaces ∧ 10 * c + d.val < bound then append (10 * c + d.val) (places + 1) ds
    else rounded c places d

def ofDigits? (sign : Int) (whole fraction : List (Fin 10)) : Option Amount :=
  if bound ≤ decimal whole then none
  else (append (decimal whole) 0 fraction).map fun (c, places) => ⟨sign * c, places⟩

def read? (s : String) : Option Amount :=
  let (sign, cs) := match s.toList with
    | '-' :: cs => (-1, cs)
    | '+' :: cs => (1, cs)
    | cs => ((1 : Int), cs)
  match takeDigits cs with
  | (whole, []) => if whole.isEmpty then none else ofDigits? sign whole []
  | (whole, '.' :: rest) =>
    match takeDigits rest with
    | (fraction, []) =>
      if whole.isEmpty && fraction.isEmpty then none
      else ofDigits? sign whole fraction
    | _ => none
  | _ => none

end Amount

end Brokerage
