/-!
Reading octets as UTF-8. Octets that are no part of a character are shown by the replacement
character, one for each longest start of a character that was cut off.
-/

namespace Brokerage.Text

/-- A character of which `owed` octets are still to come, the next one between `low` and `high`. -/
structure Unfinished where
  owed : Nat
  low : Nat
  high : Nat
  code : Nat

def replacement : Char := '\uFFFD'

def lead (b : Nat) : Option Unfinished :=
  if b < 0xC2 then none
  else if b ≤ 0xDF then some ⟨1, 0x80, 0xBF, b - 0xC0⟩
  else if b = 0xE0 then some ⟨2, 0xA0, 0xBF, 0⟩
  else if b = 0xED then some ⟨2, 0x80, 0x9F, 0xD⟩
  else if b ≤ 0xEF then some ⟨2, 0x80, 0xBF, b - 0xE0⟩
  else if b = 0xF0 then some ⟨3, 0x90, 0xBF, 0⟩
  else if b ≤ 0xF3 then some ⟨3, 0x80, 0xBF, b - 0xF0⟩
  else if b = 0xF4 then some ⟨3, 0x80, 0x8F, 4⟩
  else none

def startAt (b : Nat) : List Char × Option Unfinished :=
  if b < 0x80 then ([Char.ofNat b], none)
  else match lead b with
    | none => ([replacement], none)
    | some u => ([], some u)

def readOctets : Option Unfinished → List UInt8 → List Char
  | none, [] => []
  | some _, [] => [replacement]
  | none, b :: bs =>
    let (settled, next) := startAt b.toNat
    settled ++ readOctets next bs
  | some u, b :: bs =>
    let n := b.toNat
    if u.low ≤ n ∧ n ≤ u.high then
      let code := u.code * 64 + (n - 0x80)
      if u.owed = 1 then Char.ofNat code :: readOctets none bs
      else readOctets (some ⟨u.owed - 1, 0x80, 0xBF, code⟩) bs
    else
      let (settled, next) := startAt n
      replacement :: (settled ++ readOctets next bs)

def shownOctets (bytes : ByteArray) : String :=
  String.ofList (readOctets none bytes.toList)

end Brokerage.Text
