import Brokerage.Text.Digits

namespace Brokerage

open Text

structure Uuid where
  value : BitVec 128
  deriving DecidableEq

namespace Uuid

def groups : List Nat := [8, 4, 4, 4, 12]

def digits (u : Uuid) : List Char :=
  let ds := Nat.toDigits 16 u.value.toNat
  List.replicate (32 - ds.length) '0' ++ ds

def grouped : List Nat → List Char → List (List Char)
  | [], _ => []
  | n :: ns, cs => cs.take n :: grouped ns (cs.drop n)

def text (u : Uuid) : String :=
  String.ofList (['-'].intercalate (grouped groups u.digits))

def read? (s : String) : Option Uuid :=
  let parts := (s.splitOn "-").map String.toList
  if parts.map List.length ≠ groups then none
  else (parts.flatten.mapM hexDigit?).map fun ds => ⟨BitVec.ofNat 128 (ofDigits 16 ds)⟩

end Uuid

end Brokerage
