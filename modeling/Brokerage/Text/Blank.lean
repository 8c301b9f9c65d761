namespace Brokerage.Text

def blankRanges : List (Nat × Nat) :=
  [(0x09, 0x0D), (0x20, 0x20), (0x85, 0x85), (0xA0, 0xA0), (0x1680, 0x1680), (0x2000, 0x200A),
    (0x2028, 0x2029), (0x202F, 0x202F), (0x205F, 0x205F), (0x3000, 0x3000)]

def isBlank (c : Char) : Bool :=
  blankRanges.any fun r => r.1 ≤ c.toNat && c.toNat ≤ r.2

def pieces : List Char → List (List Char)
  | [] => [[]]
  | c :: cs =>
    if isBlank c then [] :: pieces cs
    else match pieces cs with
      | [] => [[c]]
      | w :: ws => (c :: w) :: ws

def words (s : String) : List String :=
  ((pieces s.toList).filter (! ·.isEmpty)).map String.ofList

def isWord (s : String) : Bool :=
  ! s.toList.isEmpty && s.toList.all (! isBlank ·)

end Brokerage.Text
