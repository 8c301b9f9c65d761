namespace Brokerage.Text

def digit? (c : Char) : Option (Fin 10) :=
  if '0' ≤ c ∧ c ≤ '9' then some (Fin.ofNat 10 (c.toNat - '0'.toNat)) else none

def digitChar (d : Fin 10) : Char := Nat.digitChar d

def hexDigit? (c : Char) : Option Nat :=
  if '0' ≤ c ∧ c ≤ '9' then some (c.toNat - '0'.toNat)
  else if 'a' ≤ c ∧ c ≤ 'f' then some (c.toNat - 'a'.toNat + 10)
  else if 'A' ≤ c ∧ c ≤ 'F' then some (c.toNat - 'A'.toNat + 10)
  else none

def takeDigits : List Char → List (Fin 10) × List Char
  | [] => ([], [])
  | c :: cs =>
    match digit? c with
    | none => ([], c :: cs)
    | some d => let (ds, rest) := takeDigits cs; (d :: ds, rest)

def ofDigits (base : Nat) (ds : List Nat) : Nat :=
  ds.foldl (fun n d => base * n + d) 0

def decimal (ds : List (Fin 10)) : Nat := ofDigits 10 (ds.map Fin.val)

def digitsOf (n : Nat) : List Char := Nat.toDigits 10 n

def intChars (n : Int) : List Char :=
  if n < 0 then '-' :: digitsOf n.natAbs else digitsOf n.natAbs

def readInt? (cs : List Char) : Option Int :=
  let read (cs : List Char) : Option Nat :=
    match takeDigits cs with
    | (d :: ds, []) => some (decimal (d :: ds))
    | _ => none
  match cs with
  | '-' :: rest => (read rest).map fun n => -(n : Int)
  | '+' :: rest => (read rest).map fun n => (n : Int)
  | _ => (read cs).map fun n => (n : Int)

end Brokerage.Text
