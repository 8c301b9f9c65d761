import Brokerage.Json.Token

namespace Brokerage.Json

inductive Value where
  | null
  | flag (b : Bool)
  | number (n : Number)
  | string (s : String)
  | list (items : List Value)
  | object (members : List (String × Value))

namespace Value

mutual

def compact : Value → List Char
  | .null => ['n', 'u', 'l', 'l']
  | .flag true => ['t', 'r', 'u', 'e']
  | .flag false => ['f', 'a', 'l', 's', 'e']
  | .number n => n.chars
  | .string s => stringChars s
  | .list items => '[' :: (compactItems items ++ [']'])
  | .object members => '\x7b' :: (compactMembers members ++ ['\x7d'])

def compactItems : List Value → List Char
  | [] => []
  | v :: vs => v.compact ++ (if vs.isEmpty then [] else ',' :: compactItems vs)

def compactMembers : List (String × Value) → List Char
  | [] => []
  | (k, v) :: ms =>
    stringChars k ++ ':' :: (v.compact ++ (if ms.isEmpty then [] else ',' :: compactMembers ms))

end

def newline (depth : Nat) : List Char := '\n' :: List.replicate (2 * depth) ' '

mutual

def pretty (depth : Nat) : Value → List Char
  | .list [] => ['[', ']']
  | .list (v :: vs) => '[' :: (prettyItems (depth + 1) (v :: vs) ++ newline depth ++ [']'])
  | .object [] => ['\x7b', '\x7d']
  | .object (m :: ms) =>
    '\x7b' :: (prettyMembers (depth + 1) (m :: ms) ++ newline depth ++ ['\x7d'])
  | .null => ['n', 'u', 'l', 'l']
  | .flag true => ['t', 'r', 'u', 'e']
  | .flag false => ['f', 'a', 'l', 's', 'e']
  | .number n => n.chars
  | .string s => stringChars s

def prettyItems (depth : Nat) : List Value → List Char
  | [] => []
  | v :: vs =>
    newline depth ++ v.pretty depth ++ (if vs.isEmpty then [] else ',' :: prettyItems depth vs)

def prettyMembers (depth : Nat) : List (String × Value) → List Char
  | [] => []
  | (k, v) :: ms =>
    newline depth ++ stringChars k ++ ':' :: ' ' :: (v.pretty depth ++
      (if ms.isEmpty then [] else ',' :: prettyMembers depth ms))

end

end Value

end Brokerage.Json
