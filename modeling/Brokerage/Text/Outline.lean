namespace Brokerage.Text

inductive Outline where
  | leaf (text : String)
  | record (name : String) (fields : List (String × Outline)) (more : Bool)
  | tuple (name : String) (parts : List Outline)
  | list (parts : List Outline)

namespace Outline

def maybe {α : Type} (f : α → Outline) : Option α → Outline
  | none => .leaf "None"
  | some a => .tuple "Some" [f a]

def dots (more : Bool) : List String := if more then [".."] else []

mutual

def inline : Outline → String
  | .leaf text => text
  | .record name fields more =>
    name ++ " \x7b " ++ ", ".intercalate (inlineFields fields ++ dots more) ++ " \x7d"
  | .tuple name parts => name ++ "(" ++ ", ".intercalate (inlineParts parts) ++ ")"
  | .list parts => "[" ++ ", ".intercalate (inlineParts parts) ++ "]"

def inlineParts : List Outline → List String
  | [] => []
  | p :: ps => p.inline :: inlineParts ps

def inlineFields : List (String × Outline) → List String
  | [] => []
  | (n, v) :: fs => (n ++ ": " ++ v.inline) :: inlineFields fs

end

def margin (depth : Nat) : String := String.ofList (List.replicate (4 * depth) ' ')

def block (depth : Nat) (opening closing : String) (lines : List String) (more : Bool) : String :=
  let inner := lines.map (fun l => margin (depth + 1) ++ l ++ ",\n") ++
    (dots more).map (fun l => margin (depth + 1) ++ l ++ "\n")
  opening ++ "\n" ++ String.join inner ++ margin depth ++ closing

mutual

def indented (depth : Nat) : Outline → String
  | .leaf text => text
  | .record name fields more =>
    block depth (name ++ " \x7b") "\x7d" (indentedFields (depth + 1) fields) more
  | .tuple name parts => block depth (name ++ "(") ")" (indentedParts (depth + 1) parts) false
  | .list [] => "[]"
  | .list (p :: ps) => block depth "[" "]" (indentedParts (depth + 1) (p :: ps)) false

def indentedParts (depth : Nat) : List Outline → List String
  | [] => []
  | p :: ps => indented depth p :: indentedParts depth ps

def indentedFields (depth : Nat) : List (String × Outline) → List String
  | [] => []
  | (n, v) :: fs => (n ++ ": " ++ indented depth v) :: indentedFields depth fs

end

end Outline

end Brokerage.Text
