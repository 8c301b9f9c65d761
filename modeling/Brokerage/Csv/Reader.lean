namespace Brokerage.Csv

/-- Where a reader stands in a field. After a quote between quotes (`closing`) the field is over,
unless a second quote follows. -/
inductive Stand where
  | fresh
  | bare
  | quoted
  | closing
  deriving DecidableEq

structure Reader where
  stand : Stand
  field : List Char
  record : List (List Char)
  records : List (List (List Char))
  deriving DecidableEq

namespace Reader

def start : Reader := ⟨.fresh, [], [], []⟩

def push (r : Reader) (s : Stand) (c : Char) : Reader := { r with stand := s, field := r.field ++ [c] }

def endField (r : Reader) : Reader := ⟨.fresh, [], r.record ++ [r.field], r.records⟩

def endRecord (r : Reader) : Reader := ⟨.fresh, [], [], r.records ++ [r.record ++ [r.field]]⟩

def leave (r : Reader) (c : Char) : Option Reader :=
  if c = ',' then some r.endField
  else if c = '\n' then some r.endRecord
  else none

def step (r : Reader) (c : Char) : Option Reader :=
  match r.stand with
  | .fresh =>
    if c = '"' then some { r with stand := .quoted } else some ((r.leave c).getD (r.push .bare c))
  | .bare => if c = '"' then none else some ((r.leave c).getD (r.push .bare c))
  | .quoted => if c = '"' then some { r with stand := .closing } else some (r.push .quoted c)
  | .closing => if c = '"' then some (r.push .quoted c) else r.leave c

def finish (r : Reader) : Option (List (List (List Char))) :=
  if r.stand = .quoted then none
  else if r.stand = .fresh ∧ r.record = [] then some r.records
  else some r.endRecord.records

end Reader

def read? (s : String) : Option (List (List String)) := do
  let r ← s.toList.foldlM Reader.step Reader.start
  some ((← r.finish).map (·.map String.ofList))

end Brokerage.Csv
