/-!
Comma-separated records. A field stands between quotes when it holds a comma, a quote or a line
break, and a quote inside it is written twice. A line is made of pieces: a pair of quotes stays
together, any other character is a piece of its own.
-/

namespace Brokerage.Csv

def needsQuotes (cs : List Char) : Bool :=
  cs.any fun c => c = '"' || c = ',' || c = '\n' || c = '\r'

def doubled (c : Char) : List Char := if c = '"' then ['"', '"'] else [c]

def fieldPieces (cs : List Char) : List (List Char) :=
  if needsQuotes cs then ['"'] :: (cs.map doubled ++ [['"']]) else cs.map fun c => [c]

def linePieces (fields : List (List Char)) : List (List Char) :=
  [[',']].intercalate (fields.map fieldPieces) ++ [['\n']]

def field (cs : List Char) : List Char := (fieldPieces cs).flatten

def line (fields : List (List Char)) : List Char := (linePieces fields).flatten

end Brokerage.Csv
