import Brokerage.Csv
import Brokerage.Settings.Row
import Brokerage.Text.Plain

namespace Brokerage.Report

open Text

def header : List (List Char) :=
  Csv.linePieces ["id".toList, "priority".toList, "disabled".toList, "generous".toList]

def fields (r : Row) : List (List Char) :=
  [r.id.toList, (r.priority.map fun n => (intText n.toInt).toList).getD [],
    (boolText r.disabled).toList, (boolText r.generous).toList]

def body (rows : List Row) : List (List Char) := rows.flatMap fun r => Csv.linePieces (fields r)

def batch (headed : Bool) (rows : List Row) : List (List Char) :=
  if rows.isEmpty then header
  else (if headed then [] else header) ++ body rows

def text (rows : List Row) : String := String.ofList (batch false rows).flatten

def octets (cs : List Char) : List UInt8 := cs.flatMap String.utf8EncodeChar

def units : List Char → List (List UInt8)
  | [c] => (String.utf8EncodeChar c).map fun b => [b]
  | cs => [octets cs]

structure Sink where
  room : Option Nat
  taken : List UInt8

def Sink.take (s : Sink) (bytes : List UInt8) : Bool × Sink :=
  match s.room with
  | none => (true, { s with taken := s.taken ++ bytes })
  | some n => (bytes.length ≤ n, ⟨some (n - bytes.length), s.taken ++ bytes.take n⟩)

/-- How the delivery of a batch ended. `refused`: the sink did not take the end of it. `stalled`:
the sink did not take what had to leave before all of the batch could be held. -/
inductive Delivery where
  | complete
  | refused
  | stalled
  deriving DecidableEq

/-- `headed` tells whether a batch of rows has been written. `held` has not been delivered, the last
octet first, and `free` more octets can be held. A writer that has stalled does not go on. -/
structure Writer where
  headed : Bool
  held : List UInt8
  free : Nat
  stalled : Bool
  sink : Sink

namespace Writer

def capacity : Nat := 8192

def start (room : Option Nat) : Writer := ⟨false, [], capacity, false, ⟨room, []⟩⟩

def hold (bytes : List UInt8) (w : Writer) : Writer :=
  { w with held := bytes.reverse ++ w.held, free := w.free - bytes.length }

def deliver (w : Writer) : Bool × Writer :=
  let (ok, sink) := w.sink.take w.held.reverse
  (ok, if ok then { w with held := [], free := capacity, sink } else { w with sink })

def put (w : Writer) (bytes : List UInt8) : Writer :=
  if w.stalled then w
  else if bytes.length ≤ w.free then w.hold bytes
  else
    let (ok, w) := w.deliver
    if ok then w.hold bytes else { w with stalled := true }

def write (w : Writer) (rows : List Row) : Delivery × Writer :=
  let bytes := (batch w.headed rows).flatMap units
  let w := bytes.foldl put { w with headed := w.headed || ! rows.isEmpty }
  if w.stalled then (.stalled, w)
  else
    let (ok, w) := w.deliver
    (if ok then .complete else .refused, w)

end Writer

end Brokerage.Report
