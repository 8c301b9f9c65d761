import Brokerage.Report

namespace Brokerage.Report

theorem octets_toList (s : String) : octets s.toList = s.toUTF8.data.toList := by
  rw [String.toUTF8_eq_toByteArray, ← String.utf8Encode_toList, List.utf8Encode,
    List.data_toByteArray]
  rfl

theorem flatten_units (cs : List Char) : (units cs).flatten = octets cs := by
  unfold units
  split
  · rw [octets, List.flatMap_singleton, ← List.flatMap_def, List.flatMap_singleton']
  · exact List.flatten_singleton

theorem flatten_pieces (ps : List (List Char)) : (ps.flatMap units).flatten = octets ps.flatten := by
  induction ps with
  | nil => rfl
  | cons p ps ih =>
    rw [List.flatMap_cons, List.flatten_append, flatten_units, ih, List.flatten_cons, octets, octets,
      octets, List.flatMap_append]

namespace Writer

def written (w : Writer) : List UInt8 := w.sink.taken ++ w.held.reverse

structure Unbounded (w : Writer) : Prop where
  going : w.stalled = false
  roomy : w.sink.room = none

variable {w : Writer}

theorem start_unbounded : (start none).Unbounded := ⟨rfl, rfl⟩

theorem deliver_unbounded (hw : w.Unbounded) :
    w.deliver = (true, ⟨w.headed, [], capacity, false, ⟨none, w.written⟩⟩) := by
  obtain ⟨headed, held, free, stalled, room, taken⟩ := w
  obtain ⟨rfl, rfl⟩ := hw
  rfl

theorem put_unbounded (hw : w.Unbounded) (bytes : List UInt8) : (w.put bytes).Unbounded ∧
    (w.put bytes).headed = w.headed ∧ (w.put bytes).written = w.written ++ bytes := by
  rw [put, if_neg (by rw [hw.going]; exact Bool.false_ne_true)]
  split
  · refine ⟨⟨hw.going, hw.roomy⟩, rfl, ?_⟩
    simp only [hold, written, List.reverse_append, List.reverse_reverse, List.append_assoc]
  · rw [deliver_unbounded hw]
    refine ⟨⟨rfl, rfl⟩, rfl, ?_⟩
    simp [hold, written]

theorem foldl_put_unbounded (hw : w.Unbounded) (pieces : List (List UInt8)) :
    (pieces.foldl put w).Unbounded ∧ (pieces.foldl put w).headed = w.headed ∧
      (pieces.foldl put w).written = w.written ++ pieces.flatten := by
  induction pieces generalizing w with
  | nil => exact ⟨hw, rfl, (List.append_nil _).symm⟩
  | cons p pieces ih =>
    obtain ⟨hp, hh, hs⟩ := put_unbounded hw p
    obtain ⟨hf, hh', hs'⟩ := ih hp
    refine ⟨hf, hh'.trans hh, ?_⟩
    rw [List.foldl_cons, hs', hs, List.flatten_cons, List.append_assoc]

theorem write_unbounded (hw : w.Unbounded) (rows : List Row) :
    w.write rows = (.complete, ⟨w.headed || ! rows.isEmpty, [], capacity, false,
      ⟨none, w.written ++ octets (batch w.headed rows).flatten⟩⟩) := by
  obtain ⟨hf, hh, hs⟩ := foldl_put_unbounded
    (w := { w with headed := w.headed || ! rows.isEmpty }) ⟨hw.going, hw.roomy⟩
    ((batch w.headed rows).flatMap units)
  rw [flatten_pieces] at hs
  simp only [write, hf.going, Bool.false_eq_true, ↓reduceIte, deliver_unbounded hf, hh, hs]
  rfl

theorem write_start (rows : List Row) : ∃ w : Writer, (start none).write rows = (.complete, w) ∧
    w.sink.taken = (text rows).toUTF8.data.toList := by
  refine ⟨_, write_unbounded start_unbounded rows, ?_⟩
  rw [← octets_toList, text, String.toList_ofList]
  rfl

end Writer

end Brokerage.Report
