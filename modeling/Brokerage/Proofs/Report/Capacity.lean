import Brokerage.Proofs.Report.Batches
import Mathlib.Data.List.Induction

namespace Brokerage.Report

namespace Writer

structure Flowing (n : Nat) (w : Writer) : Prop where
  going : w.stalled = false
  room : w.sink.room = some (n - w.sink.taken.length)
  fits : w.sink.taken.length ≤ n

def Stuck (w : Writer) : Prop := w.stalled = true ∨ w.sink.room = some 0 ∧ w.held ≠ []

variable {n : Nat} {w : Writer}

theorem start_flowing (n : Nat) : Flowing n (start (some n)) := ⟨rfl, rfl, Nat.zero_le n⟩

theorem length_written (w : Writer) : w.written.length = w.sink.taken.length + w.held.length := by
  rw [written, List.length_append, List.length_reverse]

theorem deliver_of_room {k : Nat} (hr : w.sink.room = some k) (h : w.held.length ≤ k) :
    w.deliver = (true, ⟨w.headed, [], capacity, w.stalled, ⟨some (k - w.held.length), w.written⟩⟩) := by
  obtain ⟨headed, held, free, stalled, room, taken⟩ := w
  dsimp only at hr h
  subst hr
  have ht : held.reverse.take k = held.reverse :=
    List.take_of_length_le (by rwa [List.length_reverse])
  simp only [deliver, Sink.take, List.length_reverse, decide_eq_true h, ht, written, ↓reduceIte]

theorem deliver_of_no_room {k : Nat} (hr : w.sink.room = some k) (h : k < w.held.length) :
    w.deliver.1 = false ∧ Stuck w.deliver.2 := by
  obtain ⟨headed, held, free, stalled, room, taken⟩ := w
  dsimp only at hr h
  subst hr
  have hn : ¬ held.length ≤ k := Nat.not_le.mpr h
  simp only [deliver, Sink.take, List.length_reverse, decide_eq_false hn, Bool.false_eq_true,
    ↓reduceIte, true_and]
  refine .inr ⟨congrArg some (by omega), ?_⟩
  rintro rfl
  exact absurd h (Nat.not_lt_zero k)

theorem deliver_of_fits (hw : Flowing n w) (h : w.written.length ≤ n) :
    w.deliver = (true, ⟨w.headed, [], capacity, false, ⟨some (n - w.written.length), w.written⟩⟩) := by
  have hl := length_written w
  have hf := hw.fits
  rw [deliver_of_room hw.room (by omega), hw.going,
    show n - w.sink.taken.length - w.held.length = n - w.written.length by omega]

theorem deliver_of_exceeds (hw : Flowing n w) (h : n < w.written.length) :
    w.deliver.1 = false ∧ Stuck w.deliver.2 := by
  have hl := length_written w
  have hf := hw.fits
  exact deliver_of_no_room hw.room (by omega)

theorem deliver_of_stuck (hw : Stuck w) (hs : w.stalled = false) :
    w.deliver.1 = false ∧ Stuck w.deliver.2 := by
  rcases hw with h | ⟨h, hh⟩
  · rw [hs] at h
    cases h
  · exact deliver_of_no_room h (List.length_pos_iff.mpr hh)

def Underway (n : Nat) (octets : List UInt8) (w : Writer) : Prop :=
  Flowing n w ∧ w.written = octets ∨ Stuck w ∧ n < octets.length

theorem put_flowing (hw : Flowing n w) (bytes : List UInt8) :
    Underway n (w.written ++ bytes) (w.put bytes) := by
  rw [put, hw.going, if_neg Bool.false_ne_true]
  split
  · refine .inl ⟨⟨hw.going, hw.room, hw.fits⟩, ?_⟩
    simp only [hold, written, List.reverse_append, List.reverse_reverse, List.append_assoc]
  · by_cases h : w.written.length ≤ n
    · rw [deliver_of_fits hw h]
      refine .inl ⟨⟨rfl, rfl, h⟩, ?_⟩
      simp [hold, written]
    · obtain ⟨ho, -⟩ := deliver_of_exceeds hw (Nat.lt_of_not_le h)
      refine .inr ⟨.inl ?_, ?_⟩
      · simp only [ho, Bool.false_eq_true, ↓reduceIte]
      · rw [List.length_append]
        omega

theorem put_stuck (hw : Stuck w) (bytes : List UInt8) : Stuck (w.put bytes) := by
  rw [put]
  split
  · exact hw
  · next hs =>
    have hs : w.stalled = false := by simpa using hs
    split
    · rcases hw with h | ⟨h, hh⟩
      · exact .inl h
      · exact .inr ⟨h, by simp [hold, hh]⟩
    · obtain ⟨ho, -⟩ := deliver_of_stuck hw hs
      left
      simp only [ho, Bool.false_eq_true, ↓reduceIte]

theorem put_underway {bs : List UInt8} (hw : Underway n bs w) (bytes : List UInt8) :
    Underway n (bs ++ bytes) (w.put bytes) := by
  rcases hw with ⟨hw, rfl⟩ | ⟨hw, hl⟩
  · exact put_flowing hw bytes
  · refine .inr ⟨put_stuck hw bytes, ?_⟩
    rw [List.length_append]
    omega

theorem foldl_put_underway {bs : List UInt8} (hw : Underway n bs w) (pieces : List (List UInt8)) :
    Underway n (bs ++ pieces.flatten) (pieces.foldl put w) := by
  induction pieces generalizing w bs with
  | nil => rwa [List.flatten_nil, List.append_nil]
  | cons p pieces ih =>
    rw [List.flatten_cons, ← List.append_assoc]
    exact ih (put_underway hw p)

theorem deliver_headed (w : Writer) : w.deliver.2.headed = w.headed := by
  simp only [deliver]
  split <;> rfl

theorem put_headed (w : Writer) (bytes : List UInt8) : (w.put bytes).headed = w.headed := by
  rw [put]
  split
  · rfl
  · split
    · rfl
    · dsimp only
      split
      · exact w.deliver_headed
      · exact w.deliver_headed

theorem foldl_put_headed (w : Writer) (pieces : List (List UInt8)) :
    (pieces.foldl put w).headed = w.headed := by
  induction pieces generalizing w with
  | nil => rfl
  | cons p pieces ih => rw [List.foldl_cons, ih, put_headed]

def filled (w : Writer) (rows : List Row) : Writer :=
  ((batch w.headed rows).flatMap units).foldl put { w with headed := w.headed || ! rows.isEmpty }

theorem write_eq (w : Writer) (rows : List Row) : w.write rows =
    if (w.filled rows).stalled then (.stalled, w.filled rows)
    else (if (w.filled rows).deliver.1 then .complete else .refused, (w.filled rows).deliver.2) := rfl

theorem write_headed (w : Writer) (rows : List Row) :
    (w.write rows).2.headed = (w.headed || ! rows.isEmpty) := by
  have hf : (w.filled rows).headed = (w.headed || ! rows.isEmpty) := foldl_put_headed _ _
  rw [write_eq]
  split
  · exact hf
  · exact (deliver_headed _).trans hf

def Settled (n : Nat) (octets : List UInt8) (w : Writer) : Prop :=
  Flowing n w ∧ w.held = [] ∧ w.sink.taken = octets ∨ Stuck w ∧ n < octets.length

theorem Settled.filled {bs : List UInt8} (hw : Settled n bs w) (rows : List Row) :
    Underway n (bs ++ octets (batch w.headed rows).flatten) (w.filled rows) := by
  rw [← flatten_pieces]
  apply foldl_put_underway
  rcases hw with ⟨hf, hh, rfl⟩ | ⟨hs, hl⟩
  · refine .inl ⟨⟨hf.going, hf.room, hf.fits⟩, ?_⟩
    simp only [written, hh, List.reverse_nil, List.append_nil]
  · exact .inr ⟨hs, hl⟩

theorem write_of_underway {bs : List UInt8} {rows : List Row} (hw : Underway n bs (w.filled rows)) :
    ((w.write rows).1 = .complete ↔ bs.length ≤ n) ∧ Settled n bs (w.write rows).2 := by
  rw [write_eq]
  rcases hw with ⟨hf, rfl⟩ | ⟨hs, hl⟩
  · rw [hf.going, if_neg Bool.false_ne_true]
    by_cases h : (w.filled rows).written.length ≤ n
    · rw [deliver_of_fits hf h]
      exact ⟨⟨fun _ => h, fun _ => rfl⟩, .inl ⟨⟨rfl, rfl, h⟩, rfl, rfl⟩⟩
    · obtain ⟨ho, hs⟩ := deliver_of_exceeds hf (Nat.lt_of_not_le h)
      rw [ho]
      exact ⟨⟨nofun, fun hc => absurd hc h⟩, .inr ⟨hs, Nat.lt_of_not_le h⟩⟩
  · have hn : ¬ bs.length ≤ n := Nat.not_le.mpr hl
    split
    · exact ⟨⟨nofun, fun hc => absurd hc hn⟩, .inr ⟨hs, hl⟩⟩
    · next hg =>
      obtain ⟨ho, hs⟩ := deliver_of_stuck hs (by simpa using hg)
      rw [ho]
      exact ⟨⟨nofun, fun hc => absurd hc hn⟩, .inr ⟨hs, hl⟩⟩

structure After (n : Nat) (bs : List (List Row)) (w : Writer) : Prop where
  headed : w.headed = bs.any (! ·.isEmpty)
  settled : Settled n (delivered bs) w

theorem After.write {bs : List (List Row)} (hw : After n bs w) (rows : List Row) :
    ((w.write rows).1 = .complete ↔ (delivered (bs ++ [rows])).length ≤ n) ∧
      After n (bs ++ [rows]) (w.write rows).2 := by
  obtain ⟨hc, hs⟩ := write_of_underway (hw.settled.filled rows)
  rw [hw.headed, ← delivered_append] at hc hs
  refine ⟨hc, ?_, hs⟩
  rw [write_headed, hw.headed, List.any_append, List.any_cons, List.any_nil, Bool.or_false]

theorem after_writeAll (n : Nat) (bs : List (List Row)) :
    After n bs ((start (some n)).writeAll bs).2 := by
  induction bs using List.reverseRecOn with
  | nil => exact ⟨rfl, .inl ⟨start_flowing n, rfl, rfl⟩⟩
  | append_singleton bs rows ih =>
    rw [writeAll_append]
    exact (ih.write rows).2

theorem getElem?_writeAll (w : Writer) (bs : List (List Row)) (i : Nat) (hi : i < bs.length) :
    (w.writeAll bs).1[i]? = some ((w.writeAll (bs.take i)).2.write bs[i]).1 := by
  induction bs generalizing w i with
  | nil => cases hi
  | cons rows bs ih =>
    cases i with
    | zero => rfl
    | succ i => exact ih (w.write rows).2 i (Nat.lt_of_succ_lt_succ hi)

end Writer

theorem length_delivered_le {bs cs : List (List Row)} (h : bs <+: cs) :
    (delivered bs).length ≤ (delivered cs).length := by
  obtain ⟨ds, rfl⟩ := h
  rw [delivered_eq, delivered_eq, transcript_append, Csv.lines_append, octets, octets,
    List.flatMap_append, List.length_append]
  exact Nat.le_add_right _ _

/-- A batch is reported as delivered exactly if the sink has room for all that was written up to its
end. The sink then has all of it, and after a batch that was not delivered none is. -/
theorem complete_iff_fits (n : Nat) (bs : List (List Row)) :
    let answers := ((Writer.start (some n)).writeAll bs).1
    let text (i : Nat) := octets (Csv.lines (transcript [] (bs.take i)))
    (∀ i, delivered (bs.take i) = text i) ∧ answers.length = bs.length ∧ ∀ i < bs.length,
      (answers[i]? = some .complete ↔ (text (i + 1)).length ≤ n) ∧
      (answers[i]? = some .complete →
        ((Writer.start (some n)).writeAll (bs.take (i + 1))).2.sink.taken = text (i + 1)) ∧
      ∀ j < bs.length, i < j → answers[i]? ≠ some .complete → answers[j]? ≠ some .complete := by
  intro answers text
  have ht (i : Nat) : delivered (bs.take i) = text i := delivered_eq _
  have hc (i : Nat) (hi : i < bs.length) :
      answers[i]? = some .complete ↔ (text (i + 1)).length ≤ n := by
    have ha := ((Writer.after_writeAll n (bs.take i)).write bs[i]).1
    rw [← List.take_succ_eq_append_getElem hi, ht] at ha
    rw [← ha, show answers[i]? = _ from Writer.getElem?_writeAll _ bs i hi, Option.some_inj]
  refine ⟨ht, Writer.length_writeAll _ bs, fun i hi => ⟨hc i hi, ?_, ?_⟩⟩
  · intro h
    have hl := (hc i hi).mp h
    rw [← ht] at hl ⊢
    rcases (Writer.after_writeAll n (bs.take (i + 1))).settled with ⟨-, -, hs⟩ | ⟨-, hn⟩
    · exact hs
    · omega
  · intro j hj hij hn h
    -- What is written only grows.
    have hp : bs.take (i + 1) <+: bs.take (j + 1) := List.take_prefix_take_left (by omega)
    have hg := length_delivered_le hp
    rw [ht, ht] at hg
    exact hn ((hc i hi).mpr (Nat.le_trans hg ((hc j hj).mp h)))

end Brokerage.Report
