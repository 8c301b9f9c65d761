import Brokerage.Proofs.Csv.Reading
import Brokerage.Proofs.Report.Delivery
import Brokerage.Proofs.Text.Digits

namespace Brokerage.Report

open Text

def heading : List String := ["id", "priority", "disabled", "generous"]

def record (r : Row) : List String :=
  [r.id, (r.priority.map fun n => toString n.toInt).getD "", toString r.disabled,
    toString r.generous]

theorem intText_eq_toString (n : Int) : intText n = toString n := by
  cases n with
  | ofNat m => rfl
  | negSucc m =>
    have hs : toString (Int.negSucc m) = "-" ++ String.ofList (Nat.toDigits 10 (m + 1)) := rfl
    have hc : intChars (Int.negSucc m) = ['-'] ++ Nat.toDigits 10 (m + 1) :=
      if_pos (Int.negSucc_lt_zero m)
    rw [intText, hs, hc, String.ofList_append]

theorem fields_eq (r : Row) : fields r = (record r).map String.toList := by
  obtain ⟨id, priority, disabled, generous⟩ := r
  have hp : (priority.map fun n => (intText n.toInt).toList).getD [] =
      ((priority.map fun n => toString n.toInt).getD "").toList := by
    cases priority with
    | none => rfl
    | some n => simp only [Option.map_some, Option.getD_some, intText_eq_toString]
  have hb (b : Bool) : boolText b = toString b := by cases b <;> rfl
  simp only [fields, record, hp, hb, List.map_cons, List.map_nil]

def priority? (s : String) : Option (Option Int32) :=
  if s = "" then some none else (readInt? s.toList).map fun n => some (Int32.ofInt n)

def flag? (s : String) : Option Bool :=
  if s = "true" then some true else if s = "false" then some false else none

def ofRecord? : List String → Option Row
  | [id, priority, disabled, generous] => do
    some ⟨id, ← priority? priority, ← flag? disabled, ← flag? generous⟩
  | _ => none

theorem flag?_toString (b : Bool) : flag? (toString b) = some b := by
  cases b <;> rfl

theorem priority?_toString (n : Int32) : priority? (toString n.toInt) = some (some n) := by
  have hr : readInt? (toString n.toInt).toList = some n.toInt := by
    rw [← intText_eq_toString, intText, String.toList_ofList, readInt?_intChars]
  have he : toString n.toInt ≠ "" := by
    intro h
    rw [h] at hr
    cases hr
  rw [priority?, if_neg he, hr, Option.map_some, Int32.ofInt_toInt]

theorem ofRecord?_record (r : Row) : ofRecord? (record r) = some r := by
  obtain ⟨id, priority, disabled, generous⟩ := r
  have hp : priority? ((priority.map fun n => toString n.toInt).getD "") = some priority := by
    cases priority with
    | none => rfl
    | some n => exact priority?_toString n
  simp only [ofRecord?, record, hp, flag?_toString, Option.bind_eq_bind, Option.bind_some]

theorem ofRecord?_heading : ofRecord? heading = none := by decide

def recordsOf (earlier : List (List Row)) (rows : List Row) : List (List String) :=
  (if rows = [] ∨ ∀ b ∈ earlier, b = [] then [heading] else []) ++ rows.map record

def transcript (earlier : List (List Row)) : List (List Row) → List (List String)
  | [] => []
  | rows :: bs => recordsOf earlier rows ++ transcript (earlier ++ [rows]) bs

theorem recordsOf_ne_nil (earlier : List (List Row)) (rows : List Row) :
    ∀ r ∈ recordsOf earlier rows, r ≠ [] := by
  intro r hm
  rcases List.mem_append.mp hm with hm | hm
  · split at hm
    · rw [List.mem_singleton.mp hm]
      exact List.cons_ne_nil _ _
    · cases hm
  · obtain ⟨row, -, rfl⟩ := List.mem_map.mp hm
    exact List.cons_ne_nil _ _

theorem transcript_append (earlier bs cs : List (List Row)) :
    transcript earlier (bs ++ cs) = transcript earlier bs ++ transcript (earlier ++ bs) cs := by
  induction bs generalizing earlier with
  | nil => rw [List.append_nil]; rfl
  | cons rows bs ih =>
    rw [List.cons_append, transcript, transcript, ih, List.append_assoc, List.append_assoc]
    rfl

theorem transcript_ne_nil (earlier bs : List (List Row)) : ∀ r ∈ transcript earlier bs, r ≠ [] := by
  induction bs generalizing earlier with
  | nil => exact nofun
  | cons rows bs ih =>
    intro r hm
    rcases List.mem_append.mp hm with hm | hm
    · exact recordsOf_ne_nil earlier rows r hm
    · exact ih _ r hm

theorem filterMap_recordsOf (earlier : List (List Row)) (rows : List Row) :
    (recordsOf earlier rows).filterMap ofRecord? = rows := by
  have hr : (rows.map record).filterMap ofRecord? = rows := by
    rw [List.filterMap_map, show ofRecord? ∘ record = some from funext ofRecord?_record,
      List.filterMap_some]
  rw [recordsOf, List.filterMap_append, hr]
  split
  · rw [List.filterMap_cons, ofRecord?_heading]
    rfl
  · rfl

theorem filterMap_transcript (earlier bs : List (List Row)) :
    (transcript earlier bs).filterMap ofRecord? = bs.flatten := by
  induction bs generalizing earlier with
  | nil => rfl
  | cons rows bs ih =>
    rw [transcript, List.filterMap_append, filterMap_recordsOf, ih, List.flatten_cons]

theorem transcript_of_rows {earlier bs : List (List Row)} (he : ∃ b ∈ earlier, b ≠ [])
    (hb : ∀ b ∈ bs, b ≠ []) : transcript earlier bs = bs.flatten.map record := by
  induction bs generalizing earlier with
  | nil => rfl
  | cons rows bs ih =>
    obtain ⟨b, hm, hn⟩ := he
    have hno : ¬ (rows = [] ∨ ∀ b ∈ earlier, b = []) := by
      rintro (h | h)
      · exact hb rows List.mem_cons_self h
      · exact hn (h b hm)
    have he' : ∃ b ∈ earlier ++ [rows], b ≠ [] := ⟨b, List.mem_append_left _ hm, hn⟩
    have ht := ih he' fun c hc => hb c (List.mem_cons_of_mem _ hc)
    rw [transcript, recordsOf, if_neg hno, ht, List.flatten_cons, List.map_append]
    rfl

theorem transcript_flatten {bs : List (List Row)} (hn : bs ≠ []) (hb : ∀ b ∈ bs, b ≠ []) :
    transcript [] bs = transcript [] [bs.flatten] := by
  obtain ⟨rows, bs, rfl⟩ := List.exists_cons_of_ne_nil hn
  have he : ∃ b ∈ [] ++ [rows], b ≠ [] :=
    ⟨rows, List.mem_singleton_self _, hb rows List.mem_cons_self⟩
  have ht := transcript_of_rows he fun c hc => hb c (List.mem_cons_of_mem rows hc)
  have hh (rows : List Row) : recordsOf [] rows = heading :: rows.map record := by
    rw [recordsOf, if_pos (.inr nofun)]
    rfl
  simp only [transcript, ht, hh, List.flatten_cons, List.map_append, List.append_nil,
    List.cons_append]

theorem flatten_header : header.flatten = Csv.lines [heading] := (List.append_nil _).symm

theorem flatten_body (rows : List Row) : (body rows).flatten = Csv.lines (rows.map record) := by
  induction rows with
  | nil => rfl
  | cons r rows ih =>
    rw [body, List.flatMap_cons, List.flatten_append, fields_eq, ← body, ih]
    rfl

theorem flatten_batch (earlier : List (List Row)) (rows : List Row) :
    (batch (earlier.any (! ·.isEmpty)) rows).flatten = Csv.lines (recordsOf earlier rows) := by
  have he : earlier.any (! ·.isEmpty) = true ↔ ¬ ∀ b ∈ earlier, b = [] := by simp
  by_cases hr : rows = []
  · subst hr
    rw [recordsOf, if_pos (.inl rfl)]
    exact flatten_header
  · have hne : rows.isEmpty = false := by simpa using hr
    rw [batch, hne, if_neg Bool.false_ne_true, List.flatten_append, flatten_body, recordsOf,
      Csv.lines_append]
    by_cases ha : ∀ b ∈ earlier, b = []
    · rw [if_neg fun h => he.mp h ha, if_pos (.inr ha), flatten_header]
    · rw [if_pos (he.mpr ha), if_neg (not_or.mpr ⟨hr, ha⟩)]
      rfl

namespace Writer

def writeAll (w : Writer) : List (List Row) → List Delivery × Writer
  | [] => ([], w)
  | rows :: bs =>
    let (d, w) := w.write rows
    let (ds, w) := w.writeAll bs
    (d :: ds, w)

theorem writeAll_cons (w : Writer) (rows : List Row) (bs : List (List Row)) :
    w.writeAll (rows :: bs) =
      ((w.write rows).1 :: ((w.write rows).2.writeAll bs).1, ((w.write rows).2.writeAll bs).2) := rfl

theorem writeAll_append (w : Writer) (bs cs : List (List Row)) : w.writeAll (bs ++ cs) =
    ((w.writeAll bs).1 ++ ((w.writeAll bs).2.writeAll cs).1, ((w.writeAll bs).2.writeAll cs).2) := by
  induction bs generalizing w with
  | nil => rfl
  | cons rows bs ih => rw [List.cons_append, writeAll_cons, writeAll_cons, ih]; rfl

theorem length_writeAll (w : Writer) (bs : List (List Row)) :
    (w.writeAll bs).1.length = bs.length := by
  induction bs generalizing w with
  | nil => rfl
  | cons rows bs ih => rw [writeAll_cons, List.length_cons, ih, List.length_cons]

theorem writeAll_unbounded {w : Writer} {earlier : List (List Row)} (hw : w.Unbounded)
    (hh : w.held = []) (he : w.headed = earlier.any (! ·.isEmpty)) (bs : List (List Row)) :
    (w.writeAll bs).1 = List.replicate bs.length .complete ∧
      (w.writeAll bs).2.sink.taken = w.sink.taken ++ octets (Csv.lines (transcript earlier bs)) := by
  induction bs generalizing w earlier with
  | nil => exact ⟨rfl, (List.append_nil _).symm⟩
  | cons rows bs ih =>
    have hb := write_unbounded hw rows
    rw [he, flatten_batch, written, hh, List.reverse_nil, List.append_nil] at hb
    have hhead : (w.headed || ! rows.isEmpty) = (earlier ++ [rows]).any (! ·.isEmpty) := by
      rw [he, List.any_append, List.any_cons, List.any_nil, Bool.or_false]
    have hw' : (w.write rows).2.Unbounded := by rw [hb]; exact ⟨rfl, rfl⟩
    have he' : (w.write rows).2.headed = (earlier ++ [rows]).any (! ·.isEmpty) := by
      rw [hb, ← hhead, he]
    obtain ⟨hd, ht⟩ := ih hw' (by rw [hb]) he'
    rw [writeAll_cons]
    refine ⟨?_, ?_⟩
    · rw [hd, hb]
      rfl
    · rw [ht, hb, transcript, Csv.lines_append, octets, octets, octets, List.flatMap_append,
        List.append_assoc]

end Writer

def delivered (bs : List (List Row)) : List UInt8 := ((Writer.start none).writeAll bs).2.sink.taken

theorem writeAll_start (bs : List (List Row)) :
    ((Writer.start none).writeAll bs).1 = List.replicate bs.length .complete ∧
      delivered bs = octets (Csv.lines (transcript [] bs)) :=
  Writer.writeAll_unbounded Writer.start_unbounded rfl rfl bs

theorem delivered_eq (bs : List (List Row)) :
    delivered bs = octets (Csv.lines (transcript [] bs)) := (writeAll_start bs).2

theorem delivered_append (bs : List (List Row)) (rows : List Row) :
    delivered (bs ++ [rows]) =
      delivered bs ++ octets (batch (bs.any (! ·.isEmpty)) rows).flatten := by
  rw [delivered_eq, delivered_eq, transcript_append, Csv.lines_append, flatten_batch, octets, octets,
    octets, List.flatMap_append]
  simp only [transcript, List.append_nil, List.nil_append]

theorem octets_injective {cs ds : List Char} (h : octets cs = octets ds) : cs = ds := by
  rw [← String.toList_ofList (l := cs), ← String.toList_ofList (l := ds), octets_toList,
    octets_toList, String.toUTF8_eq_toByteArray, String.toUTF8_eq_toByteArray] at h
  have hb := ByteArray.ext (Array.toList_inj.mp h)
  exact String.ofList_injective (String.toByteArray_inj.mp hb)

theorem transcript_of_delivered {bs cs : List (List Row)} (h : delivered bs = delivered cs) :
    transcript [] bs = transcript [] cs := by
  rw [delivered_eq, delivered_eq] at h
  have hb := Csv.read?_lines _ (transcript_ne_nil [] bs)
  rw [octets_injective h, Csv.read?_lines _ (transcript_ne_nil [] cs)] at hb
  exact (Option.some.inj hb).symm

/-- Whatever is written to a sink without a bound is delivered, and a reader of the text finds the
records of all batches in order. The text depends on the rows alone when no batch is empty, and the
rows can always be told from it. -/
theorem batches_read_back (bs : List (List Row)) :
    ((Writer.start none).writeAll bs).1 = List.replicate bs.length .complete ∧
    (∃ text : String, delivered bs = text.toUTF8.data.toList ∧
      Csv.read? text = some (transcript [] bs)) ∧
    (bs ≠ [] → (∀ b ∈ bs, b ≠ []) → delivered bs = delivered [bs.flatten]) ∧
    ∀ cs : List (List Row), delivered cs = delivered bs → cs.flatten = bs.flatten := by
  refine ⟨(writeAll_start bs).1, ⟨String.ofList (Csv.lines (transcript [] bs)), ?_, ?_⟩, ?_, ?_⟩
  · rw [delivered_eq, ← octets_toList, String.toList_ofList]
  · exact Csv.read?_lines _ (transcript_ne_nil [] bs)
  · intro hn hb
    rw [delivered_eq, delivered_eq, transcript_flatten hn hb]
  · intro cs h
    rw [← filterMap_transcript [] cs, transcript_of_delivered h, filterMap_transcript]

end Brokerage.Report
