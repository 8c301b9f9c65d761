import Brokerage.Csv
import Brokerage.Csv.Reader

namespace Brokerage.Csv

theorem needsQuotes_eq_false_iff (cs : List Char) : needsQuotes cs = false ↔
    ∀ c ∈ cs, c ≠ '"' ∧ c ≠ ',' ∧ c ≠ '\n' ∧ c ≠ '\r' := by
  simp [needsQuotes, and_assoc]

theorem field_of_quotes {cs : List Char} (h : needsQuotes cs = true) :
    field cs = '"' :: (cs.flatMap doubled ++ ['"']) := by
  rw [field, fieldPieces, if_pos h, List.flatten_cons, List.flatten_append, ← List.flatMap_def]
  rfl

theorem field_of_no_quotes {cs : List Char} (h : needsQuotes cs = false) : field cs = cs := by
  rw [field, fieldPieces, h, if_neg Bool.false_ne_true, ← List.flatMap_def, List.flatMap_singleton']

theorem line_singleton (f : List Char) : line [f] = field f ++ ['\n'] := by
  simp [line, linePieces, field]

theorem line_cons_cons (f g : List Char) (fs : List (List Char)) :
    line (f :: g :: fs) = field f ++ ',' :: line (g :: fs) := by
  simp [line, linePieces, field, List.intercalate_cons_cons]

namespace Reader

variable (record : List (List Char)) (records : List (List (List Char)))

theorem step_doubled (cs : List Char) (c : Char) :
    (doubled c).foldlM step ⟨.quoted, cs, record, records⟩ =
      some ⟨.quoted, cs ++ [c], record, records⟩ := by
  by_cases hc : c = '"'
  · subst hc
    rfl
  · simp [doubled, hc, step, push]

theorem foldlM_doubled (cs ds : List Char) :
    (ds.flatMap doubled).foldlM step ⟨.quoted, cs, record, records⟩ =
      some ⟨.quoted, cs ++ ds, record, records⟩ := by
  induction ds generalizing cs with
  | nil => simp
  | cons d ds ih =>
    rw [List.flatMap_cons, List.foldlM_append, step_doubled]
    simpa using ih (cs ++ [d])

theorem foldlM_bare (cs ds : List Char) (h : needsQuotes ds = false) :
    ds.foldlM step ⟨.bare, cs, record, records⟩ = some ⟨.bare, cs ++ ds, record, records⟩ := by
  rw [needsQuotes_eq_false_iff] at h
  induction ds generalizing cs with
  | nil => simp
  | cons d ds ih =>
    obtain ⟨hq, hc, hn, -⟩ := h d List.mem_cons_self
    have hs : step ⟨.bare, cs, record, records⟩ d = some ⟨.bare, cs ++ [d], record, records⟩ := by
      simp [step, leave, push, hq, hc, hn]
    rw [List.foldlM_cons, hs]
    simpa using ih (cs ++ [d]) fun c hm => h c (List.mem_cons_of_mem d hm)

theorem foldlM_field (cs : List Char) : ∃ s : Stand, s ≠ .quoted ∧
    (Csv.field cs).foldlM step ⟨.fresh, [], record, records⟩ = some ⟨s, cs, record, records⟩ := by
  cases hq : needsQuotes cs with
  | true =>
    refine ⟨.closing, by decide, ?_⟩
    have hopen : step ⟨.fresh, [], record, records⟩ '"' = some ⟨.quoted, [], record, records⟩ := rfl
    rw [field_of_quotes hq, List.foldlM_cons, hopen, Option.bind_eq_bind, Option.bind_some,
      List.foldlM_append, foldlM_doubled]
    rfl
  | false =>
    rw [field_of_no_quotes hq]
    cases cs with
    | nil => exact ⟨.fresh, by decide, rfl⟩
    | cons c cs =>
      refine ⟨.bare, by decide, ?_⟩
      have hplain := (needsQuotes_eq_false_iff _).mp hq
      obtain ⟨hc, hcomma, hn, -⟩ := hplain c List.mem_cons_self
      have hs : step ⟨.fresh, [], record, records⟩ c = some ⟨.bare, [c], record, records⟩ := by
        simp [step, leave, push, hc, hcomma, hn]
      have ht : needsQuotes cs = false :=
        (needsQuotes_eq_false_iff _).mpr fun d hd => hplain d (List.mem_cons_of_mem c hd)
      rw [List.foldlM_cons, hs]
      exact foldlM_bare record records [c] cs ht

variable {s : Stand} (cs : List Char)

theorem step_comma (hs : s ≠ .quoted) : step ⟨s, cs, record, records⟩ ',' =
    some ⟨.fresh, [], record ++ [cs], records⟩ := by
  cases s with
  | quoted => exact absurd rfl hs
  | fresh => rfl
  | bare => rfl
  | closing => rfl

theorem step_newline (hs : s ≠ .quoted) : step ⟨s, cs, record, records⟩ '\n' =
    some ⟨.fresh, [], [], records ++ [record ++ [cs]]⟩ := by
  cases s with
  | quoted => exact absurd rfl hs
  | fresh => rfl
  | bare => rfl
  | closing => rfl

theorem foldlM_line (f : List Char) (fs : List (List Char)) :
    (line (f :: fs)).foldlM step ⟨.fresh, [], record, records⟩ =
      some ⟨.fresh, [], [], records ++ [record ++ f :: fs]⟩ := by
  induction fs generalizing f record with
  | nil =>
    obtain ⟨s, hs, hf⟩ := foldlM_field record records f
    rw [line_singleton, List.foldlM_append, hf]
    exact (bind_pure _).trans (step_newline record records f hs)
  | cons g fs ih =>
    obtain ⟨s, hs, hf⟩ := foldlM_field record records f
    rw [line_cons_cons, List.foldlM_append, hf, Option.bind_eq_bind, Option.bind_some,
      List.foldlM_cons, step_comma record records f hs, Option.bind_eq_bind, Option.bind_some, ih,
      List.append_assoc]
    rfl

theorem foldlM_lines (rs : List (List (List Char))) (h : ∀ r ∈ rs, r ≠ []) :
    (rs.flatMap line).foldlM step ⟨.fresh, [], [], records⟩ =
      some ⟨.fresh, [], [], records ++ rs⟩ := by
  induction rs generalizing records with
  | nil => simp
  | cons r rs ih =>
    obtain ⟨f, fs, rfl⟩ := List.exists_cons_of_ne_nil (h r List.mem_cons_self)
    rw [List.flatMap_cons, List.foldlM_append, foldlM_line, Option.bind_eq_bind, Option.bind_some,
      ih _ fun x hx => h x (List.mem_cons_of_mem _ hx), List.append_assoc]
    rfl

end Reader

def lines (rs : List (List String)) : List Char := rs.flatMap fun r => line (r.map String.toList)

theorem lines_append (rs ss : List (List String)) : lines (rs ++ ss) = lines rs ++ lines ss :=
  List.flatMap_append

theorem read?_lines (rs : List (List String)) (h : ∀ r ∈ rs, r ≠ []) :
    read? (String.ofList (lines rs)) = some rs := by
  have hl : lines rs = (rs.map fun r => r.map String.toList).flatMap line :=
    (List.flatMap_map _ _ rs).symm
  have hr := Reader.foldlM_lines [] (rs.map fun r => r.map String.toList) (by simpa using h)
  have hf : Reader.finish ⟨.fresh, [], [], rs.map fun r => r.map String.toList⟩ =
      some (rs.map fun r => r.map String.toList) := rfl
  rw [List.nil_append] at hr
  rw [read?, String.toList_ofList, hl, Reader.start, hr]
  simp [hf, Function.comp_def]

example : read? "a,\"b\"\"c\",\n\"x\ny\",z" = some [["a", "b\"c", ""], ["x\ny", "z"]] := by decide

end Brokerage.Csv
