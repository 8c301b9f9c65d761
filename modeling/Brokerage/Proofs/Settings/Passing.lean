import Brokerage.Proofs.Json.Layout
import Brokerage.Settings.Reader

namespace Brokerage.Settings.Reading

open Json

section Runs

variable {r r' : Reading} {t : Token} {ts us : List Token}

theorem foldlM_cons_of_ok (h : r.step t = .ok r') :
    (t :: ts).foldlM step r = ts.foldlM step r' := by
  rw [List.foldlM_cons, h]
  rfl

theorem foldlM_append_of_ok (h : ts.foldlM step r = .ok r') :
    (ts ++ us).foldlM step r = us.foldlM step r' := by
  rw [List.foldlM_append, h]
  rfl

theorem foldlM_append_of_error {e : Fault} (h : ts.foldlM step r = .error e) :
    (ts ++ us).foldlM step r = .error e := by
  rw [List.foldlM_append, h]
  rfl

end Runs

def placed (r : Reading) (opened : List Bracket) (d : Due) : Reading := { r with place := ⟨opened, d⟩ }

variable {r : Reading}

theorem step_of_passes (hr : r.passes = true) {t : Token} {p : Place} (hp : r.place.step t = some p) :
    r.step t = .ok { r with place := p } := by
  have ha : r.advance t = .ok p := by simp only [advance, hp, hr, ↓reduceIte]
  have hm : r.mean t p = .ok r := by
    obtain ⟨⟨opened, d⟩, f, id, said, m, g⟩ := r
    simp only [passes, Bool.and_eq_true, decide_eq_true_eq] at hr
    obtain ⟨rfl, hr⟩ := hr
    cases opened with
    | nil => cases hr
    | cons b opened =>
      cases opened with
      | cons => rfl
      | nil =>
        cases b with
        | square => cases hr
        | curly =>
          obtain rfl : d = .value := of_decide_eq_true hr
          rfl
  simp only [step, ha, hm, bind, Except.bind]

theorem step_placed {opened opened' : List Bracket} {d d' : Due} {t : Token}
    (hr : (r.placed opened d).passes = true) (hs : Place.step ⟨opened, d⟩ t = some ⟨opened', d'⟩) :
    (r.placed opened d).step t = .ok (r.placed opened' d') :=
  step_of_passes hr hs

theorem passes_within (hf : r.field = .other) (b : Bracket) {opened : List Bracket}
    (ho : opened ≠ []) (d : Due) : (r.placed (b :: opened) d).passes = true := by
  obtain ⟨c, opened, rfl⟩ := List.exists_cons_of_ne_nil ho
  simp only [passes, placed, hf, decide_true, Bool.and_self]

theorem ne_nil_of_passes {opened : List Bracket} {d : Due}
    (hr : (r.placed opened d).passes = true) : opened ≠ [] := by
  rintro rfl
  simp [passes, placed] at hr

theorem foldlM_scalar {opened : List Bracket} {d : Due} {t : Token}
    (hr : (r.placed opened d).passes = true)
    (hs : Place.step ⟨opened, d⟩ t = some ⟨opened, .separator⟩) :
    [t].foldlM step (r.placed opened d) = .ok (r.placed opened .separator) :=
  foldlM_cons_of_ok (step_placed hr hs)

theorem foldlM_bracketed {opened : List Bracket} {d d' : Due} {b : Bracket} {ts : List Token}
    (hf : r.field = .other) (hd : d = .value ∨ d = .item)
    (hr : (r.placed opened d).passes = true)
    (hi : ts.foldlM step (r.placed (b :: opened) (Place.first b)) = .ok (r.placed (b :: opened) d'))
    (hd' : d' = Place.first b ∨ d' = .separator) :
    (.opening b :: (ts ++ [.closing b])).foldlM step (r.placed opened d) =
      .ok (r.placed opened .separator) := by
  have ho : Place.step ⟨opened, d⟩ (.opening b) = some ⟨b :: opened, Place.first b⟩ := by
    rcases hd with rfl | rfl <;> rfl
  have hc : Place.step ⟨b :: opened, d'⟩ (.closing b) = some ⟨opened, .separator⟩ := by
    rcases hd' with rfl | rfl <;> cases b <;> rfl
  have hp := passes_within hf b (ne_nil_of_passes hr) d'
  rw [foldlM_cons_of_ok (step_placed hr ho), foldlM_append_of_ok hi,
    foldlM_cons_of_ok (step_placed hp hc)]
  rfl

theorem due_of_isEmpty {α : Type} (l : List α) (d : Due) :
    (if l.isEmpty then d else .separator) = d ∨ (if l.isEmpty then d else Due.separator) = .separator := by
  cases l with
  | nil => exact .inl rfl
  | cons => exact .inr rfl

-- The bracket around a value stays open while it is passed over, so its parts are passed over as well.
mutual

theorem foldlM_passed (hf : r.field = .other) : ∀ (v : Value) {opened : List Bracket} {d : Due},
    d = .value ∨ d = .item → (r.placed opened d).passes = true →
    v.tokens.foldlM step (r.placed opened d) = .ok (r.placed opened .separator)
  | .null, _, _, hd, hr => foldlM_scalar hr (by rcases hd with rfl | rfl <;> rfl)
  | .flag _, _, _, hd, hr => foldlM_scalar hr (by rcases hd with rfl | rfl <;> rfl)
  | .number _, _, _, hd, hr => foldlM_scalar hr (by rcases hd with rfl | rfl <;> rfl)
  | .string _, _, _, hd, hr => foldlM_scalar hr (by rcases hd with rfl | rfl <;> rfl)
  | .list vs, _, _, hd, hr =>
    foldlM_bracketed hf hd hr (foldlM_passedItems hf vs (ne_nil_of_passes hr) (.inl rfl))
      (due_of_isEmpty vs _)
  | .object ms, _, _, hd, hr =>
    foldlM_bracketed hf hd hr (foldlM_passedMembers hf ms (ne_nil_of_passes hr) (.inl rfl))
      (due_of_isEmpty ms _)

theorem foldlM_passedItems (hf : r.field = .other) : ∀ (vs : List Value) {opened : List Bracket}
    {d : Due}, opened ≠ [] → d = .item ∨ d = .value →
    (Value.itemTokens vs).foldlM step (r.placed (.square :: opened) d) =
      .ok (r.placed (.square :: opened) (if vs.isEmpty then d else .separator))
  | [], _, _, _, _ => rfl
  | v :: vs, opened, d, ho, hd => by
    have hv := foldlM_passed hf v hd.symm (passes_within hf .square ho d)
    rw [Value.itemTokens, foldlM_append_of_ok hv]
    cases vs with
    | nil => rfl
    | cons w vs =>
      have hc := step_placed (passes_within hf .square ho .separator) (t := .comma) rfl
      exact (foldlM_cons_of_ok hc).trans (foldlM_passedItems hf (w :: vs) ho (.inr rfl))

theorem foldlM_passedMembers (hf : r.field = .other) : ∀ (ms : List (String × Value))
    {opened : List Bracket} {d : Due}, opened ≠ [] → d = .member ∨ d = .key →
    (Value.memberTokens ms).foldlM step (r.placed (.curly :: opened) d) =
      .ok (r.placed (.curly :: opened) (if ms.isEmpty then d else .separator))
  | [], _, _, _, _ => rfl
  | (k, v) :: ms, opened, d, ho, hd => by
    have hk : (r.placed (.curly :: opened) d).step (.string (some k)) =
        .ok (r.placed (.curly :: opened) .colon) :=
      step_placed (passes_within hf .curly ho d) (by rcases hd with rfl | rfl <;> rfl)
    have hc := step_placed (passes_within hf .curly ho .colon) (t := .colon) rfl
    have hv := foldlM_passed hf v (.inl rfl) (passes_within hf .curly ho .value)
    rw [Value.memberTokens, foldlM_cons_of_ok hk, foldlM_cons_of_ok hc, foldlM_append_of_ok hv]
    cases ms with
    | nil => rfl
    | cons m ms =>
      have hs := step_placed (passes_within hf .curly ho .separator) (t := .comma) rfl
      exact (foldlM_cons_of_ok hs).trans (foldlM_passedMembers hf (m :: ms) ho (.inr rfl))

end

end Brokerage.Settings.Reading
