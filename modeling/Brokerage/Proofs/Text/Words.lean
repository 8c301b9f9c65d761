import Brokerage.Text.Blank

namespace Brokerage.Text

theorem pieces_ne_nil (cs : List Char) : pieces cs ≠ [] := by
  cases cs with
  | nil => simp [pieces]
  | cons c cs =>
    rw [pieces]
    split
    · simp
    · split <;> simp

theorem pieces_cons_of_blank {c : Char} (hc : isBlank c = true) (cs : List Char) :
    pieces (c :: cs) = [] :: pieces cs := by
  simp only [pieces, hc, ↓reduceIte]

theorem pieces_cons_of_not_blank {c : Char} (hc : isBlank c = false) {cs w : List Char}
    {ws : List (List Char)} (h : pieces cs = w :: ws) : pieces (c :: cs) = (c :: w) :: ws := by
  simp only [pieces, hc, Bool.false_eq_true, ↓reduceIte, h]

theorem pieces_append (xs : List Char) {c : Char} (hc : isBlank c = true) (ys : List Char) :
    pieces (xs ++ c :: ys) = pieces xs ++ pieces ys := by
  induction xs with
  | nil => exact pieces_cons_of_blank hc ys
  | cons x xs ih =>
    cases hx : isBlank x with
    | true => rw [List.cons_append, pieces_cons_of_blank hx, ih, pieces_cons_of_blank hx]; rfl
    | false =>
      obtain ⟨w, ws, hw⟩ := List.exists_cons_of_ne_nil (pieces_ne_nil xs)
      have ha : pieces (xs ++ c :: ys) = w :: (ws ++ pieces ys) := by rw [ih, hw]; rfl
      rw [pieces_cons_of_not_blank hx hw, List.cons_append, pieces_cons_of_not_blank hx ha]
      rfl

theorem pieces_of_no_blank {cs : List Char} (h : ∀ c ∈ cs, isBlank c = false) :
    pieces cs = [cs] := by
  induction cs with
  | nil => rfl
  | cons c cs ih =>
    exact pieces_cons_of_not_blank (h c List.mem_cons_self)
      (ih fun x hx => h x (List.mem_cons_of_mem c hx))

theorem not_blank_of_mem_pieces {cs w : List Char} (hw : w ∈ pieces cs) :
    ∀ c ∈ w, isBlank c = false := by
  induction cs generalizing w with
  | nil =>
    rw [pieces, List.mem_singleton] at hw
    subst hw
    exact nofun
  | cons x cs ih =>
    cases hx : isBlank x with
    | true =>
      rw [pieces_cons_of_blank hx] at hw
      rcases List.mem_cons.mp hw with rfl | hw
      · exact nofun
      · exact ih hw
    | false =>
      obtain ⟨v, vs, hv⟩ := List.exists_cons_of_ne_nil (pieces_ne_nil cs)
      rw [pieces_cons_of_not_blank hx hv] at hw
      rcases List.mem_cons.mp hw with rfl | hw
      · intro c hc
        rcases List.mem_cons.mp hc with rfl | hc
        · exact hx
        · exact ih (by rw [hv]; exact List.mem_cons_self) c hc
      · exact ih (by rw [hv]; exact List.mem_cons_of_mem v hw)

theorem isWord_iff (s : String) :
    isWord s = true ↔ s.toList ≠ [] ∧ ∀ c ∈ s.toList, isBlank c = false := by
  simp [isWord]

theorem isWord_of_mem_words {s w : String} (h : w ∈ words s) : isWord w = true := by
  simp only [words, List.mem_map, List.mem_filter] at h
  obtain ⟨cs, ⟨hp, hn⟩, rfl⟩ := h
  rw [isWord_iff, String.toList_ofList]
  exact ⟨by simpa using hn, not_blank_of_mem_pieces hp⟩

theorem words_of_isWord {s : String} (h : isWord s = true) : words s = [s] := by
  obtain ⟨hn, hb⟩ := (isWord_iff s).mp h
  have hf : [s.toList].filter (! ·.isEmpty) = [s.toList] := by simp [hn]
  rw [words, pieces_of_no_blank hb, hf, List.map_cons, List.map_nil, String.ofList_toList]

theorem words_append (a b : String) : words (a ++ " " ++ b) = words a ++ words b := by
  have hl : (a ++ " " ++ b).toList = a.toList ++ ' ' :: b.toList := by simp
  rw [words, hl, pieces_append _ (by decide), List.filter_append, List.map_append]
  rfl

theorem words_intercalate (l : List String) : words (" ".intercalate l) = l.flatMap words := by
  induction l with
  | nil => rw [String.intercalate_nil]; rfl
  | cons a l ih =>
    cases l with
    | nil => simp
    | cons b l => rw [String.intercalate_cons_cons, words_append, ih, ← List.flatMap_cons]

def Bounded (w cs : List Char) : Prop :=
  ∃ before after : List Char, cs = before ++ w ++ after ∧
    (∀ c ∈ before.getLast?, isBlank c = true) ∧ ∀ c ∈ after.head?, isBlank c = true

def IsRun (w s : String) : Prop := isWord w = true ∧ Bounded w.toList s.toList

theorem Bounded.append_left {w ys : List Char} (h : Bounded w ys) (xs : List Char) {c : Char}
    (hc : isBlank c = true) : Bounded w (xs ++ c :: ys) := by
  obtain ⟨before, after, rfl, hb, ha⟩ := h
  refine ⟨xs ++ c :: before, after, by simp, ?_, ha⟩
  intro x hx
  rcases List.eq_nil_or_concat before with rfl | ⟨bs, b, rfl⟩
  · rw [List.getLast?_concat] at hx
    cases hx
    exact hc
  · rw [List.concat_eq_append, ← List.cons_append, ← List.append_assoc, List.getLast?_concat] at hx
    exact hb x (by rwa [List.concat_eq_append, List.getLast?_concat])

theorem Bounded.append_right {w xs : List Char} (h : Bounded w xs) {c : Char}
    (hc : isBlank c = true) (ys : List Char) : Bounded w (xs ++ c :: ys) := by
  obtain ⟨before, after, rfl, hb, ha⟩ := h
  refine ⟨before, after ++ c :: ys, by simp, hb, ?_⟩
  intro x hx
  cases after with
  | nil =>
    cases hx
    exact hc
  | cons a after => exact ha x hx

theorem bounded_of_mem_pieces {cs w : List Char} (hw : w ∈ pieces cs) : Bounded w cs := by
  by_cases hb : ∀ c ∈ cs, isBlank c = false
  · rw [pieces_of_no_blank hb, List.mem_singleton] at hw
    subst hw
    exact ⟨[], [], by simp, nofun, nofun⟩
  · -- A blank splits the text in two, and a piece is a piece of one of them.
    obtain ⟨c, hm, hc⟩ : ∃ c ∈ cs, isBlank c = true := by simpa using hb
    obtain ⟨xs, ys, rfl⟩ := List.append_of_mem hm
    rw [pieces_append xs hc ys] at hw
    rcases List.mem_append.mp hw with hx | hy
    · exact (bounded_of_mem_pieces hx).append_right hc ys
    · exact (bounded_of_mem_pieces hy).append_left xs hc
termination_by cs.length
decreasing_by all_goals (subst_vars; simp; try omega)

theorem mem_pieces_of_bounded {cs w : List Char} (hn : ∀ c ∈ w, isBlank c = false)
    (h : Bounded w cs) : w ∈ pieces cs := by
  obtain ⟨before, after, rfl, hb, ha⟩ := h
  have hw : w ∈ pieces (w ++ after) := by
    cases after with
    | nil => rw [List.append_nil, pieces_of_no_blank hn]; exact List.mem_singleton.mpr rfl
    | cons a after =>
      rw [pieces_append w (ha a rfl), pieces_of_no_blank hn]
      exact List.mem_cons_self
  rcases List.eq_nil_or_concat before with rfl | ⟨bs, b, rfl⟩
  · exact hw
  · rw [List.concat_eq_append, List.append_assoc, List.append_assoc, List.singleton_append,
      pieces_append bs (hb b (by simp))]
    exact List.mem_append_right _ hw

theorem mem_words_iff (s w : String) : w ∈ words s ↔ IsRun w s := by
  have hm : w ∈ words s ↔ w.toList ∈ pieces s.toList ∧ w.toList ≠ [] := by
    simp only [words, List.mem_map, List.mem_filter]
    constructor
    · rintro ⟨cs, ⟨hp, hn⟩, rfl⟩
      rw [String.toList_ofList]
      exact ⟨hp, by simpa using hn⟩
    · rintro ⟨hp, hn⟩
      exact ⟨w.toList, ⟨hp, by simpa using hn⟩, String.ofList_toList⟩
  rw [hm, IsRun, isWord_iff]
  constructor
  · rintro ⟨hp, hn⟩
    exact ⟨⟨hn, not_blank_of_mem_pieces hp⟩, bounded_of_mem_pieces hp⟩
  · rintro ⟨⟨hn, hb⟩, h⟩
    exact ⟨mem_pieces_of_bounded hb h, hn⟩

end Brokerage.Text
