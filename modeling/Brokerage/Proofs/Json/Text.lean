import Brokerage.Json.Text
import Brokerage.Proofs.Text.Digits

namespace Brokerage.Json

open Text

inductive Escaped : List Char → List Char → Prop where
  | nil : Escaped [] []
  | bare {c : Char} {cs xs : List Char} (hq : c ≠ '"') (hb : c ≠ '\\') (hl : ¬ c.toNat < 0x20)
      (h : Escaped cs xs) : Escaped (c :: cs) (c :: xs)
  | letter {c x : Char} {cs xs : List Char} (hc : simpleEscape? c = some x) (h : Escaped cs xs) :
    Escaped ('\\' :: c :: cs) (x :: xs)
  | unit {a b c d : Char} {n : Nat} {cs xs : List Char} (hn : unit? a b c d = some n)
      (hl : isLead n = false) (ht : isTrail n = false) (h : Escaped cs xs) :
    Escaped ('\\' :: 'u' :: a :: b :: c :: d :: cs) (Char.ofNat n :: xs)
  | units {a b c d a' b' c' d' : Char} {n m : Nat} {cs xs : List Char}
      (hn : unit? a b c d = some n) (hm : unit? a' b' c' d' = some m) (hl : isLead n = true)
      (ht : isTrail m = true) (h : Escaped cs xs) :
    Escaped ('\\' :: 'u' :: a :: b :: c :: d :: '\\' :: 'u' :: a' :: b' :: c' :: d' :: cs)
      (pair n m :: xs)

theorem unit?_low : ∀ n : Fin 0x20, unit? '0' '0' (lowHex (n / 16)) (lowHex n) = some n.val ∧
    isLead n = false ∧ isTrail n = false := by
  decide

def lettered : List Char := ['"', '\\', '\x08', '\x0C', '\n', '\r', '\t']

theorem escapeChar_of_not_lettered {c : Char} (h : c ∉ lettered) :
    escapeChar c = if c.toNat < 0x20 then
      ['\\', 'u', '0', '0', lowHex (c.toNat / 16), lowHex c.toNat] else [c] := by
  simp only [lettered, List.mem_cons, List.not_mem_nil, or_false, not_or] at h
  simp only [escapeChar, h, ↓reduceIte]

theorem Escaped.escapeChar {cs xs : List Char} (h : Escaped cs xs) (c : Char) :
    Escaped (Json.escapeChar c ++ cs) (c :: xs) := by
  by_cases hs : c ∈ lettered
  · simp only [lettered, List.mem_cons, List.not_mem_nil, or_false] at hs
    rcases hs with rfl | rfl | rfl | rfl | rfl | rfl | rfl <;> exact .letter rfl h
  · rw [escapeChar_of_not_lettered hs]
    by_cases hl : c.toNat < 0x20
    · obtain ⟨hu, hlead, htrail⟩ := unit?_low ⟨c.toNat, hl⟩
      have he := Escaped.unit hu hlead htrail h
      rw [Char.ofNat_toNat] at he
      rw [if_pos hl]
      exact he
    · simp only [lettered, List.mem_cons, not_or] at hs
      rw [if_neg hl]
      exact .bare hs.1 hs.2.1 hl h

theorem escaped_written (cs : List Char) : Escaped (cs.flatMap Json.escapeChar) cs := by
  induction cs with
  | nil => exact .nil
  | cons c cs ih => exact ih.escapeChar c

theorem scanString_bare {c : Char} (hq : c ≠ '"') (hb : c ≠ '\\') (hl : ¬ c.toNat < 0x20)
    (cs : List Char) : scanString (c :: cs) = (scanString cs).cons (.char c) := by
  rw [scanString]
  all_goals grind

theorem scanString_letter {c x : Char} (hc : simpleEscape? c = some x) (cs : List Char) :
    scanString ('\\' :: c :: cs) = (scanString cs).cons (.char x) := by
  have hu : c ≠ 'u' := by
    rintro rfl
    cases hc
  rw [scanString]
  all_goals grind

theorem scanString_unit {a b c d : Char} {n : Nat} (hn : unit? a b c d = some n) (cs : List Char) :
    scanString ('\\' :: 'u' :: a :: b :: c :: d :: cs) = (scanString cs).cons (.unit n) := by
  rw [scanString, hn]

theorem characters_unit {n : Nat} (hl : isLead n = false) (ht : isTrail n = false)
    (ps : List Piece) : characters (.unit n :: ps) = (characters ps).map (Char.ofNat n :: ·) := by
  rcases ps with _ | ⟨x | m, ps⟩ <;>
    simp only [characters, hl, ht, Bool.or_self, Bool.false_eq_true, ↓reduceIte]

theorem scanString_escaped {cs xs : List Char} (h : Escaped cs xs) (rest : List Char) :
    ∃ ps : List Piece, scanString (cs ++ '"' :: rest) = .closed ps rest ∧ characters ps = some xs := by
  induction h with
  | nil => exact ⟨[], rfl, rfl⟩
  | bare hq hb hl _ ih =>
    obtain ⟨ps, hs, hc⟩ := ih
    exact ⟨_, by rw [List.cons_append, scanString_bare hq hb hl, hs]; rfl,
      by rw [characters, hc, Option.map_some]⟩
  | letter he _ ih =>
    obtain ⟨ps, hs, hc⟩ := ih
    exact ⟨_, by rw [List.cons_append, List.cons_append, scanString_letter he, hs]; rfl,
      by rw [characters, hc, Option.map_some]⟩
  | unit hn hl ht _ ih =>
    obtain ⟨ps, hs, hc⟩ := ih
    exact ⟨_, by simp only [List.cons_append]; rw [scanString_unit hn, hs]; rfl,
      by rw [characters_unit hl ht, hc, Option.map_some]⟩
  | units hn hm hl ht _ ih =>
    obtain ⟨ps, hs, hc⟩ := ih
    exact ⟨_, by simp only [List.cons_append]; rw [scanString_unit hn, scanString_unit hm, hs]; rfl,
      by rw [characters, if_pos hl, if_pos ht, hc, Option.map_some]⟩

end Brokerage.Json
