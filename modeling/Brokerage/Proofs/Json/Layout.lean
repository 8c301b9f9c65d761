import Brokerage.Json.Tokens
import Brokerage.Json.Value
import Brokerage.Proofs.Json.Number
import Brokerage.Proofs.Json.Text

namespace Brokerage.Json

open Text

inductive Token.Spelled : List Char → Token → Prop where
  | mark {c : Char} {t : Token} (h : mark? c = some t) : Spelled [c] t
  | null : Spelled ['n', 'u', 'l', 'l'] .null
  | yes : Spelled ['t', 'r', 'u', 'e'] (.flag true)
  | no : Spelled ['f', 'a', 'l', 's', 'e'] (.flag false)
  | number {cs : List Char} {n : Number} (h : Number.Spelled cs n) : Spelled cs (.number n)
  | string {cs : List Char} {s : String} (h : Escaped cs s.toList) :
    Spelled ('"' :: (cs ++ ['"'])) (.string (some s))

inductive Spelled : List Char → List Token → Prop where
  | nil : Spelled [] []
  | gap {c : Char} {cs : List Char} {ts : List Token} (hc : isGap c = true) (h : Spelled cs ts) :
    Spelled (c :: cs) ts
  | token {w cs : List Char} {t : Token} {ts : List Token} (hw : Token.Spelled w t)
      (hb : ∀ n : Number, t = .number n → Breaks cs) (h : Spelled cs ts) : Spelled (w ++ cs) (t :: ts)

theorem next_mark {c : Char} {t : Token} (hm : mark? c = some t) (cs : List Char) :
    next (c :: cs) = .token t cs := by
  have hg : isGap c = false := by
    unfold mark? at hm
    split at hm <;> first | rfl | cases hm
  simp only [next, hg, Bool.false_eq_true, ↓reduceIte, hm]

theorem next_string {cs : List Char} {s : String} (h : Escaped cs s.toList) (rest : List Char) :
    next ('"' :: (cs ++ ['"']) ++ rest) = .token (.string (some s)) rest := by
  obtain ⟨ps, hs, hc⟩ := scanString_escaped h rest
  have hg : isGap '"' = false := by decide
  have hm : mark? '"' = none := by decide
  simp only [List.cons_append, List.append_assoc, List.nil_append, next, hg, Bool.false_eq_true,
    ↓reduceIte, hm, nextScalar, nextString, hs, hc, Option.map_some, String.ofList_toList]

theorem number_head {n : Number} {cs : List Char} (h : Number.Spelled cs n) :
    ∃ (c : Char) (cs' : List Char), cs = c :: cs' ∧ (c = '-' ∨ ∃ d : Fin 10, c = digitChar d) := by
  obtain ⟨es, -, rfl⟩ := h
  cases n.negative with
  | true => exact ⟨'-', _, rfl, Or.inl rfl⟩
  | false =>
    obtain ⟨ds, hd, -, hne, -⟩ := digitsOf_eq n.whole
    obtain ⟨d, ds, rfl⟩ := List.exists_cons_of_ne_nil hne
    exact ⟨digitChar d, _, by rw [hd]; rfl, Or.inr ⟨d, rfl⟩⟩

theorem digitChar_plain : ∀ d : Fin 10, isGap (digitChar d) = false ∧
    mark? (digitChar d) = none ∧ digitChar d ∉ ['"', 'n', 't', 'f'] := by decide

theorem next_digit (d : Fin 10) (cs : List Char) :
    next (digitChar d :: cs) = nextNumber (digitChar d :: cs) := by
  obtain ⟨hg, hm, hp⟩ := digitChar_plain d
  simp only [List.mem_cons, List.not_mem_nil, or_false, not_or] at hp
  simp only [next, hg, Bool.false_eq_true, ↓reduceIte, hm]
  rw [nextScalar]
  · simp only [digit?_digitChar, Option.isSome_some, or_true, ↓reduceIte]
  all_goals grind

theorem next_number {n : Number} {cs rest : List Char} (h : Number.Spelled cs n) (hr : Breaks rest) :
    next (cs ++ rest) = .token (.number n) rest := by
  have hs := Number.scan_spelled h hr
  obtain ⟨c, cs, rfl, hc⟩ := number_head h
  have hnext : next (c :: (cs ++ rest)) = nextNumber (c :: (cs ++ rest)) := by
    rcases hc with rfl | ⟨d, rfl⟩
    · rfl
    · exact next_digit d _
  rw [List.cons_append] at hs ⊢
  rw [hnext, nextNumber, hs]

theorem next_spelled {w rest : List Char} {t : Token} (hw : Token.Spelled w t)
    (hb : ∀ n : Number, t = .number n → Breaks rest) : next (w ++ rest) = .token t rest := by
  cases hw with
  | mark h => exact next_mark h rest
  | null | yes | no => rfl
  | number h => exact next_number h (hb _ rfl)
  | string h => exact next_string h rest

theorem tokens_eq (cs : List Char) : tokens cs =
    match next cs with
    | .ending e => ([], e)
    | .token t rest => (t :: (tokens rest).1, (tokens rest).2) := by
  rw [tokens]
  split
  · next h => rw [h]
  · next h => rw [h]

theorem tokens_of_spelled {cs : List Char} {ts : List Token} (h : Spelled cs ts) :
    tokens cs = (ts, .clean) := by
  induction h with
  | nil => rw [tokens_eq, next]
  | gap hc _ ih => rw [tokens_eq, next, if_pos hc, ← tokens_eq, ih]
  | token hw hb _ ih =>
    rw [tokens_eq, next_spelled hw hb]
    dsimp only
    rw [ih]

namespace Spelled

variable {cs : List Char} {ts : List Token}

theorem mark {c : Char} {t : Token} (hm : mark? c = some t) (h : Spelled cs ts) :
    Spelled (c :: cs) (t :: ts) := by
  apply token (.mark hm) _ h
  rintro n rfl
  unfold mark? at hm
  split at hm <;> cases hm

theorem number (n : Number) (hb : Breaks cs) (h : Spelled cs ts) :
    Spelled (n.chars ++ cs) (.number n :: ts) :=
  .token (.number n.spelled_chars) (fun _ _ => hb) h

theorem string (s : String) (h : Spelled cs ts) :
    Spelled (stringChars s ++ cs) (.string (some s) :: ts) :=
  .token (.string (escaped_written s.toList)) nofun h

theorem newline (depth : Nat) (h : Spelled cs ts) : Spelled (Value.newline depth ++ cs) ts := by
  apply gap (by decide)
  induction 2 * depth with
  | zero => exact h
  | succ n ih => exact gap (by decide) ih

end Spelled

namespace Value

mutual

def tokens : Value → List Token
  | .null => [.null]
  | .flag b => [.flag b]
  | .number n => [.number n]
  | .string s => [.string (some s)]
  | .list items => .opening .square :: (itemTokens items ++ [.closing .square])
  | .object members => .opening .curly :: (memberTokens members ++ [.closing .curly])

def itemTokens : List Value → List Token
  | [] => []
  | v :: vs => v.tokens ++ (if vs.isEmpty then [] else .comma :: itemTokens vs)

def memberTokens : List (String × Value) → List Token
  | [] => []
  | (k, v) :: ms =>
    .string (some k) :: .colon :: (v.tokens ++ (if ms.isEmpty then [] else .comma :: memberTokens ms))

end

theorem breaks_more (b : Bool) (cs : List Char) {rest : List Char} (hr : Breaks rest) :
    Breaks ((if b then [] else ',' :: cs) ++ rest) := by
  split
  · exact hr
  · exact .cons (by decide) (by decide) (by decide) (by decide)

theorem breaks_unsquare (rest : List Char) : Breaks (']' :: rest) :=
  .cons (by decide) (by decide) (by decide) (by decide)

theorem breaks_uncurly (rest : List Char) : Breaks ('\x7d' :: rest) :=
  .cons (by decide) (by decide) (by decide) (by decide)

theorem breaks_newline (depth : Nat) (cs : List Char) : Breaks (newline depth ++ cs) :=
  .cons (by decide) (by decide) (by decide) (by decide)

theorem spelled_more (b : Bool) {cs rest : List Char} {us ts : List Token}
    (hr : Spelled rest ts) (h : Spelled (cs ++ rest) (us ++ ts)) :
    Spelled ((if b then [] else ',' :: cs) ++ rest) ((if b then [] else .comma :: us) ++ ts) := by
  split
  · exact hr
  · exact h.mark rfl

-- Each part is written with some rest that breaks off a number at its end: a comma, a bracket, a new
-- line, or nothing.
mutual

theorem spelled_compact : ∀ (v : Value) {rest : List Char} {ts : List Token}, Breaks rest →
    Spelled rest ts → Spelled (v.compact ++ rest) (v.tokens ++ ts)
  | .null, _, _, _, h => .token .null nofun h
  | .flag true, _, _, _, h => .token .yes nofun h
  | .flag false, _, _, _, h => .token .no nofun h
  | .number n, _, _, hb, h => h.number n hb
  | .string s, _, _, _, h => h.string s
  | .list items, rest, _, _, h => by
    have hi := spelled_compactItems items (breaks_unsquare rest) (h.mark rfl)
    simp only [compact, tokens, List.cons_append, List.append_assoc, List.nil_append]
    exact hi.mark rfl
  | .object members, rest, _, _, h => by
    have hi := spelled_compactMembers members (breaks_uncurly rest) (h.mark rfl)
    simp only [compact, tokens, List.cons_append, List.append_assoc, List.nil_append]
    exact hi.mark rfl

theorem spelled_compactItems : ∀ (vs : List Value) {rest : List Char} {ts : List Token},
    Breaks rest → Spelled rest ts → Spelled (compactItems vs ++ rest) (itemTokens vs ++ ts)
  | [], _, _, _, h => h
  | v :: vs, _, _, hb, h => by
    rw [compactItems, itemTokens, List.append_assoc, List.append_assoc]
    exact spelled_compact v (breaks_more _ _ hb) (spelled_more _ h (spelled_compactItems vs hb h))

theorem spelled_compactMembers : ∀ (ms : List (String × Value)) {rest : List Char}
    {ts : List Token}, Breaks rest → Spelled rest ts →
    Spelled (compactMembers ms ++ rest) (memberTokens ms ++ ts)
  | [], _, _, _, h => h
  | (k, v) :: ms, _, _, hb, h => by
    have hv := spelled_compact v (breaks_more ms.isEmpty _ hb)
      (spelled_more ms.isEmpty h (spelled_compactMembers ms hb h))
    simp only [compactMembers, memberTokens, List.cons_append, List.append_assoc]
    exact (hv.mark rfl).string k

end

mutual

theorem spelled_pretty : ∀ (depth : Nat) (v : Value) {rest : List Char} {ts : List Token},
    Breaks rest → Spelled rest ts → Spelled (v.pretty depth ++ rest) (v.tokens ++ ts)
  | _, .null, _, _, _, h => .token .null nofun h
  | _, .flag true, _, _, _, h => .token .yes nofun h
  | _, .flag false, _, _, _, h => .token .no nofun h
  | _, .number n, _, _, hb, h => h.number n hb
  | _, .string s, _, _, _, h => h.string s
  | _, .list [], _, _, _, h => (h.mark rfl).mark rfl
  | depth, .list (v :: vs), rest, _, _, h => by
    have hi := spelled_prettyItems (depth + 1) (v :: vs) (breaks_newline depth (']' :: rest))
      ((h.mark rfl).newline depth)
    simp only [pretty, tokens, List.cons_append, List.append_assoc, List.nil_append]
    exact hi.mark rfl
  | _, .object [], _, _, _, h => (h.mark rfl).mark rfl
  | depth, .object (m :: ms), rest, _, _, h => by
    have hi := spelled_prettyMembers (depth + 1) (m :: ms) (breaks_newline depth ('\x7d' :: rest))
      ((h.mark rfl).newline depth)
    simp only [pretty, tokens, List.cons_append, List.append_assoc, List.nil_append]
    exact hi.mark rfl

theorem spelled_prettyItems : ∀ (depth : Nat) (vs : List Value) {rest : List Char}
    {ts : List Token}, Breaks rest → Spelled rest ts →
    Spelled (prettyItems depth vs ++ rest) (itemTokens vs ++ ts)
  | _, [], _, _, _, h => h
  | depth, v :: vs, _, _, hb, h => by
    have hv := spelled_pretty depth v (breaks_more vs.isEmpty _ hb)
      (spelled_more vs.isEmpty h (spelled_prettyItems depth vs hb h))
    simp only [prettyItems, itemTokens, List.append_assoc]
    exact hv.newline depth

theorem spelled_prettyMembers : ∀ (depth : Nat) (ms : List (String × Value)) {rest : List Char}
    {ts : List Token}, Breaks rest → Spelled rest ts →
    Spelled (prettyMembers depth ms ++ rest) (memberTokens ms ++ ts)
  | _, [], _, _, _, h => h
  | depth, (k, v) :: ms, _, _, hb, h => by
    have hv := spelled_pretty depth v (breaks_more ms.isEmpty _ hb)
      (spelled_more ms.isEmpty h (spelled_prettyMembers depth ms hb h))
    simp only [prettyMembers, memberTokens, List.cons_append, List.append_assoc]
    exact (((hv.gap (by decide)).mark rfl).string k).newline depth

end

theorem spelled_of_compact (v : Value) : Spelled v.compact v.tokens := by
  have h := v.spelled_compact .nil .nil
  rwa [List.append_nil, List.append_nil] at h

theorem spelled_of_pretty (v : Value) : Spelled (v.pretty 0) v.tokens := by
  have h := v.spelled_pretty 0 .nil .nil
  rwa [List.append_nil, List.append_nil] at h

theorem tokens_of_compact (v : Value) : Json.tokens v.compact = (v.tokens, .clean) :=
  tokens_of_spelled v.spelled_of_compact

theorem tokens_of_pretty (v : Value) : Json.tokens (v.pretty 0) = (v.tokens, .clean) :=
  tokens_of_spelled v.spelled_of_pretty

end Value

end Brokerage.Json
