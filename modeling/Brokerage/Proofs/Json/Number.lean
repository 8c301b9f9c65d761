import Brokerage.Json.Number
import Brokerage.Proofs.Decimal.Range
import Brokerage.Proofs.Text.Digits
import Mathlib.Data.List.Induction

namespace Brokerage.Json

open Text Decimal

def Breaks (cs : List Char) : Prop :=
  ∀ c ∈ cs.head?, digit? c = none ∧ c ≠ '.' ∧ c ≠ 'e' ∧ c ≠ 'E'

namespace Breaks

theorem nil : Breaks [] := nofun

theorem cons {c : Char} {cs : List Char} (hd : digit? c = none) (hp : c ≠ '.') (he : c ≠ 'e')
    (hE : c ≠ 'E') : Breaks (c :: cs) := by
  intro x hx
  cases hx
  exact ⟨hd, hp, he, hE⟩

theorem noDigit {cs : List Char} (h : Breaks cs) : NoDigit cs := fun c hc => (h c hc).1

end Breaks

namespace Number

def fractionChars (n : Number) : List Char :=
  if n.fraction.isEmpty then [] else '.' :: n.fraction.map digitChar

inductive Exponent : List Char → Option Int → Prop where
  | none : Exponent [] none
  | bare {c : Char} {ds : List (Fin 10)} (hc : c = 'e' ∨ c = 'E') (hd : ds ≠ []) :
    Exponent (c :: ds.map digitChar) (some (decimal ds))
  | plus {c : Char} {ds : List (Fin 10)} (hc : c = 'e' ∨ c = 'E') (hd : ds ≠ []) :
    Exponent (c :: '+' :: ds.map digitChar) (some (decimal ds))
  | minus {c : Char} {ds : List (Fin 10)} (hc : c = 'e' ∨ c = 'E') (hd : ds ≠ []) :
    Exponent (c :: '-' :: ds.map digitChar) (some (-(decimal ds : Int)))

def Spelled (cs : List Char) (n : Number) : Prop :=
  ∃ es : List Char, Exponent es n.exponent ∧
    cs = (if n.negative then ['-'] else []) ++ (digitsOf n.whole ++ (n.fractionChars ++ es))

theorem exponent_intChars (e : Int) : Exponent ('e' :: intChars e) (some e) := by
  obtain ⟨ds, hd, hv, hne, -⟩ := digitsOf_eq e.natAbs
  by_cases hn : e < 0
  · have he : e = -(decimal ds : Int) := by omega
    rw [intChars, if_pos hn, hd, he]
    exact .minus (.inl rfl) hne
  · have he : e = decimal ds := by omega
    rw [intChars, if_neg hn, hd, he]
    exact .bare (.inl rfl) hne

theorem spelled_chars (n : Number) : Spelled n.chars n := by
  cases he : n.exponent with
  | none => exact ⟨[], he ▸ .none, by simp only [chars, fractionChars, he, List.append_assoc]⟩
  | some e =>
    exact ⟨'e' :: intChars e, he ▸ exponent_intChars e,
      by simp only [chars, fractionChars, he, List.append_assoc]⟩

theorem someDigits_append {ds : List (Fin 10)} (hd : ds ≠ []) {rest : List Char}
    (hr : NoDigit rest) : someDigits (ds.map digitChar ++ rest) = .ok (ds, rest) := by
  obtain ⟨d, ds, rfl⟩ := List.exists_cons_of_ne_nil hd
  simp only [someDigits, takeDigits_append _ hr]

theorem scanWhole_digitsOf (n : Nat) {rest : List Char} (hr : NoDigit rest) :
    scanWhole (digitsOf n ++ rest) = .ok (n, rest) := by
  obtain ⟨ds, he, hv, hne, hz⟩ := digitsOf_eq n
  have hz' : ¬ (ds.head?.map Fin.val = some 0 ∧ ds.length ≠ 1) := by
    rintro ⟨h0, hl⟩
    obtain ⟨d, hd, h0⟩ := Option.map_eq_some_iff.mp h0
    obtain rfl : d = 0 := Fin.ext h0
    exact hl (hz hd)
  simp only [scanWhole, he, someDigits_append hne hr, bind, Except.bind, if_neg hz', hv]

theorem scanSign_digits {ds : List (Fin 10)} (hd : ds ≠ []) (rest : List Char) :
    scanSign (ds.map digitChar ++ rest) = (false, ds.map digitChar ++ rest) := by
  obtain ⟨d, ds, rfl⟩ := List.exists_cons_of_ne_nil hd
  obtain ⟨hm, hp⟩ := digitChar_ne_sign d
  rw [List.map_cons, List.cons_append, scanSign]
  · exact fun _ h => hm (List.cons.inj h).1
  · exact fun _ h => hp (List.cons.inj h).1

theorem scanExponent_of {es rest : List Char} {e : Option Int} (h : Exponent es e)
    (hr : Breaks rest) : scanExponent (es ++ rest) = .ok (e, rest) := by
  cases h with
  | none =>
    cases rest with
    | nil => rfl
    | cons c rest =>
      obtain ⟨-, -, he, hE⟩ := hr c rfl
      simp only [List.nil_append, scanExponent, he, hE, or_self, ↓reduceIte]
  | bare hc hd =>
    simp only [List.cons_append, scanExponent, if_pos hc, scanSign_digits hd,
      someDigits_append hd hr.noDigit, bind, Except.bind, Bool.false_eq_true, ↓reduceIte]
  | plus hc hd | minus hc hd =>
    simp only [List.cons_append, scanExponent, if_pos hc, scanSign,
      someDigits_append hd hr.noDigit, bind, Except.bind, Bool.false_eq_true, ↓reduceIte]

theorem noDigit_exponent {es rest : List Char} {e : Option Int} (h : Exponent es e)
    (hr : Breaks rest) : NoDigit (es ++ rest) ∧ '.' ∉ (es ++ rest).head? := by
  cases h with
  | none => exact ⟨hr.noDigit, fun h => (hr '.' h).2.1 rfl⟩
  | bare hc _ | plus hc _ | minus hc _ =>
    rcases hc with rfl | rfl <;> exact ⟨.cons (by decide), by simp⟩

theorem scanFraction_of (n : Number) {rest : List Char} (hd : NoDigit rest) (hp : '.' ∉ rest.head?) :
    scanFraction (n.fractionChars ++ rest) = .ok (n.fraction, rest) := by
  by_cases hf : n.fraction = []
  · rw [fractionChars, hf, List.isEmpty_nil, if_pos rfl, List.nil_append]
    cases rest with
    | nil => rfl
    | cons c cs =>
      rw [scanFraction]
      rintro _ ⟨⟩
      exact hp rfl
  · have hne : n.fraction.isEmpty = false := by simpa using hf
    rw [fractionChars, hne, if_neg Bool.false_ne_true, List.cons_append, scanFraction,
      someDigits_append hf hd]

theorem noDigit_fraction (n : Number) {rest : List Char} (hd : NoDigit rest) :
    NoDigit (n.fractionChars ++ rest) := by
  rw [fractionChars]
  split
  · exact hd
  · exact .cons (by decide)

theorem scan_spelled {n : Number} {cs rest : List Char} (h : Spelled cs n) (hr : Breaks rest) :
    scan (cs ++ rest) = .ok (n, rest) := by
  obtain ⟨es, he, rfl⟩ := h
  obtain ⟨hd, hp⟩ := noDigit_exponent he hr
  have hm : scanMinus ((if n.negative then ['-'] else []) ++
      (digitsOf n.whole ++ (n.fractionChars ++ (es ++ rest)))) =
      (n.negative, digitsOf n.whole ++ (n.fractionChars ++ (es ++ rest))) := by
    cases n.negative with
    | true => rfl
    | false =>
      obtain ⟨ds, hw, -, hne, -⟩ := digitsOf_eq n.whole
      obtain ⟨d, ds, rfl⟩ := List.exists_cons_of_ne_nil hne
      have hs := (digitChar_ne_sign d).1
      rw [hw, if_neg Bool.false_ne_true, List.nil_append, List.map_cons, List.cons_append, scanMinus]
      exact fun _ h => hs (List.cons.inj h).1
  simp only [List.append_assoc]
  simp only [scan, hm, scanWhole_digitsOf _ (n.noDigit_fraction hd), n.scanFraction_of hd hp,
    scanExponent_of he hr, bind, Except.bind]

theorem int_ofInt (i : Int) : (ofInt i).int? = some i := by
  by_cases hn : i < 0
  · have hz : i ≠ 0 := by omega
    have ha : -(i.natAbs : Int) = i := by omega
    simp only [int?, ofInt, hn, Int.natAbs_eq_zero, hz, ha, List.isEmpty_nil, Option.isNone_none,
      decide_true, decide_false, Bool.and_false, Bool.not_false, Bool.and_self, ↓reduceIte]
  · have ha : (i.natAbs : Int) = i := by omega
    simp only [int?, ofInt, hn, ha, List.isEmpty_nil, Option.isNone_none, decide_false,
      Bool.false_and, Bool.not_false, Bool.and_self, Bool.false_eq_true, ↓reduceIte]

theorem pushWhole_digits (ds : List (Fin 10)) (h : decimal ds < UInt64.size) :
    ds.foldl (fun (p : Parts) (d : Fin 10) => p.pushWhole d.val) ⟨0, 0, false⟩ =
      ⟨decimal ds, 0, false⟩ := by
  induction ds using List.reverseRecOn with
  | nil => rfl
  | append_singleton ds d ih =>
    rw [decimal_append] at h ⊢
    rw [List.foldl_append, ih (by omega), List.foldl_cons, List.foldl_nil, Parts.pushWhole]
    dsimp only
    rw [if_neg]
    rintro (hf | hl)
    · cases hf
    · omega

theorem parts_ofInt {i : Int} (h : i.natAbs < UInt64.size) :
    (ofInt i).parts = ⟨i.natAbs, 0, false⟩ := by
  obtain ⟨ds, hd, hv, -⟩ := digitsOf_eq i.natAbs
  simp only [parts, ofInt, hd, filterMap_digit, List.foldl_nil]
  rw [pushWhole_digits ds (by rw [hv]; exact h), hv]

theorem double_ofInt {i : Int} (h : i.natAbs < UInt64.size) : (ofInt i).double?.isSome := by
  obtain ⟨x, hx, hr⟩ := Double.ofNat_eq h
  obtain ⟨one, h1, hr1⟩ := Double.ofNat_eq (n := 1) (by decide)
  have hs := Double.mul_isSome hr hr1 (by decide)
  have hz : scale 4 x 0 = (Double.ofNat 1).bind fun one => x.mul one := rfl
  have hd : (ofInt i).double? = (Double.ofNat i.natAbs).bind fun x => scale 4 x 0 := by
    simp only [double?, parts_ofInt h]
    rfl
  rw [hd, hx, Option.bind_some, hz, h1]
  exact hs

end Number

end Brokerage.Json
