import Brokerage.Decimal.Double
import Mathlib.Algebra.Group.Nat.Defs

namespace Brokerage.Decimal

theorem nearest_le (num den : Nat) : nearest num den ≤ num + 1 := by
  have hd := Nat.div_le_self num den
  unfold nearest
  dsimp only
  split <;> omega

namespace Double

def exponentOf (num den : Nat) : Int :=
  let bits : Int := num.log2 - den.log2
  max (if (shifted num den bits).2 ≤ (shifted num den bits).1 then bits - 52 else bits - 53)
    leastExponent

theorem exponentOf_le (num den : Nat) :
    exponentOf num den ≤ max ((num.log2 : Int) - den.log2 - 52) leastExponent := by
  unfold exponentOf
  dsimp only
  split <;> omega

theorem le_exponentOf (num den : Nat) : (num.log2 : Int) - den.log2 - 53 ≤ exponentOf num den := by
  unfold exponentOf
  dsimp only
  split <;> omega

theorem ofRatio_eq {num den : Nat} (hn : num ≠ 0) (hl : (num.log2 : Int) - den.log2 ≤ 1000) :
    ∃ x : Double, ofRatio num den = some x ∧ x.exponent ≤ exponentOf num den + 1 ∧
      x.mantissa ≤ max (Nat.pow 2 52) ((shifted num den (exponentOf num den)).1 + 1) := by
  have he := exponentOf_le num den
  have hm := nearest_le (shifted num den (exponentOf num den)).1
    (shifted num den (exponentOf num den)).2
  let m := nearest (shifted num den (exponentOf num den)).1
    (shifted num den (exponentOf num den)).2
  let x : Double := if m = Nat.pow 2 53 then ⟨Nat.pow 2 52, exponentOf num den + 1⟩
    else ⟨m, exponentOf num den⟩
  have hx : x.exponent ≤ exponentOf num den + 1 := by
    dsimp only [x]
    split
    · exact Int.le_refl _
    · dsimp only
      omega
  refine ⟨x, ?_, hx, ?_⟩
  · have hs : ¬ x.exponent > greatestExponent := by
      simp only [leastExponent, greatestExponent] at *
      omega
    have hr : ofRatio num den = if x.exponent > greatestExponent then none else some x := by
      simp only [ofRatio, hn, ↓reduceIte]
      rfl
    rw [hr, if_neg hs]
  · dsimp only [x]
    split
    · exact Nat.le_max_left _ _
    · exact Nat.le_trans hm (Nat.le_max_right _ _)

theorem ofRatio_isSome {num den c : Nat} (hl : num < 2 ^ c) (hc : c ≤ 1000) :
    (ofRatio num den).isSome := by
  by_cases hn : num = 0
  · rw [ofRatio, if_pos hn]
    rfl
  · have hb := (Nat.log2_lt hn).mpr hl
    obtain ⟨x, hx, -⟩ := @ofRatio_eq num den hn (by omega)
    rw [hx]
    rfl

theorem ofNat_eq {n : Nat} (hl : n < 2 ^ 64) :
    ∃ x : Double, ofNat n = some x ∧ x.ratio.1 ≤ 2 ^ 130 := by
  by_cases hn : n = 0
  · subst hn
    exact ⟨⟨0, leastExponent⟩, rfl, by decide⟩
  · have hb := (Nat.log2_lt hn).mpr hl
    have h1 : Nat.log2 1 = 0 := rfl
    obtain ⟨x, hx, he, hm⟩ := @ofRatio_eq n 1 hn (by omega)
    refine ⟨x, hx, ?_⟩
    have hle := exponentOf_le n 1
    have hge := le_exponentOf n 1
    -- An exponent below zero scales the number up, but by 53 bits at most.
    have hs : (shifted n 1 (exponentOf n 1)).1 ≤ 2 ^ 117 := by
      unfold shifted
      split
      · dsimp only
        omega
      · have hp : 2 ^ (-(exponentOf n 1)).toNat ≤ 2 ^ 53 := Nat.pow_le_pow_right (by omega) (by omega)
        calc n * 2 ^ (-(exponentOf n 1)).toNat ≤ 2 ^ 64 * 2 ^ 53 :=
              Nat.mul_le_mul (Nat.le_of_lt hl) hp
          _ = 2 ^ 117 := by decide
    have hm' : x.mantissa ≤ 2 ^ 118 := by
      have h52 : Nat.pow 2 52 ≤ 2 ^ 118 := by decide
      omega
    unfold ratio
    split
    · have hp : 2 ^ x.exponent.toNat ≤ 2 ^ 12 :=
        Nat.pow_le_pow_right (by omega) (by simp only [leastExponent] at hle; omega)
      calc x.mantissa * 2 ^ x.exponent.toNat ≤ 2 ^ 118 * 2 ^ 12 := Nat.mul_le_mul hm' hp
        _ = 2 ^ 130 := by decide
    · dsimp only
      omega

theorem mul_isSome {x y : Double} {a b : Nat} (hx : x.ratio.1 ≤ 2 ^ a) (hy : y.ratio.1 ≤ 2 ^ b)
    (hab : a + b < 1000) : (x.mul y).isSome := by
  have hp := Nat.mul_le_mul hx hy
  rw [← Nat.pow_add] at hp
  exact ofRatio_isSome (Nat.lt_of_le_of_lt hp (Nat.pow_lt_pow_right (by decide)
    (Nat.lt_succ_self (a + b)))) (by omega)

end Double

end Brokerage.Decimal
