import Brokerage.Text.Digits

namespace Brokerage.Text

def NoDigit (cs : List Char) : Prop := ∀ c ∈ cs.head?, digit? c = none

theorem NoDigit.nil : NoDigit [] := nofun

theorem NoDigit.cons {c : Char} {cs : List Char} (h : digit? c = none) : NoDigit (c :: cs) := by
  intro x hx
  cases hx
  exact h

theorem digit?_digitChar : ∀ d : Fin 10, digit? (digitChar d) = some d := by decide

theorem digitChar_ne_sign : ∀ d : Fin 10, digitChar d ≠ '-' ∧ digitChar d ≠ '+' := by decide

theorem takeDigits_of_noDigit {cs : List Char} (h : NoDigit cs) : takeDigits cs = ([], cs) := by
  cases cs with
  | nil => rfl
  | cons c cs => simp only [takeDigits, h c rfl]

theorem takeDigits_append (ds : List (Fin 10)) {rest : List Char} (h : NoDigit rest) :
    takeDigits (ds.map digitChar ++ rest) = (ds, rest) := by
  induction ds with
  | nil => exact takeDigits_of_noDigit h
  | cons d ds ih => simp only [List.map_cons, List.cons_append, takeDigits, digit?_digitChar, ih]

theorem decimal_append (ds : List (Fin 10)) (d : Fin 10) :
    decimal (ds ++ [d]) = 10 * decimal ds + d := by
  simp only [decimal, ofDigits, List.map_append, List.map_cons, List.map_nil, List.foldl_append,
    List.foldl_cons, List.foldl_nil]

theorem filterMap_digit (ds : List (Fin 10)) : (ds.map digitChar).filterMap digit? = ds := by
  induction ds with
  | nil => rfl
  | cons d ds ih => simp only [List.map_cons, List.filterMap_cons, digit?_digitChar, ih]

theorem digitsOf_eq (n : Nat) : ∃ ds : List (Fin 10), digitsOf n = ds.map digitChar ∧
    decimal ds = n ∧ ds ≠ [] ∧ (ds.head? = some 0 → ds.length = 1) := by
  induction n using Nat.strongRecOn with
  | ind n ih =>
    have he := Nat.toDigits_eq_if (b := 10) (n := n) (by omega)
    by_cases hn : n < 10
    · rw [if_pos hn] at he
      refine ⟨[⟨n, hn⟩], he, ?_, by simp, fun _ => rfl⟩
      simp [decimal, ofDigits]
    · rw [if_neg hn] at he
      obtain ⟨ds, hd, hv, hne, hz⟩ := ih (n / 10) (by omega)
      refine ⟨ds ++ [⟨n % 10, by omega⟩], ?_, ?_, by simp, ?_⟩
      · rw [digitsOf, he, List.map_append, ← hd]
        rfl
      · rw [decimal_append, hv]
        dsimp only
        omega
      · -- A single zero in front would leave nothing of the tens.
        intro h0
        cases ds with
        | nil => exact absurd rfl hne
        | cons d ds =>
          have hl := hz (by simpa using h0)
          rw [List.length_cons] at hl
          obtain rfl : ds = [] := List.eq_nil_of_length_eq_zero (by omega)
          obtain rfl : d = 0 := by simpa using h0
          simp only [decimal, ofDigits, List.map_cons, List.map_nil, List.foldl_cons,
            List.foldl_nil] at hv
          omega

theorem readInt?_intChars (n : Int) : readInt? (intChars n) = some n := by
  obtain ⟨ds, he, hv, hne, -⟩ := digitsOf_eq n.natAbs
  obtain ⟨d, ds, rfl⟩ := List.exists_cons_of_ne_nil hne
  have ht : takeDigits (digitsOf n.natAbs) = (d :: ds, []) := by
    have h := takeDigits_append (d :: ds) .nil
    rwa [List.append_nil, ← he] at h
  rw [intChars]
  split
  · have hn : -((n.natAbs : Nat) : Int) = n := by omega
    simp only [readInt?, ht, hv]
    exact congrArg some hn
  · have hn : ((n.natAbs : Nat) : Int) = n := by omega
    obtain ⟨hm, hp⟩ := digitChar_ne_sign d
    rw [List.map_cons] at he
    rw [readInt?]
    · simp only [ht, hv]
      exact congrArg some hn
    · exact fun _ h => hm (List.cons.inj (he.symm.trans h)).1
    · exact fun _ h => hp (List.cons.inj (he.symm.trans h)).1

end Brokerage.Text
