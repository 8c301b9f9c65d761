import Brokerage.Json.Token

namespace Brokerage.Json

theorem takeDigits_length (cs : List Char) :
    (Text.takeDigits cs).1.length + (Text.takeDigits cs).2.length = cs.length := by
  induction cs with
  | nil => rfl
  | cons c cs ih =>
    unfold Text.takeDigits
    split
    · simp
    · simp only [List.length_cons, ← ih]
      omega

theorem someDigits_length {cs : List Char} {r : List (Fin 10) × List Char}
    (h : Number.someDigits cs = .ok r) : r.2.length < cs.length := by
  have hl := takeDigits_length cs
  unfold Number.someDigits at h
  split at h
  · simp at h
  · simp at h
  · next hnil hcons =>
    simp only [Except.ok.injEq] at h
    subst h
    rcases hd : Text.takeDigits cs with ⟨_ | ⟨d, ds⟩, rest⟩
    · cases rest with
      | nil => exact absurd hd hnil
      | cons c rest => exact absurd hd (hcons c rest)
    · rw [hd] at hl
      simp only [List.length_cons] at hl
      simp only
      omega

theorem scanWhole_length {cs : List Char} {r : Nat × List Char}
    (h : Number.scanWhole cs = .ok r) : r.2.length < cs.length := by
  unfold Number.scanWhole at h
  cases hd : Number.someDigits cs with
  | error e => simp [hd, bind, Except.bind] at h
  | ok v =>
    have hv := someDigits_length hd
    simp only [hd, bind, Except.bind] at h
    split at h
    · simp at h
    · simp only [Except.ok.injEq] at h
      subst h
      exact hv

theorem scanFraction_length {cs : List Char} {r : List (Fin 10) × List Char}
    (h : Number.scanFraction cs = .ok r) : r.2.length ≤ cs.length := by
  unfold Number.scanFraction at h
  split at h
  · have := someDigits_length h
    simp only [List.length_cons]
    omega
  · simp only [Except.ok.injEq] at h
    subst h
    exact Nat.le_refl _

theorem scanSign_length (cs : List Char) : (Number.scanSign cs).2.length ≤ cs.length := by
  unfold Number.scanSign
  split <;> simp

theorem scanExponent_length {cs : List Char} {r : Option Int × List Char}
    (h : Number.scanExponent cs = .ok r) : r.2.length ≤ cs.length := by
  unfold Number.scanExponent at h
  split at h
  · next c cs =>
    split at h
    · cases hd : Number.someDigits (Number.scanSign cs).2 with
      | error e => simp [hd, bind, Except.bind] at h
      | ok v =>
        have hv := someDigits_length hd
        have hs := scanSign_length cs
        simp only [hd, bind, Except.bind, Except.ok.injEq] at h
        subst h
        simp only [List.length_cons]
        omega
    · simp only [Except.ok.injEq] at h
      subst h
      exact Nat.le_refl _
  · simp only [Except.ok.injEq] at h
    subst h
    exact Nat.le_refl _

theorem scanMinus_length (cs : List Char) : (Number.scanMinus cs).2.length ≤ cs.length := by
  unfold Number.scanMinus
  split <;> simp

theorem scan_length {cs : List Char} {r : Number × List Char} (h : Number.scan cs = .ok r) :
    r.2.length < cs.length := by
  have h₀ := scanMinus_length cs
  simp only [Number.scan, bind, Except.bind] at h
  cases hw : Number.scanWhole (Number.scanMinus cs).2 with
  | error e => simp [hw] at h
  | ok w =>
    simp only [hw] at h
    cases hf : Number.scanFraction w.2 with
    | error e => simp [hf] at h
    | ok f =>
      simp only [hf] at h
      cases he : Number.scanExponent f.2 with
      | error e => simp [he] at h
      | ok e =>
        simp only [he, Except.ok.injEq] at h
        subst h
        have h₁ := scanWhole_length hw
        have h₂ := scanFraction_length hf
        have h₃ := scanExponent_length he
        simp only
        omega

theorem scanString_length {cs : List Char} {ps : List Piece} {rest : List Char}
    (h : scanString cs = .closed ps rest) : rest.length < cs.length := by
  fun_induction scanString cs generalizing ps rest with
  | case1 => simp at h
  | case2 cs =>
    simp only [Scanned.closed.injEq] at h
    simp [h.2]
  | case3 => simp at h
  | case4 a b c d cs n hn ih =>
    cases hs : scanString cs with
    | broken _ _ => simp [hs, Scanned.cons] at h
    | closed qs r =>
      simp only [hs, Scanned.cons, Scanned.closed.injEq] at h
      have := ih hs
      simp only [List.length_cons, ← h.2]
      omega
  | case5 => simp at h
  | case6 => simp at h
  | case7 c cs _ _ x hx ih =>
    cases hs : scanString cs with
    | broken _ _ => simp [hs, Scanned.cons] at h
    | closed qs r =>
      simp only [hs, Scanned.cons, Scanned.closed.injEq] at h
      have := ih hs
      simp only [List.length_cons, ← h.2]
      omega
  | case8 => simp at h
  | case9 => simp at h
  | case10 c cs _ _ _ _ _ _ ih =>
    cases hs : scanString cs with
    | broken _ _ => simp [hs, Scanned.cons] at h
    | closed qs r =>
      simp only [hs, Scanned.cons, Scanned.closed.injEq] at h
      have := ih hs
      simp only [List.length_cons, ← h.2]
      omega

theorem scanWord_length {t u : Token} {ws cs rest : List Char}
    (h : scanWord t ws cs = .token u rest) : rest.length ≤ cs.length := by
  induction ws generalizing cs with
  | nil =>
    simp only [scanWord, Next.token.injEq] at h
    exact Nat.le_of_eq (congrArg List.length h.2.symm)
  | cons w ws ih =>
    cases cs with
    | nil => simp [scanWord] at h
    | cons c cs =>
      unfold scanWord at h
      split at h
      · have := ih h
        simp only [List.length_cons]
        omega
      · simp at h

theorem nextString_length {cs rest : List Char} {t : Token} (h : nextString cs = .token t rest) :
    rest.length < cs.length := by
  unfold nextString at h
  split at h
  · next hs =>
    simp only [Next.token.injEq] at h
    rw [← h.2]
    exact scanString_length hs
  · simp at h

theorem nextNumber_length {cs rest : List Char} {t : Token} (h : nextNumber cs = .token t rest) :
    rest.length < cs.length := by
  unfold nextNumber at h
  split at h
  · next hs =>
    simp only [Next.token.injEq] at h
    rw [← h.2]
    exact scan_length hs
  · simp at h

theorem nextScalar_length {c : Char} {cs rest : List Char} {t : Token}
    (h : nextScalar c cs = .token t rest) : rest.length ≤ cs.length := by
  unfold nextScalar at h
  split at h
  · exact Nat.le_of_lt (nextString_length h)
  · exact scanWord_length h
  · exact scanWord_length h
  · exact scanWord_length h
  · split at h
    · exact Nat.le_of_lt_succ (nextNumber_length h)
    · exact nomatch h

theorem next_length {cs : List Char} {t : Token} {rest : List Char}
    (h : next cs = .token t rest) : rest.length < cs.length := by
  induction cs with
  | nil => exact nomatch h
  | cons c cs ih =>
    unfold next at h
    split at h
    · exact Nat.lt_succ_of_lt (ih h)
    · split at h
      · simp only [Next.token.injEq] at h
        simp [h.2]
      · exact Nat.lt_succ_of_le (nextScalar_length h)

def tokens (cs : List Char) : List Token × Ending :=
  match _h : next cs with
  | .ending e => ([], e)
  | .token t rest =>
    let (ts, e) := tokens rest
    (t :: ts, e)
termination_by cs.length
decreasing_by exact next_length _h

end Brokerage.Json
