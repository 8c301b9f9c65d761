import Brokerage.Proofs.Transaction.Rush

namespace Brokerage

inductive Ending (A : Type) where
  | success (action : A)
  | failure (reason : String)

def Draft.close {O A : Type} {m : Type → Type} [Monad m] (obs : List (Observer m O)) (d : Draft O) :
    Ending A → m (Record O A)
  | .success action => d.succeed obs action
  | .failure reason => pure (d.fail reason)

namespace Call

variable {A : Type}

def Idle (c : Call A) : Prop := c = .begun ∨ c = .unfailed ∨ c = .done false

theorem step_of_failed {c : Call A} (h : c = .begun ∨ c = .done false) (reason : String) :
    c.step (.failed reason) = (.done false, none) := by
  rcases h with rfl | rfl <;> rfl

theorem step_of_ready {c : Call A} (h : c = .begun ∨ c = .unfailed) (a : A) :
    c.step (.ready a) = (.unfailed, none) ∨ c.step (.ready a) = (.holding a, some .settle) := by
  rcases h with rfl | rfl
  · exact Or.inl rfl
  · exact Or.inr rfl

theorem Idle.step {c : Call A} (h : c.Idle) :
    (c.step .settled).1.Idle ∧ (c.step .settled).2 = none := by
  rcases h with rfl | rfl | rfl
  · exact ⟨Or.inr (Or.inl rfl), rfl⟩
  · exact ⟨Or.inr (Or.inr rfl), rfl⟩
  · exact ⟨Or.inr (Or.inr rfl), rfl⟩

end Call

namespace Rush

variable {O A : Type}

def fullDeeds (a : A) (k : Nat) : List (Nat × Effect A) :=
  [(k, .settle), (k, .perform a), (k, .announce)]

inductive Wins (a : A) (k : Nat) : Call A → List (Nat × Effect A) → Prop where
  | holding : Wins a k (.holding a) [(k, .settle)]
  | performed : Wins a k .performed [(k, .settle), (k, .perform a)]
  | done : Wins a k (.done true) (fullDeeds a k)

theorem Wins.step {a : A} {k : Nat} {c : Call A} {deeds : List (Nat × Effect A)}
    (h : Wins a k c deeds) (r : Record O A) (stage : Stage A) :
    Wins a k (c.step stage).1 (deeds ++ ((c.step stage).2.map (k, ·)).toList) ∧
      (c.step stage).2.elim r r.undergo = r := by
  cases h with
  | holding => exact ⟨.performed, rfl⟩
  | performed => exact ⟨.done, rfl⟩
  | done => exact ⟨.done, rfl⟩

/-- Nothing has been done for the record, or one call has taken the action out of it. -/
inductive Sound (r : Record O A) : Rush O A → Prop where
  | failed {reason : String} {calls : List (Call A)} (hr : r.stage = .failed reason)
      (hc : ∀ c ∈ calls, c = .begun ∨ c = .done false) : Sound r ⟨r, calls, []⟩
  | untouched {a : A} {calls : List (Call A)} (hr : r.stage = .ready a)
      (hc : ∀ c ∈ calls, c = .begun ∨ c = .unfailed) : Sound r ⟨r, calls, []⟩
  | taken {a : A} {k : Nat} {c : Call A} {calls : List (Call A)} {deeds : List (Nat × Effect A)}
      (hr : r.stage = .ready a) (hk : calls[k]? = some c) (hw : Wins a k c deeds)
      (ho : ∀ (j : Nat) (x : Call A), calls[j]? = some x → j ≠ k → x.Idle) :
      Sound r ⟨{ r with stage := .settled }, calls, deeds⟩

theorem forall_mem_issue {P : Call A → Prop} {calls : List (Call A)} (h : ∀ c ∈ calls, P c)
    (hb : P .begun) : ∀ c ∈ calls ++ [.begun], P c := by
  intro c hm
  rcases List.mem_append.mp hm with hm | hm
  · exact h c hm
  · rw [List.mem_singleton.mp hm]
    exact hb

theorem forall_mem_set {P : Call A → Prop} {calls : List (Call A)} (h : ∀ c ∈ calls, P c) (k : Nat)
    {x : Call A} (hx : P x) : ∀ c ∈ calls.set k x, P c := by
  intro c hm
  rcases List.mem_or_eq_of_mem_set hm with hm | rfl
  · exact h c hm
  · exact hx

variable {r : Record O A} {s : Rush O A}

theorem Sound.issue (h : Sound r s) : Sound r (s.turn .issue).1 := by
  cases h with
  | failed hr hc => exact .failed hr (forall_mem_issue hc (Or.inl rfl))
  | untouched hr hc => exact .untouched hr (forall_mem_issue hc (Or.inl rfl))
  | taken hr hk hw ho =>
    refine .taken hr (List.getElem?_append_left (List.getElem?_eq_some_iff.mp hk).1 ▸ hk) hw ?_
    intro j x hx hj
    rw [List.getElem?_append] at hx
    split at hx
    · exact ho j x hx hj
    · exact Or.inl (List.mem_singleton.mp (List.mem_of_getElem? hx))

theorem Sound.step (h : Sound r s) (k : Nat) : Sound r (s.turn (.step k)).1 := by
  cases hc : s.calls[k]? with
  | none =>
    rw [turn_of_none hc]
    exact h
  | some c =>
    have hm : c ∈ s.calls := List.mem_of_getElem? hc
    have hk : k < s.calls.length := (List.getElem?_eq_some_iff.mp hc).1
    rw [turn_of_some hc]
    cases h with
    | failed hr ho =>
      simp only [hr, Call.step_of_failed (ho c hm)]
      exact .failed hr (forall_mem_set ho k (Or.inr rfl))
    | @untouched a calls hr ho =>
      rcases Call.step_of_ready (ho c hm) a with hs | hs
      · simp only [hr, hs]
        exact .untouched hr (forall_mem_set ho k (Or.inr rfl))
      · simp only [hr, hs]
        refine .taken hr (List.getElem?_set_self hk) .holding ?_
        intro j x hx hj
        rw [List.getElem?_set_ne (Ne.symm hj)] at hx
        rcases ho x (List.mem_of_getElem? hx) with rfl | rfl
        · exact Or.inl rfl
        · exact Or.inr (Or.inl rfl)
    | @taken a w x calls deeds hr hw hx ho =>
      -- The call that has the action does not look at the record any more.
      by_cases hkw : k = w
      · subst hkw
        obtain rfl : c = x := Option.some.inj (hc.symm.trans hw)
        obtain ⟨hn, hu⟩ := hx.step { r with stage := .settled } .settled
        simp only [hu]
        refine .taken hr (List.getElem?_set_self hk) hn ?_
        intro j y hy hj
        rw [List.getElem?_set_ne (Ne.symm hj)] at hy
        exact ho j y hy hj
      · -- The action is gone, so any other call can only come to its end.
        obtain ⟨hi, he⟩ := (ho k c hc hkw).step
        simp only [he]
        refine .taken hr ((List.getElem?_set_ne hkw).trans hw) (by simpa using hx) ?_
        intro j y hy hj
        by_cases hkj : k = j
        · subst hkj
          rw [List.getElem?_set_self hk] at hy
          rw [← Option.some.inj hy]
          exact hi
        · rw [List.getElem?_set_ne hkj] at hy
          exact ho j y hy hj

theorem Sound.turn (h : Sound r s) (t : Turn) : Sound r (s.turn t).1 := by
  cases t with
  | issue => exact h.issue
  | step k => exact h.step k

theorem Sound.run (h : Sound r s) (turns : List Turn) : Sound r (run turns s) := by
  induction turns generalizing s with
  | nil => exact h
  | cons t turns ih => exact ih (h.turn t)

theorem Sound.performs_le (h : Sound r s) : s.deeds.countP (fun e => e.2.performs) ≤ 1 := by
  cases h with
  | failed hr hc => exact Nat.zero_le 1
  | untouched hr hc => exact Nat.zero_le 1
  | taken hr hk hw ho => cases hw <;> simp [fullDeeds, Effect.performs]

theorem Sound.done_unique (h : Sound r s) {j k : Nat}
    (hj : s.calls[j]? = some (.done true)) (hk : s.calls[k]? = some (.done true)) : j = k := by
  cases h with
  | failed hr hc => simpa using hc _ (List.mem_of_getElem? hj)
  | untouched hr hc => simpa using hc _ (List.mem_of_getElem? hj)
  | @taken a w c calls deeds hr hw hx ho =>
    have winner : ∀ n : Nat, calls[n]? = some (.done true) → n = w := by
      intro n hn
      by_cases hne : n = w
      · exact hne
      · simpa [Call.Idle] using ho n _ hn hne
    rw [winner j hj, winner k hk]

theorem Sound.isCompleted_iff (h : Sound r s) :
    s.record.isCompleted = true ↔ ∃ k, (k, Effect.settle) ∈ s.deeds := by
  cases h with
  | failed hr hc => simp [Record.isCompleted, hr]
  | untouched hr hc => simp [Record.isCompleted, hr]
  | @taken a k c calls deeds hr hk hw ho =>
    refine ⟨fun _ => ⟨k, ?_⟩, fun _ => rfl⟩
    cases hw <;> simp [fullDeeds]

theorem isCompleted_turn (s : Rush O A) (t : Turn) (h : s.record.isCompleted = true) :
    (s.turn t).1.record.isCompleted = true := by
  cases t with
  | issue => exact h
  | step k =>
    cases hk : s.calls[k]? with
    | none => rw [turn_of_none hk]; exact h
    | some c =>
      rw [turn_of_some hk]
      rcases (c.step s.record.stage).2 with - | e
      · exact h
      · cases e with
        | settle => rfl
        | perform a => exact h
        | announce => exact h

theorem isCompleted_run (turns : List Turn) (s : Rush O A) (h : s.record.isCompleted = true) :
    (run turns s).record.isCompleted = true := by
  induction turns generalizing s with
  | nil => exact h
  | cons t turns ih => exact ih _ (isCompleted_turn s t h)

theorem Sound.of_failed (h : Sound r s) (hf : r.isSuccess = false) :
    s.record.isCompleted = false ∧ s.deeds = [] ∧
      ∀ c ∈ s.calls, c.hasReturned = true → c = .done false := by
  cases h with
  | failed hr hc =>
    refine ⟨by simp [Record.isCompleted, hr], rfl, ?_⟩
    intro c hm hd
    rcases hc c hm with rfl | rfl
    · cases hd
    · rfl
  | untouched hr hc => simp [Record.isSuccess, Record.failure?, hr] at hf
  | taken hr hk hw ho => simp [Record.isSuccess, Record.failure?, hr] at hf

theorem Sound.deeds_prefix (h : Sound r s) {a : A}
    (ha : r.stage = .ready a) : ∃ k, s.deeds <+: fullDeeds a k := by
  cases h with
  | failed hr hc => exact ⟨0, List.nil_prefix⟩
  | untouched hr hc => exact ⟨0, List.nil_prefix⟩
  | @taken b k c calls deeds hr hk hw ho =>
    obtain rfl : a = b := Stage.ready.inj (ha.symm.trans hr)
    refine ⟨k, ?_⟩
    cases hw <;> simp [fullDeeds]

theorem Sound.of_returned (h : Sound r s) {a : A}
    (ha : r.stage = .ready a) (hs : s.calls ≠ []) (hd : ∀ c ∈ s.calls, c.hasReturned = true) :
    ∃ k, s.calls[k]? = some (.done true) ∧ s.deeds = fullDeeds a k ∧
      ∀ (j : Nat) (c : Call A), s.calls[j]? = some c → j ≠ k → c = .done false := by
  cases h with
  | failed hr hc => simp [hr] at ha
  | untouched hr hc =>
    obtain ⟨c, hm⟩ := List.exists_mem_of_ne_nil _ hs
    rcases hc c hm with rfl | rfl <;> cases hd _ hm
  | @taken b k c calls deeds hr hk hw ho =>
    obtain rfl : a = b := Stage.ready.inj (ha.symm.trans hr)
    refine ⟨k, ?_⟩
    have hret := hd c (List.mem_of_getElem? hk)
    cases hw with
    | holding => cases hret
    | performed => cases hret
    | done =>
      refine ⟨hk, rfl, ?_⟩
      intro j x hx hj
      have hx' := hd x (List.mem_of_getElem? hx)
      rcases ho j x hx hj with rfl | rfl | rfl
      · cases hx'
      · cases hx'
      · rfl

theorem close_eq {σ : Type} (obs : List (Observer (StateM σ) O)) (d : Draft O) (ending : Ending A)
    (w : σ) : ∃ stage, ((d.close obs ending).run w).1 = ⟨d.info, d.terms, stage⟩ ∧
      ((∃ reason, stage = .failed reason) ∨ ∃ a, ending = .success a ∧ stage = .ready a) := by
  cases ending with
  | failure reason => exact ⟨_, rfl, Or.inl ⟨_, rfl⟩⟩
  | success a =>
    refine ⟨_, rfl, ?_⟩
    split
    · exact Or.inl ⟨_, rfl⟩
    · exact Or.inr ⟨a, rfl, rfl⟩

/-- Whoever calls, however often and in whatever order of steps: the action of a record that can be
completed runs once, all who observe hear of it once and afterwards, and one call says so. A call has
returned once it had its turns, whatever the others do. -/
theorem completed_once {σ : Type} (vetters : List (Observer (StateM σ) O)) (d : Draft O)
    (ending : Ending A) (w : σ) (perform : A → StateM σ Unit)
    (audience : StateM σ (List (Observer (StateM σ) O))) (turns more : List Turn) :
    let r := ((d.close vetters ending).run w).1
    let s := run turns (start r)
    let act := r.enact (pure ()) perform audience
    let played := play act turns (start r)
    r.info = d.info ∧ r.terms.direction = d.direction ∧ r.isCompleted = false ∧
    s.deeds.countP (fun e => e.2.performs) ≤ 1 ∧
    (∀ j k : Nat, s.calls[j]? = some (.done true) → s.calls[k]? = some (.done true) → j = k) ∧
    (s.record.isCompleted = true ↔ ∃ k, (k, Effect.settle) ∈ s.deeds) ∧
    (s.record.isCompleted = true → (run more s).record.isCompleted = true) ∧
    (∀ k < s.calls.length, Call.mostSteps ≤ more.count (.step k) →
      ∃ b, (run more s).calls[k]? = some (.done b)) ∧
    (Rush.calls <$> play act (.issue :: List.replicate Call.mostSteps (.step s.calls.length)) s =
      (fun b => s.calls ++ [.done b]) <$> s.record.complete act) ∧
    (r.isSuccess = false → s.record.isCompleted = false ∧ s.deeds = [] ∧ played = pure s ∧
      (∀ c ∈ s.calls, c.hasReturned = true → c = .done false) ∧
      ∀ k < s.calls.length, Call.mostSteps ≤ more.count (.step k) →
        (run more s).calls[k]? = some (.done false)) ∧
    (r.isSuccess = true → ∃ a, ending = .success a ∧ (∃ k, s.deeds <+: fullDeeds a k) ∧
      (s.calls ≠ [] → (∀ c ∈ s.calls, c.hasReturned = true) →
        (∃ k, s.calls[k]? = some (.done true) ∧ s.deeds = fullDeeds a k ∧
          ∀ (j : Nat) (c : Call A), s.calls[j]? = some c → j ≠ k → c = .done false) ∧
        played = do
          perform a
          let obs ← audience
          obs.forM fun o => o.completed r.info r.terms
          pure s)) := by
  intro r s act played
  obtain ⟨stage, hr, hstage⟩ : ∃ stage, r = ⟨d.info, d.terms, stage⟩ ∧
      ((∃ reason, stage = .failed reason) ∨ ∃ a, ending = .success a ∧ stage = .ready a) :=
    close_eq vetters d ending w
  have hp : played = (fun _ => s) <$>
      (s.deeds.map Prod.snd).forM (r.enact (pure ()) perform audience) := play_start _ turns r
  have hs : Sound r s := by
    apply Sound.run
    rcases hstage with ⟨reason, rfl⟩ | ⟨a, -, rfl⟩
    · exact .failed (congrArg Record.stage hr) nofun
    · exact .untouched (congrArg Record.stage hr) nofun
  refine ⟨congrArg Record.info hr, congrArg (fun r => r.terms.direction) hr, ?_, hs.performs_le,
    fun j k => hs.done_unique, hs.isCompleted_iff, isCompleted_run more s,
    fun k hk => done_of_turns hk, play_alone act s, ?_, ?_⟩
  · rw [hr]
    rcases hstage with ⟨reason, rfl⟩ | ⟨a, -, rfl⟩ <;> rfl
  · intro hf
    obtain ⟨hi, hd, hc⟩ := hs.of_failed hf
    refine ⟨hi, hd, ?_, hc, ?_⟩
    · rw [hp, hd]
      rfl
    · intro k hk ht
      obtain ⟨b, hb⟩ := done_of_turns hk ht
      obtain ⟨-, -, hc'⟩ := (hs.run more).of_failed hf
      rw [hb, hc' _ (List.mem_of_getElem? hb) rfl]
  · intro ht
    rcases hstage with ⟨reason, rfl⟩ | ⟨a, he, rfl⟩
    · rw [hr] at ht
      cases ht
    · have ha : r.stage = .ready a := congrArg Record.stage hr
      refine ⟨a, he, hs.deeds_prefix ha, ?_⟩
      intro hne hret
      obtain ⟨k, hk, hd, ho⟩ := hs.of_returned ha hne hret
      refine ⟨⟨k, hk, hd, ho⟩, ?_⟩
      rw [hp, hd]
      rfl

end Rush

end Brokerage
