import Brokerage.Proofs.Transaction.Hearings

namespace Brokerage

structure Hooks (m : Type → Type) (O : Type) where
  registered : Info → m Unit
  unregistered : Info → m Unit
  vet : Direction → Info → Terms O → m Bool
  completed : Direction → Info → Terms O → m Unit

inductive Hook (O : Type) where
  | registered (i : Info)
  | unregistered (i : Info)
  | vet (d : Direction) (i : Info) (t : Terms O) (vetoed : Bool)
  | completed (d : Direction) (i : Info) (t : Terms O)

abbrev Calls (O : Type) := List (Hook O × Nat)

namespace Hooks

variable {m : Type → Type} [Monad m] {O : Type}

def observer (s : Hooks m O) : Observer m O where
  registered := s.registered
  unregistered := s.unregistered
  vet i t := s.vet t.direction i t
  completed i t := s.completed t.direction i t

def tracked (s : Hooks m O) (k : Nat) : Hooks (StateT (Calls O) m) O where
  registered i := do
    StateT.lift (s.registered i)
    modify fun calls => calls ++ [(.registered i, k)]
  unregistered i := do
    StateT.lift (s.unregistered i)
    modify fun calls => calls ++ [(.unregistered i, k)]
  vet d i t := do
    let vetoed ← StateT.lift (s.vet d i t)
    modify fun calls => calls ++ [(.vet d i t vetoed, k)]
    pure vetoed
  completed d i t := do
    StateT.lift (s.completed d i t)
    modify fun calls => calls ++ [(.completed d i t, k)]

def observersFrom (k : Nat) (subs : List (Hooks m O)) : List (Observer (StateT (Calls O) m) O) :=
  (subs.zipIdx k).map fun s => (s.1.tracked s.2).observer

def poll (subs : List (Hooks m O)) (d : Direction) (i : Info) (t : Terms O) : m (List Bool) :=
  subs.mapM fun s => s.vet d i t

def answered (k : Nat) (d : Direction) (i : Info) (t : Terms O) (answers : List Bool) : Calls O :=
  (answers.zipIdx k).map fun a => (.vet d i t a.1, a.2)

variable [LawfulMonad m] (i : Info) (t : Terms O)

theorem poll_cons (s : Hooks m O) (subs : List (Hooks m O)) (d : Direction) :
    poll (s :: subs) d i t = (do
      let vetoed ← s.vet d i t
      let answers ← poll subs d i t
      pure (vetoed :: answers)) := by
  rw [poll, List.mapM_cons]
  rfl

omit [LawfulMonad m] in
theorem observersFrom_cons (k : Nat) (s : Hooks m O) (subs : List (Hooks m O)) :
    observersFrom k (s :: subs) = (s.tracked k).observer :: observersFrom (k + 1) subs := by
  rw [observersFrom, List.zipIdx_cons, List.map_cons]
  rfl

theorem run_vet_tracked (s : Hooks m O) (k : Nat) (calls : Calls O) :
    ((s.tracked k).observer.vet i t).run calls =
      (fun vetoed => (vetoed, calls ++ [(.vet t.direction i t vetoed, k)])) <$>
        s.vet t.direction i t := by
  simp [observer, tracked]

theorem vetFrom_observers (cancelled : Bool) (subs : List (Hooks m O)) :
    Observer.vetFrom i t cancelled (subs.map observer) =
      (fun answers => cancelled || answers.any id) <$> poll subs t.direction i t := by
  induction subs generalizing cancelled with
  | nil => simp [Observer.vetFrom, poll]
  | cons s subs ih =>
    rw [List.map_cons, Observer.vetFrom_cons, poll_cons, map_bind]
    refine bind_congr fun vetoed => ?_
    simp [ih, Bool.or_assoc]

theorem run_vetFrom_tracked (cancelled : Bool) (subs : List (Hooks m O)) (k : Nat)
    (calls : Calls O) :
    (Observer.vetFrom i t cancelled (observersFrom k subs)).run calls =
      (fun answers => (cancelled || answers.any id,
        calls ++ answered k t.direction i t answers)) <$> poll subs t.direction i t := by
  -- After one answer the flag, the place and the calls have moved on, so all three are general.
  induction subs generalizing cancelled k calls with
  | nil => simp [Observer.vetFrom, poll, observersFrom, answered]
  | cons s subs ih =>
    rw [observersFrom_cons, Observer.vetFrom_cons, poll_cons, StateT.run_bind, run_vet_tracked,
      bind_map_left, map_bind]
    refine bind_congr fun vetoed => ?_
    simp [ih, answered, Bool.or_assoc]

def Firm {σ : Type} (s : Hooks (StateM σ) O) (d : Direction) : Prop :=
  ∀ w w' : σ, ((s.vet d i t).run w).1 = ((s.vet d i t).run w').1

section

variable {σ : Type} (subs : List (Hooks (StateM σ) O)) (d : Direction)

theorem run_poll_cons (s : Hooks (StateM σ) O) (w : σ) :
    ((poll (s :: subs) d i t).run w).1 =
      ((s.vet d i t).run w).1 :: ((poll subs d i t).run ((s.vet d i t).run w).2).1 := by
  rw [poll_cons]
  rfl

theorem length_poll (w : σ) : ((poll subs d i t).run w).1.length = subs.length := by
  induction subs generalizing w with
  | nil => rfl
  | cons s subs ih => rw [run_poll_cons, List.length_cons, ih, List.length_cons]

theorem run_poll_of_firm {subs : List (Hooks (StateM σ) O)} (hf : ∀ s ∈ subs, s.Firm i t d)
    (w w' : σ) : ((poll subs d i t).run w).1 = subs.map fun s => ((s.vet d i t).run w').1 := by
  induction subs generalizing w with
  | nil => rfl
  | cons s subs ih =>
    rw [run_poll_cons, List.map_cons, hf s List.mem_cons_self w w',
      ih fun x hx => hf x (List.mem_cons_of_mem s hx)]

end

end Hooks

namespace Rush

variable {O A : Type}

theorem Sound.close {σ : Type} (obs : List (Observer (StateM σ) O)) (d : Draft O)
    (ending : Ending A) (w : σ) (turns : List Turn) :
    let r := ((d.close obs ending).run w).1
    Sound r (Rush.run turns (start r)) := by
  intro r
  apply Sound.run
  obtain ⟨stage, hr, ⟨reason, rfl⟩ | ⟨a, -, rfl⟩⟩ := close_eq obs d ending w
  · exact .failed (congrArg Record.stage hr) nofun
  · exact .untouched (congrArg Record.stage hr) nofun

theorem Sound.failure_eq {r : Record O A} {s : Rush O A} (h : Sound r s) :
    s.record.failure? = r.failure? := by
  cases h with
  | failed hr hc => rfl
  | untouched hr hc => rfl
  | taken hr hk hw ho => simp only [Record.failure?, hr]

end Rush

namespace Direction

theorem cancelReason_ne (d : Direction) : d.cancelReason ≠ "" := by cases d <;> decide

theorem failureReason_ne (d : Direction) : d.failureReason ≠ "" := by cases d <;> decide

end Direction

namespace Draft

variable {m : Type → Type} [Monad m] [LawfulMonad m] {O A : Type}

theorem conclude_eq (d : Draft O) (answers : List Bool) (action : A) :
    d.conclude (answers.any id) action =
      ⟨d.info, d.terms,
        if true ∈ answers then .failed d.direction.cancelReason else .ready action⟩ := by
  have hany : answers.any id = decide (true ∈ answers) := by
    rw [Bool.eq_iff_iff]
    simp
  simp only [conclude, hany, decide_eq_true_eq]

theorem fail_eq (d : Draft O) (reason : String) :
    (d.fail reason : Record O A) =
      ⟨d.info, d.terms,
        .failed (if reason = "" then d.direction.failureReason else reason)⟩ := by
  simp only [fail, String.isEmpty_iff]

theorem succeed_observers (subs : List (Hooks m O)) (action : A) (d : Draft O) :
    d.succeed (subs.map Hooks.observer) action =
      (fun answers => d.conclude (answers.any id) action) <$>
        Hooks.poll subs d.direction d.info d.terms := by
  have hv : Observer.vetAll (subs.map Hooks.observer) d.info d.terms = _ :=
    Hooks.vetFrom_observers d.info d.terms false subs
  rw [succeed, hv]
  simp [terms]

theorem run_succeed_tracked (subs : List (Hooks m O)) (action : A) (d : Draft O) :
    (d.succeed (Hooks.observersFrom 0 subs) action).run [] =
      (fun answers => (d.conclude (answers.any id) action,
        Hooks.answered 0 d.direction d.info d.terms answers)) <$>
        Hooks.poll subs d.direction d.info d.terms := by
  have hv : (Observer.vetAll (Hooks.observersFrom 0 subs) d.info d.terms).run [] = _ :=
    Hooks.run_vetFrom_tracked d.info d.terms false subs 0 []
  rw [succeed, StateT.run_bind, hv]
  simp [terms]

section

variable {σ : Type}

theorem close_reason_ne (obs : List (Observer (StateM σ) O)) (d : Draft O) (ending : Ending A)
    (w : σ) {reason : String} (h : ((d.close obs ending).run w).1.failure? = some reason) :
    reason ≠ "" := by
  cases ending with
  | success action =>
    have hr : ((d.close obs (.success action)).run w).1 =
      d.conclude ((Observer.vetAll obs d.info d.terms).run w).1 action := rfl
    rw [hr, conclude] at h
    split at h
    · cases h
      exact d.direction.cancelReason_ne
    · cases h
  | failure given =>
    have hr : ((d.close obs (.failure given : Ending A)).run w).1 = d.fail given := rfl
    rw [hr, fail_eq] at h
    cases h
    split
    · exact d.direction.failureReason_ne
    · assumption

theorem close_perm {subs subs' : List (Hooks (StateM σ) O)} (hp : subs.Perm subs') (d : Draft O)
    (hf : ∀ s ∈ subs, s.Firm d.info d.terms d.direction) (ending : Ending A) (w w' : σ) :
    ((d.close (subs.map Hooks.observer) ending).run w).1 =
      ((d.close (subs'.map Hooks.observer) ending).run w').1 := by
  cases ending with
  | failure reason => rfl
  | success action =>
    have hf' : ∀ s ∈ subs', s.Firm d.info d.terms d.direction :=
      fun s hs => hf s (hp.mem_iff.mpr hs)
    have hc (l : List (Hooks (StateM σ) O)) (v : σ) :
        ((d.close (l.map Hooks.observer) (.success action)).run v).1 =
          d.conclude (((Hooks.poll l d.direction d.info d.terms).run v).1.any id) action := by
      rw [close, succeed_observers]
      rfl
    rw [hc, hc, Hooks.run_poll_of_firm d.info d.terms d.direction hf w w,
      Hooks.run_poll_of_firm d.info d.terms d.direction hf' w' w, (hp.map _).any_eq]

/-- Whoever observes and by whatever rules: all are asked once about the terms of a draft that is to
succeed, in the order in which they subscribed and also after a veto, and it is cancelled if one of
them says so. Nobody is asked about a draft that is to fail. -/
theorem cancelled_by_vetoes (subs : List (Hooks (StateM σ) O)) (d : Draft O) (w : σ) :
    (∀ action : A,
      let ((r, calls), next) :=
        ((d.close (Hooks.observersFrom 0 subs) (.success action)).run []).run w
      let (answers, polled) := (Hooks.poll subs d.direction d.info d.terms).run w
      (r, next) = (d.close (subs.map Hooks.observer) (.success action)).run w ∧ next = polled ∧
      answers.length = subs.length ∧
      calls = answers.zipIdx.map (fun a => (.vet d.direction d.info d.terms a.1, a.2)) ∧
      r = ⟨d.info, d.terms,
        if true ∈ answers then .failed d.direction.cancelReason else .ready action⟩) ∧
    (∀ reason : String,
      let ((r, calls), next) :=
        ((d.close (Hooks.observersFrom 0 subs) (.failure reason : Ending A)).run []).run w
      next = w ∧ calls = [] ∧
      r = ⟨d.info, d.terms,
        .failed (if reason = "" then d.direction.label ++ " failed" else reason)⟩) ∧
    (∀ (ending : Ending A) (turns : List Turn),
      let r := ((d.close (subs.map Hooks.observer) ending).run w).1
      let later := (Rush.run turns (Rush.start r)).record
      later.failure? = r.failure? ∧ (later.isSuccess = true ↔ later.failure? = none) ∧
      ∀ reason : String, later.failure? = some reason → reason ≠ "") ∧
    ∀ subs' : List (Hooks (StateM σ) O), subs.Perm subs' →
      (∀ s ∈ subs, s.Firm d.info d.terms d.direction) → ∀ (ending : Ending A) (w' : σ),
        ((d.close (subs.map Hooks.observer) ending).run w).1 =
          ((d.close (subs'.map Hooks.observer) ending).run w').1 := by
  refine ⟨fun action => ?_, fun reason => ?_, fun ending turns => ?_, fun subs' hp hf ending w' =>
    close_perm hp d hf ending w w'⟩
  · have hlength := Hooks.length_poll d.info d.terms subs d.direction w
    rw [close, close, run_succeed_tracked, succeed_observers, StateT.run_map, StateT.run_map]
    generalize (Hooks.poll subs d.direction d.info d.terms).run w = asked at hlength ⊢
    obtain ⟨answers, polled⟩ := asked
    exact ⟨rfl, rfl, hlength, rfl, d.conclude_eq answers action⟩
  · refine ⟨rfl, rfl, ?_⟩
    exact d.fail_eq reason
  · intro r later
    have hfailure : later.failure? = r.failure? := (Rush.Sound.close _ d ending w turns).failure_eq
    refine ⟨hfailure, Option.isNone_iff_eq_none, ?_⟩
    intro reason h
    exact close_reason_ne _ d ending w (hfailure.symm.trans h)

end

end Draft

end Brokerage
