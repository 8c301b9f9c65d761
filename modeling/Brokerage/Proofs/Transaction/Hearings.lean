import Brokerage.Proofs.Transaction.Completion

namespace Brokerage

inductive Hearing (O : Type) where
  | vetted (i : Info) (t : Terms O)
  | completed (i : Info) (t : Terms O)

namespace Observer

variable {m : Type → Type} [Monad m] {O : Type}

def noting (o : Observer m O) : Observer (StateT (List (Hearing O)) m) O where
  registered i := StateT.lift (o.registered i)
  unregistered i := StateT.lift (o.unregistered i)
  vet i t := do
    modify fun log => log ++ [.vetted i t]
    StateT.lift (o.vet i t)
  completed i t := do
    modify fun log => log ++ [.completed i t]
    StateT.lift (o.completed i t)

def allNoting (audience : m (List (Observer m O))) :
    StateT (List (Hearing O)) m (List (Observer (StateT (List (Hearing O)) m) O)) := do
  pure ((← StateT.lift audience).map noting)

def vetFrom (i : Info) (t : Terms O) (cancelled : Bool) (obs : List (Observer m O)) : m Bool :=
  obs.foldlM (fun cancelled o => do
    let vetoed ← o.vet i t
    pure (cancelled || vetoed)) cancelled

variable [LawfulMonad m] (i : Info) (t : Terms O)

theorem vetFrom_cons (cancelled : Bool) (o : Observer m O) (obs : List (Observer m O)) :
    vetFrom i t cancelled (o :: obs) =
      o.vet i t >>= fun vetoed => vetFrom i t (cancelled || vetoed) obs := by
  simp only [vetFrom, List.foldlM_cons, bind_assoc, pure_bind]

theorem run_vet_noting (o : Observer m O) (log : List (Hearing O)) :
    (o.noting.vet i t).run log = (·, log ++ [.vetted i t]) <$> o.vet i t := by
  simp [noting]

theorem run_completed_noting (o : Observer m O) (log : List (Hearing O)) :
    (o.noting.completed i t).run log = (·, log ++ [.completed i t]) <$> o.completed i t := by
  simp [noting]

theorem run_vetFrom_noting (cancelled : Bool) (obs : List (Observer m O)) (log : List (Hearing O)) :
    (vetFrom i t cancelled (obs.map noting)).run log =
      (·, log ++ obs.map fun _ => .vetted i t) <$> vetFrom i t cancelled obs := by
  -- All are asked, also those who come after a veto; so the flag is general.
  induction obs generalizing cancelled log with
  | nil => simp [vetFrom]
  | cons o obs ih =>
    rw [List.map_cons, vetFrom_cons, vetFrom_cons, StateT.run_bind, run_vet_noting, bind_map_left,
      map_bind]
    refine bind_congr fun vetoed => ?_
    rw [ih, List.append_assoc]
    rfl

theorem run_vetAll_noting (obs : List (Observer m O)) (log : List (Hearing O)) :
    (vetAll (obs.map noting) i t).run log =
      (·, log ++ obs.map fun _ => .vetted i t) <$> vetAll obs i t :=
  run_vetFrom_noting i t false obs log

theorem run_completeAll_noting (obs : List (Observer m O)) (log : List (Hearing O)) :
    (completeAll (obs.map noting) i t).run log =
      (·, log ++ obs.map fun _ => .completed i t) <$> completeAll obs i t := by
  simp only [completeAll, List.forM_eq_forM]
  induction obs generalizing log with
  | nil => simp
  | cons o obs ih =>
    simp only [List.map_cons, List.forM_cons, StateT.run_bind, run_completed_noting, bind_map_left,
      map_bind]
    refine bind_congr fun _ => ?_
    rw [ih, List.append_assoc]
    rfl

end Observer

def Ending.heard {m : Type → Type} {O A : Type} (vetters : List (Observer m O)) (i : Info)
    (t : Terms O) : Ending A → List (Hearing O)
  | .success _ => vetters.map fun _ => .vetted i t
  | .failure _ => []

section

variable {O A : Type} {m : Type → Type} [Monad m] [LawfulMonad m]

theorem Draft.run_close_noting (vetters : List (Observer m O)) (d : Draft O) (ending : Ending A)
    (log : List (Hearing O)) :
    (d.close (vetters.map Observer.noting) ending).run log =
      (·, log ++ ending.heard vetters d.info d.terms) <$> d.close vetters ending := by
  cases ending with
  | failure reason => simp [close, Ending.heard]
  | success a =>
    rw [close, close, succeed, succeed, StateT.run_bind, Observer.run_vetAll_noting, bind_map_left,
      map_bind]
    simp [Ending.heard]

namespace Record

theorem complete_of_failed (act : Effect A → m Unit) {r : Record O A}
    (hr : r.isSuccess = false) : r.complete act = pure false := by
  cases hs : r.stage with
  | failed reason => simp [complete, Call.mostSteps, Call.finish, Call.step, hs]
  | ready a => simp [isSuccess, failure?, hs] at hr
  | settled => simp [isSuccess, failure?, hs] at hr

theorem complete_of_ready (act : Effect A → m Unit) {r : Record O A} {a : A}
    (hr : r.stage = .ready a) :
    r.complete act = (do
      act .settle
      act (.perform a)
      act .announce
      pure true) := by
  simp [complete, Call.mostSteps, Call.finish, Call.step, hr]

def enactNoting (perform : A → m Unit) (audience : m (List (Observer m O))) (r : Record O A) :
    Effect A → StateT (List (Hearing O)) m Unit :=
  r.enact (pure ()) (fun a => StateT.lift (perform a)) (Observer.allNoting audience)

theorem run_complete_noting (perform : A → m Unit) (audience : m (List (Observer m O)))
    {r : Record O A} {a : A} (hr : r.stage = .ready a) (log : List (Hearing O)) :
    (r.complete (r.enactNoting perform audience)).run log = (do
      perform a
      let obs ← audience
      Observer.completeAll obs r.info r.terms
      pure (true, log ++ obs.map fun _ => .completed r.info r.terms)) := by
  rw [complete_of_ready _ hr]
  simp [enactNoting, enact, Observer.allNoting, Observer.run_completeAll_noting]

end Record

end

end Brokerage
