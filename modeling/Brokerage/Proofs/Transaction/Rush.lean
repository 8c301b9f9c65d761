import Brokerage.Transaction.Completion
import Brokerage.Transaction.Draft

namespace Brokerage

/-- The record and the calls for it, and what the calls have done so far, each with the number of
the call that did it. -/
structure Rush (O A : Type) where
  record : Record O A
  calls : List (Call A)
  deeds : List (Nat × Effect A)

inductive Turn where
  | issue
  | step (k : Nat)
  deriving DecidableEq

def Record.undergo {O A : Type} (r : Record O A) : Effect A → Record O A
  | .settle => { r with stage := .settled }
  | _ => r

def Call.hasReturned {A : Type} : Call A → Bool
  | .done _ => true
  | _ => false

def Call.left {A : Type} : Call A → Nat
  | .begun => mostSteps
  | .unfailed => 3
  | .holding _ => 2
  | .performed => 1
  | .done _ => 0

theorem Call.left_le {A : Type} (c : Call A) : c.left ≤ mostSteps := by
  cases c <;> simp [left, mostSteps]

theorem Call.left_step {A : Type} (c : Call A) (stage : Stage A) :
    (c.step stage).1.left ≤ c.left - 1 := by
  cases c <;> cases stage <;> simp [step, left, mostSteps]

theorem Call.done_of_left {A : Type} {c : Call A} (h : c.left = 0) : ∃ b, c = .done b := by
  cases c with
  | done b => exact ⟨b, rfl⟩
  | _ => cases h

def Effect.performs {A : Type} : Effect A → Bool
  | .perform _ => true
  | _ => false

namespace Rush

variable {O A : Type}

def start (r : Record O A) : Rush O A := ⟨r, [], []⟩

def turn (s : Rush O A) : Turn → Rush O A × Option (Effect A)
  | .issue => ({ s with calls := s.calls ++ [.begun] }, none)
  | .step k =>
    match s.calls[k]? with
    | none => (s, none)
    | some c =>
      let (next, effect) := c.step s.record.stage
      (⟨effect.elim s.record s.record.undergo, s.calls.set k next,
        s.deeds ++ (effect.map (k, ·)).toList⟩, effect)

def run (turns : List Turn) (s : Rush O A) : Rush O A :=
  turns.foldl (fun s t => (s.turn t).1) s

def play {m : Type → Type} [Monad m] (act : Effect A → m Unit) :
    List Turn → Rush O A → m (Rush O A)
  | [], s => pure s
  | t :: turns, s => do
    let (next, effect) := s.turn t
    effect.forM act
    play act turns next

theorem turn_of_none {s : Rush O A} {k : Nat} (hk : s.calls[k]? = none) :
    s.turn (.step k) = (s, none) := by
  simp only [turn, hk]

theorem turn_of_some {s : Rush O A} {k : Nat} {c : Call A} (hk : s.calls[k]? = some c) :
    s.turn (.step k) = (⟨(c.step s.record.stage).2.elim s.record s.record.undergo,
      s.calls.set k (c.step s.record.stage).1,
      s.deeds ++ ((c.step s.record.stage).2.map (k, ·)).toList⟩, (c.step s.record.stage).2) := by
  simp only [turn, hk]

theorem turn_deeds (s : Rush O A) (t : Turn) :
    (s.turn t).1.deeds.map Prod.snd = s.deeds.map Prod.snd ++ (s.turn t).2.toList := by
  cases t with
  | issue => simp [turn]
  | step k =>
    cases hk : s.calls[k]? with
    | none => simp [turn_of_none hk]
    | some c =>
      rw [turn_of_some hk, List.map_append]
      cases (c.step s.record.stage).2 <;> rfl

theorem getElem?_turn {s : Rush O A} {k : Nat} {c : Call A} (hk : s.calls[k]? = some c) (t : Turn) :
    (s.turn t).1.calls[k]? = some (if t = .step k then (c.step s.record.stage).1 else c) := by
  cases t with
  | issue => exact (List.getElem?_append_left (List.getElem?_eq_some_iff.mp hk).1).trans hk
  | step j =>
    by_cases hj : j = k
    · subst hj
      rw [turn_of_some hk, if_pos rfl]
      exact List.getElem?_set_self (List.getElem?_eq_some_iff.mp hk).1
    · rw [if_neg fun h => hj (Turn.step.inj h)]
      cases hx : s.calls[j]? with
      | none => rw [turn_of_none hx, hk]
      | some x =>
        rw [turn_of_some hx]
        exact (List.getElem?_set_ne hj).trans hk

theorem left_run (turns : List Turn) {s : Rush O A} {k : Nat} {c : Call A}
    (hk : s.calls[k]? = some c) : ∃ d : Call A, (run turns s).calls[k]? = some d ∧
      d.left ≤ c.left - turns.count (.step k) := by
  induction turns generalizing s c with
  | nil => exact ⟨c, hk, Nat.le_refl _⟩
  | cons t turns ih =>
    obtain ⟨d, hd, hl⟩ := ih (getElem?_turn hk t)
    refine ⟨d, hd, ?_⟩
    have hc := c.left_step s.record.stage
    rw [List.count_cons]
    split at hl
    · next ht =>
      rw [if_pos (beq_iff_eq.mpr ht)]
      omega
    · next ht =>
      rw [if_neg fun h => ht (beq_iff_eq.mp h)]
      omega

theorem done_of_turns {turns : List Turn} {s : Rush O A} {k : Nat} (hk : k < s.calls.length)
    (ht : Call.mostSteps ≤ turns.count (.step k)) :
    ∃ b, (run turns s).calls[k]? = some (.done b) := by
  obtain ⟨c, hc, hl⟩ := left_run turns (List.getElem?_eq_getElem hk)
  have hm := (s.calls[k]).left_le
  obtain ⟨b, rfl⟩ := Call.done_of_left (c := c) (by omega)
  exact ⟨b, hc⟩

theorem play_eq {m : Type → Type} [Monad m] [LawfulMonad m] (act : Effect A → m Unit)
    (turns : List Turn) (s : Rush O A) :
    ((s.deeds.map Prod.snd).forM act >>= fun _ => play act turns s) =
      (fun _ => run turns s) <$> ((run turns s).deeds.map Prod.snd).forM act := by
  induction turns generalizing s with
  | nil => rw [play, run, List.foldl_nil, map_eq_pure_bind]
  | cons t turns ih =>
    have hi := ih (s.turn t).1
    have he : ((s.turn t).1.deeds.map Prod.snd).forM act =
        (s.deeds.map Prod.snd).forM act >>= fun _ => (s.turn t).2.forM act := by
      rw [turn_deeds, List.forM_eq_forM, List.forM_append]
      cases (s.turn t).2 <;> simp
    rw [he, bind_assoc] at hi
    exact hi

theorem play_start {m : Type → Type} [Monad m] [LawfulMonad m] (act : Effect A → m Unit)
    (turns : List Turn) (r : Record O A) :
    play act turns (start r) = (fun _ => run turns (start r)) <$>
      ((run turns (start r)).deeds.map Prod.snd).forM act := by
  rw [← play_eq, start, List.map_nil, List.forM_eq_forM, List.forM_nil, pure_bind]

theorem play_last {m : Type → Type} [Monad m] (act : Effect A → m Unit) (r : Record O A)
    (calls : List (Call A)) (c : Call A) (deeds : List (Nat × Effect A)) (turns : List Turn) :
    play act (.step calls.length :: turns) ⟨r, calls ++ [c], deeds⟩ =
      (c.step r.stage).2.forM act >>= fun _ =>
        play act turns ⟨(c.step r.stage).2.elim r r.undergo, calls ++ [(c.step r.stage).1],
          deeds ++ ((c.step r.stage).2.map (calls.length, ·)).toList⟩ := by
  have hk : (calls ++ [c])[calls.length]? = some c := List.getElem?_concat_length
  rw [play, turn_of_some hk, List.set_append_right _ _ (Nat.le_refl _), Nat.sub_self]
  rfl

theorem play_alone {m : Type → Type} [Monad m] [LawfulMonad m] (act : Effect A → m Unit)
    (s : Rush O A) :
    Rush.calls <$> play act (.issue :: List.replicate Call.mostSteps (.step s.calls.length)) s =
      (fun b => s.calls ++ [.done b]) <$> s.record.complete act := by
  obtain ⟨r, calls, deeds⟩ := s
  have hissue : play act (.issue :: List.replicate Call.mostSteps (.step calls.length))
      ⟨r, calls, deeds⟩ = play act (List.replicate Call.mostSteps (.step calls.length))
        ⟨r, calls ++ [.begun], deeds⟩ := by
    rw [play]
    exact pure_bind _ _
  have hnil (t : Rush O A) : play act [] t = pure t := rfl
  rw [hissue, Record.complete]
  simp only [Call.mostSteps, List.replicate, play_last, hnil]
  cases hr : r.stage with
  | failed reason => simp [Call.finish, Call.step, hr]
  | ready a => simp [Call.finish, Call.step, hr, Record.undergo]
  | settled => simp [Call.finish, Call.step, hr]

end Rush

end Brokerage
