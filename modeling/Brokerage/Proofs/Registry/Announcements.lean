import Brokerage.Proofs.Registry.Mirror
import Brokerage.Transaction.Observer

namespace Brokerage

open Std Text

namespace Observer

variable {m : Type → Type} [Monad m] {O : Type}

def scribe : Observer (StateT (List Notice) m) O where
  registered i := modify fun log => log ++ [.registered i]
  unregistered i := modify fun log => log ++ [.unregistered i]
  vet _ _ := pure false
  completed _ _ := pure ()

def beside (o : Observer m O) : Observer (StateT (List Notice) m) O where
  registered i := StateT.lift (o.registered i)
  unregistered i := StateT.lift (o.unregistered i)
  vet i t := StateT.lift (o.vet i t)
  completed i t := StateT.lift (o.completed i t)

def together (early : List (Observer m O)) (late : m (List (Observer m O))) :
    m (List (Observer m O)) := do
  pure (early ++ (← late))

def withScribe (early : List (Observer m O)) (late : m (List (Observer m O))) :
    StateT (List Notice) m (List (Observer (StateT (List Notice) m) O)) := do
  let joined ← StateT.lift late
  pure (early.map beside ++ scribe :: joined.map beside)

theorem notifyAll_cons (o : Observer m O) (obs : List (Observer m O)) (n : Notice) :
    notifyAll (o :: obs) n = hear n o >>= fun _ => notifyAll obs n := rfl

theorem publish_cons (audience : m (List (Observer m O))) (n : Notice) (ns : List Notice) :
    publish audience (n :: ns) =
      (audience >>= fun obs => notifyAll obs n) >>= fun _ => publish audience ns := rfl

theorem run_hear_scribe (n : Notice) (log : List Notice) :
    (hear n (scribe : Observer (StateT (List Notice) m) O)).run log = pure ((), log ++ [n]) := by
  cases n <;> rfl

variable [LawfulMonad m]

theorem run_hear_beside (n : Notice) (o : Observer m O) (log : List Notice) :
    (hear n o.beside).run log = (fun _ => ((), log)) <$> hear n o := by
  cases n <;> exact (map_eq_pure_bind _ _).symm

theorem run_notifyAll_beside (obs : List (Observer m O)) (n : Notice) (log : List Notice) :
    (notifyAll (obs.map beside) n).run log = (fun _ => ((), log)) <$> notifyAll obs n := by
  induction obs with
  | nil => simp [notifyAll]
  | cons o obs ih =>
    rw [List.map_cons, notifyAll_cons, notifyAll_cons, StateT.run_bind, run_hear_beside,
      bind_map_left, map_bind]
    exact bind_congr fun _ => ih

theorem run_notifyAll_scribe (obs joined : List (Observer m O)) (n : Notice) (log : List Notice) :
    (notifyAll (obs.map beside ++ scribe :: joined.map beside) n).run log =
      (fun _ => ((), log ++ [n])) <$> notifyAll (obs ++ joined) n := by
  induction obs with
  | nil =>
    rw [List.map_nil, List.nil_append, List.nil_append, notifyAll_cons, StateT.run_bind,
      run_hear_scribe, pure_bind]
    exact run_notifyAll_beside joined n (log ++ [n])
  | cons o obs ih =>
    rw [List.map_cons, List.cons_append, List.cons_append, notifyAll_cons, notifyAll_cons,
      StateT.run_bind, run_hear_beside, bind_map_left, map_bind]
    exact bind_congr fun _ => ih

theorem run_publish_scribe (early : List (Observer m O)) (late : m (List (Observer m O)))
    (ns log : List Notice) :
    (publish (withScribe early late) ns).run log =
      (fun _ => ((), log ++ ns)) <$> publish (together early late) ns := by
  induction ns generalizing log with
  | nil => simp [publish]
  | cons n ns ih =>
    rw [publish_cons, publish_cons]
    simp only [withScribe, together, StateT.run_bind, bind_assoc, pure_bind, StateT.run_lift,
      map_bind]
    refine bind_congr fun joined => ?_
    rw [run_notifyAll_scribe, bind_map_left]
    refine bind_congr fun _ => ?_
    have hl := ih (log ++ [n])
    rw [List.append_assoc] at hl
    exact hl

end Observer

namespace Registry

variable {H : Type} [Handler H] {m : Type → Type} [Monad m] {O : Type}

def Answer.isSilent : Answer → Bool
  | .registered (.ok _) => false
  | .registered (.error _) => true
  | .unregistered removed => ! removed
  | .reloaded (.ok _) => false
  | .reloaded (.error _) => true
  | .done => true

def enact (audience : m (List (Observer m O))) (r : Registry H) (mv : Move H) :
    m (Registry H × Answer) := do
  let o := r.make mv
  Observer.publish audience o.notices
  pure (o.registry, o.answer)

def attend (early : List (Observer m O)) (late : m (List (Observer m O))) :
    List (Move H) → Registry H → Ledger → m (Registry H × Ledger)
  | [], r, l => pure (r, l)
  | mv :: moves, r, l => do
    let ((next, _), heard) ← (enact (Observer.withScribe early late) r mv).run []
    attend early late moves next (l.follow mv heard)

theorem notices_of_silent {r : Registry H} (hc : r.roster.Coherent) (mv : Move H)
    (hs : (r.make mv).answer.isSilent = true) : (r.make mv).notices = [] := by
  cases mv with
  | register declared h =>
    obtain ⟨-, he⟩ | ⟨-, -, he⟩ | ⟨-, -, he⟩ := register_cases declared h hc
    · rw [make, he]
    · rw [make, he]
    · rw [make, he] at hs
      cases hs
  | unregister id =>
    simp only [make, unregister_eq hc, Answer.isSilent, Bool.not_eq_true',
      ExtTreeMap.contains_eq_isSome_getElem?, Option.isSome_eq_false_iff,
      Option.isNone_iff_eq_none] at hs
    simp only [make, unregister_eq hc, Roster.leaving, hs, Option.toList_none, List.map_nil]
  | reload declared =>
    cases hp : r.provider.reload with
    | error t => rw [make, reload_of_error declared hp]
    | ok p =>
      simp only [make, reload_answer declared hp] at hs
      cases hs
  | clear => rfl
  | provide p => rfl

section

variable [LawfulMonad m] (early : List (Observer m O)) (late : m (List (Observer m O)))

theorem run_enact_scribe (r : Registry H) (mv : Move H) :
    (enact (Observer.withScribe early late) r mv).run [] =
      (fun _ => (((r.make mv).registry, (r.make mv).answer), (r.make mv).notices)) <$>
        Observer.publish (Observer.together early late) (r.make mv).notices := by
  rw [enact, StateT.run_bind, Observer.run_publish_scribe, bind_map_left, map_eq_pure_bind]
  rfl

theorem attend_cons (mv : Move H) (moves : List (Move H)) (r : Registry H) (l : Ledger) :
    attend early late (mv :: moves) r l =
      Observer.publish (Observer.together early late) (r.make mv).notices >>= fun _ =>
        attend early late moves (r.make mv).registry (l.follow mv (r.make mv).notices) := by
  rw [attend, run_enact_scribe, bind_map_left]

end

variable {σ : Type} (early : List (Observer (StateM σ) O))
  (late : StateM σ (List (Observer (StateM σ) O)))

theorem run_attend (moves : List (Move H)) {r : Registry H} {l : Ledger}
    (hc : r.roster.Coherent) (hm : l.Mirrors r) (s : σ) :
    ((attend early late moves r l).run s).1.1 = after moves r ∧
      ((attend early late moves r l).run s).1.2.Mirrors (after moves r) := by
  induction moves generalizing r l s with
  | nil => exact ⟨rfl, hm⟩
  | cons mv moves ih =>
    rw [attend_cons, StateT.run_bind]
    exact ih (make_coherent mv hc) (make_mirrored mv hc hm).2 _

/-- Who observes a registry from the beginning knows its active handlers at any time, and expects
what is announced of the next move. -/
theorem ledger_follows (p : Provider) (moves : List (Move H)) (mv : Move H) (s : σ) :
    let ((r, l), t) := (attend early late moves (start p) ∅).run s
    let (((next, a), heard), _) := ((enact (Observer.withScribe early late) r mv).run []).run t
    r = after moves (start p) ∧ (∀ id : String, l[id]? = r.info? id) ∧
      next = (r.make mv).registry ∧ a = (r.make mv).answer ∧ l.ExpectsAll heard ∧
      (a.isSilent = true → heard = []) ∧
      ∀ id : String, (l.follow mv heard)[id]? = next.info? id := by
  have hc : (start p : Registry H).roster.Coherent := Roster.Coherent.empty
  have hm : Ledger.Mirrors ∅ (start p : Registry H) := by
    intro id
    simp [start, info?, Roster.empty]
  obtain ⟨hr, hl⟩ := run_attend early late moves hc hm s
  have hc' := after_coherent moves hc
  generalize (attend early late moves (start p) ∅).run s = reached at hr hl ⊢
  obtain ⟨⟨r, l⟩, t⟩ := reached
  dsimp only at hr hl ⊢
  rw [← hr] at hl hc'
  obtain ⟨he, hn⟩ := make_mirrored mv hc' hl
  rw [run_enact_scribe]
  exact ⟨hr, hl, rfl, rfl, he, notices_of_silent hc' mv, hn⟩

end Registry

end Brokerage
