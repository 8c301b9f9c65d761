import Brokerage.Proofs.Registry.Admissions
import Brokerage.Proofs.Registry.Simulation
import Brokerage.Proofs.Settings.Unreadable

namespace Brokerage

open Std Text

namespace Provider

theorem reload_file_eq_error_iff (s : Stored) (d : Disk) (t : Trouble) :
    (file s d).reload = .error t ↔ Stored.Ails d t := by
  rw [← Stored.reload_eq_error_iff, reload]
  cases Stored.reload d <;> simp [Except.map]

/-- Saving, where the file may refuse to be written for a reason of its own. -/
def saving (refusal : Option Refusal) : Provider → Except Trouble Provider
  | .memory t => .ok (.memory t)
  | .file s d => (Stored.done (s.saveBy (.ofRefusal refusal) d)).map fun r => .file r.1 r.2

def disturbed (d : Disk) : Provider → Provider
  | .memory t => .memory t
  | .file s _ => .file s d

def OnFile (p : Provider) : Prop := ∃ (s : Stored) (d : Disk), p = .file s d

namespace OnFile

variable {p q : Provider} {H : Type} [Handler H]

theorem change (hp : p.OnFile) (f : Settings → Settings) : (p.change f).OnFile := by
  obtain ⟨s, d, rfl⟩ := hp
  exact ⟨s.change f, d, rfl⟩

theorem ensureEntry (hp : p.OnFile) (id : String) (n : Int32) : (p.ensureEntry id n).OnFile := by
  obtain ⟨s, d, rfl⟩ := hp
  exact ⟨s.ensureEntry id n, d, rfl⟩

theorem ensureAll (hp : p.OnFile) (es : List (Entry H)) : (p.ensureAll es).OnFile := by
  induction es generalizing p with
  | nil => exact hp
  | cons e es ih => exact ih (hp.ensureEntry e.id e.priority)

theorem disturbed (hp : p.OnFile) (d : Disk) : (p.disturbed d).OnFile := by
  obtain ⟨s, d', rfl⟩ := hp
  exact ⟨s, d, rfl⟩

theorem reload (hp : p.OnFile) (hq : p.reload = .ok q) : q.OnFile := by
  obtain ⟨s, d, rfl⟩ := hp
  cases reload_eq_ok_iff.mp hq with
  | file s hd ht => exact ⟨_, _, rfl⟩

theorem saving (hp : p.OnFile) {refusal : Option Refusal} (hq : p.saving refusal = .ok q) :
    q.OnFile := by
  obtain ⟨s, d, rfl⟩ := hp
  simp only [Provider.saving] at hq
  generalize Stored.done _ = x at hq
  cases x with
  | error t => cases hq
  | ok r =>
    cases hq
    exact ⟨_, _, rfl⟩

end OnFile

end Provider

namespace Registry

variable {H : Type} [Handler H]

/-- What is done with a registry and with the settings and the file it goes by. To `disturb` is to put
anything else in the place of the file, be it by others or by a save that failed halfway. -/
inductive Deed (H : Type) where
  | register (declared : H → Int8) (h : H)
  | unregister (id : String)
  | clear
  | reload (declared : H → Int8)
  | edit (e : Edit)
  | ensure (id : String) (n : Int32)
  | save (refusal : Option Refusal)
  | reread
  | disturb (d : Disk)

def attempt (r : Registry H) : Except Trouble Provider → Outcome H (Except Trouble Answer)
  | .error t => ⟨.error t, r, []⟩
  | .ok p => r.moved (.provide p)

def perform (r : Registry H) : Deed H → Outcome H (Except Trouble Answer)
  | .register declared h => r.moved (.register declared h)
  | .unregister id => r.moved (.unregister id)
  | .clear => r.moved .clear
  | .reload declared =>
    let o := r.reload declared
    ⟨o.answer.map fun _ => .done, o.registry, o.notices⟩
  | .edit e => r.moved (.provide (r.provider.change e.apply))
  | .ensure id n => r.moved (.provide (r.provider.ensureEntry id n))
  | .save refusal => r.attempt (r.provider.saving refusal)
  | .reread => r.attempt r.provider.reload
  | .disturb d => r.moved (.provide (r.provider.disturbed d))

def history : List (Deed H) → Registry H → List (Outcome H (Except Trouble Answer))
  | [], _ => []
  | a :: as, r => r.perform a :: history as (r.perform a).registry

def performed (deeds : List (Deed H)) (r : Registry H) : Registry H :=
  deeds.foldl (fun r a => (r.perform a).registry) r

def successes : List (Deed H) → Registry H → List (Deed H)
  | [], _ => []
  | a :: as, r =>
    let rest := successes as (r.perform a).registry
    if (r.perform a).answer.isOk then a :: rest else rest

variable {r : Registry H} {a : Deed H} {t : Trouble}

theorem attempt_of_failed {x : Except Trouble Provider} (h : (r.attempt x).answer = .error t) :
    r.attempt x = ⟨.error t, r, []⟩ := by
  cases x with
  | error t' =>
    cases h
    rfl
  | ok p => cases h

theorem perform_of_failed (h : (r.perform a).answer = .error t) :
    r.perform a = ⟨.error t, r, []⟩ := by
  cases a with
  | register declared h' => cases h
  | unregister id => cases h
  | clear => cases h
  | reload declared =>
    cases hq : r.provider.reload with
    | error t' =>
      simp only [perform, reload_of_error declared hq] at h ⊢
      cases h
      rfl
    | ok q =>
      simp only [perform, reload_answer declared hq] at h
      cases h
  | edit e => cases h
  | ensure id n => cases h
  | save refusal => exact attempt_of_failed h
  | reread => exact attempt_of_failed h
  | disturb d => cases h

theorem successes_cons_of_ok {x : Answer} (h : (r.perform a).answer = .ok x)
    (deeds : List (Deed H)) :
    successes (a :: deeds) r = a :: successes deeds (r.perform a).registry := by
  rw [successes, h]
  rfl

theorem successes_cons_of_failed (h : (r.perform a).answer = .error t) (deeds : List (Deed H)) :
    successes (a :: deeds) r = successes deeds r := by
  rw [successes, perform_of_failed h]
  rfl

theorem performed_successes (deeds : List (Deed H)) (r : Registry H) :
    performed (successes deeds r) r = performed deeds r := by
  induction deeds generalizing r with
  | nil => rfl
  | cons a deeds ih =>
    cases ha : (r.perform a).answer with
    | ok x =>
      rw [successes_cons_of_ok ha]
      exact ih _
    | error t =>
      rw [successes_cons_of_failed ha, ih, performed, performed, List.foldl_cons,
        perform_of_failed ha]

theorem history_successes (deeds : List (Deed H)) (r : Registry H) :
    history (successes deeds r) r = (history deeds r).filter fun o => o.answer.isOk := by
  induction deeds generalizing r with
  | nil => rfl
  | cons a deeds ih =>
    cases ha : (r.perform a).answer with
    | ok x =>
      rw [successes_cons_of_ok ha, history, ih, history, List.filter_cons, ha]
      rfl
    | error t =>
      rw [successes_cons_of_failed ha, ih, history, List.filter_cons, perform_of_failed ha]
      rfl

theorem perform_coherent (a : Deed H) (hc : r.roster.Coherent) :
    (r.perform a).registry.roster.Coherent := by
  have attempted (x : Except Trouble Provider) : (r.attempt x).registry.roster.Coherent := by
    cases x <;> exact hc
  cases a with
  | register declared h => exact register_coherent declared h hc
  | unregister id => exact unregister_coherent hc id
  | clear => exact Roster.Coherent.empty
  | reload declared => exact reload_coherent declared hc
  | edit e => exact hc
  | ensure id n => exact hc
  | save refusal => exact attempted _
  | reread => exact attempted _
  | disturb d => exact hc

theorem perform_onFile (a : Deed H) (hc : r.roster.Coherent) (hp : r.provider.OnFile) :
    (r.perform a).registry.provider.OnFile := by
  have attempted {x : Except Trouble Provider} (hx : ∀ {q : Provider}, x = .ok q → q.OnFile) :
      (r.attempt x).registry.provider.OnFile := by
    cases x with
    | error t => exact hp
    | ok q => exact hx rfl
  cases a with
  | register declared h =>
    have hr := register_provider declared h hc
    exact hr ▸ hp.ensureAll _
  | unregister id => exact hp
  | clear => exact hp
  | reload declared =>
    cases hq : r.provider.reload with
    | error t =>
      rw [perform, reload_of_error declared hq]
      exact hp
    | ok q =>
      have hr := reload_provider declared hc hq
      exact hr ▸ (hp.reload hq).ensureAll _
  | edit e => exact hp.change e.apply
  | ensure id n => exact hp.ensureEntry id n
  | save refusal => exact attempted hp.saving
  | reread => exact attempted hp.reload
  | disturb d => exact hp.disturbed d

theorem performed_onFile (deeds : List (Deed H)) (hc : r.roster.Coherent)
    (hp : r.provider.OnFile) : (performed deeds r).provider.OnFile := by
  induction deeds generalizing r with
  | nil => exact hp
  | cons a deeds ih => exact ih (perform_coherent a hc) (perform_onFile a hc hp)

section

variable {s : Stored} {d : Disk} (hp : r.provider = .file s d)

include hp

theorem perform_reread_error_iff :
    (r.perform .reread).answer = .error t ↔ Stored.Ails d t := by
  rw [← Provider.reload_file_eq_error_iff s, ← hp, perform]
  cases r.provider.reload <;> simp [attempt, moved]

theorem perform_reload_error_iff (declared : H → Int8) :
    (r.perform (.reload declared)).answer = .error t ↔ Stored.Ails d t := by
  rw [← Provider.reload_file_eq_error_iff s, ← hp, perform]
  cases hq : r.provider.reload with
  | error t' => simp [reload_of_error declared hq, Except.map]
  | ok q => simp [reload_answer declared hq, Except.map]

theorem perform_reread_of_holds {u : Settings} (hd : Stored.Holds d u) :
    r.perform .reread = ⟨.ok .done, { r with provider := .file ⟨u, false⟩ d }, []⟩ := by
  rw [perform, hp, Provider.reload, Stored.reload_of_read hd.read]
  rfl

end

/-- A registry over a file, whatever has become of it, of its settings and of the file. Reading the
file fails exactly if it holds no settings. Reading or saving that fails changes and tells nothing, so
what follows is the same, step by step, as if it had not been tried. -/
theorem failures_leave_nothing (s₀ : Stored) (d₀ : Disk) (before : List (Deed H)) :
    let r := performed before (start (.file s₀ d₀))
    ∃ (s : Stored) (d : Disk), r.provider = .file s d ∧
      (∀ t : Trouble, ((r.perform .reread).answer = .error t ↔ Stored.Ails d t) ∧
        ∀ declared : H → Int8,
          (r.perform (.reload declared)).answer = .error t ↔ Stored.Ails d t) ∧
      (∀ (a : Deed H) (t : Trouble), (r.perform a).answer = .error t →
        (r.perform a).registry.roster = r.roster ∧
          (r.perform a).registry.provider = .file s d ∧ (r.perform a).notices = []) ∧
      ((∃ t : Trouble, Stored.Ails d t) ∨ ∃ u : Settings, Stored.Holds d u ∧
        r.perform .reread = ⟨.ok .done, { r with provider := .file ⟨u, false⟩ d }, []⟩) ∧
      ∀ later : List (Deed H),
        history (successes later r) r = ((history later r).filter fun o => o.answer.isOk) ∧
          performed (successes later r) r = performed later r := by
  intro r
  obtain ⟨s, d, hp⟩ : r.provider.OnFile :=
    performed_onFile before Roster.Coherent.empty ⟨s₀, d₀, rfl⟩
  refine ⟨s, d, hp, ?_, ?_, ?_, ?_⟩
  · intro t
    exact ⟨perform_reread_error_iff hp, perform_reload_error_iff hp⟩
  · intro a t ha
    rw [perform_of_failed ha]
    exact ⟨rfl, hp, rfl⟩
  · exact (Stored.ails_or_holds d).imp_right fun ⟨u, hu⟩ =>
      ⟨u, hu, perform_reread_of_holds hp hu⟩
  · intro later
    exact ⟨history_successes later r, performed_successes later r⟩

open Scenario in
theorem failures_leave_nothing_shop :
    let before : List (Deed Scripted) := [.register (fun _ => 1) (.bare "a" "shop"), .save none,
      .edit (.generous "shop" true), .disturb .directory]
    let r := performed before (start (.file ⟨.empty, false⟩ .absent))
    let later : List (Deed Scripted) := [.reread, .save none, .reload fun _ => 2,
      .disturb .absent, .save (some .notFound), .save none]
    (history later r).map (fun o => o.answer.isOk) = [false, false, false, true, false, true] ∧
      performed (successes later r) r = performed later r ∧
      (r.perform .reread).registry.provider = r.provider ∧
      r.provider.table.isGenerous "shop" = true := by
  intro before r later
  obtain ⟨s, d, hp, -, hf, -, hl⟩ := failures_leave_nothing ⟨.empty, false⟩ .absent before
  have he : (r.perform .reread).answer = .error (.refused .isDirectory) := rfl
  exact ⟨by decide +kernel, (hl later).2, (hf _ _ he).2.1.trans hp.symm, by decide +kernel⟩

end Registry

end Brokerage
