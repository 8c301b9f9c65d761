import Brokerage.Proofs.Registry.Operations
import Brokerage.Registry.Dispatch

/-!
Lives of a registry, move by move. Whatever happened to it and to its settings, its roster is
coherent, so no id is ever found to be taken twice, and every handler that is looked at for a case
can be asked about it.
-/

namespace Brokerage.Registry

open Std Text

/-- `declared` is what handlers declare at that time. `provide` stands for all that may become of the
settings between two operations. -/
inductive Move (H : Type) where
  | register (declared : H → Int8) (h : H)
  | unregister (id : String)
  | clear
  | reload (declared : H → Int8)
  | provide (p : Provider)

inductive Answer where
  | registered (a : Except Rejection Unit)
  | unregistered (removed : Bool)
  | reloaded (a : Except Trouble Unit)
  | done

variable {H : Type} [Handler H]

def make (r : Registry H) : Move H → Outcome H Answer
  | .register declared h =>
    let o := r.register declared h
    ⟨.registered o.answer, o.registry, o.notices⟩
  | .unregister id =>
    let o := r.unregister id
    ⟨.unregistered o.answer, o.registry, o.notices⟩
  | .clear => ⟨.done, r.clear, []⟩
  | .reload declared =>
    let o := r.reload declared
    ⟨.reloaded o.answer, o.registry, o.notices⟩
  | .provide p => ⟨.done, { r with provider := p }, []⟩

def after (moves : List (Move H)) (r : Registry H) : Registry H :=
  moves.foldl (fun r m => (r.make m).registry) r

theorem make_coherent (m : Move H) {r : Registry H} (hc : r.roster.Coherent) :
    (r.make m).registry.roster.Coherent := by
  cases m with
  | register declared h => exact register_coherent declared h hc
  | unregister id => exact unregister_coherent hc id
  | clear => exact Roster.Coherent.empty
  | reload declared => exact reload_coherent declared hc
  | provide p => exact hc

theorem after_coherent (moves : List (Move H)) {r : Registry H} (hc : r.roster.Coherent) :
    (after moves r).roster.Coherent := by
  induction moves generalizing r with
  | nil => exact hc
  | cons m moves ih => exact ih (make_coherent m hc)

theorem reached_coherent (p : Provider) (moves : List (Move H)) :
    (after moves (start p)).roster.Coherent :=
  after_coherent moves Roster.Coherent.empty

theorem register_not_duplicate (declared : H → Int8) (h : H) {r : Registry H}
    (hc : r.roster.Coherent) (id : String) :
    (r.register declared h).answer ≠ .error (.duplicate id) := by
  obtain ⟨-, he⟩ | ⟨-, -, he⟩ | ⟨-, -, he⟩ := register_cases declared h hc
  · rw [he]
    simp
  · rw [he]
    simp
  · rw [he]
    simp

/-- Active entries and filed entries are the same, each filed once, under its own kind and rank, and
known under its own id, which is a word. -/
theorem reached_consistent {H O : Type} [Trades H O] (p : Provider) (moves : List (Move H)) :
    let r := after moves (start p)
    (∀ id : String, r.roster.active.contains id = true ↔
      ∃ (k : Kind) (g : Ranking H) (rank : Rank) (e : Entry H),
        r.roster.index[k]? = some g ∧ g[rank]? = some e ∧ e.id = id) ∧
    (∀ (id : String) (e : Entry H), r.roster.active[id]? = some e →
      (∃ g : Ranking H, r.roster.index[e.kind]? = some g ∧ g[e.rank]? = some e) ∧
      ∀ (k : Kind) (g : Ranking H) (rank : Rank) (x : Entry H), r.roster.index[k]? = some g →
        g[rank]? = some x → x.id = id → k = e.kind ∧ rank = e.rank ∧ x = e) ∧
    (∀ (k : Kind) (g : Ranking H), r.roster.index[k]? = some g →
      g ≠ ∅ ∧ ∀ (rank : Rank) (e : Entry H), g[rank]? = some e → e.kind = k ∧ e.rank = rank) ∧
    (∀ (id : String) (e : Entry H), r.roster.active[id]? = some e →
      e.id = id ∧ id.toList ≠ [] ∧ (∀ c ∈ id.toList, isBlank c = false) ∧
        r.roster.known[id]? = some e.handler) ∧
    (∀ (declared : H → Int8) (h : H) (id : String),
      (r.register declared h).answer ≠ .error (.duplicate id)) ∧
    ∀ (c : Case O) (g : Ranking H), r.roster.index[Trades.kindOf H c.object]? = some g →
      ∀ e ∈ g.values, c.fits e = true := by
  intro r
  have hc : r.roster.Coherent := reached_coherent p moves
  refine ⟨hc.active_iff_filed, fun id e => hc.filed_once, ?_, ?_, ?_, ?_⟩
  · intro k g hk
    exact ⟨hc.inhabited k g hk, fun rank e hr => (hc.filed_of_some hk hr).2⟩
  · intro id e ha
    obtain ⟨hn, hb⟩ : id.toList ≠ [] ∧ ∀ c ∈ id.toList, isBlank c = false := by
      simpa [isWord] using hc.word ha
    exact ⟨hc.named ha, hn, hb, hc.remembered id e ha⟩
  · intro declared h id
    exact register_not_duplicate declared h hc id
  · intro c g hk e he
    obtain ⟨rank, hr⟩ := (Trees.mem_values_iff g e).mp he
    simp only [Case.fits, (hc.filed_of_some hk hr).2.1, decide_true]

end Brokerage.Registry
