import Brokerage.Proofs.Registry.Reordering
import Brokerage.Proofs.Registry.Simulation
import Brokerage.Proofs.Text.Words

namespace Brokerage

open Std Text

theorem Text.isWord_eq_false_iff (s : String) :
    isWord s = false ↔ s.toList = [] ∨ ∃ c ∈ s.toList, isBlank c = true := by
  rw [← Bool.not_eq_true, isWord_iff]
  simp only [ne_eq, not_and_or, not_not, not_forall, exists_prop, Bool.not_eq_false]

namespace Registry

section

variable {H : Type} [Handler H]

theorem verdict_eq_error_iff (r : Registry H) (h : H) (x : Rejection) :
    r.verdict h = .error x ↔
      x = .invalidId (Handler.info h).id ∧ isWord (Handler.info h).id = false ∨
        x = .disabled (Handler.info h).id ∧ isWord (Handler.info h).id = true ∧
          r.provider.table.isDisabled (Handler.info h).id = true := by
  rw [verdict]
  cases isWord (Handler.info h).id with
  | false =>
    simp only [↓reduceIte, Except.error.injEq, and_true, Bool.false_eq_true, false_and, and_false,
      or_false]
    exact eq_comm
  | true =>
    cases r.provider.table.isDisabled (Handler.info h).id with
    | false => simp
    | true =>
      simp only [Bool.true_eq_false, ↓reduceIte, Except.error.injEq, and_false, and_self, and_true,
        false_or]
      exact eq_comm

theorem verdict_eq_ok_iff (r : Registry H) (h : H) :
    r.verdict h = .ok () ↔ isWord (Handler.info h).id = true ∧
      r.provider.table.isDisabled (Handler.info h).id = false := by
  rw [verdict]
  cases isWord (Handler.info h).id with
  | false => simp
  | true => cases r.provider.table.isDisabled (Handler.info h).id <;> simp

end

variable {H O : Type} [Trades H O] {r : Registry H}

structure Unnoticed (O : Type) {H : Type} [Trades H O] (r s : Registry H) : Prop where
  isRegistered : s.isRegistered = r.isRegistered
  size : s.size = r.size
  view : s.view O = r.view O
  dispatch : (s.dispatch : Case O → _) = r.dispatch
  active : s.roster.active = r.roster.active
  index : s.roster.index = r.roster.index
  provider : s.provider = r.provider

theorem Unnoticed.refl (r : Registry H) : Unnoticed O r r := ⟨rfl, rfl, rfl, rfl, rfl, rfl, rfl⟩

theorem unnoticed_note (r : Registry H) (h : H) :
    Unnoticed O r { r with roster := r.roster.note h } := by
  rw [Roster.note]
  split
  · exact .refl r
  · exact ⟨rfl, rfl, rfl, rfl, rfl, rfl, rfl⟩

theorem register_unnoticed (declared : H → Int8) {h : H} (hc : r.roster.Coherent) {x : Rejection}
    (hx : (r.register declared h).answer = .error x) :
    (r.register declared h).notices = [] ∧ Unnoticed O r (r.register declared h).registry := by
  obtain ⟨-, he⟩ | ⟨-, -, he⟩ | ⟨-, -, he⟩ := register_cases declared h hc
  · rw [he]
    exact ⟨rfl, .refl r⟩
  · rw [he]
    exact ⟨rfl, unnoticed_note r h⟩
  · rw [he] at hx
    cases hx

theorem register_known_of_refused (declared : H → Int8) {h : H} (hc : r.roster.Coherent)
    {x : Rejection} (hx : (r.register declared h).answer = .error x) :
    (r.register declared h).registry.roster.known =
      if x = .disabled (Handler.info h).id ∧ r.isRegistered (Handler.info h).id = false then
        r.roster.known.insert (Handler.info h).id h
      else r.roster.known := by
  obtain ⟨-, he⟩ | ⟨-, -, he⟩ | ⟨-, -, he⟩ := register_cases declared h hc
  · rw [he] at hx ⊢
    cases hx
    rw [if_neg (by simp)]
  · rw [he] at hx ⊢
    cases hx
    simp only [Roster.note, isRegistered, true_and]
    cases r.roster.active.contains (Handler.info h).id <;> rfl
  · rw [he] at hx
    cases hx

/-- Whatever has become of a registry and its settings, an offer is refused exactly for an id that is
not a word, and otherwise if the settings disable the id. Nothing but what is known for a later
reload can be changed by that. -/
theorem refused_unnoticed (p : Provider) (moves : List (Move H)) (declared : H → Int8) (h : H) :
    let r := after moves (start p)
    let id := (Handler.info h).id
    let o := r.register declared h
    (o.answer = .error (.invalidId id) ↔ id.toList = [] ∨ ∃ c ∈ id.toList, isBlank c = true) ∧
    (o.answer = .error (.disabled id) ↔ (id.toList ≠ [] ∧ ∀ c ∈ id.toList, isBlank c = false) ∧
      r.provider.table.standings[id]? = some .disabled) ∧
    (o.answer = .ok () ↔ (id.toList ≠ [] ∧ ∀ c ∈ id.toList, isBlank c = false) ∧
      r.provider.table.standings[id]? ≠ some .disabled) ∧
    ∀ x : Rejection, o.answer = .error x →
      (x = .invalidId id ∨ x = .disabled id) ∧ o.notices = [] ∧ Unnoticed O r o.registry ∧
      o.registry.roster.known =
        if x = .disabled id ∧ r.isRegistered id = false then r.roster.known.insert id h
        else r.roster.known := by
  intro r id o
  have hc : r.roster.Coherent := reached_coherent p moves
  have ho : o.answer = r.verdict h := (register_offered declared h hc).answer
  have hd (b : Bool) : r.provider.table.isDisabled id = b ↔
      decide (r.provider.table.standings[id]? = some .disabled) = b := Iff.rfl
  refine ⟨?_, ?_, ?_, ?_⟩
  · rw [ho, verdict_eq_error_iff, ← isWord_eq_false_iff]
    simp [id]
  · rw [ho, verdict_eq_error_iff, ← isWord_iff, hd, decide_eq_true_iff]
    simp [id]
  · rw [ho, verdict_eq_ok_iff, ← isWord_iff, hd, decide_eq_false_iff_not]
  · intro x hx
    obtain ⟨hn, hu⟩ := register_unnoticed (O := O) declared hc hx
    have hv := (verdict_eq_error_iff r h x).mp (ho.symm.trans hx)
    exact ⟨hv.imp And.left And.left, hn, hu, register_known_of_refused declared hc hx⟩

open Scenario in
theorem refused_unnoticed_shop :
    let off := (Settings.empty.setDisabled "shop" true).setDisabled "bank" true
    let moves : List (Move Scripted) :=
      [.register (fun _ => 1) (.bare "a" "shop"), .provide (.memory off)]
    let r := after moves (start (.memory .empty))
    let shop := r.register (fun _ => 2) (.bare "b" "shop")
    let bank := r.register (fun _ => 2) (.bare "c" "bank")
    shop.answer = .error (.disabled "shop") ∧ Unnoticed Item r shop.registry ∧
      (shop.registry.roster.known["shop"]?).map Scripted.key = some "a" ∧
      bank.answer = .error (.disabled "bank") ∧ Unnoticed Item r bank.registry ∧
      (bank.registry.roster.known["bank"]?).map Scripted.key = some "c" := by
  intro off moves r shop bank
  obtain ⟨-, hb, -, hs⟩ := refused_unnoticed (O := Item) (.memory .empty) moves (fun _ => 2)
    (Scripted.bare "b" "shop")
  obtain ⟨-, hb', -, hs'⟩ := refused_unnoticed (O := Item) (.memory .empty) moves (fun _ => 2)
    (Scripted.bare "c" "bank")
  have ha : shop.answer = .error (.disabled "shop") :=
    hb.mpr ⟨(isWord_iff _).mp (by decide), by decide +kernel⟩
  have ha' : bank.answer = .error (.disabled "bank") :=
    hb'.mpr ⟨(isWord_iff _).mp (by decide), by decide +kernel⟩
  exact ⟨ha, (hs _ ha).2.2.1, by decide +kernel, ha', (hs' _ ha').2.2.1, by decide +kernel⟩

end Registry

end Brokerage
