import Brokerage.Proofs.Registry.Simulation
import Brokerage.Proofs.Settings.Sanitizing
import Brokerage.Scenario.Scripted

namespace Brokerage

open Std Text

namespace Provider

inductive Cleansed : Provider → Provider → Prop
  | intro {t u : Settings} (h : t.sanitize = u.sanitize) : Cleansed (.memory t) (.memory u)

namespace Cleansed

variable {p q : Provider}

theorem sanitize (h : p.Cleansed q) : p.table.sanitize = q.table.sanitize := by
  cases h with
  | intro h => exact h

theorem reload (h : p.Cleansed q) : p.reload = .ok p ∧ q.reload = .ok q := by
  cases h with
  | intro h => exact ⟨rfl, rfl⟩

theorem change (h : p.Cleansed q) {f : Settings → Settings}
    (hf : ∀ t : Settings, (f t).sanitize = f t.sanitize) : (p.change f).Cleansed (q.change f) := by
  cases h with
  | @intro t u h =>
    apply intro
    rw [hf t, h, hf u]

end Cleansed

theorem cleansed_indistinct : Indistinct Cleansed where
  agree := by
    intro p q h
    have hg : p.table.sanitize.generous = q.table.sanitize.generous := by rw [h.sanitize]
    refine ⟨?_, ?_, hg⟩
    · intro id hw
      rw [← p.table.isDisabled_sanitize hw, h.sanitize, q.table.isDisabled_sanitize hw]
    · intro id hw n
      rw [← p.table.priority_sanitize hw, h.sanitize, q.table.priority_sanitize hw]
  ensureEntry := by
    rintro _ _ id @⟨t, u, h⟩ hw n
    apply Cleansed.intro
    rw [t.sanitize_ensureEntry hw, h, u.sanitize_ensureEntry hw]
  edit := by
    intro p q e h hw
    exact h.change fun t => t.sanitize_edit hw
  save := by
    rintro _ _ ⟨h⟩
    exact ⟨_, _, rfl, rfl, .intro h, _, _, rfl, rfl, .intro h⟩

end Provider

namespace Registry

inductive Task (H : Type) where
  | register (declared : H → Int8) (h : H)
  | unregister (id : String)
  | clear
  | reload (declared : H → Int8)
  | edit (e : Edit)
  | ensure (id : String) (n : Int32)
  | unset (id : String)

variable {H : Type}

def Task.Worded : Task H → Prop
  | .edit e => isWord e.id = true
  | .ensure id _ | .unset id => isWord id = true
  | _ => True

variable [Handler H]

def undertake (r : Registry H) : Task H → Outcome H (Answer ⊕ Bool)
  | .register declared h =>
    let o := r.register declared h
    ⟨.inl (.registered o.answer), o.registry, o.notices⟩
  | .unregister id =>
    let o := r.unregister id
    ⟨.inl (.unregistered o.answer), o.registry, o.notices⟩
  | .clear => ⟨.inl .done, r.clear, []⟩
  | .reload declared =>
    let o := r.reload declared
    ⟨.inl (.reloaded o.answer), o.registry, o.notices⟩
  | .edit e => ⟨.inl .done, r.configure e.apply, []⟩
  | .ensure id n => ⟨.inl .done, { r with provider := r.provider.ensureEntry id n }, []⟩
  | .unset id =>
    ⟨.inr (r.provider.table.clearPriority id).1, r.configure fun t => (t.clearPriority id).2, []⟩

def outcomes : List (Task H) → Registry H → List (Outcome H (Answer ⊕ Bool))
  | [], _ => []
  | a :: as, r =>
    let o := r.undertake a
    o :: outcomes as o.registry

variable {r s : Registry H}

theorem undertake_alike (ht : Twins Provider.Cleansed r s) {a : Task H} (ha : a.Worded) :
    Alike Provider.Cleansed (r.undertake a) (s.undertake a) := by
  have hR := Provider.cleansed_indistinct
  cases a with
  | register declared h =>
    have h := register_alike hR ht declared h
    exact ⟨congrArg (Sum.inl ∘ Answer.registered) h.answer, h.notices, h.registry⟩
  | unregister id =>
    have h := unregister_alike ht id
    exact ⟨congrArg (Sum.inl ∘ Answer.unregistered) h.answer, h.notices, h.registry⟩
  | clear => exact ⟨rfl, rfl, rfl, ht.provider⟩
  | reload declared =>
    obtain ⟨hp, hq⟩ := ht.provider.reload
    have h := reload_alike hR ht.roster hp hq ht.provider declared
    exact ⟨congrArg (Sum.inl ∘ Answer.reloaded) h.answer, h.notices, h.registry⟩
  | edit e => exact ⟨rfl, rfl, ht.roster, hR.edit ht.provider ha⟩
  | ensure id n => exact ⟨rfl, rfl, ht.roster, hR.ensureEntry ht.provider ha n⟩
  | unset id =>
    have hc : r.provider.table.standings.contains id = s.provider.table.standings.contains id := by
      rw [← r.provider.table.contains_sanitize ha, ht.provider.sanitize,
        s.provider.table.contains_sanitize ha]
    have hp := ht.provider.change fun t => t.sanitize_erase id
    exact ⟨congrArg Sum.inr hc, rfl, ht.roster, hp⟩

def shown (O : Type) {H α : Type} [Trades H O] (o : Outcome H α) :
    α × List Notice × Roster H × View H O :=
  (o.answer, o.notices, o.registry.roster, (o.registry.view O).under Settings.sanitize)

variable {H O : Type} [Trades H O] {r s : Registry H}

theorem shown_alike {α : Type} {a b : Outcome H α} (h : Alike Provider.Cleansed a b) :
    shown O a = shown O b := by
  have hv := view_under (O := O) Provider.cleansed_indistinct Provider.Cleansed.sanitize h.registry
  rw [shown, shown, h.answer, h.notices, h.registry.roster, hv]

theorem shown_outcomes (ht : Twins Provider.Cleansed r s) {tasks : List (Task H)}
    (ha : ∀ a ∈ tasks, a.Worded) :
    (outcomes tasks r).map (shown O) = (outcomes tasks s).map (shown O) := by
  induction tasks generalizing r s with
  | nil => rfl
  | cons a as ih =>
    have h := undertake_alike ht (ha a List.mem_cons_self)
    have hs := ih h.registry fun x hx => ha x (List.mem_cons_of_mem a hx)
    simp only [outcomes, List.map_cons, shown_alike h, hs]

/-- To sanitize settings is to keep exactly the standings of words and all of the generous ids. It makes
no difference to what a registry does. -/
theorem invalid_ids_inert (t : Settings) {tasks : List (Task H)} (ha : ∀ a ∈ tasks, a.Worded) :
    (∀ (id : String) (x : Standing), t.sanitize.standings[id]? = some x ↔
      t.standings[id]? = some x ∧ id.toList ≠ [] ∧ ∀ c ∈ id.toList, isBlank c = false) ∧
    t.sanitize.generous = t.generous ∧ t.sanitize.sanitize = t.sanitize ∧
    let r : Registry H := start (.memory t)
    let s : Registry H := start (.memory t.sanitize)
    (r.view O).under Settings.sanitize = (s.view O).under Settings.sanitize ∧
      (outcomes tasks r).map (shown O) = (outcomes tasks s).map (shown O) := by
  have ht : Twins Provider.Cleansed (start (.memory t) : Registry H) (start (.memory t.sanitize)) :=
    ⟨rfl, .intro t.sanitize_sanitize.symm⟩
  refine ⟨?_, rfl, t.sanitize_sanitize, ?_, shown_outcomes ht ha⟩
  · intro id x
    rw [t.standing_sanitize_eq_some_iff, isWord_iff]
  · exact view_under Provider.cleansed_indistinct Provider.Cleansed.sanitize ht

open Scenario in
theorem invalid_ids_inert_shop :
    let t := (Settings.empty.setPriority "no id" 7).setDisabled "" true
    let tasks : List (Task Scripted) := [.register (fun _ => 1) (.bare "a" "shop"),
      .unset "shop", .ensure "bank" 4, .edit (.disabled "shop" true), .reload fun _ => 2, .unset "shop",
      .reload fun _ => 3]
    let i := Handler.info (Scripted.bare "a" "shop")
    t.sanitize = Settings.empty ∧ t ≠ Settings.empty ∧
      (outcomes tasks (start (.memory t))).map Outcome.notices =
        [[.registered i], [], [], [], [.unregistered i], [], [.registered i]] ∧
      (outcomes tasks (start (.memory t))).map (shown Item) =
        (outcomes tasks (start (.memory t.sanitize))).map (shown Item) := by
  intro t tasks i
  have hs : isWord "shop" = true := by decide
  have hb : isWord "bank" = true := by decide
  have ha : ∀ a ∈ tasks, a.Worded := by simp [tasks, Task.Worded, Edit.id, hs, hb]
  obtain ⟨-, -, -, -, h⟩ := invalid_ids_inert (O := Item) t ha
  exact ⟨by decide +kernel, by decide +kernel, by decide +kernel, h⟩

end Registry

end Brokerage
