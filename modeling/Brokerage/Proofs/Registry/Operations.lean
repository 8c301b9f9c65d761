import Brokerage.Proofs.Registry.Coherence
import Brokerage.Proofs.Settings.Slots

namespace Brokerage

open Std Text

theorem Provider.table_ensureEntry (p : Provider) (id : String) (n : Int32) :
    (p.ensureEntry id n).table = (p.table.ensureEntry id n).2 := by
  cases p <;> rfl

namespace Registry

variable {H : Type} [Handler H]

def entry (declared : H → Int8) (h : H) (r : Registry H) : Entry H :=
  ⟨h, r.provider.table.priority (Handler.info h).id (declared h)⟩

theorem register_of_disabled (declared : H → Int8) {h : H} {r : Registry H}
    (hw : isWord (Handler.info h).id = true)
    (hd : r.provider.table.isDisabled (Handler.info h).id = true) :
    r.register declared h = ⟨.error (.disabled (Handler.info h).id),
      { r with roster := r.roster.note h }, []⟩ := by
  simp only [register, hw, hd, Bool.not_true, Bool.false_eq_true, ↓reduceIte, Roster.note]

theorem register_of_enabled (declared : H → Int8) {h : H} {r : Registry H}
    (hc : r.roster.Coherent) (hw : isWord (Handler.info h).id = true)
    (hd : r.provider.table.isDisabled (Handler.info h).id = false) :
    r.register declared h = ⟨.ok (), ⟨r.roster.install (r.entry declared h),
        r.provider.ensureEntry (Handler.info h).id (r.entry declared h).priority⟩,
      r.roster.leaving (Handler.info h).id ++ [.registered (Handler.info h)]⟩ := by
  have hn : (((r.roster.retire (Handler.info h).id).2.learn h).index.holds
      (r.entry declared h)) = false :=
    ((hc.retire _).learn hw (Roster.retire_inactive _ _)).not_holds _
      (Roster.retire_inactive r.roster (Handler.info h).id)
  simp only [register, hw, hd, Bool.not_true, Bool.false_eq_true, ↓reduceIte,
    Roster.retire_learn, hc.retire_fst]
  rw [if_neg (by rw [Bool.not_eq_true]; exact hn), Roster.install_eq]
  rfl

theorem register_cases (declared : H → Int8) (h : H) {r : Registry H} (hc : r.roster.Coherent) :
    (isWord (Handler.info h).id = false ∧
      r.register declared h = ⟨.error (.invalidId (Handler.info h).id), r, []⟩) ∨
    (isWord (Handler.info h).id = true ∧ r.provider.table.isDisabled (Handler.info h).id = true ∧
      r.register declared h = ⟨.error (.disabled (Handler.info h).id),
        { r with roster := r.roster.note h }, []⟩) ∨
    (isWord (Handler.info h).id = true ∧ r.provider.table.isDisabled (Handler.info h).id = false ∧
      r.register declared h = ⟨.ok (), ⟨r.roster.install (r.entry declared h),
          r.provider.ensureEntry (Handler.info h).id (r.entry declared h).priority⟩,
        r.roster.leaving (Handler.info h).id ++ [.registered (Handler.info h)]⟩) := by
  cases hw : isWord (Handler.info h).id with
  | false =>
    refine Or.inl ⟨rfl, ?_⟩
    simp only [register, hw, Bool.not_false, ↓reduceIte]
  | true =>
    cases hd : r.provider.table.isDisabled (Handler.info h).id with
    | true => exact Or.inr (Or.inl ⟨rfl, rfl, register_of_disabled declared hw hd⟩)
    | false => exact Or.inr (Or.inr ⟨rfl, rfl, register_of_enabled declared hc hw hd⟩)

theorem register_of_accepted {declared : H → Int8} {h : H} {r : Registry H}
    (hc : r.roster.Coherent) (ha : (r.register declared h).answer = .ok ()) :
    r.register declared h = ⟨.ok (), ⟨r.roster.install (r.entry declared h),
        r.provider.ensureEntry (Handler.info h).id (r.entry declared h).priority⟩,
      r.roster.leaving (Handler.info h).id ++ [.registered (Handler.info h)]⟩ := by
  obtain ⟨-, he⟩ | ⟨-, -, he⟩ | ⟨-, -, he⟩ := register_cases declared h hc
  · rw [he] at ha
    cases ha
  · rw [he] at ha
    cases ha
  · exact he

theorem register_of_barred {declared : H → Int8} {h : H} {r : Registry H} {id : String}
    (hc : r.roster.Coherent) (ha : (r.register declared h).answer = .error (.disabled id)) :
    r.register declared h = ⟨.error (.disabled (Handler.info h).id),
      { r with roster := r.roster.note h }, []⟩ := by
  obtain ⟨-, he⟩ | ⟨-, -, he⟩ | ⟨-, -, he⟩ := register_cases declared h hc
  · rw [he] at ha
    cases ha
  · exact he
  · rw [he] at ha
    cases ha

theorem unregister_eq {r : Registry H} (hc : r.roster.Coherent) (id : String) :
    r.unregister id = ⟨r.roster.active.contains id, { r with roster := r.roster.withdraw id },
      r.roster.leaving id⟩ := by
  have hf : ((r.roster.forget id).retire id).1 = r.roster.leaving id := by
    rw [Roster.retire_forget, hc.retire_fst]
  have he : (! (r.roster.leaving id).isEmpty) = r.roster.active.contains id := by
    rw [Roster.leaving, ExtTreeMap.contains_eq_isSome_getElem?]
    cases r.roster.active[id]? <;> rfl
  simp only [unregister, Roster.withdraw, hf, he]

theorem register_coherent (declared : H → Int8) (h : H) {r : Registry H}
    (hc : r.roster.Coherent) : (r.register declared h).registry.roster.Coherent := by
  obtain ⟨-, he⟩ | ⟨hw, -, he⟩ | ⟨hw, -, he⟩ := register_cases declared h hc
  · rw [he]
    exact hc
  · rw [he]
    exact hc.note hw
  · rw [he]
    exact hc.install hw

theorem unregister_coherent {r : Registry H} (hc : r.roster.Coherent) (id : String) :
    (r.unregister id).registry.roster.Coherent := by
  rw [unregister_eq hc]
  exact hc.withdraw id

theorem registerAll_cons (declared : H → Int8) (h : H) (hs : List H) (r : Registry H) :
    registerAll declared (h :: hs) r =
      ((registerAll declared hs (r.register declared h).registry).1,
        (r.register declared h).notices ++
          (registerAll declared hs (r.register declared h).registry).2) := by
  have heard : ∀ (hs : List H) (r : Registry H) (ns : List Notice),
      hs.foldl (fun s h =>
        ((s.1.register declared h).registry, s.2 ++ (s.1.register declared h).notices)) (r, ns) =
      ((registerAll declared hs r).1, ns ++ (registerAll declared hs r).2) := by
    intro hs
    induction hs with
    | nil => intro r ns; simp [registerAll]
    | cons h hs ih =>
      intro r ns
      have hr := ih (r.register declared h).registry ([] ++ (r.register declared h).notices)
      simp only [registerAll, List.foldl_cons] at ih hr ⊢
      rw [ih, hr, List.nil_append, List.append_assoc]
  have hh := heard hs (r.register declared h).registry (r.register declared h).notices
  exact hh

theorem registerAll_coherent (declared : H → Int8) (hs : List H) {r : Registry H}
    (hc : r.roster.Coherent) : (registerAll declared hs r).1.roster.Coherent := by
  induction hs generalizing r with
  | nil => exact hc
  | cons h hs ih =>
    rw [registerAll_cons]
    exact ih (register_coherent declared h hc)

theorem reload_coherent (declared : H → Int8) {r : Registry H} (hc : r.roster.Coherent) :
    (r.reload declared).registry.roster.Coherent := by
  cases hp : r.provider.reload with
  | error t => simp only [reload, hp]; exact hc
  | ok p =>
    simp only [reload, hp]
    exact registerAll_coherent declared _ Roster.Coherent.empty

end Registry

end Brokerage
