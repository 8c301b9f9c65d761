import Brokerage.Proofs.Registry.Admissions
import Brokerage.Proofs.Registry.Views

namespace Brokerage

open Std Text

theorem Provider.ensureEntry_of_none {p : Provider} {id : String}
    (h : p.table.standings[id]? = none) (n : Int32) :
    p.ensureEntry id n = p.change (Settings.setPriority id n) := by
  have hm : id ∉ p.table.standings := (getElem?_eq_none_iff p.table.standings id).mp h
  cases p with
  | memory t => exact congrArg (memory ·.2) (Settings.ensureEntry_of_not_mem hm n)
  | file s d => exact congrArg (file · d) (Stored.ensureEntry_of_not_mem hm n)

variable {H : Type} [Handler H]

namespace Roster.Coherent

variable {r : Roster H}

theorem install_withdraw (hc : r.Coherent) {e : Entry H} (hw : isWord e.id = true) :
    (r.withdraw e.id).install e = r.install e := by
  apply ((hc.withdraw e.id).install hw).ext (hc.install hw)
  · rw [install_active, withdraw_active, Trees.insert_erase, install_active]
  · rw [install_known, withdraw_known, Trees.insert_erase, install_known]

section

variable {id : String} (hc : r.Coherent) (hk : r.known[id]? = none)

include hc hk

theorem withdraw_of_unknown : r.withdraw id = r := by
  apply (hc.withdraw id).ext hc
  · rw [withdraw_active, Trees.erase_of_none (hc.inactive_of_unknown hk)]
  · rw [withdraw_known, Trees.erase_of_none hk]

theorem withdraw_note {h : H} (hid : (Handler.info h).id = id) (hw : isWord id = true) :
    (r.note h).withdraw id = r := by
  have ha := hc.inactive_of_unknown hk
  have hn : r.note h = r.learn h := note_of_inactive (by rwa [hid])
  apply ((hc.note (by rwa [hid])).withdraw id).ext hc
  · rw [withdraw_active, note_active, Trees.erase_of_none ha]
  · rw [withdraw_known, hn, Roster.learn, hid, Trees.erase_insert hk]

theorem withdraw_install {e : Entry H} (hid : e.id = id) (hw : isWord id = true) :
    (r.install e).withdraw id = r := by
  subst hid
  apply ((hc.install hw).withdraw e.id).ext hc
  · rw [withdraw_active, install_active, Trees.erase_insert (hc.inactive_of_unknown hk)]
  · rw [withdraw_known, install_known, Trees.erase_insert hk]

end

end Roster.Coherent

namespace Registry

variable {r : Registry H} (declared : H → Int8) {h : H}

theorem register_unregister (hc : r.roster.Coherent) (hw : isWord (Handler.info h).id = true)
    (hd : r.provider.table.isDisabled (Handler.info h).id = false) :
    (r.unregister (Handler.info h).id).registry.register declared h =
      ⟨.ok (), (r.register declared h).registry, [.registered (Handler.info h)]⟩ := by
  let s : Registry H := { r with roster := r.roster.withdraw (Handler.info h).id }
  have hs : (r.unregister (Handler.info h).id).registry = s := by rw [unregister_eq hc]
  have hl : s.roster.leaving (Handler.info h).id = [] := by
    rw [Roster.leaving, Roster.withdraw_active, ExtTreeMap.getElem?_erase_self]
    rfl
  -- The entry is the same as before, since withdrawing does not touch the settings.
  have hi : s.roster.install (s.entry declared h) = r.roster.install (r.entry declared h) :=
    hc.install_withdraw (e := r.entry declared h) hw
  rw [hs, register_of_enabled declared (r := s) (hc.withdraw _) hw hd, hl, hi,
    register_of_enabled declared hc hw hd]
  rfl

theorem mem_kinds_register (hc : r.roster.Coherent) (ha : (r.register declared h).answer = .ok ())
    (k : Kind) : k ∈ (r.register declared h).registry.kinds ↔ k = (Handler.info h).kind ∨
      ∃ e : Entry H, r.roster.active[e.id]? = some e ∧ e.id ≠ (Handler.info h).id ∧ e.kind = k := by
  have hact : (r.register declared h).registry.roster.active =
      r.roster.active.insert (Handler.info h).id (r.entry declared h) := by
    rw [register_of_accepted hc ha]
    exact Roster.install_active _ _
  rw [mem_kinds_iff (register_coherent declared h hc)]
  simp only [hact, ExtTreeMap.getElem?_insert, Std.compare_eq_iff_eq]
  constructor
  · rintro ⟨e, he, rfl⟩
    split at he
    · cases he
      exact Or.inl rfl
    · next hid => exact Or.inr ⟨e, he, Ne.symm hid, rfl⟩
  · rintro (rfl | ⟨e, he, hid, rfl⟩)
    · exact ⟨r.entry declared h, if_pos rfl, rfl⟩
    · exact ⟨e, by rwa [if_neg hid.symm], rfl⟩

section

variable (hc : r.roster.Coherent) (hk : r.roster.known[(Handler.info h).id]? = none)

include hc hk

theorem unregister_register_of_refused {x : Rejection}
    (ha : (r.register declared h).answer = .error x) :
    (r.register declared h).notices = [] ∧
      (r.register declared h).registry.unregister (Handler.info h).id = ⟨false, r, []⟩ := by
  have hn := hc.inactive_of_unknown hk
  have hcontains := Trees.contains_of_none hn
  obtain ⟨-, he⟩ | ⟨hw, -, he⟩ | ⟨-, -, he⟩ := register_cases declared h hc
  · rw [he, unregister_eq hc, hcontains, hc.withdraw_of_unknown hk, Roster.leaving, hn]
    exact ⟨rfl, rfl⟩
  · rw [he, unregister_eq (r := { r with roster := r.roster.note h }) (hc.note hw)]
    rw [Roster.leaving, Roster.note_active, hcontains, hc.withdraw_note hk rfl hw, hn]
    exact ⟨rfl, rfl⟩
  · rw [he] at ha
    cases ha

theorem unregister_register_of_accepted (ha : (r.register declared h).answer = .ok ()) :
    (r.register declared h).notices = [.registered (Handler.info h)] ∧
      (r.register declared h).registry.unregister (Handler.info h).id =
        ⟨true, ⟨r.roster, r.provider.ensureEntry (Handler.info h).id (declared h).toInt32⟩,
          [.unregistered (Handler.info h)]⟩ := by
  have hn := hc.inactive_of_unknown hk
  have he := register_of_accepted hc ha
  let s : Registry H := ⟨r.roster.install (r.entry declared h),
    r.provider.ensureEntry (Handler.info h).id (r.entry declared h).priority⟩
  have hs : s.roster.Coherent := by
    have hr := register_coherent declared h hc
    rw [he] at hr
    exact hr
  have hl : s.roster.active[(Handler.info h).id]? = some (r.entry declared h) := by
    rw [Roster.install_active]
    exact ExtTreeMap.getElem?_insert_self
  have hu : s.unregister (Handler.info h).id =
      ⟨true, ⟨r.roster, s.provider⟩, [.unregistered (Handler.info h)]⟩ := by
    rw [unregister_eq hs, Trees.contains_of_some hl, Roster.leaving, hl,
      hc.withdraw_install hk rfl (hs.word hl)]
    rfl
  have hp : s.provider = r.provider.ensureEntry (Handler.info h).id (declared h).toInt32 :=
    ensureEntry_priority r.provider _ _
  rw [he, Roster.leaving, hn, ← hp]
  exact ⟨rfl, hu⟩

end

/-- A registry that has come to be in whatever way. To offer a handler that may be active is the same
as to withdraw its id first, so a kind is left only if nobody else is of it. To withdraw an id that
was not known before it was offered leaves no more than an entry in the settings. -/
theorem withdrawn_before_or_after (p : Provider) (moves : List (Move H)) (h : H) :
    let r := after moves (start p)
    let i := Handler.info h
    let o := r.register declared h
    let gone := r.unregister i.id
    let again := gone.registry.register declared h
    let back := o.registry.unregister i.id
    (isWord i.id = true → r.provider.table.isDisabled i.id = false →
      o.answer = .ok () ∧ again.answer = .ok () ∧ again.registry = o.registry ∧
      gone.notices ++ again.notices = o.notices ∧
      ∀ k : Kind, k ∈ o.registry.kinds ↔ k = i.kind ∨
        ∃ e : Entry H, r.roster.active[e.id]? = some e ∧ e.id ≠ i.id ∧ e.kind = k) ∧
    (r.roster.known[i.id]? = none →
      back.registry.roster = r.roster ∧
      ((o.answer = .ok () ∧ back.answer = true ∧ o.notices = [.registered i] ∧
          back.notices = [.unregistered i] ∧
          (back.registry.provider = r.provider ∨ r.provider.table.standings[i.id]? = none ∧
            back.registry.provider =
              r.provider.change (Settings.setPriority i.id (declared h).toInt32))) ∨
        ((∃ x : Rejection, o.answer = .error x) ∧ back.answer = false ∧ o.notices = [] ∧
          back.notices = [] ∧ back.registry.provider = r.provider))) := by
  intro r i o gone again back
  have hc : r.roster.Coherent := reached_coherent p moves
  constructor
  · intro hw hd
    have ho : o = _ := register_of_enabled declared hc hw hd
    have hagain : again = _ := register_unregister declared hc hw hd
    have hgone : gone = _ := unregister_eq hc i.id
    refine ⟨by rw [ho], by rw [hagain], by rw [hagain], by rw [hagain, hgone, ho], ?_⟩
    exact mem_kinds_register declared hc (by rw [register_of_enabled declared hc hw hd])
  · intro hk
    cases ha : o.answer with
    | error x =>
      obtain ⟨hn, hb⟩ := unregister_register_of_refused declared hc hk ha
      have hback : back = _ := hb
      rw [hback]
      exact ⟨rfl, Or.inr ⟨⟨x, rfl⟩, rfl, hn, rfl, rfl⟩⟩
    | ok u =>
      obtain ⟨hn, hb⟩ := unregister_register_of_accepted declared hc hk ha
      have hback : back = _ := hb
      rw [hback]
      refine ⟨rfl, Or.inl ⟨rfl, rfl, hn, rfl, ?_⟩⟩
      cases hs : r.provider.table.standings[i.id]? with
      | none => exact Or.inr ⟨rfl, Provider.ensureEntry_of_none hs _⟩
      | some s =>
        apply Or.inl
        exact Provider.ensureEntry_of_mem (Trees.mem_of_some hs) _

open Scenario in
theorem withdrawn_before_or_after_shop :
    let next : Scripted := { Scripted.bare "b" "shop" with kind := .flag }
    let moves : List (Move Scripted) := [.register (fun _ => 1) (.bare "a" "shop")]
    let r := after moves (start (.memory .empty))
    let o := r.register (fun _ => 2) next
    let bank := r.register (fun _ => 3) (.bare "c" "bank")
    r.kinds = [.text] ∧ o.registry.kinds = [.flag] ∧
      ((r.unregister "shop").registry.register (fun _ => 2) next).registry = o.registry ∧
      bank.registry.size = 2 ∧ (bank.registry.unregister "bank").registry.roster = r.roster := by
  intro next moves r o bank
  obtain ⟨ho, -⟩ := withdrawn_before_or_after (fun _ => 2) (.memory .empty) moves next
  obtain ⟨-, hb⟩ :=
    withdrawn_before_or_after (fun _ => 3) (.memory .empty) moves (Scripted.bare "c" "bank")
  obtain ⟨-, -, hagain, -⟩ := ho (by decide) (by decide +kernel)
  obtain ⟨hroster, -⟩ := hb (Option.isNone_iff_eq_none.mp (by decide +kernel))
  exact ⟨by decide +kernel, by decide +kernel, hagain, by decide +kernel, hroster⟩

end Registry

end Brokerage
