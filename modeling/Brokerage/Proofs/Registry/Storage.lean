import Brokerage.Proofs.Registry.Simulation
import Brokerage.Scenario.Scripted

namespace Brokerage

open Std Text

namespace Provider

inductive Mirrored : Provider → Provider → Prop
  | intro {s : Stored} {bytes : ByteArray} (hw : s.table.Worded) :
      Mirrored (.file s (.file bytes)) (.memory s.table)

theorem mirrored_indistinct : Indistinct Mirrored where
  agree := by
    rintro _ _ ⟨hw⟩
    exact ⟨fun _ _ => rfl, fun _ _ _ => rfl, rfl⟩
  ensureEntry := by
    rintro _ _ id ⟨hw⟩ hid n
    exact .intro (s := Stored.ensureEntry id n _) (hw.ensureEntry hid n)
  edit := by
    rintro _ _ e ⟨hw⟩ he
    exact .intro (s := Stored.change e.apply _) (hw.edit he)
  save := by
    rintro _ _ @⟨s, bytes, hw⟩
    -- What is read back is the table that was saved, and nothing is left to be sanitized.
    have hr : (file ⟨s.table, false⟩ (.file s.table.pretty.toUTF8)).reload =
        .ok (.file ⟨s.table, false⟩ (.file s.table.pretty.toUTF8)) := by
      rw [reload, Stored.reload_saved hw]
      rfl
    exact ⟨_, _, rfl, rfl, .intro hw, _, _, hr, rfl, .intro hw⟩

end Provider

namespace Registry

variable {H O : Type} [Trades H O]

/-- A registry whose settings are in a file and one that has the same settings in memory answer,
announce and show the same, act by act. -/
theorem stored_like_memory {text : String} {t : Settings} (ht : Settings.read? text = .ok t)
    {acts : List (Act H)} (ha : ∀ a ∈ acts, a.Worded) :
    ∃ (s : Stored) (d : Disk), Stored.openAt (.file text.toUTF8) = .ok (s, d) ∧
      (start (.file s d) : Registry H).view O = (start (.memory t.sanitize)).view O ∧
      scenes O acts (start (.file s d)) = scenes O acts (start (.memory t.sanitize)) := by
  have ho : Stored.openAt (.file text.toUTF8) = .ok (⟨t.sanitize, false⟩, .file text.toUTF8) := by
    simp only [Stored.openAt, Stored.openBy, Stored.reload, Stored.read_text ht]
    rfl
  have hw : t.sanitize.Worded := Settings.Worded.sanitize (Settings.read?_generous ht)
  have hs : Twins Provider.Mirrored
      (start (.file ⟨t.sanitize, false⟩ (.file text.toUTF8)) : Registry H)
      (start (.memory t.sanitize)) := ⟨rfl, .intro hw⟩
  have hl {p q : Provider} (h : p.Mirrored q) : id p.table = id q.table := by
    cases h
    rfl
  have hview := view_under (O := O) Provider.mirrored_indistinct hl hs
  have hscenes := scenes_under (O := O) Provider.mirrored_indistinct hl hs ha
  have hid : Scene.under (H := H) (O := O) id = id := rfl
  rw [hid, List.map_id, List.map_id] at hscenes
  exact ⟨_, _, ho, hview, hscenes⟩

open Scenario in
theorem stored_like_memory_shop :
    let t := (Settings.empty.setPriority "no id" 7).setGenerous "bank" true
    let acts : List (Act Scripted) := [.register (fun _ => 1) (.bare "a" "shop"),
      .edit (.disabled "shop" true), .refresh fun _ => 2, .edit (.disabled "shop" false),
      .save, .refresh fun _ => 3]
    let i := Handler.info (Scripted.bare "a" "shop")
    (scenes Item acts (start (.memory t.sanitize))).map Scene.notices =
        [[.registered i], [], [.unregistered i], [], [], [.registered i]] ∧
      ∃ (s : Stored) (d : Disk), Stored.openAt (.file t.pretty.toUTF8) = .ok (s, d) ∧
        scenes Item acts (start (.file s d)) = scenes Item acts (start (.memory t.sanitize)) := by
  intro t acts i
  have hl : ∀ id ∈ t.generous.toList, isWord id = true := by decide +kernel
  have hg : ∀ id ∈ t.generous, isWord id = true := fun id h => hl id (ExtTreeSet.mem_toList.mpr h)
  have hr : Settings.read? t.pretty = .ok t := by
    rw [t.read?_pretty, t.reworded_eq_iff.mpr hg]
  have hw : isWord "shop" = true := by decide
  have ha : ∀ a ∈ acts, a.Worded := by simp [acts, Act.Worded, Edit.id, hw]
  obtain ⟨s, d, ho, -, hs⟩ := stored_like_memory (O := Item) hr ha
  exact ⟨by decide +kernel, s, d, ho, hs⟩

end Registry

end Brokerage
