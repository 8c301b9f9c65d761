import Brokerage.Proofs.Settings.RoundTrip
import Brokerage.Settings.Stored

namespace Brokerage

open Std Text

inductive Edit where
  | priority (id : String) (n : Int32)
  | disabled (id : String) (on : Bool)
  | generous (id : String) (on : Bool)

namespace Edit

def id : Edit → String
  | .priority id _ | .disabled id _ | .generous id _ => id

def apply : Edit → Settings → Settings
  | .priority id n => Settings.setPriority id n
  | .disabled id on => Settings.setDisabled id on
  | .generous id on => Settings.setGenerous id on

end Edit

namespace Settings

structure Worded (t : Settings) : Prop where
  standings : ∀ id ∈ t.standings, isWord id = true
  generous : ∀ id ∈ t.generous, isWord id = true

theorem sanitize_eq_iff (t : Settings) :
    t.sanitize = t ↔ ∀ id ∈ t.standings, isWord id = true := by
  have hs : t.sanitize = t ↔ t.sanitize.standings = t.standings :=
    ⟨congrArg Settings.standings, congrArg (Settings.mk · t.generous)⟩
  rw [hs, sanitize, ExtTreeMap.filter_eq_self_iff]
  simp

theorem mem_sanitize (t : Settings) (id : String) :
    id ∈ t.sanitize.standings ↔ id ∈ t.standings ∧ isWord id = true := by
  simp [sanitize, ExtTreeMap.mem_filter]

namespace Worded

variable {t : Settings} {id : String}

theorem sanitize (hg : ∀ id ∈ t.generous, isWord id = true) : t.sanitize.Worded :=
  ⟨fun id h => ((t.mem_sanitize id).mp h).2, hg⟩

theorem insert (ht : t.Worded) (hw : isWord id = true) (s : Standing) :
    Worded { t with standings := t.standings.insert id s } := by
  refine ⟨?_, ht.generous⟩
  intro j hj
  simp only [ExtTreeMap.mem_insert, Std.compare_eq_iff_eq] at hj
  rcases hj with rfl | hj
  · exact hw
  · exact ht.standings j hj

theorem erase (ht : t.Worded) (id : String) :
    Worded { t with standings := t.standings.erase id } :=
  ⟨fun j hj => ht.standings j (ExtTreeMap.mem_of_mem_erase hj), ht.generous⟩

theorem setGenerous (ht : t.Worded) (hw : isWord id = true) (on : Bool) :
    (t.setGenerous id on).Worded := by
  refine ⟨ht.standings, ?_⟩
  intro j hj
  cases on with
  | false => exact ht.generous j (ExtTreeSet.mem_of_mem_erase hj)
  | true =>
    simp only [Settings.setGenerous, ↓reduceIte, ExtTreeSet.mem_insert,
      Std.compare_eq_iff_eq] at hj
    rcases hj with rfl | hj
    · exact hw
    · exact ht.generous j hj

theorem ensureEntry (ht : t.Worded) (hw : isWord id = true) (n : Int32) :
    (t.ensureEntry id n).2.Worded := by
  rw [Settings.ensureEntry]
  split
  · exact ht
  · exact ht.insert hw _

theorem edit (ht : t.Worded) {e : Edit} (hw : isWord e.id = true) : (e.apply t).Worded := by
  cases e with
  | priority id n => exact ht.insert hw _
  | disabled id on =>
    rw [Edit.apply, Settings.setDisabled]
    split
    · exact ht.insert hw _
    · split
      · exact ht.erase id
      · exact ht
  | generous id on => exact ht.setGenerous hw on

theorem read?_pretty (ht : t.Worded) : read? t.pretty = .ok t := by
  rw [Settings.read?_pretty, t.reworded_eq_iff.mpr ht.generous]

end Worded

end Settings

theorem Disk.readText_toUTF8 (text : String) : (Disk.file text.toUTF8).readText = .ok text := by
  have hs : String.fromUTF8? text.toUTF8 = some text := by
    rw [String.toUTF8_eq_toByteArray, String.fromUTF8?, dif_pos text.isValidUTF8]
    rfl
  simp only [readText, hs]

namespace Stored

theorem read_text {text : String} {t : Settings} (ht : Settings.read? text = .ok t) :
    read (.file text.toUTF8) = .ok t.sanitize := by
  simp only [read, Disk.readText_toUTF8, ht]

theorem read_saved {t : Settings} (ht : t.Worded) : read (.file t.pretty.toUTF8) = .ok t := by
  rw [read_text ht.read?_pretty, t.sanitize_eq_iff.mpr ht.standings]

theorem reload_saved {t : Settings} (ht : t.Worded) :
    reload (.file t.pretty.toUTF8) = .ok ⟨t, false⟩ := by
  rw [reload, read_saved ht]
  rfl

end Stored

end Brokerage
