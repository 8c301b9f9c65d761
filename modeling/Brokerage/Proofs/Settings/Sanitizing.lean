import Brokerage.Proofs.Settings.Persistence
import Brokerage.Proofs.Trees

namespace Brokerage.Settings

open Std Text

variable {t u : Settings} {id : String}

theorem standing_sanitize_eq_some_iff (t : Settings) (id : String) (s : Standing) :
    t.sanitize.standings[id]? = some s ↔ t.standings[id]? = some s ∧ isWord id = true := by
  rw [sanitize, ExtTreeMap.getElem?_filter', Option.filter_eq_some_iff]

theorem standing_sanitize (t : Settings) (hw : isWord id = true) :
    t.sanitize.standings[id]? = t.standings[id]? := by
  apply Option.ext
  intro s
  rw [standing_sanitize_eq_some_iff, and_iff_left hw]

theorem sanitize_sanitize (t : Settings) : t.sanitize.sanitize = t.sanitize := by
  rw [sanitize_eq_iff]
  exact fun id h => ((t.mem_sanitize id).mp h).2

theorem isDisabled_sanitize (t : Settings) (hw : isWord id = true) :
    t.sanitize.isDisabled id = t.isDisabled id := by
  rw [isDisabled, isDisabled, standing_sanitize t hw]

theorem priority_sanitize (t : Settings) (hw : isWord id = true) (n : Int8) :
    t.sanitize.priority id n = t.priority id n := by
  rw [priority, priority, configured, configured, standing_sanitize t hw]

theorem contains_sanitize (t : Settings) (hw : isWord id = true) :
    t.sanitize.standings.contains id = t.standings.contains id := by
  rw [ExtTreeMap.contains_eq_isSome_getElem?, ExtTreeMap.contains_eq_isSome_getElem?,
    standing_sanitize t hw]

theorem sanitize_insert (t : Settings) (hw : isWord id = true) (s : Standing) :
    sanitize { t with standings := t.standings.insert id s } =
      { t.sanitize with standings := t.sanitize.standings.insert id s } :=
  congrArg (Settings.mk · t.generous) (Trees.filter_insert t.standings hw)

theorem sanitize_erase (t : Settings) (id : String) :
    sanitize { t with standings := t.standings.erase id } =
      { t.sanitize with standings := t.sanitize.standings.erase id } :=
  congrArg (Settings.mk · t.generous) (Trees.filter_erase t.standings _ id)

theorem sanitize_setDisabled (t : Settings) (hw : isWord id = true) (on : Bool) :
    (t.setDisabled id on).sanitize = t.sanitize.setDisabled id on := by
  simp only [setDisabled, isDisabled_sanitize t hw]
  split
  · exact sanitize_insert t hw _
  · split
    · exact sanitize_erase t id
    · rfl

theorem sanitize_edit (t : Settings) {e : Edit} (hw : isWord e.id = true) :
    (e.apply t).sanitize = e.apply t.sanitize := by
  cases e with
  | priority id n => exact sanitize_insert t hw _
  | disabled id on => exact sanitize_setDisabled t hw on
  | generous id on => rfl

theorem sanitize_ensureEntry (t : Settings) (hw : isWord id = true) (n : Int32) :
    (t.ensureEntry id n).2.sanitize = (t.sanitize.ensureEntry id n).2 := by
  simp only [ensureEntry, contains_sanitize t hw]
  split
  · rfl
  · exact sanitize_insert t hw _

end Brokerage.Settings
