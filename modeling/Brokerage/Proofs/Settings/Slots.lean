import Brokerage.Proofs.Trees
import Brokerage.Settings.Basic

namespace Brokerage

open Std

structure Slot where
  standing : Option Standing
  generous : Bool

namespace Settings

def slot (t : Settings) (id : String) : Slot := ⟨t.standings[id]?, t.isGenerous id⟩

theorem ext_slot {t u : Settings} (h : ∀ id : String, t.slot id = u.slot id) : t = u := by
  have hs : t.standings = u.standings :=
    ExtTreeMap.ext_getElem? fun id => congrArg Slot.standing (h id)
  have hg : t.generous = u.generous :=
    ExtTreeSet.ext_contains fun id => congrArg Slot.generous (h id)
  obtain ⟨s, g⟩ := t
  obtain rfl : s = u.standings := hs
  exact congrArg (Settings.mk u.standings) hg

theorem questions_congr {t u : Settings} {id : String} (h : t.slot id = u.slot id) :
    (∀ n : Int8, t.priority id n = u.priority id n) ∧ t.configured id = u.configured id ∧
      t.isDisabled id = u.isDisabled id ∧ t.isGenerous id = u.isGenerous id := by
  have hs : t.standings[id]? = u.standings[id]? := congrArg Slot.standing h
  have hc : t.configured id = u.configured id := by rw [configured, hs, configured]
  refine ⟨?_, hc, ?_, congrArg Slot.generous h⟩
  · intro n
    rw [priority, hc, priority]
  · rw [isDisabled, hs, isDisabled]

theorem slot_insert (t : Settings) (id : String) (s : Standing) (j : String) :
    slot { t with standings := t.standings.insert id s } j =
      if id = j then { t.slot j with standing := some s } else t.slot j := by
  simp only [slot, ExtTreeMap.getElem?_insert, Std.compare_eq_iff_eq]
  split <;> rfl

theorem slot_erase (t : Settings) (id j : String) :
    slot { t with standings := t.standings.erase id } j =
      if id = j then { t.slot j with standing := none } else t.slot j := by
  simp only [slot, ExtTreeMap.getElem?_erase, Std.compare_eq_iff_eq]
  split <;> rfl

theorem slot_setDisabled (t : Settings) (id : String) (on : Bool) (j : String) :
    (t.setDisabled id on).slot j =
      if id = j then
        { t.slot j with standing :=
            if on then some .disabled else (t.slot j).standing.filter (· ≠ .disabled) }
      else t.slot j := by
  cases on with
  | true => exact t.slot_insert id .disabled j
  | false =>
    rw [setDisabled, if_neg Bool.false_ne_true]
    by_cases hj : id = j
    · rw [if_pos hj, ← hj]
      rcases hs : t.standings[id]? with _ | _ | _ <;>
        simp [isDisabled, slot, isGenerous, hs, Option.filter]
    · rw [if_neg hj]
      split
      · rw [slot_erase, if_neg hj]
      · rfl

theorem isGenerous_setGenerous (t : Settings) (id : String) (on : Bool) (x : String) :
    (t.setGenerous id on).isGenerous x = if id = x then on else t.isGenerous x := by
  have hc : (compare id x == .eq) = decide (id = x) := by
    rw [Bool.eq_iff_iff, beq_iff_eq, Std.compare_eq_iff_eq, decide_eq_true_eq]
  cases on with
  | true =>
    simp only [isGenerous, setGenerous, ↓reduceIte, ExtTreeSet.contains_insert, hc]
    by_cases hx : id = x <;> simp [hx]
  | false =>
    simp only [isGenerous, setGenerous, Bool.false_eq_true, ↓reduceIte, ExtTreeSet.contains_erase,
      bne, hc]
    by_cases hx : id = x <;> simp [hx]

theorem slot_setGenerous (t : Settings) (id : String) (on : Bool) (j : String) :
    (t.setGenerous id on).slot j =
      if id = j then { t.slot j with generous := on } else t.slot j := by
  simp only [slot, isGenerous_setGenerous]
  split <;> rfl

theorem added_ensureEntry (t : Settings) (id : String) (n : Int32) :
    (t.ensureEntry id n).1 = (t.standings[id]?).isNone := by
  rw [ensureEntry, ExtTreeMap.contains_eq_isSome_getElem?]
  cases t.standings[id]? <;> rfl

theorem generous_ensureEntry (t : Settings) (id : String) (n : Int32) :
    (t.ensureEntry id n).2.generous = t.generous := by
  rw [ensureEntry]
  split <;> rfl

theorem standing_ensureEntry (t : Settings) (id : String) (n : Int32) (j : String) :
    (t.ensureEntry id n).2.standings[j]? =
      if id = j ∧ t.standings[id]? = none then some (.ranked n) else t.standings[j]? := by
  by_cases hc : t.standings.contains id
  · have hs : t.standings[id]? ≠ none := by
      rw [ExtTreeMap.contains_eq_isSome_getElem?, Option.isSome_iff_ne_none] at hc
      exact hc
    simp only [ensureEntry, hc, ↓reduceIte, hs, and_false]
  · have hs : t.standings[id]? = none := by
      rw [ExtTreeMap.contains_eq_isSome_getElem?] at hc
      simpa using hc
    simp only [ensureEntry, hc, Bool.false_eq_true, ↓reduceIte, setPriority, hs, and_true,
      ExtTreeMap.getElem?_insert, Std.compare_eq_iff_eq]

theorem isDisabled_ensureEntry (t : Settings) (id : String) (n : Int32) (j : String) :
    (t.ensureEntry id n).2.isDisabled j = t.isDisabled j := by
  simp only [isDisabled, standing_ensureEntry]
  split
  · next h =>
    obtain ⟨rfl, hs⟩ := h
    rw [hs]
    rfl
  · rfl

theorem priority_ensureEntry (t : Settings) {id j : String} (hj : id ≠ j) (n : Int32) (d : Int8) :
    (t.ensureEntry id n).2.priority j d = t.priority j d := by
  simp only [priority, configured, standing_ensureEntry, hj, false_and, ↓reduceIte]

theorem slot_ensureEntry (t : Settings) (id : String) (n : Int32) (j : String) :
    (t.ensureEntry id n).2.slot j =
      if id = j then { t.slot j with standing := (t.slot j).standing.or (some (.ranked n)) }
      else t.slot j := by
  simp only [slot, standing_ensureEntry, isGenerous, generous_ensureEntry]
  by_cases hj : id = j
  · simp only [hj, true_and, ↓reduceIte]
    cases t.standings[j]? <;> rfl
  · simp only [hj, false_and, ↓reduceIte]

end Settings

end Brokerage
