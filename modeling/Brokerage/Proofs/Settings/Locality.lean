import Brokerage.Proofs.Settings.Persistence
import Brokerage.Proofs.Settings.Slots
import Brokerage.Settings.Row

namespace Brokerage

open Std

inductive Amendment where
  | edit (e : Edit)
  | ensure (id : String) (n : Int32)
  | clear (id : String)

def Edit.act : Edit → Slot → Slot
  | .priority _ n, s => { s with standing := some (.ranked n) }
  | .disabled _ on, s =>
    { s with standing := if on then some .disabled else s.standing.filter (· ≠ .disabled) }
  | .generous _ on, s => { s with generous := on }

namespace Amendment

def id : Amendment → String
  | .edit e => e.id
  | .ensure id _ | .clear id => id

def apply : Amendment → Settings → Option Bool × Settings
  | .edit e, t => (none, e.apply t)
  | .ensure id n, t => (some (t.ensureEntry id n).1, (t.ensureEntry id n).2)
  | .clear id, t => (some (t.clearPriority id).1, (t.clearPriority id).2)

def act : Amendment → Slot → Option Bool × Slot
  | .edit e, s => (none, e.act s)
  | .ensure _ n, s =>
    (some s.standing.isNone, { s with standing := s.standing.or (some (.ranked n)) })
  | .clear _, s => (some s.standing.isSome, { s with standing := none })

theorem slot_apply (f : Amendment) (t : Settings) (id : String) :
    (f.apply t).2.slot id = if f.id = id then (f.act (t.slot id)).2 else t.slot id := by
  cases f with
  | edit e =>
    cases e with
    | priority j n => exact t.slot_insert j (.ranked n) id
    | disabled j on => exact t.slot_setDisabled j on id
    | generous j on => exact t.slot_setGenerous j on id
  | ensure j n => exact t.slot_ensureEntry j n id
  | clear j => exact t.slot_erase j id

theorem answer_apply (f : Amendment) (t : Settings) :
    (f.apply t).1 = (f.act (t.slot f.id)).1 := by
  cases f with
  | edit e => rfl
  | ensure id n => exact congrArg some (t.added_ensureEntry id n)
  | clear id => exact congrArg some ExtTreeMap.contains_eq_isSome_getElem?

variable {f g : Amendment}

theorem slot_apply_of_ne {id : String} (h : f.id ≠ id) (t : Settings) :
    (f.apply t).2.slot id = t.slot id := by
  rw [slot_apply, if_neg h]

theorem answer_apply_of_ne (h : f.id ≠ g.id) (t : Settings) :
    (g.apply (f.apply t).2).1 = (g.apply t).1 := by
  rw [answer_apply, slot_apply_of_ne h, answer_apply]

theorem apply_comm (h : f.id ≠ g.id) (t : Settings) :
    (g.apply (f.apply t).2).2 = (f.apply (g.apply t).2).2 := by
  apply Settings.ext_slot
  intro id
  by_cases hf : f.id = id
  · have hg : g.id ≠ id := fun hg => h (hf.trans hg.symm)
    rw [slot_apply_of_ne hg, slot_apply, slot_apply f, slot_apply_of_ne hg]
  · rw [slot_apply_of_ne hf, slot_apply, slot_apply g, slot_apply_of_ne hf]

def Interleaved (l l' : List Amendment) : Prop :=
  ∀ id : String, (l.filter fun f => f.id = id) = l'.filter fun f => f.id = id

variable {l l' : List Amendment}

theorem Interleaved.uncons (h : Interleaved (f :: l) l') : ∃ before rest : List Amendment,
    l' = before ++ f :: rest ∧ (∀ g ∈ before, g.id ≠ f.id) ∧ Interleaved l (before ++ rest) := by
  have hf := h f.id
  rw [List.filter_cons_of_pos (by simp)] at hf
  obtain ⟨before, rest, rfl, hb, -, -⟩ := List.filter_eq_cons_iff.mp hf.symm
  have hb : ∀ g ∈ before, g.id ≠ f.id := by simpa using hb
  refine ⟨before, rest, rfl, hb, ?_⟩
  intro id
  have hid := h id
  rw [List.filter_append, List.filter_cons, List.filter_cons] at hid
  rw [List.filter_append]
  split at hid
  · next he =>
    have hn : (before.filter fun g => g.id = id) = [] := by
      rw [List.filter_eq_nil_iff]
      intro g hg
      simpa [← of_decide_eq_true he] using hb g hg
    rw [hn] at hid ⊢
    exact (List.cons.inj hid).2
  · exact hid

section

variable {σ : Type} {step : σ → Amendment → σ}
variable (hc : ∀ {f g : Amendment}, f.id ≠ g.id → ∀ s : σ, step (step s f) g = step (step s g) f)

include hc

theorem foldl_past {before : List Amendment} (hb : ∀ g ∈ before, g.id ≠ f.id) (s : σ) :
    before.foldl step (step s f) = step (before.foldl step s) f := by
  induction before generalizing s with
  | nil => rfl
  | cons g before ih =>
    have hg : f.id ≠ g.id := (hb g List.mem_cons_self).symm
    rw [List.foldl_cons, hc hg, ih fun x hx => hb x (List.mem_cons_of_mem g hx), List.foldl_cons]

theorem Interleaved.foldl_eq (h : Interleaved l l') (s : σ) : l.foldl step s = l'.foldl step s := by
  induction l generalizing l' s with
  | nil =>
    have hn : l' = [] := by
      rw [List.eq_nil_iff_forall_not_mem]
      intro g hg
      have hm : g ∈ l'.filter fun f => f.id = g.id := List.mem_filter.mpr ⟨hg, by simp⟩
      rw [← h g.id] at hm
      cases hm
    rw [hn]
  | cons f l ih =>
    -- The first change of one list stands in the other behind changes about other ids only, and may
    -- be made before them.
    obtain ⟨before, rest, rfl, hb, hl⟩ := h.uncons
    calc (f :: l).foldl step s
      _ = (before ++ rest).foldl step (step s f) := ih hl (step s f)
      _ = rest.foldl step (before.foldl step (step s f)) := List.foldl_append
      _ = rest.foldl step (step (before.foldl step s) f) := by rw [foldl_past hc hb]
      _ = (before ++ f :: rest).foldl step s := by rw [List.foldl_append, List.foldl_cons]

end

def marks : Amendment → Option Bool → Bool
  | .ensure _ _, answer => answer = some true
  | _, _ => true

end Amendment

open Amendment (Interleaved)

variable {l l' : List Amendment}

def Settings.amend (t : Settings) (f : Amendment) : Settings := (f.apply t).2

def Settings.amendAll (l : List Amendment) (t : Settings) : Settings := l.foldl amend t

namespace Stored

def amend (s : Stored) : Amendment → Stored
  | .edit e => s.change e.apply
  | .ensure id n => s.ensureEntry id n
  | .clear id => s.change fun t => (t.clearPriority id).2

def amendAll (l : List Amendment) (s : Stored) : Stored := l.foldl amend s

theorem amend_eq (s : Stored) (f : Amendment) :
    s.amend f = ⟨s.table.amend f, s.dirty || f.marks (f.apply s.table).1⟩ := by
  cases f with
  | edit e => exact congrArg (mk _) (Bool.or_true s.dirty).symm
  | ensure id n => simp [amend, ensureEntry, Settings.amend, Amendment.apply, Amendment.marks]
  | clear id => exact congrArg (mk _) (Bool.or_true s.dirty).symm

theorem amend_comm {f g : Amendment} (h : f.id ≠ g.id) (s : Stored) :
    (s.amend f).amend g = (s.amend g).amend f := by
  simp only [amend_eq, Settings.amend, Amendment.apply_comm h, Amendment.answer_apply_of_ne h,
    Amendment.answer_apply_of_ne h.symm, Bool.or_assoc, Bool.or_comm (f.marks _)]

theorem table_amendAll (l : List Amendment) (s : Stored) :
    (s.amendAll l).table = s.table.amendAll l := by
  induction l generalizing s with
  | nil => rfl
  | cons f l ih => exact (ih (s.amend f)).trans (by rw [amend_eq]; rfl)

end Stored

namespace Settings

theorem amendAll_eq (h : Interleaved l l') (t : Settings) : t.amendAll l = t.amendAll l' :=
  Interleaved.foldl_eq (fun hfg => Amendment.apply_comm hfg) h t

/-- What a change answers and does is told by the slot of its id. So changes about different ids give
the same answers and the same table in either order, and leave alone what is said about other ids.
Lists of changes that keep the order about each id come to the same, also for settings in a file, down
to what is saved. -/
theorem amended_apart (t : Settings) :
    (∀ f : Amendment, (f.apply t).1 = (f.act (t.slot f.id)).1 ∧ ∀ id : String,
      (f.apply t).2.slot id = if f.id = id then (f.act (t.slot id)).2 else t.slot id) ∧
    (∀ f g : Amendment, f.id ≠ g.id →
      let fg := g.apply (f.apply t).2
      let gf := f.apply (g.apply t).2
      fg.2 = gf.2 ∧ fg.2.rows = gf.2.rows ∧ fg.2.compact = gf.2.compact ∧
        fg.2.pretty = gf.2.pretty ∧ gf.1 = (f.apply t).1 ∧ fg.1 = (g.apply t).1) ∧
    (∀ (f : Amendment) (id : String), f.id ≠ id →
      (∀ n : Int8, (f.apply t).2.priority id n = t.priority id n) ∧
        (f.apply t).2.configured id = t.configured id ∧
        (f.apply t).2.isDisabled id = t.isDisabled id ∧
        (f.apply t).2.isGenerous id = t.isGenerous id) ∧
    ∀ l l' : List Amendment, Interleaved l l' →
      t.amendAll l = t.amendAll l' ∧
      ∀ (dirty : Bool) (d : Disk),
        let s := Stored.amendAll l ⟨t, dirty⟩
        let s' := Stored.amendAll l' ⟨t, dirty⟩
        s.table = t.amendAll l ∧ s = s' ∧ s.save d = s'.save d := by
  refine ⟨fun f => ⟨f.answer_apply t, f.slot_apply t⟩, ?_, ?_, ?_⟩
  · intro f g h fg gf
    have he : fg.2 = gf.2 := Amendment.apply_comm h t
    exact ⟨he, congrArg rows he, congrArg compact he, congrArg pretty he,
      Amendment.answer_apply_of_ne h.symm t, Amendment.answer_apply_of_ne h t⟩
  · intro f id h
    exact questions_congr (Amendment.slot_apply_of_ne h t)
  · intro l l' h
    refine ⟨amendAll_eq h t, ?_⟩
    intro dirty d s s'
    have hs : s = s' := Interleaved.foldl_eq (fun hfg => Stored.amend_comm hfg) h ⟨t, dirty⟩
    exact ⟨Stored.table_amendAll l _, hs, congrArg (Stored.save · d) hs⟩

theorem amended_apart_shop :
    let t := empty.setDisabled "shop" true
    let enable : Amendment := .edit (.disabled "shop" false)
    let l : List Amendment := [enable, .ensure "bank" 7, .ensure "shop" 5, .clear "bank",
      .edit (.generous "bank" true)]
    let l' : List Amendment := [.ensure "bank" 7, .clear "bank", .edit (.generous "bank" true),
      enable, .ensure "shop" 5]
    (Amendment.apply (.ensure "bank" 7) (enable.apply t).2).1 = some true ∧
      (Amendment.apply (.ensure "bank" 7) t).2.isDisabled "shop" = true ∧
      t.amendAll l = t.amendAll l' ∧
      (t.amendAll l).configured "shop" = some 5 ∧ (t.amendAll l).isGenerous "bank" = true ∧
      (Stored.amendAll l ⟨t, false⟩).save .absent =
        (Stored.amendAll l' ⟨t, false⟩).save .absent := by
  intro t enable l l'
  have hl : Interleaved l l' := by
    intro id
    by_cases hs : "shop" = id
    · simp [l, l', enable, ← hs, Amendment.id, Edit.id]
    · by_cases hb : "bank" = id <;> simp [l, l', enable, hs, hb, Amendment.id, Edit.id]
  obtain ⟨-, hpair, hother, hall⟩ := amended_apart t
  obtain ⟨-, -, -, -, -, ha⟩ := hpair enable (.ensure "bank" 7) (by decide)
  obtain ⟨-, -, hd, -⟩ := hother (.ensure "bank" 7) "shop" (by decide)
  obtain ⟨ht, hs⟩ := hall l l' hl
  exact ⟨ha.trans (by decide +kernel), hd.trans (by decide +kernel), ht, by decide +kernel,
    by decide +kernel, (hs false .absent).2.2⟩

end Settings

end Brokerage
