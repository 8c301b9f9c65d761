import Brokerage.Proofs.Settings.Persistence

namespace Brokerage

open Std Text

namespace Settings

theorem standard_worded : standard.Worded where
  standings := by
    have h : ∀ id ∈ ["autoeconomy", "guishop", "economy++", "FactionsShop", "totaleconomy",
        "conjurate-shop"], isWord id = true := by decide
    intro id hid
    apply h
    simpa [standard, ExtTreeMap.mem_ofList] using hid
  generous := by
    intro id hid
    simp [standard] at hid

variable {t : Settings} {id : String}

theorem ensureEntry_of_mem (h : id ∈ t.standings) (n : Int32) : t.ensureEntry id n = (false, t) := by
  rw [ensureEntry, if_pos (ExtTreeMap.mem_iff_contains.mp h)]

theorem ensureEntry_of_not_mem (h : id ∉ t.standings) (n : Int32) :
    t.ensureEntry id n = (true, t.setPriority id n) := by
  rw [ensureEntry, if_neg fun hc => h (ExtTreeMap.mem_iff_contains.mpr hc)]

end Settings

def Writing.ofRefusal : Option Refusal → Writing
  | none => .whole
  | some r => .refused r

namespace Stored

variable {s : Stored} {d : Disk} {t : Settings} {id : String}

theorem ensureEntry_of_mem (h : id ∈ s.table.standings) (n : Int32) : s.ensureEntry id n = s := by
  simp only [ensureEntry, Settings.ensureEntry_of_mem h, Bool.or_false]

theorem ensureEntry_of_not_mem (h : id ∉ s.table.standings) (n : Int32) :
    s.ensureEntry id n = ⟨s.table.setPriority id n, true⟩ := by
  simp only [ensureEntry, Settings.ensureEntry_of_not_mem h, Bool.or_true]

theorem reload_of_read (h : read d = .ok t) : reload d = .ok ⟨t, false⟩ := by
  rw [reload, h]
  rfl

def opened : Disk → Disk
  | .absent => .file Settings.standard.pretty.toUTF8
  | d => d

theorem opened_of_ne (h : d ≠ .absent) : opened d = d := by
  cases d with
  | absent => exact absurd rfl h
  | _ => rfl

/-- A file with a text that is read as settings, whatever its spelling. -/
inductive Holds : Disk → Settings → Prop
  | intro {text : String} {t : Settings} (ht : Settings.read? text = .ok t) :
    Holds (.file text.toUTF8) t.sanitize

inductive Offers : Disk → Settings → Prop
  | absent : Offers .absent .standard
  | file {d : Disk} {t : Settings} (h : Holds d t) : Offers d t

namespace Holds

theorem saved (ht : t.Worded) : Holds (.file t.pretty.toUTF8) t := by
  have h := Holds.intro ht.read?_pretty
  rwa [t.sanitize_eq_iff.mpr ht.standings] at h

theorem exists_bytes (h : Holds d t) : ∃ bytes : ByteArray, d = .file bytes := by
  cases h with
  | intro ht => exact ⟨_, rfl⟩

theorem worded (h : Holds d t) : t.Worded := by
  cases h with
  | intro ht => exact .sanitize (Settings.read?_generous ht)

theorem read (h : Holds d t) : Stored.read d = .ok t := by
  cases h with
  | intro ht => exact read_text ht

theorem openBy (h : Holds d t) (w : Writing) : Stored.openBy w d = (.ok ⟨t, false⟩, d) := by
  have hr := reload_of_read h.read
  cases h with
  | intro ht => exact congrArg (·, _) hr

theorem openAt (h : Holds d t) : Stored.openAt d = .ok (⟨t, false⟩, d) := by
  rw [Stored.openAt, h.openBy]
  rfl

theorem saveBy (h : Holds d t) (s : Stored) :
    s.saveBy .whole d = (.ok ⟨s.table, false⟩, .file s.table.pretty.toUTF8) := by
  cases h with
  | intro ht => rfl

theorem saveBy_refused (h : Holds d t) (s : Stored) (r : Refusal) :
    s.saveBy (.refused r) d = (.error (.refused r), d) := by
  cases h with
  | intro ht => rfl

theorem save (h : Holds d t) (s : Stored) :
    s.save d = .ok (⟨s.table, false⟩, .file s.table.pretty.toUTF8) := by
  rw [Stored.save, h.saveBy]
  rfl

end Holds

theorem Offers.absent_or_bytes (h : Offers d t) :
    d = .absent ∨ ∃ bytes : ByteArray, d = .file bytes := by
  cases h with
  | absent => exact .inl rfl
  | file h => exact .inr h.exists_bytes

theorem Offers.opened (h : Offers d t) : Holds (Stored.opened d) t := by
  cases h with
  | absent => exact .saved Settings.standard_worded
  | file h => cases h with | intro ht => exact .intro ht

theorem Offers.openBy (h : Offers d t) :
    Stored.openBy .whole d = (.ok ⟨t, false⟩, Stored.opened d) := by
  cases h with
  | absent => rfl
  | file h =>
    rw [h.openBy]
    cases h with
    | intro ht => rfl

theorem Offers.openAt (h : Offers d t) :
    Stored.openAt d = .ok (⟨t, false⟩, Stored.opened d) := by
  rw [Stored.openAt, h.openBy]
  rfl

theorem openAt_opened (d : Disk) : (openAt (opened d)).map Prod.fst = (openAt d).map Prod.fst := by
  by_cases hd : d = .absent
  · rw [hd, Offers.absent.openAt, Offers.absent.opened.openAt]
  · rw [opened_of_ne hd]

inductive Use where
  | edit (e : Edit)
  | ensure (id : String) (n : Int32)
  | save (refusal : Option Refusal)
  | reload

def Use.Worded : Use → Prop
  | .edit e => isWord e.id = true
  | .ensure id _ => isWord id = true
  | .save _ | .reload => True

def use (p : Stored × Disk) : Use → Stored × Disk
  | .edit e => (p.1.change e.apply, p.2)
  | .ensure id n => (p.1.ensureEntry id n, p.2)
  | .save refusal =>
    let (s, d) := p.1.saveBy (.ofRefusal refusal) p.2
    (s.toOption.getD p.1, d)
  | .reload => ((reload p.2).toOption.getD p.1, p.2)

def useAll (uses : List Use) (p : Stored × Disk) : Stored × Disk := uses.foldl use p

structure InStep (p : Stored × Disk) : Prop where
  worded : p.1.table.Worded
  held : ∃ t : Settings, Holds p.2 t ∧ (p.1.dirty = false → t = p.1.table)

theorem Holds.inStep (h : Holds d t) : InStep (⟨t, false⟩, d) := ⟨h.worded, t, h, fun _ => rfl⟩

theorem InStep.use {p : Stored × Disk} (hp : InStep p) {u : Use} (hu : u.Worded) :
    InStep (use p u) := by
  obtain ⟨hw, t, ht, hs⟩ := hp
  cases u with
  | edit e => exact ⟨hw.edit hu, t, ht, nofun⟩
  | ensure id n =>
    by_cases hm : id ∈ p.1.table.standings
    · have he : Stored.use p (.ensure id n) = p := congrArg (·, p.2) (ensureEntry_of_mem hm n)
      rw [he]
      exact ⟨hw, t, ht, hs⟩
    · refine ⟨hw.ensureEntry hu n, t, ht, ?_⟩
      simp only [Stored.use, ensureEntry_of_not_mem hm, Bool.true_eq_false, false_implies]
  | save refusal =>
    cases refusal with
    | none =>
      simp only [Stored.use, Writing.ofRefusal, ht.saveBy]
      exact (Holds.saved hw).inStep
    | some r =>
      simp only [Stored.use, Writing.ofRefusal, ht.saveBy_refused]
      exact ⟨hw, t, ht, hs⟩
  | reload =>
    rw [Stored.use, reload_of_read ht.read]
    exact ht.inStep

theorem InStep.useAll {p : Stored × Disk} (hp : InStep p) {uses : List Use}
    (hu : ∀ u ∈ uses, u.Worded) : InStep (useAll uses p) := by
  induction uses generalizing p with
  | nil => exact hp
  | cons u uses ih =>
    exact ih (hp.use (hu u List.mem_cons_self)) fun v hv => hu v (List.mem_cons_of_mem u hv)

/-- However settings were used since they were opened: as long as they are not dirty, reading the file,
reloading and opening it again all give what is in memory. A change makes them dirty, but not an entry
that was there before, and a save makes them clean. -/
theorem clean_in_step (hd : Offers d t) {uses : List Use} (hu : ∀ u ∈ uses, u.Worded) :
    let p := useAll uses (⟨t, false⟩, opened d)
    openAt d = .ok (⟨t, false⟩, opened d) ∧
    (p.1.dirty = false →
      read p.2 = .ok p.1.table ∧ reload p.2 = .ok p.1 ∧ openAt p.2 = .ok p) ∧
    (∃ u : Settings, reload p.2 = .ok ⟨u, false⟩) ∧
    (∃ d' : Disk, p.1.save p.2 = .ok (⟨p.1.table, false⟩, d')) ∧
    (∀ e : Edit, p.1.change e.apply = ⟨e.apply p.1.table, true⟩) ∧
    (∀ id ∈ p.1.table.standings, ∀ n : Int32, p.1.ensureEntry id n = p.1) ∧
    ∀ id ∉ p.1.table.standings, ∀ n : Int32,
      p.1.ensureEntry id n = ⟨p.1.table.setPriority id n, true⟩ := by
  intro p
  obtain ⟨-, u, hh, hs⟩ := hd.opened.inStep.useAll hu
  refine ⟨hd.openAt, ?_, ⟨u, reload_of_read hh.read⟩, ⟨_, hh.save p.1⟩, fun _ => rfl,
    fun _ h => ensureEntry_of_mem h, fun _ h => ensureEntry_of_not_mem h⟩
  intro hc
  obtain rfl := hs hc
  have hp : p.1 = ⟨p.1.table, false⟩ := congrArg (Stored.mk p.1.table) hc
  have hl := reload_of_read hh.read
  have ho := hh.openAt
  rw [← hp] at hl ho
  exact ⟨hh.read, hl, ho⟩

theorem clean_in_step_shop :
    let t := Settings.empty.setPriority "no id" 7
    let uses : List Use := [.ensure "shop" 7, .save (some .isDirectory), .save none,
      .edit (.generous "shop" true), .reload, .ensure "shop" 9]
    let p := useAll uses (⟨t.sanitize, false⟩, .file t.pretty.toUTF8)
    p.1.dirty = false ∧ p.1.table.configured "shop" = some 7 ∧
      p.1.table.isGenerous "shop" = false ∧ read p.2 = .ok p.1.table := by
  intro t uses p
  have hg : ∀ g ∈ t.generous, isWord g = true := by
    intro g hg
    simp [t, Settings.setPriority, Settings.empty] at hg
  have hr : Settings.read? t.pretty = .ok t := by rw [t.read?_pretty, t.reworded_eq_iff.mpr hg]
  have hw : isWord "shop" = true := by decide
  have hu : ∀ u ∈ uses, u.Worded := by simp [uses, Use.Worded, Edit.id, hw]
  have hc : p.1.dirty = false := by decide +kernel
  obtain ⟨-, hs, -⟩ := clean_in_step (.file (.intro hr)) hu
  exact ⟨hc, by decide +kernel, by decide +kernel, (hs hc).1⟩

end Stored

end Brokerage
