import Brokerage.Proofs.Command.Seat
import Brokerage.Proofs.Command.Spelling
import Brokerage.Proofs.Report.Delivery
import Brokerage.Proofs.Settings.Upkeep

namespace Brokerage

open Std Text

namespace Settings

def edited (es : List Edit) (t : Settings) : Settings := es.foldl (fun t e => e.apply t) t

theorem Worded.edited {t : Settings} (ht : t.Worded) {es : List Edit}
    (he : ∀ e ∈ es, isWord e.id = true) : (t.edited es).Worded := by
  induction es generalizing t with
  | nil => exact ht
  | cons e es ih =>
    exact ih (ht.edit (he e List.mem_cons_self)) fun x hx => he x (List.mem_cons_of_mem e hx)

theorem edited_append (es fs : List Edit) (t : Settings) :
    t.edited (es ++ fs) = (t.edited es).edited fs := List.foldl_append

end Settings

namespace Command

def Looks (c : Command) : Prop := c = .init ∨ c = .list

def edits : Command → List Edit
  | .init | .list => []
  | .rank id n => [.priority id n]
  | .disable id => [.disabled id true]
  | .enable id => [.disabled id false]
  | .generous ids on => ids.map fun id => .generous id on

def shown : Command → Settings → String
  | .list, t => Report.text t.rows
  | _, _ => ""

variable {c : Command} {d : Disk} {t : Settings}

theorem edits_of_looks (hc : c.Looks) : c.edits = [] := by
  rcases hc with rfl | rfl <;> rfl

theorem edits_worded (hw : ∀ id ∈ c.ids, isWord id = true) : ∀ e ∈ c.edits, isWord e.id = true := by
  cases c with
  | init => exact nofun
  | list => exact nofun
  | generous ids on =>
    intro e he
    obtain ⟨id, hid, rfl⟩ := List.mem_map.mp he
    exact hw id hid
  | _ id =>
    intro e he
    obtain rfl := List.mem_singleton.mp he
    exact hw id List.mem_cons_self

theorem edit?_of_not_looks (hc : ¬ c.Looks) : ∃ f : Settings → Settings, c.edit? = some f ∧
    ∀ t : Settings, f t = t.edited c.edits := by
  cases c with
  | init => exact absurd (Or.inl rfl) hc
  | list => exact absurd (Or.inr rfl) hc
  | generous ids on =>
    refine ⟨_, rfl, ?_⟩
    intro t
    rw [edits, Settings.edited, List.foldl_map]
    rfl
  | _ => exact ⟨_, rfl, fun _ => rfl⟩

theorem shown_of_not_looks (hc : ¬ c.Looks) (t : Settings) : c.shown t = "" := by
  cases c with
  | list => exact absurd (Or.inr rfl) hc
  | _ => rfl

theorem print_none (rows : List Row) : print none rows = .ok (Report.text rows) := by
  obtain ⟨w, hw, -⟩ := Report.Writer.write_start rows
  rw [print, hw]

theorem finish_of_looks (hc : c.Looks) (s : Stored) (d : Disk) :
    c.finish .willing s d = (.ok (c.shown s.table), d) := by
  rcases hc with rfl | rfl
  · rfl
  · exact congrArg (·, d) (print_none s.table.rows)

theorem finish_of_words (hc : ¬ c.Looks) (hw : ∀ id ∈ c.ids, isWord id = true)
    (hd : Stored.Holds d t) (s : Stored) :
    c.finish .willing s d = (.ok "", .file (s.table.edited c.edits).pretty.toUTF8) := by
  obtain ⟨f, hf, he⟩ := edit?_of_not_looks hc
  have hn : c.ids.find? (! isWord ·) = none := by
    rw [List.find?_eq_none]
    intro id hid
    simp [hw id hid]
  simp only [finish, Host.willing, hf, hn, hd.saveBy, Stored.change, he]

theorem run_of_offers (hd : Stored.Offers d t) :
    c.run .willing d = c.finish .willing ⟨t, false⟩ (Stored.opened d) := by
  rw [run, Host.willing, hd.openBy]

theorem run_of_words (hd : Stored.Offers d t) (hw : ∀ id ∈ c.ids, isWord id = true) :
    (c.run .willing d).1 = .ok (c.shown (t.edited c.edits)) ∧
      Stored.Holds (c.run .willing d).2 (t.edited c.edits) ∧
      (c.Looks → (c.run .willing d).2 = Stored.opened d) ∧
      (¬ c.Looks → (c.run .willing d).2 = .file (t.edited c.edits).pretty.toUTF8) := by
  rw [run_of_offers hd]
  by_cases hc : c.Looks
  · rw [finish_of_looks hc, edits_of_looks hc]
    exact ⟨rfl, hd.opened, fun _ => rfl, fun h => absurd hc h⟩
  · rw [finish_of_words hc hw hd.opened, shown_of_not_looks hc]
    exact ⟨rfl, .saved (hd.opened.worded.edited (edits_worded hw)), fun h => absurd h hc,
      fun _ => rfl⟩

end Command

namespace Folder

structure Errand where
  args : List String
  command : Command
  verbose : Bool
  said : Invocation.ofArguments? args = some ⟨Invocation.standardPath, verbose, command⟩
  words : ∀ id ∈ command.ids, isWord id = true

def Errand.edits (e : Errand) : List Edit := e.command.edits

theorem Errand.exists_of_words {c : Command} (hc : c.Sayable)
    (hw : ∀ id ∈ c.ids, isWord id = true) (dashes : Bool)
    (hd : dashes = true ∨ ∀ id ∈ c.ids, Invocation.isValue id = true) :
    ∃ e : Errand, e.command = c ∧ e.args = c.arguments dashes :=
  ⟨⟨_, c, false, Command.ofArguments?_arguments hc dashes hd, hw⟩, rfl, rfl⟩

def runAll (es : List Errand) (f : Folder) : Folder := es.foldl (fun f e => (f.run e.args).2) f

variable {f : Folder} {t : Settings}

theorem run_errand (hf : Stored.Offers f.settings t) (e : Errand) :
    (f.run e.args).1 = ⟨0, e.command.shown (t.edited e.edits), none⟩ ∧
      Stored.Holds (f.run e.args).2.settings (t.edited e.edits) ∧
      (¬ e.command.Looks → (f.run e.args).2.settings = .file (t.edited e.edits).pretty.toUTF8) ∧
      (e.command.Looks → f.settings ≠ .absent → (f.run e.args).2 = f) := by
  obtain ⟨hr, hh, hl, he⟩ := Command.run_of_words hf e.words
  have hf' : f.run e.args = _ := f.runBy_said .willing e.said rfl
  have hs : (f.run e.args).2.settings = (e.command.run .willing f.settings).2 := by
    obtain ⟨bytes, hb⟩ := hh.exists_bytes
    rw [hf', hb]
    exact settings_keepSettings hf.absent_or_bytes bytes
  refine ⟨?_, ?_, ?_, ?_⟩
  · rw [hf', hr]
    rfl
  · rw [hs]
    exact hh
  · rw [hs]
    exact he
  · intro hc ha
    rw [hf', hl hc, Stored.opened_of_ne ha]
    exact f.keepSettings_settings

theorem runAll_offers (hf : Stored.Offers f.settings t) (es : List Errand) :
    Stored.Offers (f.runAll es).settings (t.edited (es.flatMap Errand.edits)) := by
  induction es generalizing f t with
  | nil => exact hf
  | cons e es ih =>
    -- What a run leaves is a file that the next one can open, even if it was missing before.
    rw [List.flatMap_cons, Settings.edited_append]
    exact ih (.file (run_errand hf e).2.1)

/-- Any number of runs, and one more behind them: all of them succeed, and the file then holds what
their changes make of the settings that were found in the first place. Every command about words can
be run. -/
theorem runs_fold (hf : Stored.Offers f.settings t) (es : List Errand) (e : Errand) :
    let g := f.runAll es
    let u := t.edited ((es ++ [e]).flatMap Errand.edits)
    let exit := (g.run e.args).1
    let h := (g.run e.args).2
    exit.code = 0 ∧ Stored.read h.settings = .ok u ∧
    (¬ e.command.Looks → h.settings = .file u.pretty.toUTF8) ∧
    (e.command.Looks → g.settings ≠ .absent → h = g) ∧
    (e.command = .list → exit.output = Report.text u.rows ∧
      ∃ w, (Report.Writer.start none).write u.rows = (.complete, w) ∧
        w.sink.taken = exit.output.toUTF8.data.toList) ∧
    ∀ (c : Command) (dashes : Bool), c.Sayable → (∀ id ∈ c.ids, isWord id = true) →
      (dashes = true ∨ ∀ id ∈ c.ids, Invocation.isValue id = true) →
      ∃ e : Errand, e.command = c ∧ e.args = c.arguments dashes := by
  intro g u exit h
  have hu : u = (t.edited (es.flatMap Errand.edits)).edited e.edits := by
    rw [← Settings.edited_append, ← List.flatMap_singleton Errand.edits e, ← List.flatMap_append]
  obtain ⟨hx, hh, he, hl⟩ := run_errand (runAll_offers hf es) e
  rw [← hu] at hx hh he
  refine ⟨congrArg Exit.code hx, hh.read, he, hl, ?_,
    fun _ dashes hc hw => Errand.exists_of_words hc hw dashes⟩
  intro hc
  have ho : exit.output = Report.text u.rows := by
    rw [show exit = _ from hx, hc]
    rfl
  rw [ho]
  exact ⟨rfl, Report.Writer.write_start u.rows⟩

theorem runs_fold_shop :
    let f := (fresh.run ["priority", "myshop", "-3"]).2
    let g := (f.run ["-v", "generous", "myshop", "economy++"]).2
    let h := (g.run ["disable", "--", "guishop"]).2
    let u := (((Settings.standard.setPriority "myshop" (-3)).setGenerous "myshop" true).setGenerous
      "economy++" true).setDisabled "guishop" true
    (g.run ["disable", "--", "guishop"]).1.code = 0 ∧ h.settings = .file u.pretty.toUTF8 ∧
      (h.run ["show"]).1.output = Report.text u.rows ∧ (h.run ["show"]).2 = h := by
  intro f g h u
  let a : Errand := ⟨["priority", "myshop", "-3"], .rank "myshop" (-3), false,
    by decide +kernel, by decide⟩
  let b : Errand := ⟨["-v", "generous", "myshop", "economy++"],
    .generous ["myshop", "economy++"] true, true, by decide +kernel, by decide⟩
  let c : Errand := ⟨["disable", "--", "guishop"], .disable "guishop", false,
    by decide +kernel, by decide⟩
  let s : Errand := ⟨["show"], .list, false, by decide +kernel, by decide⟩
  have hf : Stored.Offers fresh.settings .standard := by
    rw [settings_fresh]
    exact .absent
  obtain ⟨hc, -, he, -⟩ := runs_fold hf [a, b] c
  obtain ⟨-, -, -, hl, ho, -⟩ := runs_fold hf [a, b, c] s
  have hh : h.settings = .file u.pretty.toUTF8 := he nofun
  refine ⟨hc, hh, (ho rfl).1, hl (.inr rfl) ?_⟩
  rw [show (fresh.runAll [a, b, c]).settings = h.settings from rfl, hh]
  exact nofun

end Folder

end Brokerage
