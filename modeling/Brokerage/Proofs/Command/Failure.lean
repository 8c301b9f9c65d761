import Brokerage.Proofs.Command.Seat
import Brokerage.Proofs.Settings.Upkeep

namespace Brokerage

open Std Text

def Disk.Open (d : Disk) : Prop := d = .absent ∨ ∃ bytes : ByteArray, d = .file bytes

def Disk.cut (n : Nat) (text : String) : Disk := .file (text.toUTF8.extract 0 n)

namespace Stored

variable {w : Writing} {s : Stored} {d : Disk} {t : Trouble}

theorem saveBy_of_error (h : (s.saveBy w d).1 = .error t) : (s.saveBy w d).2 = d ∨
    ∃ (n : Nat) (r : Refusal), w = .cut n r ∧ t = .refused r ∧
      (s.saveBy w d).2 = .cut n s.table.pretty := by
  have written : (s.saveBy w d).2 = (d.write w s.table.pretty).2 := by
    rw [saveBy]
    rcases d.write w s.table.pretty with ⟨_ | _, _⟩ <;> rfl
  cases d with
  | directory => exact .inl written
  | blocked => exact .inl written
  | _ =>
    cases w with
    | whole => cases h
    | refused r => exact .inl written
    | cut n r =>
      cases h
      exact .inr ⟨n, r, rfl, rfl, written⟩

theorem openBy_of_ne (h : d ≠ .absent) : (openBy w d).2 = d := by
  cases d with
  | absent => exact absurd rfl h
  | _ => rfl

theorem openBy_of_ok (h : (openBy w d).1 = .ok s) : d.Open ∧ (openBy w d).2 = opened d := by
  cases d with
  | absent =>
    cases w with
    | whole => exact ⟨.inl rfl, rfl⟩
    | _ => cases h
  | file bytes => exact ⟨.inr ⟨bytes, rfl⟩, rfl⟩
  | directory => cases h
  | blocked => cases h

theorem openAt_openBy (h : w.Clean) (d : Disk) :
    (openAt (openBy w d).2).map Prod.fst = (openAt d).map Prod.fst := by
  by_cases hd : d = .absent
  · subst hd
    cases w with
    | whole => exact openAt_opened .absent
    | refused r => rfl
    | cut n r => exact h.elim
  · rw [openBy_of_ne hd]

end Stored

namespace Command

variable {h : Host} {c : Command} {d : Disk} {e : Failure}

theorem finish_of_error {s : Stored} (he : (c.finish h s d).1 = .error e) :
    (c.finish h s d).2 = d ∨ ∃ (n : Nat) (r : Refusal) (t : Settings), h.saving = .cut n r ∧
      e = .trouble (.refused r) ∧ (c.finish h s d).2 = .cut n t.pretty := by
  unfold finish at he ⊢
  cases hf : c.edit? with
  | none => exact .inl rfl
  | some f =>
    rw [hf] at he
    dsimp only at he ⊢
    cases hn : c.ids.find? (! isWord ·) with
    | some id => exact .inl rfl
    | none =>
      rw [hn] at he
      dsimp only at he ⊢
      have hs := @Stored.saveBy_of_error h.saving (s.change f) d
      generalize (s.change f).saveBy h.saving d = p at he hs ⊢
      obtain ⟨a, d'⟩ := p
      cases a with
      | ok s => cases he
      | error t =>
        cases he
        rcases hs rfl with hd | ⟨n, r, hw, rfl, hd⟩
        · exact .inl hd
        · exact .inr ⟨n, r, _, hw, rfl, hd⟩

theorem run_of_error (he : (c.run h d).1 = .error e) :
    (c.run h d).2 = (Stored.openBy h.opening d).2 ∨
      d.Open ∧ ∃ (n : Nat) (r : Refusal) (t : Settings), h.saving = .cut n r ∧
        e = .trouble (.refused r) ∧ (c.run h d).2 = .cut n t.pretty := by
  have ho := @Stored.openBy_of_ok h.opening
  rw [run] at he ⊢
  cases hd : Stored.openBy h.opening d with
  | mk a d' =>
    cases a with
    | error t => exact .inl rfl
    | ok s =>
      rw [hd] at he
      have hopen : d.Open := (ho (by rw [hd])).1
      exact (finish_of_error he).imp_right fun hs => ⟨hopen, hs⟩

theorem finish_of_not_word {id : String} (hid : id ∈ c.ids) (hw : isWord id = false) (s : Stored) :
    ∃ e : Failure, c.finish h s d = (.error e, d) := by
  have hn : c.ids.find? (! isWord ·) ≠ none := by
    rw [Ne, List.find?_eq_none]
    intro hn
    exact hn id hid (by rw [hw]; rfl)
  obtain ⟨bad, hb⟩ := Option.ne_none_iff_exists'.mp hn
  cases c with
  | init => cases hid
  | list => cases hid
  | _ => exact ⟨.badId bad, by simp only [finish, edit?, hb]⟩

theorem run_of_not_word {id : String} (hid : id ∈ c.ids) (hw : isWord id = false) (d : Disk) :
    ∃ e : Failure, c.run h d = (.error e, (Stored.openBy h.opening d).2) := by
  rw [run]
  rcases Stored.openBy h.opening d with ⟨t | s, d'⟩
  · -- The ids are not looked at, since the settings could not be opened.
    exact ⟨_, rfl⟩
  · exact finish_of_not_word hid hw s

theorem run_of_opening_cut {n : Nat} {r : Refusal} (ho : h.opening = .cut n r) :
    c.run h .absent = (.error (.trouble (.refused r)), .cut n Settings.standard.pretty) := by
  rw [run, ho]
  rfl

end Command

theorem Exit.ofResult_code_ne_zero_iff {r : Command.Result} :
    (Exit.ofResult r).code ≠ 0 ↔ ∃ e : Command.Failure, r = .error e := by
  rcases r with (⟨⟨_⟩ | ⟨_⟩⟩ | ⟨_⟩ | ⟨_⟩) | output <;> simp [ofResult, ofFailure]

namespace Folder

variable {f : Folder} {args : List String} {i : Invocation} {h : Command.Host}

theorem runBy_of_failed (hi : Invocation.ofArguments? args = some i)
    (hp : i.path = Invocation.standardPath) (hc : (f.runBy h args).1.code ≠ 0) :
    (f.runBy h args).2 = f.keepSettings (Stored.openBy h.opening f.settings).2 ∨
      f.settings.Open ∧ ∃ (n : Nat) (r : Refusal) (t : Settings), h.saving = .cut n r ∧
        (f.runBy h args).1.reason = some "IO error" ∧
        (f.runBy h args).2 = f.keepSettings (.cut n t.pretty) := by
  rw [f.runBy_said h hi hp] at hc ⊢
  obtain ⟨e, he⟩ := Exit.ofResult_code_ne_zero_iff.mp hc
  rcases Command.run_of_error he with hs | ⟨ho, n, r, t, hw, rfl, hs⟩
  · exact .inl (congrArg f.keepSettings hs)
  · refine .inr ⟨ho, n, r, t, hw, ?_, congrArg f.keepSettings hs⟩
    rw [he]
    rfl

theorem keepSettings_openBy_of_ne (w : Writing) (hf : f.settings ≠ .absent) :
    f.keepSettings (Stored.openBy w f.settings).2 = f := by
  rw [Stored.openBy_of_ne hf, keepSettings_settings]

theorem settings_keepSettings_openBy (w : Writing) (f : Folder) :
    (f.keepSettings (Stored.openBy w f.settings).2).settings = (Stored.openBy w f.settings).2 := by
  by_cases hf : f.settings = .absent
  · rw [hf]
    cases w with
    | refused r => exact (congrArg settings (f.keepSettings_of_no_bytes rfl)).trans hf
    | _ => exact settings_keepSettings (.inl hf) _
  · rw [keepSettings_openBy_of_ne w hf, Stored.openBy_of_ne hf]

section

variable (hi : Invocation.ofArguments? args = some i) (hp : i.path = Invocation.standardPath)

include hi hp

theorem left_of_clean (hw : h.Clean) (hc : (f.runBy h args).1.code ≠ 0) :
    (f.settings ≠ .absent → (f.runBy h args).2 = f) ∧
      (f.settings = .absent →
        (h.opening = .whole → (f.runBy h args).2.settings = .file Settings.standard.pretty.toUTF8 ∧
          ∀ l ≠ seat, (f.runBy h args).2.nodes[l]? = f.nodes[l]?) ∧
        (h.opening ≠ .whole → (f.runBy h args).2 = f)) := by
  obtain ⟨ho, hs⟩ := hw
  have hr : (f.runBy h args).2 = f.keepSettings (Stored.openBy h.opening f.settings).2 := by
    rcases runBy_of_failed hi hp hc with hr | ⟨-, n, r, t, hn, -⟩
    · exact hr
    · rw [hn] at hs
      exact hs.elim
  rw [hr]
  refine ⟨keepSettings_openBy_of_ne _, fun ha => ⟨fun hn => ⟨?_, fun l hl => ?_⟩, fun hn => ?_⟩⟩
  · rw [settings_keepSettings_openBy, ha, hn]
    rfl
  · exact f.nodes_keepSettings _ hl
  · -- What is neither written nor cut short was refused, and there is still nothing.
    rw [ha]
    cases ho' : h.opening with
    | whole => exact absurd ho' hn
    | refused r => exact f.keepSettings_of_no_bytes rfl
    | cut n r =>
      rw [ho'] at ho
      exact ho.elim

theorem runBy_of_not_word (hn : ∃ id ∈ i.command.ids, isWord id = false) :
    (f.runBy h args).1.code ≠ 0 ∧
      (f.runBy h args).2 = f.keepSettings (Stored.openBy h.opening f.settings).2 := by
  obtain ⟨id, hid, hw⟩ := hn
  obtain ⟨e, he⟩ := Command.run_of_not_word (h := h) hid hw f.settings
  rw [f.runBy_said h hi hp, he]
  exact ⟨Exit.ofResult_code_ne_zero_iff.mpr ⟨e, rfl⟩, rfl⟩

theorem left_of_failed (hc : (f.runBy h args).1.code ≠ 0) :
    (∀ l ≠ seat, (f.runBy h args).2.nodes[l]? = f.nodes[l]?) ∧
      ((f.runBy h args).2 = f ∨
        (f.runBy h args).2.settings = .file Settings.standard.pretty.toUTF8 ∨
        ∃ (n : Nat) (r : Refusal) (t : Settings), (h.opening = .cut n r ∨ h.saving = .cut n r) ∧
          (f.runBy h args).1.reason = some "IO error" ∧
          (f.runBy h args).2.settings = .cut n t.pretty) := by
  rcases runBy_of_failed hi hp hc with hr | ⟨ho, n, r, t, hw, hx, hr⟩
  · rw [hr]
    refine ⟨fun l hl => f.nodes_keepSettings _ hl, ?_⟩
    by_cases ha : f.settings = .absent
    · rw [settings_keepSettings_openBy, ha]
      cases hw : h.opening with
      | whole => exact .inr (.inl rfl)
      | refused r => exact .inl (f.keepSettings_of_no_bytes rfl)
      | cut n r =>
        refine .inr (.inr ⟨n, r, .standard, .inl rfl, ?_, rfl⟩)
        rw [f.runBy_said h hi hp, ha, Command.run_of_opening_cut hw]
        rfl
    · exact .inl (keepSettings_openBy_of_ne _ ha)
  · refine ⟨fun l hl => by rw [hr, f.nodes_keepSettings _ hl], .inr (.inr ⟨n, r, t, .inr hw, hx, ?_⟩)⟩
    rw [hr]
    exact settings_keepSettings ho _

end

/-- A run that fails leaves everything as it was, but for settings that were missing: they are made
before the ids are looked at. This is so unless a write is cut short; then the run says so, and the
beginning of a text stands in the place of the settings. If one of the ids is no word, the run fails
before anything is changed. -/
theorem failed_run_keeps (h : Command.Host) (f : Folder)
    (hp : ∀ i, Invocation.ofArguments? args = some i → i.path = Invocation.standardPath) :
    let exit := (f.runBy h args).1
    let g := (f.runBy h args).2
    (h.Clean → exit.code ≠ 0 →
      (f.settings ≠ .absent ∨ Invocation.ofArguments? args = none → g = f) ∧
      (f.settings = .absent → Invocation.ofArguments? args ≠ none →
        (h.opening = .whole → g.settings = .file Settings.standard.pretty.toUTF8 ∧
          ∀ l ≠ seat, g.nodes[l]? = f.nodes[l]?) ∧
        (h.opening ≠ .whole → g = f))) ∧
    (∀ i, Invocation.ofArguments? args = some i → (∃ id ∈ i.command.ids, isWord id = false) →
      exit.code ≠ 0 ∧ (f.settings ≠ .absent → g = f) ∧ (h.opening.Clean →
        (Stored.openAt g.settings).map Prod.fst = (Stored.openAt f.settings).map Prod.fst)) ∧
    (exit.code ≠ 0 → (∀ l ≠ seat, g.nodes[l]? = f.nodes[l]?) ∧
      (g = f ∨ g.settings = .file Settings.standard.pretty.toUTF8 ∨
        ∃ (n : Nat) (r : Refusal) (t : Settings), (h.opening = .cut n r ∨ h.saving = .cut n r) ∧
          exit.reason = some "IO error" ∧ g.settings = .cut n t.pretty)) := by
  intro exit g
  cases hi : Invocation.ofArguments? args with
  | none =>
    have hf : g = f := f.runBy_unsaid h hi
    exact ⟨fun _ _ => ⟨fun _ => hf, fun _ h => absurd rfl h⟩, nofun,
      fun _ => ⟨fun l _ => by rw [hf], .inl hf⟩⟩
  | some i =>
    have hp' := hp i hi
    refine ⟨fun hw hc => ?_, ?_, fun hc => left_of_failed hi hp' hc⟩
    · obtain ⟨hk, hl⟩ := left_of_clean hi hp' hw hc
      exact ⟨fun ha => ha.elim hk nofun, fun ha _ => hl ha⟩
    · rintro j hj hn
      obtain rfl := Option.some.inj hj
      obtain ⟨hc, hr⟩ := runBy_of_not_word (f := f) (h := h) hi hp' hn
      refine ⟨hc, fun ha => ?_, fun ho => ?_⟩
      · rw [show g = _ from hr, keepSettings_openBy_of_ne _ ha]
      · rw [show g = _ from hr, settings_keepSettings_openBy, Stored.openAt_openBy ho]

theorem failed_run_keeps_shop :
    let h : Command.Host := ⟨.whole, .refused .alreadyExists, none⟩
    let args := ["generous", "guishop", "two words"]
    let g := (fresh.runBy h args).2
    let change := ["disable", "guishop"]
    (fresh.runBy h args).1.code ≠ 0 ∧ g.settings = .file Settings.standard.pretty.toUTF8 ∧
      (g.runBy h args).2 = g ∧ (g.runBy h change).1.code ≠ 0 ∧ (g.runBy h change).2 = g := by
  intro h args g change
  have hw : h.Clean := ⟨trivial, trivial⟩
  have hi : Invocation.ofArguments? args =
      some ⟨Invocation.standardPath, false, .generous ["guishop", "two words"] true⟩ := by
    decide +kernel
  have hj : Invocation.ofArguments? change =
      some ⟨Invocation.standardPath, false, .disable "guishop"⟩ := by
    decide +kernel
  have standard {as : List String} {c : Command}
      (h : Invocation.ofArguments? as = some ⟨Invocation.standardPath, false, c⟩) :
      ∀ i, Invocation.ofArguments? as = some i → i.path = Invocation.standardPath := by
    intro i hi
    obtain rfl := Option.some.inj (h.symm.trans hi)
    rfl
  have hn : ∃ id ∈ ["guishop", "two words"], isWord id = false :=
    ⟨"two words", by simp, by decide⟩
  obtain ⟨hf, hb, -⟩ := failed_run_keeps h fresh (standard hi)
  obtain ⟨hg, hb', -⟩ := failed_run_keeps h g (standard hi)
  obtain ⟨hg', -⟩ := failed_run_keeps h g (standard hj)
  have hs := (((hf hw (hb _ hi hn).1).2 settings_fresh (by rw [hi]; exact nofun)).1 rfl).1
  have ha : g.settings ≠ .absent := by
    rw [show g.settings = _ from hs]
    exact nofun
  have hc : (g.runBy h change).1.code ≠ 0 := by
    have hd := Stored.Holds.saved Settings.standard_worded
    rw [g.runBy_said h hj rfl, show g.settings = _ from hs, Command.run, hd.openBy]
    decide
  exact ⟨(hb _ hi hn).1, hs, (hg hw (hb' _ hi hn).1).1 (.inl ha), hc, (hg' hw hc).1 (.inl ha)⟩

end Folder

end Brokerage
