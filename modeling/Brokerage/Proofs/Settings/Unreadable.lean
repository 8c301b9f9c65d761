import Brokerage.Proofs.Settings.Upkeep

namespace Brokerage.Stored

inductive Ails : Disk → Trouble → Prop
  | absent : Ails .absent (.refused .notFound)
  | directory : Ails .directory (.refused .isDirectory)
  | blocked : Ails .blocked (.refused .notDirectory)
  | octets {bytes : ByteArray} (hb : ¬ bytes.IsValidUTF8) : Ails (.file bytes) (.refused .notText)
  | text {text : String} {f : Fault} (hf : Settings.read? text = .error f) :
      Ails (.file text.toUTF8) (.unreadable f)

variable {d : Disk} {t : Trouble}

theorem Ails.read (h : Ails d t) : Stored.read d = .error t := by
  cases h with
  | absent => rfl
  | directory => rfl
  | blocked => rfl
  | @octets bytes hb =>
    have hs : String.fromUTF8? bytes = none := by rw [String.fromUTF8?, dif_neg hb]
    simp only [Stored.read, Disk.readText, hs]
  | text hf => simp only [Stored.read, Disk.readText_toUTF8, hf]

theorem ails_or_holds (d : Disk) : (∃ t : Trouble, Ails d t) ∨ ∃ u : Settings, Holds d u := by
  cases d with
  | absent => exact .inl ⟨_, .absent⟩
  | directory => exact .inl ⟨_, .directory⟩
  | blocked => exact .inl ⟨_, .blocked⟩
  | file bytes =>
    by_cases hb : bytes.IsValidUTF8
    · obtain ⟨text, rfl⟩ : ∃ text : String, bytes = text.toUTF8 := ⟨⟨bytes, hb⟩, rfl⟩
      cases hr : Settings.read? text with
      | error f => exact .inl ⟨_, .text hr⟩
      | ok u => exact .inr ⟨_, .intro hr⟩
    · exact .inl ⟨_, .octets hb⟩

theorem read_eq_error_iff (d : Disk) (t : Trouble) : read d = .error t ↔ Ails d t := by
  constructor
  · intro hr
    obtain ⟨t', ha⟩ | ⟨u, hu⟩ := ails_or_holds d
    · rw [ha.read] at hr
      cases hr
      exact ha
    · rw [hu.read] at hr
      cases hr
  · exact Ails.read

theorem reload_eq_error_iff (d : Disk) (t : Trouble) : reload d = .error t ↔ Ails d t := by
  rw [← read_eq_error_iff, reload]
  cases read d <;> simp [Except.map]

end Brokerage.Stored
