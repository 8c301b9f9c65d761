import Brokerage.Proofs.Settings.Decoding
import Brokerage.Proofs.Trees
import Brokerage.Settings.Written

namespace Brokerage

open Std Json Text

namespace Standing

def spelling : Standing → Spelling
  | .ranked n => .number n.toInt
  | .disabled => .word

theorem value_spelling (s : Standing) : s.spelling.value = s.value := by
  cases s <;> rfl

theorem standing?_spelling (s : Standing) : s.spelling.standing? = some s := by
  cases s with
  | disabled => rfl
  | ranked n =>
    rw [spelling, Spelling.standing?, if_pos ⟨Int32.minValue_le_toInt n, Int32.toInt_le n⟩,
      Int32.ofInt_toInt]

end Standing

namespace Settings

open Reading

def spellings (t : Settings) : List (String × Spelling) :=
  t.standings.toList.map fun e => (e.1, e.2.spelling)

theorem standingsValue_spellings (t : Settings) : standingsValue t.spellings =
    .object (t.standings.toList.map fun e => (e.1, e.2.value)) := by
  simp only [standingsValue, spellings, List.map_map, Function.comp_def, Standing.value_spelling]

theorem keep_spelling (m : ExtTreeMap String Standing) (id : String) (s : Standing) :
    keep m (id, s.spelling) = some (m.insert id s) := by
  rw [keep, s.standing?_spelling, Option.map_some]

theorem collect_spellings (t : Settings) : collect t.spellings = some t.standings := by
  have hk (m : ExtTreeMap String Standing) (es : List (String × Standing)) :
      (es.map fun e => (e.1, e.2.spelling)).foldlM keep m = some (m.insertMany es) := by
    induction es generalizing m with
    | nil => rw [ExtTreeMap.insertMany_nil]; rfl
    | cons e es ih =>
      rw [List.map_cons, List.foldlM_cons, keep_spelling, ExtTreeMap.insertMany_cons]
      exact ih _
  rw [collect, spellings, hk, ← ExtTreeMap.ofList_eq_insertMany_empty, Trees.ofList_toList]

def reworded (t : Settings) : Settings :=
  { t with generous := .ofList (t.generous.toList.flatMap words) }

theorem mem_generous_reworded (t : Settings) (w : String) :
    w ∈ t.reworded.generous ↔ ∃ g ∈ t.generous, w ∈ words g := by
  simp [reworded]

theorem reworded_eq_iff (t : Settings) :
    t.reworded = t ↔ ∀ g ∈ t.generous, isWord g = true := by
  constructor
  · intro h g hg
    rw [← h, mem_generous_reworded] at hg
    obtain ⟨x, -, hw⟩ := hg
    exact isWord_of_mem_words hw
  · intro h
    have hg : t.reworded.generous = t.generous := by
      apply ExtTreeSet.ext_mem
      intro w
      rw [mem_generous_reworded]
      constructor
      · rintro ⟨g, hg, hw⟩
        rw [words_of_isWord (h g hg), List.mem_singleton] at hw
        rwa [hw]
      · intro hw
        exact ⟨w, hw, by rw [words_of_isWord (h w hw)]; exact List.mem_singleton.mpr rfl⟩
    exact congrArg (Settings.mk t.standings) hg

theorem ofTokens?_value (t : Settings) : ofTokens? (t.value.tokens, .clean) = .ok t.reworded := by
  have h := ofTokens?_fields t.spellings (" ".intercalate t.generous.toList)
    (List.forall_mem_nil _) (List.Perm.refl _)
  rw [standingsValue_spellings, collect_spellings, words_intercalate, ← value] at h
  cases ho : ofTokens? (t.value.tokens, .clean) with
  | error e => rw [ho] at h; cases h
  | ok u => rw [ho] at h; exact congrArg Except.ok (Option.some.inj h)

theorem read?_compact (t : Settings) : read? t.compact = .ok t.reworded := by
  rw [read?, compact, String.toList_ofList, Value.tokens_of_compact, ofTokens?_value]

theorem read?_pretty (t : Settings) : read? t.pretty = .ok t.reworded := by
  rw [read?, pretty, String.toList_ofList, Value.tokens_of_pretty, ofTokens?_value]

theorem bind_eq_ok {ε α β : Type} {x : Except ε α} {f : α → Except ε β} {b : β} :
    x >>= f = .ok b ↔ ∃ a : α, x = .ok a ∧ f a = .ok b := by
  cases x with
  | error e => exact ⟨nofun, nofun⟩
  | ok a => exact ⟨fun h => ⟨a, rfl, h⟩, fun ⟨_, rfl, h⟩ => h⟩

namespace Reading

def Worded (r : Reading) : Prop := ∀ ids ∈ r.generous, ∀ g ∈ ids, isWord g = true

variable {r r' : Reading} {t : Token} {p : Place}

theorem start_worded : start.Worded := by
  rintro ids ⟨⟩

theorem Worded.of_generous (hr : r.Worded) (h : r'.generous = r.generous) : r'.Worded := by
  rwa [Worded, h]

theorem name_generous {s : String} (h : r.name s = .ok r') : r'.generous = r.generous := by
  unfold name at h
  dsimp only at h
  split at h <;> cases h
  rfl

theorem settle_generous (h : r.settle = .ok r') : r'.generous = r.generous := by
  unfold settle at h
  split at h <;> cases h
  rfl

theorem inside_generous (h : r.inside t p = .ok r') : r'.generous = r.generous := by
  unfold inside at h
  split at h
  · cases h
    rfl
  · split at h
    · split at h <;> cases h <;> rfl
    · dsimp only at h
      split at h
      · have hs := settle_generous h
        exact hs
      · cases h
        rfl

theorem enter_worded {f : Field} (hr : r.Worded) (h : r.enter f t = .ok r') : r'.Worded := by
  unfold enter at h
  split at h <;> cases h
  case h_3 s =>
    rintro ids ⟨⟩ g hg
    exact isWord_of_mem_words (by simpa using hg)
  all_goals exact hr

theorem outside_worded {b : Bracket} (hr : r.Worded) (h : r.outside b t = .ok r') : r'.Worded := by
  unfold outside at h
  split at h
  · exact hr.of_generous (name_generous h)
  · exact hr.of_generous (name_generous h)
  · exact enter_worded hr h
  · cases h
    exact hr
  · exact enter_worded hr h
  · exact enter_worded hr h
  · split at h <;> cases h
    exact hr
  · cases h
    exact hr

theorem mean_worded (hr : r.Worded) (h : r.mean t p = .ok r') : r'.Worded := by
  unfold mean at h
  split at h
  · cases h
    exact hr
  · cases h
  · exact outside_worded hr h
  · exact hr.of_generous (inside_generous h)

theorem step_worded (hr : r.Worded) (h : r.step t = .ok r') : r'.Worded := by
  obtain ⟨q, -, h⟩ := bind_eq_ok.mp h
  obtain ⟨x, hm, h⟩ := bind_eq_ok.mp h
  have hx := mean_worded hr hm
  cases h
  exact hx

theorem foldlM_worded {ts : List Token} (hr : r.Worded) (h : ts.foldlM step r = .ok r') :
    r'.Worded := by
  induction ts generalizing r with
  | nil =>
    cases h
    exact hr
  | cons t ts ih =>
    obtain ⟨x, hs, h⟩ := bind_eq_ok.mp h
    exact ih (step_worded hr hs) h

theorem finish_worded {e : Ending} {u : Settings} (hr : r.Worded) (h : r.finish e = .ok u) :
    ∀ g ∈ u.generous, isWord g = true := by
  unfold finish at h
  split at h
  · split at h <;> cases h
    intro g hg
    cases hi : r.generous with
    | none => simp [hi] at hg
    | some ids => exact hr ids hi g (by simpa [hi] using hg)
  · dsimp only at h
    split at h <;> cases h

end Reading

theorem read?_generous {s : String} {t : Settings} (h : read? s = .ok t) :
    ∀ g ∈ t.generous, isWord g = true := by
  obtain ⟨r, hr, h⟩ := bind_eq_ok.mp h
  exact Reading.finish_worded (Reading.foldlM_worded Reading.start_worded hr) h

/-- Settings are read from both of their written forms, with the same standings and the words of the
generous ids. All that was ever read comes back as it is. -/
theorem round_trip (t : Settings) :
    (∃ t' : Settings, read? t.compact = .ok t' ∧ read? t.pretty = .ok t' ∧
      t'.standings = t.standings ∧
      (∀ w : String, w ∈ t'.generous ↔ ∃ g ∈ t.generous, w ∈ words g) ∧
      (t' = t ↔ ∀ g ∈ t.generous, isWord g = true)) ∧
    ∀ (s : String) (u : Settings), read? s = .ok u →
      read? u.compact = .ok u ∧ read? u.pretty = .ok u := by
  refine ⟨⟨t.reworded, t.read?_compact, t.read?_pretty, rfl, t.mem_generous_reworded,
    t.reworded_eq_iff⟩, ?_⟩
  intro s u hu
  have hr := u.reworded_eq_iff.mpr (read?_generous hu)
  exact ⟨by rw [u.read?_compact, hr], by rw [u.read?_pretty, hr]⟩

example : (reworded ⟨∅, .ofList ["guishop", "economy++ ", ""]⟩).generous.toList =
    ["economy++", "guishop"] := by decide +kernel

end Settings

end Brokerage
