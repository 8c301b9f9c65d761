import Brokerage.Proofs.Registry.Operations

namespace Brokerage

open Std Text

theorem ne_of_nodup_cons {α β : Type} {key : α → β} {a : α} {as : List α}
    (hn : ((a :: as).map key).Nodup) : ∀ x ∈ as, key a ≠ key x :=
  fun x hx he => (List.nodup_cons.mp hn).1 (List.mem_map.mpr ⟨x, hx, he.symm⟩)

variable {H : Type} [Handler H]

def Settings.Grants (t : Settings) (declared : H → Int8) (e : Entry H) : Prop :=
  t.isDisabled e.id = false ∧ e.priority = t.priority e.id (declared e.handler)

theorem Settings.grants_ensureEntry (t : Settings) (declared : H → Int8) {id : String}
    (n : Int32) {e : Entry H} (hid : id ≠ e.id) :
    (t.ensureEntry id n).2.Grants declared e ↔ t.Grants declared e := by
  rw [Grants, isDisabled_ensureEntry, priority_ensureEntry t hid, Grants]

namespace Registry

theorem grants_entry (declared : H → Int8) {h : H} {r : Registry H}
    (hd : r.provider.table.isDisabled (Handler.info h).id = false) :
    r.provider.table.Grants declared (r.entry declared h) := ⟨hd, rfl⟩

theorem eq_entry_of_grants {declared : H → Int8} {r : Registry H} {e : Entry H}
    (hg : r.provider.table.Grants declared e) : e = r.entry declared e.handler := by
  obtain ⟨h, n⟩ := e
  exact congrArg (Entry.mk h) hg.2

structure Fresh (hs : List H) (r : Registry H) : Prop where
  words : ∀ h ∈ hs, isWord (Handler.info h).id = true
  nodup : (hs.map fun h => (Handler.info h).id).Nodup
  inactive : ∀ h ∈ hs, r.roster.active[(Handler.info h).id]? = none

theorem Fresh.ne {h : H} {hs : List H} {r : Registry H} (hf : Fresh (h :: hs) r) {x : H}
    (hx : x ∈ hs) : (Handler.info h).id ≠ (Handler.info x).id :=
  (ne_of_nodup_cons hf.nodup) x hx

theorem register_table (declared : H → Int8) (h : H) {r : Registry H} (hc : r.roster.Coherent) :
    (r.register declared h).registry.provider.table = r.provider.table ∨
      ∃ n : Int32, (r.register declared h).registry.provider.table =
        (r.provider.table.ensureEntry (Handler.info h).id n).2 := by
  obtain ⟨-, he⟩ | ⟨-, -, he⟩ | ⟨-, -, he⟩ := register_cases declared h hc
  · rw [he]
    exact Or.inl rfl
  · rw [he]
    exact Or.inl rfl
  · rw [he]
    exact Or.inr ⟨_, Provider.table_ensureEntry _ _ _⟩

theorem register_isDisabled (declared : H → Int8) (h : H) {r : Registry H}
    (hc : r.roster.Coherent) (id : String) :
    (r.register declared h).registry.provider.table.isDisabled id =
      r.provider.table.isDisabled id := by
  rcases register_table declared h hc with ht | ⟨n, ht⟩
  · rw [ht]
  · rw [ht, Settings.isDisabled_ensureEntry]

theorem register_grants (declared : H → Int8) {h : H} {r : Registry H} (hc : r.roster.Coherent)
    {e : Entry H} (hid : (Handler.info h).id ≠ e.id) :
    (r.register declared h).registry.provider.table.Grants declared e ↔
      r.provider.table.Grants declared e := by
  rcases register_table declared h hc with ht | ⟨n, ht⟩
  · rw [ht]
  · rw [ht, Settings.grants_ensureEntry _ _ _ hid]

theorem register_notices_of_inactive (declared : H → Int8) {h : H} {r : Registry H}
    (hc : r.roster.Coherent) (hw : isWord (Handler.info h).id = true)
    (ha : r.roster.active[(Handler.info h).id]? = none) :
    (r.register declared h).notices =
      if r.provider.table.isDisabled (Handler.info h).id then []
      else [.registered (Handler.info h)] := by
  by_cases hd : r.provider.table.isDisabled (Handler.info h).id = true
  · rw [register_of_disabled declared hw hd, if_pos hd]
  · rw [register_of_enabled declared hc hw (Bool.eq_false_iff.mpr hd), if_neg hd]
    simp only [Roster.leaving, ha, Option.toList_none, List.map_nil, List.nil_append]

theorem register_active_of_inactive (declared : H → Int8) {h : H} {r : Registry H}
    (hc : r.roster.Coherent) (hw : isWord (Handler.info h).id = true)
    (ha : r.roster.active[(Handler.info h).id]? = none) (id : String) (e : Entry H) :
    (r.register declared h).registry.roster.active[id]? = some e ↔
      r.roster.active[id]? = some e ∨
        e.handler = h ∧ e.id = id ∧ r.provider.table.Grants declared e := by
  by_cases hd : r.provider.table.isDisabled (Handler.info h).id = true
  · have hact : (r.register declared h).registry.roster.active = r.roster.active := by
      rw [register_of_disabled declared hw hd]
      exact Roster.note_active h r.roster
    rw [hact]
    constructor
    · exact Or.inl
    · rintro (he | ⟨rfl, -, hg⟩)
      · exact he
      · exact absurd hg.1 (by rw [Bool.not_eq_false]; exact hd)
  · rw [Bool.not_eq_true] at hd
    have hact : (r.register declared h).registry.roster.active =
        r.roster.active.insert (Handler.info h).id (r.entry declared h) := by
      rw [register_of_enabled declared hc hw hd]
      exact Roster.install_active _ _
    simp only [hact, ExtTreeMap.getElem?_insert, Std.compare_eq_iff_eq]
    by_cases hid : (Handler.info h).id = id
    · rw [if_pos hid, ← hid, ha]
      constructor
      · intro he
        cases he
        exact Or.inr ⟨rfl, rfl, grants_entry declared hd⟩
      · rintro (he | ⟨rfl, -, hg⟩)
        · cases he
        · rw [eq_entry_of_grants hg]
          rfl
    · rw [if_neg hid]
      constructor
      · exact Or.inl
      · rintro (he | ⟨rfl, he, -⟩)
        · exact he
        · exact absurd he hid

theorem register_fresh (declared : H → Int8) {h : H} {hs : List H} {r : Registry H}
    (hc : r.roster.Coherent) (hf : Fresh (h :: hs) r) :
    Fresh hs (r.register declared h).registry where
  words x hx := hf.words x (List.mem_cons_of_mem h hx)
  nodup := (List.nodup_cons.mp hf.nodup).2
  inactive x hx := by
    have hact := register_active_of_inactive declared hc (hf.words h List.mem_cons_self)
      (hf.inactive h List.mem_cons_self)
    rw [Option.eq_none_iff_forall_ne_some]
    intro e he
    rcases (hact _ e).mp he with he | ⟨rfl, he, -⟩
    · rw [hf.inactive x (List.mem_cons_of_mem h hx)] at he
      cases he
    · exact hf.ne hx he

theorem registerAll_fresh (declared : H → Int8) (hs : List H) {r : Registry H}
    (hc : r.roster.Coherent) (hf : Fresh hs r) :
    (registerAll declared hs r).2 =
        (hs.filter fun h => ! r.provider.table.isDisabled (Handler.info h).id).map
          (fun h => .registered (Handler.info h)) ∧
      ∀ (id : String) (e : Entry H), (registerAll declared hs r).1.roster.active[id]? = some e ↔
        r.roster.active[id]? = some e ∨
          e.handler ∈ hs ∧ e.id = id ∧ r.provider.table.Grants declared e := by
  induction hs generalizing r with
  | nil => simp [registerAll]
  | cons h hs ih =>
    have hw := hf.words h List.mem_cons_self
    have ha := hf.inactive h List.mem_cons_self
    have hact := register_active_of_inactive declared hc hw ha
    obtain ⟨hn, hi⟩ := ih (register_coherent declared h hc) (register_fresh declared hc hf)
    rw [registerAll_cons]
    constructor
    · rw [hn, register_notices_of_inactive declared hc hw ha, List.filter_cons]
      simp only [register_isDisabled declared h hc]
      cases r.provider.table.isDisabled (Handler.info h).id <;> rfl
    · intro id e
      -- Those who come after have other ids, so the settings added for this one do not touch them.
      have hg : e.handler ∈ hs →
          ((r.register declared h).registry.provider.table.Grants declared e ↔
            r.provider.table.Grants declared e) :=
        fun hm => register_grants declared hc (hf.ne hm)
      rw [hi, hact, List.mem_cons]
      grind

theorem mem_known_iff {r : Roster H} (hc : r.Coherent) (h : H) :
    h ∈ r.known.values ↔ r.known[(Handler.info h).id]? = some h := by
  rw [Trees.mem_values_iff]
  constructor
  · rintro ⟨id, hk⟩
    rwa [(hc.worded id h hk).1]
  · exact fun hk => ⟨_, hk⟩

theorem known_fresh {r : Roster H} (hc : r.Coherent) (p : Provider) :
    Fresh r.known.values ⟨.empty, p⟩ where
  words h hh := (hc.worded _ h ((mem_known_iff hc h).mp hh)).2
  nodup := Trees.nodup_map_values r.known (fun h => (Handler.info h).id)
    fun id h hk => (hc.worded id h hk).1
  inactive _ _ := ExtTreeMap.getElem?_empty

variable (declared : H → Int8) {r : Registry H}

theorem reload_of_error {t : Trouble} (hp : r.provider.reload = .error t) :
    r.reload declared = ⟨.error t, r, []⟩ := by
  simp only [reload, hp]

theorem reload_answer {p : Provider} (hp : r.provider.reload = .ok p) :
    (r.reload declared).answer = .ok () := by
  simp only [reload, hp]

theorem reload_active (hc : r.roster.Coherent) {p : Provider} (hp : r.provider.reload = .ok p)
    (id : String) (e : Entry H) :
    (r.reload declared).registry.roster.active[id]? = some e ↔
      r.roster.known[id]? = some e.handler ∧ p.table.Grants declared e := by
  have ha := (registerAll_fresh declared r.roster.known.values Roster.Coherent.empty
    (known_fresh hc p)).2 id e
  simp only [reload, hp]
  rw [ha, mem_known_iff hc]
  constructor
  · rintro (he | ⟨hk, rfl, hg⟩)
    · simp [Roster.empty] at he
    · exact ⟨hk, hg⟩
  · rintro ⟨hk, hg⟩
    obtain rfl := (hc.worded id e.handler hk).1
    exact Or.inr ⟨hk, rfl, hg⟩

theorem reload_notices (hc : r.roster.Coherent) {p : Provider} (hp : r.provider.reload = .ok p) :
    (r.reload declared).notices =
      (r.roster.known.values.filter fun h => ! r.roster.active.contains (Handler.info h).id &&
          ! p.table.isDisabled (Handler.info h).id).map
        (fun h => .registered (Handler.info h)) ++
      dropped r.roster (r.reload declared).registry.roster := by
  have hn := (registerAll_fresh declared r.roster.known.values Roster.Coherent.empty
    (known_fresh hc p)).1
  simp only [reload, hp]
  rw [hn, returned, List.filter_map, List.filter_filter]
  rfl

end Registry

end Brokerage
