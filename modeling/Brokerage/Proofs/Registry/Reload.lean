import Brokerage.Proofs.Registry.Mirror
import Brokerage.Proofs.Registry.Reordering
import Mathlib.Data.List.Nodup

namespace Brokerage

open Std Text

namespace Provider

inductive Reread : Provider → Provider → Prop where
  | memory (t : Settings) : Reread (.memory t) (.memory t)
  | file (s : Stored) {d : Disk} {text : String} {t : Settings} (hd : d.readText = .ok text)
      (ht : Settings.read? text = .ok t) : Reread (.file s d) (.file ⟨t.sanitize, false⟩ d)

theorem reload_eq_ok_iff {p q : Provider} : p.reload = .ok q ↔ p.Reread q := by
  constructor
  · intro h
    cases p with
    | memory t =>
      cases h
      exact .memory t
    | file s d =>
      cases hd : d.readText with
      | error e => simp [reload, Stored.reload, Stored.read, hd, Except.map] at h
      | ok text =>
        cases ht : Settings.read? text with
        | error f => simp [reload, Stored.reload, Stored.read, hd, ht, Except.map] at h
        | ok t =>
          simp only [reload, Stored.reload, Stored.read, hd, ht, Except.map, Except.ok.injEq] at h
          rw [← h]
          exact .file s hd ht
  · intro h
    cases h with
    | memory t => rfl
    | file s hd ht => simp only [reload, Stored.reload, Stored.read, hd, ht, Except.map]

variable {H : Type} [Handler H]

def ensureAll (es : List (Entry H)) (p : Provider) : Provider :=
  es.foldl (fun p e => p.ensureEntry e.id e.priority) p

theorem ensureAll_cons (e : Entry H) (es : List (Entry H)) (p : Provider) :
    p.ensureAll (e :: es) = (p.ensureEntry e.id e.priority).ensureAll es := rfl

theorem ensureAll_perm {es es' : List (Entry H)} (hp : es.Perm es') (hn : (es.map Entry.id).Nodup)
    (p : Provider) : p.ensureAll es = p.ensureAll es' := by
  apply hp.foldl_eq'
  intro x hx y hy q
  by_cases hid : x.id = y.id
  · rw [List.inj_on_of_nodup_map hn hx hy hid]
  · exact q.ensureEntry_comm hid _ _

theorem generous_ensureAll (es : List (Entry H)) (p : Provider) :
    (p.ensureAll es).table.generous = p.table.generous := by
  induction es generalizing p with
  | nil => rfl
  | cons e es ih => rw [ensureAll_cons, ih, table_ensureEntry, Settings.generous_ensureEntry]

theorem standing_ensureAll (es : List (Entry H)) (p : Provider) (id : String) :
    (p.ensureAll es).table.standings[id]? = (p.table.standings[id]?).or
      ((es.find? (·.id = id)).map fun e => .ranked e.priority) := by
  induction es generalizing p with
  | nil => simp [ensureAll]
  | cons e es ih =>
    rw [ensureAll_cons, ih, table_ensureEntry, Settings.standing_ensureEntry, List.find?_cons]
    by_cases hid : e.id = id
    · rw [hid]
      cases p.table.standings[id]? <;> simp
    · simp only [hid, false_and, decide_false, ↓reduceIte]

end Provider

variable {H : Type} [Handler H]

namespace Settings

def granted (t : Settings) (declared : H → Int8) (hs : List H) : List (Entry H) :=
  (hs.filter fun h => ! t.isDisabled (Handler.info h).id).map fun h =>
    ⟨h, t.priority (Handler.info h).id (declared h)⟩

theorem mem_granted_iff (t : Settings) (declared : H → Int8) (hs : List H) (e : Entry H) :
    e ∈ t.granted declared hs ↔ e.handler ∈ hs ∧ t.Grants declared e := by
  simp only [granted, List.mem_map, List.mem_filter, Bool.not_eq_true']
  constructor
  · rintro ⟨h, ⟨hm, hd⟩, rfl⟩
    exact ⟨hm, hd, rfl⟩
  · rintro ⟨hm, hd, hp⟩
    refine ⟨e.handler, ⟨hm, hd⟩, ?_⟩
    obtain ⟨h, n⟩ := e
    exact congrArg (Entry.mk h) hp.symm

theorem granted_nodup (t : Settings) (declared : H → Int8) {hs : List H}
    (hn : (hs.map fun h => (Handler.info h).id).Nodup) :
    ((t.granted declared hs).map Entry.id).Nodup := by
  rw [granted, List.map_map]
  exact hn.sublist (List.filter_sublist.map _)

theorem granted_ensureEntry (t : Settings) (declared : H → Int8) {id : String} (n : Int32)
    {hs : List H} (hid : ∀ h ∈ hs, id ≠ (Handler.info h).id) :
    (t.ensureEntry id n).2.granted declared hs = t.granted declared hs := by
  simp only [granted, isDisabled_ensureEntry]
  apply List.map_congr_left
  intro h hm
  rw [priority_ensureEntry t (hid h (List.mem_filter.mp hm).1)]

end Settings

namespace Registry

theorem register_known_of_inactive (declared : H → Int8) {h : H} {r : Registry H}
    (hc : r.roster.Coherent) (hw : isWord (Handler.info h).id = true)
    (ha : r.roster.active[(Handler.info h).id]? = none) :
    (r.register declared h).registry.roster.known =
      r.roster.known.insert (Handler.info h).id h := by
  by_cases hd : r.provider.table.isDisabled (Handler.info h).id = true
  · rw [register_of_disabled declared hw hd, Roster.note_of_inactive ha]
    rfl
  · rw [register_of_enabled declared hc hw (Bool.eq_false_iff.mpr hd)]
    exact Roster.install_known _ _

theorem registerAll_known (declared : H → Int8) (hs : List H) {r : Registry H}
    (hc : r.roster.Coherent) (hf : Fresh hs r) (id : String) (x : H) :
    (registerAll declared hs r).1.roster.known[id]? = some x ↔
      (x ∈ hs ∧ (Handler.info x).id = id) ∨
        (r.roster.known[id]? = some x ∧ ∀ h ∈ hs, (Handler.info h).id ≠ id) := by
  induction hs generalizing r with
  | nil => simp [registerAll]
  | cons h hs ih =>
    have hk := register_known_of_inactive declared hc (hf.words h List.mem_cons_self)
      (hf.inactive h List.mem_cons_self)
    have hne := fun x (hx : x ∈ hs) => hf.ne hx
    rw [registerAll_cons, ih (register_coherent declared h hc) (register_fresh declared hc hf), hk]
    simp only [ExtTreeMap.getElem?_insert, Std.compare_eq_iff_eq, List.mem_cons]
    grind

theorem registerAll_provider (declared : H → Int8) (hs : List H) {r : Registry H}
    (hc : r.roster.Coherent) (hf : Fresh hs r) :
    (registerAll declared hs r).1.provider =
      r.provider.ensureAll (r.provider.table.granted declared hs) := by
  induction hs generalizing r with
  | nil => rfl
  | cons h hs ih =>
    have hw := hf.words h List.mem_cons_self
    rw [registerAll_cons]
    dsimp only
    rw [ih (register_coherent declared h hc) (register_fresh declared hc hf)]
    by_cases hd : r.provider.table.isDisabled (Handler.info h).id = true
    · rw [register_of_disabled declared hw hd]
      simp only [Settings.granted, List.filter_cons, hd, Bool.not_true, Bool.false_eq_true,
        ↓reduceIte]
    · rw [Bool.not_eq_true] at hd
      rw [register_of_enabled declared hc hw hd]
      dsimp only
      rw [Provider.table_ensureEntry,
        Settings.granted_ensureEntry _ _ _ fun x hx => hf.ne hx]
      simp only [Settings.granted, List.filter_cons, hd, Bool.not_false, ↓reduceIte, List.map_cons]
      rfl

end Registry

namespace Roster

variable {r : Roster H}

theorem Coherent.mem_active_iff (hc : r.Coherent) (e : Entry H) :
    e ∈ r.active.values ↔ r.active[e.id]? = some e := by
  rw [Trees.mem_values_iff]
  constructor
  · rintro ⟨id, ha⟩
    rwa [hc.named ha]
  · exact fun ha => ⟨_, ha⟩

theorem Coherent.active_nodup (hc : r.Coherent) : (r.active.values.map Entry.id).Nodup :=
  Trees.nodup_map_values r.active Entry.id fun _ _ ha => hc.named ha

theorem Coherent.find_active (hc : r.Coherent) (id : String) :
    r.active.values.find? (·.id = id) = r.active[id]? := by
  cases ha : r.active[id]? with
  | none =>
    rw [List.find?_eq_none]
    intro e he hid
    rw [decide_eq_true_eq] at hid
    rw [hc.mem_active_iff, hid, ha] at he
    cases he
  | some e =>
    have hid := hc.named ha
    have hm := (hc.mem_active_iff e).mpr (by rw [hid]; exact ha)
    obtain ⟨x, hx⟩ := Option.isSome_iff_exists.mp
      (List.find?_isSome.mpr ⟨e, hm, decide_eq_true hid⟩ :
        (r.active.values.find? (·.id = id)).isSome)
    have hxid : x.id = id := by simpa using List.find?_some hx
    rw [hx, List.inj_on_of_nodup_map hc.active_nodup (List.mem_of_find?_eq_some hx) hm
      (hxid.trans hid.symm)]

end Roster

namespace Registry

def idOrder (x y : H) : Bool := (compare (Handler.info x).id (Handler.info y).id).isLE

theorem idOrder_total (x y : H) : (idOrder x y || idOrder y x) = true := by
  have hs : compare (Handler.info x).id (Handler.info y).id =
    (compare (Handler.info y).id (Handler.info x).id).swap := OrientedCmp.eq_swap
  rw [idOrder, idOrder, hs]
  cases compare (Handler.info y).id (Handler.info x).id <;> rfl

theorem mergeSort_known {r : Roster H} (hc : r.Coherent) {hs : List H}
    (hp : hs.Perm r.known.values) : hs.mergeSort idOrder = r.known.values := by
  have ho := Trees.values_ordered r.known (fun h => (Handler.info h).id)
    fun id h hk => (hc.worded id h hk).1
  have hs' : (hs.mergeSort idOrder).Pairwise (idOrder · ·) :=
    List.pairwise_mergeSort (fun _ _ _ => TransCmp.isLE_trans) idOrder_total hs
  have hk : r.known.values.Pairwise (idOrder · ·) := ho.imp Ordering.isLE_of_eq_lt
  refine List.Perm.eq_of_pairwise ?_ hs' hk ((hs.mergeSort_perm _).trans hp)
  intro x y hx hy hxy hyx
  rw [mem_known_iff hc] at hy
  have hx := (mem_known_iff hc x).mp (hp.mem_iff.mp (List.mem_mergeSort.mp hx))
  have hid := LawfulEqCmp.eq_of_compare (OrientedCmp.isLE_antisymm hxy hyx)
  rw [hid, hy] at hx
  exact (Option.some.inj hx).symm

variable (declared : H → Int8) {r : Registry H}

theorem reload_registry {q : Provider} (hq : r.provider.reload = .ok q) :
    (r.reload declared).registry = (registerAll declared r.roster.known.values ⟨.empty, q⟩).1 := by
  simp only [reload, hq]

theorem reload_known (hc : r.roster.Coherent) {q : Provider} (hq : r.provider.reload = .ok q) :
    (r.reload declared).registry.roster.known = r.roster.known := by
  rw [reload_registry declared hq]
  apply ExtTreeMap.ext_getElem?
  intro id
  apply Option.ext
  intro h
  rw [registerAll_known declared _ Roster.Coherent.empty (known_fresh hc q), mem_known_iff hc]
  constructor
  · rintro (⟨hk, rfl⟩ | ⟨hk, -⟩)
    · exact hk
    · simp [Roster.empty] at hk
  · intro hk
    obtain rfl := (hc.worded id h hk).1
    exact Or.inl ⟨hk, rfl⟩

theorem reload_provider (hc : r.roster.Coherent) {q : Provider} (hq : r.provider.reload = .ok q) :
    (r.reload declared).registry.provider =
      q.ensureAll (r.reload declared).registry.roster.active.values := by
  have hc' := reload_coherent declared hc
  have hf := known_fresh hc q
  have hp : (q.table.granted declared r.roster.known.values).Perm
      (r.reload declared).registry.roster.active.values := by
    rw [List.perm_ext_iff_of_nodup (Settings.granted_nodup _ _ hf.nodup).of_map
      hc'.active_nodup.of_map]
    intro e
    rw [Settings.mem_granted_iff, hc'.mem_active_iff, reload_active declared hc hq,
      mem_known_iff hc]
    rfl
  rw [reload_registry declared hq, registerAll_provider declared _ Roster.Coherent.empty hf,
    ← reload_registry declared hq]
  exact Provider.ensureAll_perm hp (Settings.granted_nodup _ _ hf.nodup) q

theorem reload_any_order (hc : r.roster.Coherent) {q : Provider} (hq : r.provider.reload = .ok q)
    {hs : List H} (hp : hs.Perm r.roster.known.values) :
    (registerAll declared hs ⟨.empty, q⟩).1 = (r.reload declared).registry ∧
      (returned r.roster (registerAll declared hs ⟨.empty, q⟩).2 ++
        dropped r.roster (r.reload declared).registry.roster).Perm (r.reload declared).notices := by
  have hstart : (⟨.empty, q⟩ : Registry H).roster.Coherent := Roster.Coherent.empty
  obtain ⟨he, hn⟩ := registerAll_perm declared hstart hp.symm (known_fresh hc q).nodup
  constructor
  · rw [← he, reload_registry declared hq]
  · simp only [reload, hq]
    exact (hn.symm.filter _).append_right _

/-- Whatever happened to a registry before: a reload that can read the settings brings back exactly
those handlers that are known and not disabled, under the priorities of these settings, and announces
who came back and who left. -/
theorem reload_rebuilds (p : Provider) (moves : List (Move H)) {q : Provider}
    (hq : (after moves (start p)).provider.reload = .ok q) :
    let r := after moves (start p)
    let o := r.reload declared
    let next := o.registry
    r.provider.Reread q ∧ o.answer = .ok () ∧
    next.roster.known = r.roster.known ∧
    (∀ (id : String) (e : Entry H), next.roster.active[id]? = some e ↔
      r.roster.known[id]? = some e.handler ∧ q.table.isDisabled id = false ∧
        e.priority = q.table.priority id (declared e.handler)) ∧
    next.provider = q.ensureAll next.roster.active.values ∧
    next.provider.table.generous = q.table.generous ∧
    (∀ id : String, next.provider.table.standings[id]? = (q.table.standings[id]?).or
      ((next.roster.active[id]?).map fun e => .ranked e.priority)) ∧
    (∃ back gone : List Info, o.notices = back.map .registered ++ gone.map .unregistered ∧
      (back.map Info.id).Pairwise (· < ·) ∧ (gone.map Info.id).Pairwise (· < ·) ∧
      (∀ i, i ∈ back ↔ r.info? i.id = none ∧ next.info? i.id = some i) ∧
      ∀ i, i ∈ gone ↔ r.info? i.id = some i ∧ next.info? i.id = none) ∧
    ∀ hs : List H, hs.Perm r.roster.known.values →
      hs.mergeSort idOrder = r.roster.known.values ∧
      (registerAll declared hs ⟨.empty, q⟩).1 = next ∧
      (returned r.roster (registerAll declared hs ⟨.empty, q⟩).2 ++
        dropped r.roster next.roster).Perm o.notices := by
  intro r o next
  have hc : r.roster.Coherent := reached_coherent p moves
  have hc' : next.roster.Coherent := reload_coherent declared hc
  have hp : next.provider = _ := reload_provider declared hc hq
  refine ⟨Provider.reload_eq_ok_iff.mp hq, reload_answer declared hq, reload_known declared hc hq,
    ?_, hp, ?_, ?_, reload_announces declared hc hq, ?_⟩
  · intro id e
    rw [reload_active declared hc hq]
    constructor
    · rintro ⟨hk, hd, hn⟩
      obtain rfl : e.id = id := (hc.worded id e.handler hk).1
      exact ⟨hk, hd, hn⟩
    · rintro ⟨hk, hd, hn⟩
      obtain rfl : e.id = id := (hc.worded id e.handler hk).1
      exact ⟨hk, hd, hn⟩
  · rw [hp, Provider.generous_ensureAll]
  · intro id
    rw [hp, Provider.standing_ensureAll, hc'.find_active]
  · intro hs hperm
    exact ⟨mergeSort_known hc hperm, reload_any_order declared hc hq hperm⟩

open Scenario in
theorem reload_rebuilds_two :
    let moves : List (Move Scripted) := [.register (fun _ => 1) (.bare "a" "shop"),
      .register (fun _ => 2) (.bare "b" "bank"),
      .provide (.memory (Settings.empty.setDisabled "shop" true))]
    let r := after moves (start (.memory .empty))
    let next := (r.reload fun _ => 3).registry
    r.provider.reload = .ok (.memory (Settings.empty.setDisabled "shop" true)) ∧
      next.roster.known = r.roster.known ∧ next.roster.active["shop"]? = none ∧
      next.roster.active["bank"]? = some ⟨.bare "b" "bank", 3⟩ := by
  intro moves r next
  have hq : r.provider.reload = .ok (.memory (Settings.empty.setDisabled "shop" true)) := rfl
  obtain ⟨-, -, hk, ha, -⟩ := reload_rebuilds (fun _ => 3) (.memory .empty) moves hq
  refine ⟨hq, hk, ?_, (ha _ _).mpr ⟨rfl, by decide +kernel, by decide +kernel⟩⟩
  rw [Option.eq_none_iff_forall_ne_some]
  intro e he
  have hd := ((ha _ e).mp he).2.1
  exact absurd hd (by decide +kernel)

end Registry

end Brokerage
