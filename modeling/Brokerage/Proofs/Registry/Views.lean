import Brokerage.Proofs.Registry.Reload
import Brokerage.Proofs.Registry.Selection
import Mathlib.Data.List.Nodup

namespace Brokerage

open Std

def Ranked.Precedes (x y : Ranked) : Prop :=
  y.priority < x.priority ∨ x.priority = y.priority ∧ x.info.id < y.info.id

namespace Registry

variable {H : Type} [Handler H] {r : Registry H}

omit [Handler H] in
theorem kinds_ordered (r : Registry H) : (r.kinds.map Kind.name).Pairwise (· < ·) := by
  have ho : r.kinds.Pairwise fun k k' => compare k k' = .lt := ExtTreeMap.ordered_keys
  rw [List.pairwise_map]
  exact ho.imp compareOfLessAndEq_eq_lt.mp

theorem mem_kinds_iff (hc : r.roster.Coherent) (k : Kind) :
    k ∈ r.kinds ↔ ∃ e : Entry H, r.roster.active[e.id]? = some e ∧ e.kind = k := by
  rw [kinds, ExtTreeMap.mem_keys, ExtTreeMap.mem_iff_isSome_getElem?, Option.isSome_iff_exists]
  constructor
  · rintro ⟨g, hg⟩
    obtain ⟨rank, e, hr⟩ := Trees.exists_of_ne_empty (hc.inhabited k g hg)
    obtain ⟨ha, hk, -⟩ := hc.filed_of_some hg hr
    exact ⟨e, ha, hk⟩
  · rintro ⟨e, ha, rfl⟩
    exact ⟨_, Index.get_of_ranked (hc.ranked ha)⟩

theorem ranking_of_not_mem {k : Kind} (hk : k ∉ r.kinds) : r.ranking k = [] := by
  have hn : r.roster.index[k]? = none := by
    rw [kinds, ExtTreeMap.mem_keys] at hk
    exact ExtTreeMap.getElem?_eq_none hk
  rw [ranking, Index.ranking_of_none hn, Trees.values_empty, List.map_nil]

theorem mem_ranked_iff (hc : r.roster.Coherent) (k : Kind) (x : Ranked) :
    x ∈ r.ranking k ↔ ∃ e : Entry H, r.roster.active[x.info.id]? = some e ∧ e.kind = k ∧
      x = ⟨e.info, e.priority⟩ := by
  rw [ranking, List.mem_map]
  constructor
  · rintro ⟨e, he, rfl⟩
    obtain ⟨ha, hk⟩ := (mem_ranking_iff hc k e).mp he
    exact ⟨e, ha, hk, rfl⟩
  · rintro ⟨e, ha, hk, rfl⟩
    exact ⟨e, (mem_ranking_iff hc k e).mpr ⟨ha, hk⟩, rfl⟩

theorem ranking_ne_nil (hc : r.roster.Coherent) {k : Kind} (hk : k ∈ r.kinds) :
    r.ranking k ≠ [] := by
  obtain ⟨e, ha, hk⟩ := (mem_kinds_iff hc k).mp hk
  exact List.ne_nil_of_mem ((mem_ranked_iff hc k ⟨e.info, e.priority⟩).mpr ⟨e, ha, hk, rfl⟩)

theorem ranking_precedes (hc : r.roster.Coherent) (k : Kind) :
    (r.ranking k).Pairwise Ranked.Precedes := by
  rw [ranking, List.pairwise_map]
  exact (ranking_ordered hc k).imp fun {x y} h => (Rank.compare_eq_lt_iff x.rank y.rank).mp h

theorem infos_ordered (hc : r.roster.Coherent) : (r.infos.map Info.id).Pairwise (· < ·) := by
  rw [infos, List.map_map, List.pairwise_map]
  exact (Trees.values_ordered r.roster.active Entry.id fun id e ha => hc.named ha).imp
    compareOfLessAndEq_eq_lt.mp

theorem filed_perm (hc : r.roster.Coherent) :
    (r.kinds.flatMap fun k => (r.roster.index.ranking k).values).Perm r.roster.active.values := by
  have hd : (r.kinds.flatMap fun k => (r.roster.index.ranking k).values).Nodup := by
    rw [List.nodup_flatMap]
    constructor
    · intro k _
      exact (ranking_ordered hc k).imp fun h he => by
        rw [he, Std.compare_self] at h
        cases h
    · -- An entry is filed under its own kind only.
      refine (List.pairwise_map.mp (kinds_ordered r)).imp fun {k k'} hk e he he' => ?_
      rw [mem_ranking_iff hc] at he he'
      rw [← he.2, he'.2] at hk
      exact String.lt_irrefl _ hk
  rw [List.perm_ext_iff_of_nodup hd hc.active_nodup.of_map]
  intro e
  rw [hc.mem_active_iff, List.mem_flatMap]
  constructor
  · rintro ⟨k, -, he⟩
    exact ((mem_ranking_iff hc k e).mp he).1
  · intro ha
    exact ⟨e.kind, (mem_kinds_iff hc e.kind).mpr ⟨e, ha, rfl⟩,
      (mem_ranking_iff hc e.kind e).mpr ⟨ha, rfl⟩⟩

theorem rankings_perm (hc : r.roster.Coherent) :
    (r.kinds.flatMap fun k => (r.ranking k).map Ranked.info).Perm r.infos := by
  have hm : (r.kinds.flatMap fun k => (r.ranking k).map Ranked.info) =
      (r.kinds.flatMap fun k => (r.roster.index.ranking k).values).map Entry.info := by
    simp only [List.map_flatMap, ranking, List.map_map, Function.comp_def]
  rw [hm, infos]
  exact (filed_perm hc).map Entry.info

theorem size_eq_length (r : Registry H) : r.size = r.infos.length := by
  rw [size, infos, List.length_map, Trees.length_values]

theorem isRegistered_iff (r : Registry H) (id : String) :
    r.isRegistered id = true ↔ (r.info? id).isSome = true := by
  rw [isRegistered, info?, Option.isSome_map, ExtTreeMap.contains_eq_isSome_getElem?]

theorem info_eq_some_iff_mem (hc : r.roster.Coherent) (id : String) (i : Info) :
    r.info? id = some i ↔ i ∈ r.infos ∧ i.id = id := by
  rw [info_eq_some_iff, infos, List.mem_map]
  constructor
  · rintro ⟨e, ha, rfl⟩
    have hid : e.id = id := hc.named ha
    exact ⟨⟨e, (hc.mem_active_iff e).mpr (by rw [hid]; exact ha), rfl⟩, hid⟩
  · rintro ⟨⟨e, he, rfl⟩, rfl⟩
    exact ⟨e, (hc.mem_active_iff e).mp he, rfl⟩

theorem info_isSome_iff (hc : r.roster.Coherent) (id : String) :
    (r.info? id).isSome = true ↔ id ∈ r.infos.map Info.id := by
  rw [Option.isSome_iff_exists, List.mem_map]
  exact exists_congr fun i => info_eq_some_iff_mem hc id i

/-- The reports of a registry that has come to be in whatever way: kinds by name, the handlers of a
kind in the order of dispatch, and all handlers by id, each handler told of once on either side. -/
theorem reports_agree (p : Provider) (moves : List (Move H)) :
    let r := after moves (start p)
    (r.kinds.map Kind.name).Pairwise (· < ·) ∧
    (∀ k : Kind, k ∈ r.kinds ↔ ∃ (id : String) (e : Entry H),
      r.roster.active[id]? = some e ∧ e.kind = k) ∧
    (∀ k ∈ r.kinds, r.ranking k ≠ []) ∧
    (∀ k : Kind, k ∉ r.kinds → r.ranking k = []) ∧
    (∀ k : Kind, (r.ranking k).Pairwise Ranked.Precedes) ∧
    (∀ (k : Kind) (x : Ranked), x ∈ r.ranking k ↔ ∃ e : Entry H,
      r.roster.active[x.info.id]? = some e ∧ e.kind = k ∧ x = ⟨e.info, e.priority⟩) ∧
    (r.infos.map Info.id).Pairwise (· < ·) ∧
    (r.kinds.flatMap fun k => (r.ranking k).map Ranked.info).Perm r.infos ∧
    r.size = r.infos.length ∧
    ∀ id : String, (r.isRegistered id = true ↔ (r.info? id).isSome = true) ∧
      ((r.info? id).isSome = true ↔ id ∈ r.infos.map Info.id) ∧
      ∀ i : Info, r.info? id = some i ↔ i ∈ r.infos ∧ i.id = id := by
  intro r
  have hc : r.roster.Coherent := reached_coherent p moves
  refine ⟨kinds_ordered r, ?_, fun k => ranking_ne_nil hc, fun k => ranking_of_not_mem,
    ranking_precedes hc, mem_ranked_iff hc, infos_ordered hc, rankings_perm hc, size_eq_length r,
    ?_⟩
  · intro k
    rw [mem_kinds_iff hc]
    constructor
    · rintro ⟨e, ha, hk⟩
      exact ⟨e.id, e, ha, hk⟩
    · rintro ⟨id, e, ha, hk⟩
      exact ⟨e, by rw [hc.named ha]; exact ha, hk⟩
  · intro id
    exact ⟨isRegistered_iff r id, info_isSome_iff hc id, info_eq_some_iff_mem hc id⟩

end Registry

end Brokerage
