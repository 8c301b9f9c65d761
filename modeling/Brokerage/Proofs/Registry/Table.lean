import Brokerage.Proofs.Registry.Steadiness
import Brokerage.Proofs.Registry.Views
import Brokerage.Proofs.Settings.Rows

namespace Brokerage.Registry

open Std

variable {H : Type} [Handler H] {r : Registry H}

def listed (r : Registry H) (k : Kind) : List Row :=
  r.provider.table.rows.filter fun row => (r.info? row.id).any fun i => i.kind = k

structure ListedAsRanked (r : Registry H) (k : Kind) : Prop where
  alike : (r.ranking k).map (fun x => (x.info.id, some x.priority)) =
    (r.listed k).map fun row => (row.id, row.priority)
  enabled : ∀ row ∈ r.listed k, row.priority.isSome = true ∧ row.disabled = false
  inOrder : ((r.ranking k).map fun x => r.provider.table.row x.info.id).Sublist
    r.provider.table.rows

namespace Steady

theorem row_eq (hs : r.Steady) {e : Entry H} (ha : r.roster.active[e.id]? = some e) :
    r.provider.table.row e.id =
      ⟨e.id, some e.priority, false, r.provider.table.isGenerous e.id⟩ := by
  have hr := hs.ranked e.id e ha
  rw [Settings.row, Settings.configured, hr, Settings.isDisabled_of_ranked hr]

theorem mem_listed_iff (hs : r.Steady) (hc : r.roster.Coherent) (k : Kind) (row : Row) :
    row ∈ r.listed k ↔ ∃ e ∈ (r.roster.index.ranking k).values,
      r.provider.table.row e.id = row := by
  simp only [listed, List.mem_filter, Settings.mem_rows_iff, Option.any_eq_true,
    decide_eq_true_eq, info_eq_some_iff, mem_ranking_iff hc]
  constructor
  · rintro ⟨⟨-, hrow⟩, i, ⟨e, ha, rfl⟩, hk⟩
    have hid := hc.named ha
    rw [← hid] at ha
    exact ⟨e, ⟨ha, hk⟩, by rw [hid, ← hrow]⟩
  · rintro ⟨e, ⟨ha, hk⟩, rfl⟩
    have hm : e.id ∈ r.provider.table.standings := Trees.mem_of_some (hs.ranked e.id e ha)
    exact ⟨⟨(Settings.mem_ids_iff _ _).mpr (Or.inr hm), rfl⟩, e.info, ⟨e, ha, rfl⟩, hk⟩

theorem rows_ordered (hs : r.Steady) (hc : r.roster.Coherent) (k : Kind) :
    ((r.roster.index.ranking k).values.map fun e => r.provider.table.row e.id).Pairwise
      fun a b => a.order b = .lt := by
  rw [List.pairwise_map]
  apply (ranking_ordered hc k).imp_of_mem
  intro x y hx hy hxy
  -- Both rows have a priority, and then rows compare as ranks do.
  rw [hs.row_eq ((mem_ranking_iff hc k x).mp hx).1, hs.row_eq ((mem_ranking_iff hc k y).mp hy).1]
  exact hxy

theorem listed_eq (hs : r.Steady) (hc : r.roster.Coherent) (k : Kind) :
    r.listed k = (r.ranking k).map fun x => r.provider.table.row x.info.id := by
  have ho := hs.rows_ordered hc k
  have hsub : (r.listed k).Sublist r.provider.table.rows := List.filter_sublist
  have hn : ((r.roster.index.ranking k).values.map fun e => r.provider.table.row e.id).Nodup :=
    ho.imp Row.ne_of_order
  rw [ranking, List.map_map]
  apply Settings.eq_of_rows_ordered hsub (ho.imp Ordering.isLE_of_eq_lt)
  rw [List.perm_ext_iff_of_nodup (r.provider.table.rows_nodup.sublist hsub) hn]
  intro row
  rw [hs.mem_listed_iff hc, List.mem_map]

theorem listedAsRanked (hs : r.Steady) (hc : r.roster.Coherent) (k : Kind) :
    r.ListedAsRanked k := by
  have hl := hs.listed_eq hc k
  have hrow : ∀ x ∈ r.ranking k, r.provider.table.row x.info.id =
      ⟨x.info.id, some x.priority, false, r.provider.table.isGenerous x.info.id⟩ := by
    intro x hx
    obtain ⟨e, ha, -, rfl⟩ := (mem_ranked_iff hc k x).mp hx
    exact hs.row_eq ha
  refine ⟨?_, ?_, ?_⟩
  · rw [hl, List.map_map]
    apply List.map_congr_left
    intro x hx
    rw [Function.comp_apply, hrow x hx]
  · intro row hm
    rw [hl] at hm
    obtain ⟨x, hx, rfl⟩ := List.mem_map.mp hm
    rw [hrow x hx]
    exact ⟨rfl, rfl⟩
  · rw [← hl]
    exact List.filter_sublist

end Steady

/-- Settings in memory that nobody has changed since the start, or since a reload: the table shows
the active handlers of each kind as they are ranked, in that order and under those priorities. -/
theorem dispatched_as_listed (t : Settings) {before moves : List (Move H)}
    (hb : ∀ m ∈ before, m.InMemory) (hm : ∀ m ∈ moves, m.Own) (earlier : H → Int8) (k : Kind) :
    (after moves (start (.memory t))).ListedAsRanked k ∧
      (after (before ++ .reload earlier :: moves) (start (.memory t))).ListedAsRanked k := by
  constructor
  · have hs : (start (.memory t) : Registry H).Steady := .empty _
    exact (hs.after Roster.Coherent.empty hm).listedAsRanked (reached_coherent _ moves) k
  · exact (steady_reloaded t hb hm earlier).listedAsRanked (reached_coherent _ _) k

open Scenario in
theorem dispatched_as_listed_shop :
    let changed := ((Settings.empty.setPriority "bank" 7).setDisabled "till" true).setGenerous
      "shop" true
    let mint : Scripted := { Scripted.bare "d" "mint" with kind := .flag }
    let before : List (Move Scripted) := [.register (fun _ => 1) (.bare "a" "bank"),
      .register (fun _ => 8) (.bare "b" "till"), .provide (.memory changed)]
    let moves : List (Move Scripted) := [.register (fun _ => 2) (.bare "c" "shop"),
      .register (fun _ => 4) mint]
    let s := after (before ++ .reload (fun _ => 3) :: moves) (start (.memory .empty))
    s.ListedAsRanked .text ∧
      s.kinds = [.text, .flag] ∧ s.provider.table.ids.toList = ["bank", "mint", "shop", "till"] ∧
      (s.listed .text).map (fun row => (row.id, row.priority)) =
        [("bank", some 7), ("shop", some 2)] := by
  intro changed mint before moves s
  have hb : ∀ m ∈ before, m.InMemory := by simp [before, Move.InMemory]
  have hm : ∀ m ∈ moves, m.Own := by simp [moves, Move.Own]
  obtain ⟨-, hs⟩ := dispatched_as_listed .empty hb hm (fun _ => 3) .text
  have hr : (s.ranking .text).map (fun x => (x.info.id, some x.priority)) =
      [("bank", some 7), ("shop", some 2)] := by
    decide +kernel
  exact ⟨hs, by decide +kernel, by decide +kernel, hs.alike.symm.trans hr⟩

end Brokerage.Registry
