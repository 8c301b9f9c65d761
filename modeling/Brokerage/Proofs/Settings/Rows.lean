import Brokerage.Settings.Row
import Mathlib.Data.List.Nodup

namespace Brokerage

open Std

namespace Row

def byPriority (a b : Row) : Ordering := compare b.priority a.priority

instance : TransCmp byPriority := @TransCmp.opposite _ (compareOn Row.priority) _

theorem order_eq (a b : Row) : a.order b = compareLex byPriority (compareOn Row.id) a b := by
  obtain ⟨i, n, d, g⟩ := a
  obtain ⟨j, m, d', g'⟩ := b
  cases n <;> cases m <;> rfl

instance : TransCmp Row.order := by
  have h : Row.order = compareLex byPriority (compareOn Row.id) := funext₂ order_eq
  rw [h]
  infer_instance

theorem id_eq_of_order {a b : Row} (h : a.order b = .eq) : a.id = b.id := by
  rw [order_eq] at h
  exact Std.compare_eq_iff_eq.mp (Ordering.then_eq_eq.mp h).2

theorem ne_of_order {a b : Row} (h : a.order b = .lt) : a ≠ b := by
  have hn : a.order b ≠ .eq := by rw [h]; nofun
  exact ReflCmp.ne_of_cmp_ne_eq hn

theorem order_isLE_total (a b : Row) : ((a.order b).isLE || (b.order a).isLE) = true := by
  have hs : a.order b = (b.order a).swap := OrientedCmp.eq_swap
  rw [hs]
  cases b.order a <;> rfl

end Row

namespace Settings

theorem mem_ids_iff (t : Settings) (id : String) :
    id ∈ t.ids ↔ t.isGenerous id = true ∨ id ∈ t.standings := by
  rw [ids, ExtTreeSet.mem_insertMany_list, ExtTreeMap.contains_keys]
  rfl

theorem mem_rows_iff (t : Settings) (row : Row) :
    row ∈ t.rows ↔ row.id ∈ t.ids ∧ row = t.row row.id := by
  rw [rows, List.mem_mergeSort, List.mem_map]
  constructor
  · rintro ⟨id, hid, rfl⟩
    exact ⟨ExtTreeSet.mem_toList.mp hid, rfl⟩
  · rintro ⟨hid, hrow⟩
    exact ⟨row.id, ExtTreeSet.mem_toList.mpr hid, hrow.symm⟩

theorem rows_ordered (t : Settings) : t.rows.Pairwise fun a b => (a.order b).isLE = true :=
  List.pairwise_mergeSort (fun _ _ _ => TransCmp.isLE_trans) Row.order_isLE_total _

theorem map_id_rows (t : Settings) : (t.rows.map Row.id).Perm t.ids.toList := by
  have hp := (List.mergeSort_perm (t.ids.toList.map t.row) fun a b => (a.order b).isLE).map Row.id
  rwa [List.map_map, show Row.id ∘ t.row = id from rfl, List.map_id] at hp

theorem ids_nodup (t : Settings) : (t.rows.map Row.id).Nodup := by
  have hn : t.ids.toList.Nodup := ExtTreeSet.distinct_toList.imp ReflCmp.ne_of_cmp_ne_eq
  exact t.map_id_rows.nodup_iff.mpr hn

theorem rows_nodup (t : Settings) : t.rows.Nodup := t.ids_nodup.of_map Row.id

theorem eq_of_rows_ordered {t : Settings} {rows rows' : List Row} (h : rows.Sublist t.rows)
    (ho : rows'.Pairwise fun a b => (a.order b).isLE = true) (hp : rows.Perm rows') :
    rows = rows' := by
  apply hp.eq_of_pairwise ?_ (t.rows_ordered.sublist h) ho
  intro a b ha hb hab hba
  have ha := (t.mem_rows_iff a).mp (h.subset ha)
  have hb := (t.mem_rows_iff b).mp (h.subset (hp.mem_iff.mpr hb))
  rw [ha.2, hb.2, Row.id_eq_of_order (OrientedCmp.isLE_antisymm hab hba)]

end Settings

end Brokerage
