import Std.Data.DTreeMap.Internal.WF.Lemmas
import Std.Data.ExtTreeMap

namespace Brokerage.Trees

open Std

variable {α β : Type} {cmp : α → α → Ordering} [TransCmp cmp]

theorem values_eq_map_toList (t : ExtTreeMap α β cmp) : t.values = t.toList.map Prod.snd := by
  obtain ⟨⟨q⟩⟩ := t
  induction q using Quotient.inductionOn with
  | h m =>
    change m.inner.values = (DTreeMap.Internal.Impl.Const.toList m.inner).map Prod.snd
    rw [DTreeMap.Internal.Impl.values_eq_map_snd,
      DTreeMap.Internal.Impl.Const.toList_eq_toListModel_map]
    simp only [List.map_map, Function.comp_def]

theorem mem_values_iff [LawfulEqCmp cmp] (t : ExtTreeMap α β cmp) (x : β) :
    x ∈ t.values ↔ ∃ k : α, t[k]? = some x := by
  rw [values_eq_map_toList]
  constructor
  · intro h
    obtain ⟨⟨k, y⟩, hm, rfl⟩ := List.mem_map.mp h
    exact ⟨k, ExtTreeMap.mem_toList_iff_getElem?_eq_some.mp hm⟩
  · rintro ⟨k, hk⟩
    exact List.mem_map.mpr ⟨(k, x), ExtTreeMap.mem_toList_iff_getElem?_eq_some.mpr hk, rfl⟩

theorem exists_of_ne_empty [LawfulEqCmp cmp] {t : ExtTreeMap α β cmp} (h : t ≠ ∅) :
    ∃ (k : α) (x : β), t[k]? = some x := by
  apply Classical.byContradiction
  intro hn
  apply h
  apply ExtTreeMap.ext_getElem?
  intro k
  rw [ExtTreeMap.getElem?_empty, Option.eq_none_iff_forall_ne_some]
  exact fun x hx => hn ⟨k, x, hx⟩

theorem length_values (t : ExtTreeMap α β cmp) : t.values.length = t.size := by
  rw [values_eq_map_toList, List.length_map, ExtTreeMap.length_toList]

theorem values_empty : (∅ : ExtTreeMap α β cmp).values = [] := by
  rw [← List.length_eq_zero_iff, length_values, ExtTreeMap.size_empty]

theorem values_ordered [LawfulEqCmp cmp] (t : ExtTreeMap α β cmp) (key : β → α)
    (hkey : ∀ (k : α) (x : β), t[k]? = some x → key x = k) :
    t.values.Pairwise (fun x y => cmp (key x) (key y) = .lt) := by
  rw [values_eq_map_toList, List.pairwise_map]
  apply t.ordered_keys_toList.imp_of_mem
  intro a b ha hb hab
  rw [hkey a.1 a.2 (ExtTreeMap.mem_toList_iff_getElem?_eq_some.mp ha),
    hkey b.1 b.2 (ExtTreeMap.mem_toList_iff_getElem?_eq_some.mp hb)]
  exact hab

theorem nodup_map_values [LawfulEqCmp cmp] (t : ExtTreeMap α β cmp) (key : β → α)
    (hkey : ∀ (k : α) (x : β), t[k]? = some x → key x = k) : (t.values.map key).Nodup := by
  rw [List.nodup_iff_pairwise_ne, List.pairwise_map]
  apply (values_ordered t key hkey).imp
  intro x y hxy he
  have hself : cmp (key y) (key y) = .eq := ReflCmp.compare_self
  rw [he, hself] at hxy
  cases hxy

theorem ofList_eq [LawfulEqCmp cmp] [BEq α] [LawfulBEqCmp cmp] {l : List (α × β)}
    {t : ExtTreeMap α β cmp} (hd : l.Pairwise fun a b => ¬ cmp a.1 b.1 = .eq)
    (hm : ∀ (k : α) (x : β), (k, x) ∈ l ↔ t[k]? = some x) : ExtTreeMap.ofList l cmp = t := by
  apply ExtTreeMap.ext_getElem?
  intro k
  cases hk : t[k]? with
  | some x =>
    exact ExtTreeMap.getElem?_ofList_of_mem ReflCmp.compare_self hd ((hm k x).mpr hk)
  | none =>
    apply ExtTreeMap.getElem?_ofList_of_contains_eq_false
    rw [Bool.eq_false_iff]
    intro hc
    obtain ⟨j, hj, hb⟩ := List.contains_iff_exists_mem_beq.mp hc
    obtain ⟨⟨i, x⟩, hx, rfl⟩ := List.mem_map.mp hj
    have he : cmp k i = .eq := LawfulBEqCmp.compare_eq_iff_beq.mpr hb
    obtain rfl := LawfulEqCmp.eq_of_compare he
    rw [(hm k x).mp hx] at hk
    cases hk

theorem ofList_toList [LawfulEqCmp cmp] [BEq α] [LawfulBEqCmp cmp] (t : ExtTreeMap α β cmp) :
    ExtTreeMap.ofList t.toList cmp = t :=
  ofList_eq t.distinct_keys_toList fun _ _ => ExtTreeMap.mem_toList_iff_getElem?_eq_some

theorem contains_of_some {t : ExtTreeMap α β cmp} {k : α} {x : β} (h : t[k]? = some x) :
    t.contains k = true := by
  rw [ExtTreeMap.contains_eq_isSome_getElem?, h]
  rfl

theorem contains_of_none {t : ExtTreeMap α β cmp} {k : α} (h : t[k]? = none) :
    t.contains k = false := by
  rw [ExtTreeMap.contains_eq_isSome_getElem?, h]
  rfl

theorem mem_of_some {t : ExtTreeMap α β cmp} {k : α} {x : β} (h : t[k]? = some x) : k ∈ t :=
  ExtTreeMap.mem_iff_contains.mpr (contains_of_some h)

theorem insert_comm [LawfulEqCmp cmp] (t : ExtTreeMap α β cmp) {a b : α} (hab : a ≠ b) (x y : β) :
    (t.insert a x).insert b y = (t.insert b y).insert a x := by
  apply ExtTreeMap.ext_getElem?
  intro k
  simp only [ExtTreeMap.getElem?_insert]
  split
  · next hb =>
    obtain rfl := LawfulEqCmp.eq_of_compare hb
    rw [if_neg fun ha => hab (LawfulEqCmp.eq_of_compare ha)]
  · rfl

theorem insert_of_some [LawfulEqCmp cmp] {t : ExtTreeMap α β cmp} {k : α} {x : β}
    (h : t[k]? = some x) : t.insert k x = t := by
  apply ExtTreeMap.ext_getElem?
  intro j
  rw [ExtTreeMap.getElem?_insert]
  split
  · next hj => rw [← LawfulEqCmp.eq_of_compare hj, h]
  · rfl

theorem insertIfNew_of_contains [LawfulEqCmp cmp] {t : ExtTreeMap α β cmp} {k : α}
    (h : t.contains k = true) (x : β) : t.insertIfNew k x = t := by
  apply ExtTreeMap.ext_getElem?
  intro j
  rw [ExtTreeMap.getElem?_insertIfNew, if_neg fun hn => hn.2 (ExtTreeMap.mem_iff_contains.mpr h)]

theorem erase_of_none [LawfulEqCmp cmp] {t : ExtTreeMap α β cmp} {k : α} (h : t[k]? = none) :
    t.erase k = t := by
  apply ExtTreeMap.ext_getElem?
  intro j
  rw [ExtTreeMap.getElem?_erase]
  split
  · next hj => rw [← LawfulEqCmp.eq_of_compare hj, h]
  · rfl

theorem erase_insert [LawfulEqCmp cmp] {t : ExtTreeMap α β cmp} {k : α} (h : t[k]? = none)
    (x : β) : (t.insert k x).erase k = t := by
  apply ExtTreeMap.ext_getElem?
  intro j
  simp only [ExtTreeMap.getElem?_erase, ExtTreeMap.getElem?_insert]
  split
  · next hj => rw [← LawfulEqCmp.eq_of_compare hj, h]
  · rfl

theorem insert_erase [LawfulEqCmp cmp] (t : ExtTreeMap α β cmp) (k : α) (x : β) :
    (t.erase k).insert k x = t.insert k x := by
  apply ExtTreeMap.ext_getElem?
  intro j
  simp only [ExtTreeMap.getElem?_insert, ExtTreeMap.getElem?_erase]
  split <;> rfl

theorem filter_insert [LawfulEqCmp cmp] (t : ExtTreeMap α β cmp) {f : α → β → Bool} {k : α} {x : β}
    (h : f k x = true) : (t.insert k x).filter f = (t.filter f).insert k x := by
  apply ExtTreeMap.ext_getElem?
  intro j
  simp only [ExtTreeMap.getElem?_filter', ExtTreeMap.getElem?_insert]
  split
  · next hj =>
    obtain rfl := LawfulEqCmp.eq_of_compare hj
    rw [Option.filter_some, if_pos h]
  · rfl

theorem filter_erase [LawfulEqCmp cmp] (t : ExtTreeMap α β cmp) (f : α → β → Bool) (k : α) :
    (t.erase k).filter f = (t.filter f).erase k := by
  apply ExtTreeMap.ext_getElem?
  intro j
  simp only [ExtTreeMap.getElem?_filter', ExtTreeMap.getElem?_erase]
  split <;> rfl

end Brokerage.Trees
