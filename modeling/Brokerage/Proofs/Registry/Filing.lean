import Brokerage.Proofs.Trees
import Brokerage.Registry.Roster

namespace Brokerage

open Std

theorem Rank.compare_eq_lt_iff (a b : Rank) : compare a b = .lt ↔
    b.priority < a.priority ∨ a.priority = b.priority ∧ a.id < b.id := by
  have h : compare a b = (compare b.priority a.priority).then (compare a.id b.id) := rfl
  rw [h, Ordering.then_eq_lt, Std.compare_eq_lt, Std.compare_eq_iff_eq, eq_comm]
  exact or_congr_right (and_congr_right fun _ => compareOfLessAndEq_eq_lt)

variable {H : Type}

namespace Index

def Inhabited (ix : Index H) : Prop := ∀ (k : Kind) (g : Ranking H), ix[k]? = some g → g ≠ ∅

theorem ranking_of_some {ix : Index H} {k : Kind} {g : Ranking H} (h : ix[k]? = some g) :
    ix.ranking k = g := by
  rw [ranking, ExtTreeMap.getD_eq_getD_getElem?, h, Option.getD_some]

theorem ranking_of_none {ix : Index H} {k : Kind} (h : ix[k]? = none) : ix.ranking k = ∅ := by
  rw [ranking, ExtTreeMap.getD_eq_getD_getElem?, h, Option.getD_none]

theorem ranking_empty (k : Kind) : (∅ : Index H).ranking k = ∅ := ExtTreeMap.getD_empty

theorem ranking_insert (ix : Index H) (k : Kind) (g : Ranking H) (k' : Kind) :
    ranking (ExtTreeMap.insert ix k g) k' = if k = k' then g else ix.ranking k' := by
  simp only [ranking, ExtTreeMap.getD_insert, Std.compare_eq_iff_eq]

theorem ranking_erase (ix : Index H) (k k' : Kind) :
    ranking (ExtTreeMap.erase ix k) k' = if k = k' then ∅ else ix.ranking k' := by
  simp only [ranking, ExtTreeMap.getD_erase, Std.compare_eq_iff_eq]

theorem get_of_ranked {ix : Index H} {k : Kind} {rank : Rank} {e : Entry H}
    (h : (ix.ranking k)[rank]? = some e) : ix[k]? = some (ix.ranking k) := by
  cases hk : ix[k]? with
  | none => simp [ranking_of_none hk] at h
  | some g => rw [ranking_of_some hk]

theorem Inhabited.empty : Inhabited (∅ : Index H) := by
  intro k g h
  simp at h

theorem Inhabited.getElem?_eq {ix : Index H} (h : ix.Inhabited) (k : Kind) :
    ix[k]? = if (ix.ranking k).isEmpty then none else some (ix.ranking k) := by
  cases hk : ix[k]? with
  | none => rw [ranking_of_none hk, if_pos ExtTreeMap.isEmpty_empty]
  | some g =>
    rw [ranking_of_some hk, if_neg]
    exact fun he => h k g hk (ExtTreeMap.isEmpty_iff.mp he)

theorem Inhabited.ext {a b : Index H} (ha : a.Inhabited) (hb : b.Inhabited)
    (h : ∀ k, a.ranking k = b.ranking k) : a = b := by
  apply ExtTreeMap.ext_getElem?
  intro k
  rw [ha.getElem?_eq, hb.getElem?_eq, h]

end Index

variable [Handler H]

namespace Ranking

theorem holds_iff (g : Ranking H) (id : String) :
    g.holds id = true ↔ ∃ (rank : Rank) (e : Entry H), g[rank]? = some e ∧ e.id = id := by
  simp only [holds, List.any_eq_true, Trees.mem_values_iff, decide_eq_true_eq]
  constructor
  · rintro ⟨e, ⟨rank, hr⟩, he⟩
    exact ⟨rank, e, hr, he⟩
  · rintro ⟨rank, e, hr, he⟩
    exact ⟨e, ⟨rank, hr⟩, he⟩

theorem add_of_absent {g : Ranking H} {e : Entry H} (h : g.holds e.id = false) :
    g.add e = (true, g.insert e.rank e) := by
  simp only [add, h, Bool.false_eq_true, ↓reduceIte]

theorem remove_of_ranked {g : Ranking H} {e x : Entry H} (h : g[e.rank]? = some x) :
    g.remove e = (true, g.erase e.rank) := by
  simp only [remove, Trees.contains_of_some h, ↓reduceIte]

theorem remove_empty (e : Entry H) : (∅ : Ranking H).remove e = (false, ∅) := by
  have hf : (∅ : Ranking H).filter (fun _ x => decide (x.id ≠ e.id)) = ∅ := by
    apply ExtTreeMap.ext_getElem?
    intro rank
    simp
  simp only [remove, ExtTreeMap.contains_empty, Bool.false_eq_true, ↓reduceIte, hf, ne_eq,
    not_true_eq_false, decide_false]

end Ranking

namespace Index

theorem ranking_add (ix : Index H) (e : Entry H) (k : Kind) :
    (ix.add e).2.ranking k = if e.kind = k then ((ix.ranking e.kind).add e).2 else ix.ranking k :=
  ranking_insert ix e.kind _ k

theorem ranking_remove (ix : Index H) (e : Entry H) (k : Kind) :
    (ix.remove e).2.ranking k =
      if e.kind = k then ((ix.ranking e.kind).remove e).2 else ix.ranking k := by
  cases hk : ix[e.kind]? with
  | none =>
    simp only [remove, hk, ranking_of_none hk, Ranking.remove_empty]
    split
    · next h => rw [← h, ranking_of_none hk]
    · rfl
  | some g =>
    simp only [remove, hk, ranking_of_some hk]
    by_cases hg : (g.remove e).2.isEmpty
    · simp only [hg, ↓reduceIte, ranking_erase]
      rw [ExtTreeMap.isEmpty_iff.mp hg]
    · simp only [hg, Bool.false_eq_true, ↓reduceIte, ranking_insert]

theorem remove_fst (ix : Index H) (e : Entry H) :
    (ix.remove e).1 = ((ix.ranking e.kind).remove e).1 := by
  cases hk : ix[e.kind]? with
  | none => simp only [remove, hk, ranking_of_none hk, Ranking.remove_empty]
  | some g => simp only [remove, hk, ranking_of_some hk]

theorem Inhabited.remove {ix : Index H} (h : ix.Inhabited) (e : Entry H) :
    (ix.remove e).2.Inhabited := by
  intro k g hg
  cases hk : ix[e.kind]? with
  | none =>
    simp only [Index.remove, hk] at hg
    exact h k g hg
  | some g' =>
    simp only [Index.remove, hk] at hg
    by_cases he : (g'.remove e).2.isEmpty
    · simp only [he, ↓reduceIte, ExtTreeMap.getElem?_erase, Std.compare_eq_iff_eq] at hg
      split at hg
      · cases hg
      · exact h k g hg
    · simp only [he, Bool.false_eq_true, ↓reduceIte, ExtTreeMap.getElem?_insert,
        Std.compare_eq_iff_eq] at hg
      split at hg
      · cases hg
        exact fun hn => he (by rw [hn]; exact ExtTreeMap.isEmpty_empty)
      · exact h k g hg

theorem Inhabited.add {ix : Index H} (h : ix.Inhabited) {e : Entry H}
    (ha : (ix.ranking e.kind).holds e.id = false) : (ix.add e).2.Inhabited := by
  intro k g hg
  simp only [Index.add, Ranking.add_of_absent ha, ExtTreeMap.getElem?_insert,
    Std.compare_eq_iff_eq] at hg
  split at hg
  · cases hg
    intro hn
    have he := ExtTreeMap.getElem?_insert_self (t := ix.ranking e.kind) (k := e.rank) (v := e)
    rw [hn] at he
    simp at he
  · exact h k g hg

end Index

end Brokerage
