import Brokerage.Proofs.Registry.Filing
import Brokerage.Registry.Basic

namespace Brokerage

open Std Text

variable {H : Type} [Handler H]

namespace Roster

structure Coherent (r : Roster H) : Prop where
  filed : ∀ (k : Kind) (rank : Rank) (e : Entry H), (r.index.ranking k)[rank]? = some e ↔
    r.active[rank.id]? = some e ∧ e.rank = rank ∧ e.kind = k
  inhabited : r.index.Inhabited
  remembered : ∀ (id : String) (e : Entry H), r.active[id]? = some e →
    r.known[id]? = some e.handler
  worded : ∀ (id : String) (h : H), r.known[id]? = some h →
    (Handler.info h).id = id ∧ isWord id = true

def leaving (r : Roster H) (id : String) : List Notice :=
  (r.active[id]?).toList.map fun e => .unregistered e.info

def install (e : Entry H) (r : Roster H) : Roster H :=
  ((r.learn e.handler).retire e.id).2.enlist e

def withdraw (id : String) (r : Roster H) : Roster H := ((r.forget id).retire id).2

def note (h : H) (r : Roster H) : Roster H :=
  if r.active.contains (Handler.info h).id then r else r.learn h

theorem Coherent.empty : (Roster.empty : Roster H).Coherent where
  filed k rank e := by simp [Roster.empty, Index.ranking_empty]
  inhabited := Index.Inhabited.empty
  remembered id e h := by simp [Roster.empty] at h
  worded id h hk := by simp [Roster.empty] at hk

theorem retire_of_inactive {r : Roster H} {id : String} (ha : r.active[id]? = none) :
    r.retire id = ([], r) := by
  simp only [retire, ha]

theorem retire_active (r : Roster H) (id : String) :
    (r.retire id).2.active = r.active.erase id := by
  cases ha : r.active[id]? with
  | none => rw [retire_of_inactive ha, Trees.erase_of_none ha]
  | some e => simp only [retire, ha]

theorem retire_known (r : Roster H) (id : String) : (r.retire id).2.known = r.known := by
  cases ha : r.active[id]? <;> simp only [retire, ha]

theorem retire_learn (r : Roster H) (id : String) (h : H) :
    (r.learn h).retire id = ((r.retire id).1, (r.retire id).2.learn h) := by
  cases ha : r.active[id]? with
  | none => simp only [retire, learn, ha]
  | some e => simp only [retire, learn, ha]; rfl

theorem retire_forget (r : Roster H) (id : String) :
    (r.forget id).retire id = ((r.retire id).1, (r.retire id).2.forget id) := by
  cases ha : r.active[id]? with
  | none => simp only [retire, forget, ha]
  | some e => simp only [retire, forget, ha]; rfl

namespace Coherent

variable {r : Roster H}

theorem named (hc : r.Coherent) {id : String} {e : Entry H} (ha : r.active[id]? = some e) :
    e.id = id :=
  (hc.worded id e.handler (hc.remembered id e ha)).1

theorem word (hc : r.Coherent) {id : String} {e : Entry H} (ha : r.active[id]? = some e) :
    isWord id = true :=
  (hc.worded id e.handler (hc.remembered id e ha)).2

theorem inactive_of_unknown (hc : r.Coherent) {id : String} (hk : r.known[id]? = none) :
    r.active[id]? = none := by
  rw [Option.eq_none_iff_forall_ne_some]
  intro e he
  have hr := hc.remembered id e he
  rw [hk] at hr
  cases hr

theorem ranked (hc : r.Coherent) {id : String} {e : Entry H} (ha : r.active[id]? = some e) :
    (r.index.ranking e.kind)[e.rank]? = some e := by
  rw [hc.filed]
  exact ⟨by rw [← ha]; exact congrArg (r.active[·]?) (hc.named ha), rfl, rfl⟩

theorem holds_iff (hc : r.Coherent) (k : Kind) (id : String) :
    (r.index.ranking k).holds id = true ↔ ∃ e : Entry H, r.active[id]? = some e ∧ e.kind = k := by
  rw [Ranking.holds_iff]
  constructor
  · rintro ⟨rank, e, hr, rfl⟩
    obtain ⟨ha, rfl, hk⟩ := (hc.filed k rank e).mp hr
    exact ⟨e, ha, hk⟩
  · rintro ⟨e, ha, rfl⟩
    exact ⟨e.rank, e, hc.ranked ha, hc.named ha⟩

theorem not_holds (hc : r.Coherent) (k : Kind) {id : String} (ha : r.active[id]? = none) :
    (r.index.ranking k).holds id = false := by
  rw [Bool.eq_false_iff]
  intro hh
  obtain ⟨e, he, -⟩ := (hc.holds_iff k id).mp hh
  rw [ha] at he
  cases he

theorem index_ext (hc : r.Coherent) {s : Roster H} (hs : s.Coherent) (h : r.active = s.active) :
    r.index = s.index := by
  apply hc.inhabited.ext hs.inhabited
  intro k
  apply ExtTreeMap.ext_getElem?
  intro rank
  apply Option.ext
  intro e
  rw [hc.filed, hs.filed, h]

theorem ext (hr : r.Coherent) {s : Roster H} (hs : s.Coherent) (hactive : r.active = s.active)
    (hknown : r.known = s.known) : r = s := by
  have hindex := hr.index_ext hs hactive
  obtain ⟨a, i, k⟩ := r
  obtain ⟨a', i', k'⟩ := s
  dsimp only at hactive hknown hindex
  rw [hactive, hknown, hindex]

theorem filed_of_some (hc : r.Coherent) {k : Kind} {g : Ranking H} {rank : Rank} {e : Entry H}
    (hk : r.index[k]? = some g) (hr : g[rank]? = some e) :
    r.active[e.id]? = some e ∧ e.kind = k ∧ e.rank = rank := by
  rw [← Index.ranking_of_some hk] at hr
  obtain ⟨ha, rfl, he⟩ := (hc.filed k rank e).mp hr
  exact ⟨ha, he, rfl⟩

theorem active_iff_filed (hc : r.Coherent) (id : String) :
    r.active.contains id = true ↔ ∃ (k : Kind) (g : Ranking H) (rank : Rank) (e : Entry H),
      r.index[k]? = some g ∧ g[rank]? = some e ∧ e.id = id := by
  rw [ExtTreeMap.contains_eq_isSome_getElem?, Option.isSome_iff_exists]
  constructor
  · rintro ⟨e, ha⟩
    have hr := hc.ranked ha
    exact ⟨e.kind, _, e.rank, e, Index.get_of_ranked hr, hr, hc.named ha⟩
  · rintro ⟨k, g, rank, e, hk, hr, rfl⟩
    exact ⟨e, (hc.filed_of_some hk hr).1⟩

theorem filed_once (hc : r.Coherent) {id : String} {e : Entry H} (ha : r.active[id]? = some e) :
    (∃ g : Ranking H, r.index[e.kind]? = some g ∧ g[e.rank]? = some e) ∧
      ∀ (k : Kind) (g : Ranking H) (rank : Rank) (x : Entry H), r.index[k]? = some g →
        g[rank]? = some x → x.id = id → k = e.kind ∧ rank = e.rank ∧ x = e := by
  have hr := hc.ranked ha
  refine ⟨⟨_, Index.get_of_ranked hr, hr⟩, ?_⟩
  rintro k g rank x hk hx rfl
  obtain ⟨ha', rfl, rfl⟩ := hc.filed_of_some hk hx
  rw [ha] at ha'
  cases ha'
  exact ⟨rfl, rfl, rfl⟩

theorem retire_of_active (hc : r.Coherent) {id : String} {e : Entry H}
    (ha : r.active[id]? = some e) :
    r.retire id = ([.unregistered e.info],
      { r with active := r.active.erase id, index := (r.index.remove e).2 }) := by
  have hr : (r.index.remove e).1 = true := by
    rw [Index.remove_fst, Ranking.remove_of_ranked (hc.ranked ha)]
  simp only [Roster.retire, ha, hr, ↓reduceIte]

theorem retire_fst (hc : r.Coherent) (id : String) : (r.retire id).1 = r.leaving id := by
  cases ha : r.active[id]? with
  | none => simp only [retire_of_inactive ha, leaving, ha, Option.toList_none, List.map_nil]
  | some e =>
    simp only [hc.retire_of_active ha, leaving, ha, Option.toList_some, List.map_cons, List.map_nil]

theorem retire (hc : r.Coherent) (id : String) : (r.retire id).2.Coherent := by
  cases ha : r.active[id]? with
  | none => rw [retire_of_inactive ha]; exact hc
  | some e =>
    have hid := hc.named ha
    rw [hc.retire_of_active ha]
    refine ⟨?_, hc.inhabited.remove e, ?_, hc.worded⟩
    · intro k rank x
      -- The entry taken away is the only one of its id, of whatever kind and rank.
      have only : r.active[rank.id]? = some x → x.rank = rank → x.kind = k →
          (rank.id = id ↔ e.kind = k ∧ e.rank = rank) := by
        intro hx hr hk
        constructor
        · rintro rfl
          rw [hx] at ha
          cases ha
          exact ⟨hk, hr⟩
        · rintro ⟨-, rfl⟩
          exact hid
      have hf := hc.filed k rank x
      rw [Index.ranking_remove, Ranking.remove_of_ranked (hc.ranked ha)]
      by_cases hk : e.kind = k
      · simp only [hk, ↓reduceIte, ExtTreeMap.getElem?_erase, Std.compare_eq_iff_eq]
        grind
      · simp only [hk, ↓reduceIte, ExtTreeMap.getElem?_erase, Std.compare_eq_iff_eq]
        grind
    · intro j x hj
      simp only [ExtTreeMap.getElem?_erase] at hj
      split at hj
      · cases hj
      · exact hc.remembered j x hj

theorem learn (hc : r.Coherent) {h : H} (hw : isWord (Handler.info h).id = true)
    (ha : r.active[(Handler.info h).id]? = none) : (r.learn h).Coherent := by
  refine ⟨hc.filed, hc.inhabited, ?_, ?_⟩
  · intro id e he
    simp only [Roster.learn, ExtTreeMap.getElem?_insert, Std.compare_eq_iff_eq] at he ⊢
    split
    · next hid => rw [← hid, ha] at he; cases he
    · exact hc.remembered id e he
  · intro id x hx
    simp only [Roster.learn, ExtTreeMap.getElem?_insert, Std.compare_eq_iff_eq] at hx
    split at hx
    · next hid => cases hx; exact ⟨hid, hid ▸ hw⟩
    · exact hc.worded id x hx

theorem forget (hc : r.Coherent) {id : String} (ha : r.active[id]? = none) :
    (r.forget id).Coherent := by
  refine ⟨hc.filed, hc.inhabited, ?_, ?_⟩
  · intro j e he
    simp only [Roster.forget, ExtTreeMap.getElem?_erase, Std.compare_eq_iff_eq] at he ⊢
    split
    · next hid => rw [← hid, ha] at he; cases he
    · exact hc.remembered j e he
  · intro j x hx
    simp only [Roster.forget, ExtTreeMap.getElem?_erase, Std.compare_eq_iff_eq] at hx
    split at hx
    · cases hx
    · exact hc.worded j x hx

theorem enlist (hc : r.Coherent) {e : Entry H} (ha : r.active[e.id]? = none)
    (hk : r.known[e.id]? = some e.handler) : (r.enlist e).Coherent := by
  have hh := hc.not_holds e.kind ha
  refine ⟨?_, hc.inhabited.add hh, ?_, hc.worded⟩
  · intro k rank x
    have hf := hc.filed k rank x
    simp only [Roster.enlist, Index.ranking_add, Ranking.add_of_absent hh,
      ExtTreeMap.getElem?_insert, Std.compare_eq_iff_eq]
    by_cases hek : e.kind = k
    · simp only [hek, ↓reduceIte, ExtTreeMap.getElem?_insert, Std.compare_eq_iff_eq]
      have hid : e.rank.id = e.id := rfl
      grind
    · simp only [hek, ↓reduceIte]
      grind
  · intro id x hx
    simp only [Roster.enlist, ExtTreeMap.getElem?_insert, Std.compare_eq_iff_eq] at hx
    split at hx
    · next hid => cases hx; exact hid ▸ hk
    · exact hc.remembered id x hx

end Coherent

theorem install_eq (e : Entry H) (r : Roster H) :
    r.install e = ((r.retire e.id).2.learn e.handler).enlist e := by
  rw [install, retire_learn]

theorem withdraw_eq (id : String) (r : Roster H) : r.withdraw id = (r.retire id).2.forget id := by
  rw [withdraw, retire_forget]

theorem install_active (e : Entry H) (r : Roster H) :
    (r.install e).active = r.active.insert e.id e := by
  rw [install_eq]
  simp only [enlist, learn, retire_active]
  exact Trees.insert_erase r.active e.id e

theorem install_known (e : Entry H) (r : Roster H) :
    (r.install e).known = r.known.insert e.id e.handler := by
  rw [install_eq]
  simp only [enlist, learn, retire_known]
  rfl

theorem withdraw_active (id : String) (r : Roster H) :
    (r.withdraw id).active = r.active.erase id := by
  rw [withdraw_eq]
  exact retire_active r id

theorem withdraw_known (id : String) (r : Roster H) :
    (r.withdraw id).known = r.known.erase id := by
  rw [withdraw_eq]
  simp only [forget, retire_known]

theorem note_active (h : H) (r : Roster H) : (r.note h).active = r.active := by
  rw [note]
  split <;> rfl

theorem note_of_active {h : H} {r : Roster H} {e : Entry H}
    (ha : r.active[(Handler.info h).id]? = some e) : r.note h = r := by
  rw [note, Trees.contains_of_some ha, if_pos rfl]

theorem note_of_inactive {h : H} {r : Roster H} (ha : r.active[(Handler.info h).id]? = none) :
    r.note h = r.learn h := by
  rw [note, Trees.contains_of_none ha, if_neg Bool.false_ne_true]

theorem retire_inactive (r : Roster H) (id : String) : (r.retire id).2.active[id]? = none := by
  rw [retire_active, ExtTreeMap.getElem?_erase_self]

namespace Coherent

variable {r : Roster H}

theorem install (hc : r.Coherent) {e : Entry H} (hw : isWord e.id = true) :
    (r.install e).Coherent := by
  rw [install_eq]
  have ha := retire_inactive r e.id
  exact ((hc.retire e.id).learn hw ha).enlist ha ExtTreeMap.getElem?_insert_self

theorem withdraw (hc : r.Coherent) (id : String) : (r.withdraw id).Coherent := by
  rw [withdraw_eq]
  exact (hc.retire id).forget (retire_inactive r id)

theorem note (hc : r.Coherent) {h : H} (hw : isWord (Handler.info h).id = true) :
    (r.note h).Coherent := by
  rw [Roster.note]
  split
  · exact hc
  · next ha =>
    apply hc.learn hw
    rw [ExtTreeMap.contains_eq_isSome_getElem?] at ha
    simpa using ha

end Coherent

end Roster

end Brokerage
