import Brokerage.Proofs.Registry.Rebuild
import Brokerage.Proofs.Registry.Runs
import Brokerage.Registry.Views

namespace Brokerage

open Std Text

abbrev Ledger := ExtTreeMap String Info

namespace Ledger

def hear (l : Ledger) : Notice → Ledger
  | .registered i => ExtTreeMap.insert l i.id i
  | .unregistered i => ExtTreeMap.erase l i.id

def Expects (l : Ledger) : Notice → Prop
  | .registered i => l[i.id]? = none
  | .unregistered i => l[i.id]? = some i

def ExpectsAll : Ledger → List Notice → Prop
  | _, [] => True
  | l, n :: ns => l.Expects n ∧ ExpectsAll (l.hear n) ns

def follow {H : Type} (l : Ledger) (m : Registry.Move H) (heard : List Notice) : Ledger :=
  match m with
  | .clear => ∅
  | _ => heard.foldl hear l

theorem expectsAll_append (l : Ledger) (ns ms : List Notice) :
    l.ExpectsAll (ns ++ ms) ↔ l.ExpectsAll ns ∧ (ns.foldl hear l).ExpectsAll ms := by
  induction ns generalizing l with
  | nil => simp [ExpectsAll]
  | cons n ns ih => simp [ExpectsAll, ih, and_assoc]

theorem hear_registered (l : Ledger) (i : Info) (id : String) :
    (l.hear (.registered i))[id]? = if i.id = id then some i else l[id]? := by
  simp only [hear, ExtTreeMap.getElem?_insert, Std.compare_eq_iff_eq]

theorem hear_unregistered (l : Ledger) (i : Info) (id : String) :
    (l.hear (.unregistered i))[id]? = if i.id = id then none else l[id]? := by
  simp only [hear, ExtTreeMap.getElem?_erase, Std.compare_eq_iff_eq]

theorem hear_arrivals (is : List Info) (hn : (is.map Info.id).Nodup) (l : Ledger)
    (ha : ∀ i ∈ is, l[i.id]? = none) :
    l.ExpectsAll (is.map .registered) ∧ ∀ (id : String) (i : Info),
      ((is.map .registered).foldl hear l)[id]? = some i ↔
        l[id]? = some i ∨ i ∈ is ∧ i.id = id := by
  induction is generalizing l with
  | nil => simp [ExpectsAll]
  | cons j is ih =>
    have hne := ne_of_nodup_cons hn
    have hl := ha j List.mem_cons_self
    -- Whoever comes later has another id, so it is still absent then.
    have hrest : ∀ i ∈ is, (l.hear (.registered j))[i.id]? = none := by
      intro i hi
      rw [hear_registered, if_neg (hne i hi)]
      exact ha i (List.mem_cons_of_mem j hi)
    obtain ⟨he, hf⟩ := ih (List.nodup_cons.mp hn).2 _ hrest
    refine ⟨⟨hl, he⟩, ?_⟩
    intro id i
    rw [List.map_cons, List.foldl_cons, hf, hear_registered, List.mem_cons]
    by_cases hid : j.id = id
    · rw [if_pos hid, ← hid, hl]
      constructor
      · rintro (h | ⟨hm, hi⟩)
        · cases h
          exact Or.inr ⟨Or.inl rfl, rfl⟩
        · exact Or.inr ⟨Or.inr hm, hi⟩
      · rintro (h | ⟨rfl | hm, hi⟩)
        · cases h
        · exact Or.inl rfl
        · exact Or.inr ⟨hm, hi⟩
    · rw [if_neg hid]
      constructor
      · rintro (h | ⟨hm, hi⟩)
        · exact Or.inl h
        · exact Or.inr ⟨Or.inr hm, hi⟩
      · rintro (h | ⟨rfl | hm, hi⟩)
        · exact Or.inl h
        · exact absurd hi hid
        · exact Or.inr ⟨hm, hi⟩

theorem hear_departures (is : List Info) (hn : (is.map Info.id).Nodup) (l : Ledger)
    (ha : ∀ i ∈ is, l[i.id]? = some i) :
    l.ExpectsAll (is.map .unregistered) ∧ ∀ (id : String) (i : Info),
      ((is.map .unregistered).foldl hear l)[id]? = some i ↔
        l[id]? = some i ∧ ∀ j ∈ is, j.id ≠ id := by
  induction is generalizing l with
  | nil => simp [ExpectsAll]
  | cons j is ih =>
    have hne := ne_of_nodup_cons hn
    have hl := ha j List.mem_cons_self
    have hrest : ∀ i ∈ is, (l.hear (.unregistered j))[i.id]? = some i := by
      intro i hi
      rw [hear_unregistered, if_neg (hne i hi)]
      exact ha i (List.mem_cons_of_mem j hi)
    obtain ⟨he, hf⟩ := ih (List.nodup_cons.mp hn).2 _ hrest
    refine ⟨⟨hl, he⟩, ?_⟩
    intro id i
    rw [List.map_cons, List.foldl_cons, hf, hear_unregistered, List.forall_mem_cons]
    by_cases hid : j.id = id
    · rw [if_pos hid]
      constructor
      · rintro ⟨h, -⟩
        cases h
      · rintro ⟨-, hn, -⟩
        exact absurd hid hn
    · rw [if_neg hid]
      constructor
      · rintro ⟨h, hn⟩
        exact ⟨h, hid, hn⟩
      · rintro ⟨h, -, hn⟩
        exact ⟨h, hn⟩

variable {H : Type} [Handler H]

def Mirrors (l : Ledger) (r : Registry H) : Prop := ∀ id : String, l[id]? = r.info? id

end Ledger

namespace Registry

variable {H : Type} [Handler H] {l : Ledger} {r : Registry H}

theorem info_eq_some_iff (r : Registry H) (id : String) (i : Info) :
    r.info? id = some i ↔ ∃ e : Entry H, r.roster.active[id]? = some e ∧ e.info = i := by
  rw [info?, Option.map_eq_some_iff]

theorem info_congr {s : Registry H} (h : s.roster.active = r.roster.active) (id : String) :
    s.info? id = r.info? id := by
  rw [info?, info?, h]

theorem hear_leaving (hc : r.roster.Coherent) (hm : l.Mirrors r) (id : String) :
    l.ExpectsAll (r.roster.leaving id) ∧ ∀ j : String,
      ((r.roster.leaving id).foldl Ledger.hear l)[j]? = if id = j then none else l[j]? := by
  have hl := hm id
  cases ha : r.roster.active[id]? with
  | none =>
    have hn : l[id]? = none := by rw [hl, info?, ha]; rfl
    simp only [Roster.leaving, ha, Option.toList_none, List.map_nil, List.foldl_nil]
    refine ⟨trivial, ?_⟩
    intro j
    split
    · next h => rw [← h, hn]
    · rfl
  | some e =>
    have hid : e.info.id = id := hc.named ha
    have hs : l[id]? = some e.info := by rw [hl, info?, ha]; rfl
    simp only [Roster.leaving, ha, Option.toList_some, List.map_cons, List.map_nil,
      List.foldl_cons, List.foldl_nil]
    refine ⟨⟨?_, trivial⟩, ?_⟩
    · rw [Ledger.Expects, hid]
      exact hs
    · intro j
      rw [Ledger.hear_unregistered, hid]

theorem register_mirrored (declared : H → Int8) (h : H) (hc : r.roster.Coherent)
    (hm : l.Mirrors r) :
    l.ExpectsAll (r.register declared h).notices ∧
      Ledger.Mirrors ((r.register declared h).notices.foldl Ledger.hear l)
        (r.register declared h).registry := by
  obtain ⟨-, hr⟩ | ⟨-, -, hr⟩ | ⟨-, -, hr⟩ := register_cases declared h hc
  · rw [hr]
    exact ⟨trivial, hm⟩
  · rw [hr]
    have ha := Roster.note_active h r.roster
    exact ⟨trivial, fun id => (hm id).trans (info_congr ha id).symm⟩
  · rw [hr]
    obtain ⟨he, hl⟩ := hear_leaving hc hm (Handler.info h).id
    refine ⟨(l.expectsAll_append _ _).mpr ⟨he, ?_, trivial⟩, ?_⟩
    · exact (hl _).trans (if_pos rfl)
    · intro id
      have hi : (r.entry declared h).id = (Handler.info h).id := rfl
      simp only [List.foldl_append, List.foldl_cons, List.foldl_nil, Ledger.hear_registered, hl,
        info?, Roster.install_active, ExtTreeMap.getElem?_insert, Std.compare_eq_iff_eq, hi]
      split
      · rfl
      · exact hm id

theorem unregister_mirrored (hc : r.roster.Coherent) (hm : l.Mirrors r) (id : String) :
    l.ExpectsAll (r.unregister id).notices ∧
      Ledger.Mirrors ((r.unregister id).notices.foldl Ledger.hear l)
        (r.unregister id).registry := by
  rw [unregister_eq hc]
  obtain ⟨he, hl⟩ := hear_leaving hc hm id
  refine ⟨he, ?_⟩
  intro j
  simp only [hl, info?, Roster.withdraw_active, ExtTreeMap.getElem?_erase, Std.compare_eq_iff_eq]
  split
  · rfl
  · exact hm j

theorem info_id (hc : r.roster.Coherent) {id : String} {i : Info} (h : r.info? id = some i) :
    i.id = id := by
  obtain ⟨e, ha, rfl⟩ := (info_eq_some_iff r id i).mp h
  exact hc.named ha

theorem contains_active (r : Registry H) (id : String) :
    r.roster.active.contains id = (r.info? id).isSome := by
  rw [ExtTreeMap.contains_eq_isSome_getElem?, info?, Option.isSome_map]

theorem reload_info_stays (declared : H → Int8) (hc : r.roster.Coherent) {p : Provider}
    (hp : r.provider.reload = .ok p) {id : String} {i j : Info} (hi : r.info? id = some i)
    (hj : (r.reload declared).registry.info? id = some j) : i = j := by
  obtain ⟨e, he, rfl⟩ := (info_eq_some_iff _ _ _).mp hi
  obtain ⟨x, hx, rfl⟩ := (info_eq_some_iff _ _ _).mp hj
  have hk := ((reload_active declared hc hp id x).mp hx).1
  rw [hc.remembered id e he] at hk
  exact congrArg Handler.info (Option.some.inj hk)

theorem mem_arrivals_iff (declared : H → Int8) (hc : r.roster.Coherent) {p : Provider}
    (hp : r.provider.reload = .ok p) (i : Info) :
    (∃ h ∈ r.roster.known.values.filter fun h => ! r.roster.active.contains (Handler.info h).id &&
        ! p.table.isDisabled (Handler.info h).id, Handler.info h = i) ↔
      r.info? i.id = none ∧ (r.reload declared).registry.info? i.id = some i := by
  simp only [List.mem_filter, mem_known_iff hc, Bool.and_eq_true, Bool.not_eq_true',
    contains_active, Option.isSome_eq_false_iff, Option.isNone_iff_eq_none]
  constructor
  · rintro ⟨h, ⟨hk, hn, hd⟩, rfl⟩
    let e : Entry H := ⟨h, p.table.priority (Handler.info h).id (declared h)⟩
    have he : (r.reload declared).registry.roster.active[(Handler.info h).id]? = some e :=
      (reload_active declared hc hp _ e).mpr ⟨hk, hd, rfl⟩
    exact ⟨hn, (info_eq_some_iff _ _ _).mpr ⟨e, he, rfl⟩⟩
  · rintro ⟨hn, hs⟩
    obtain ⟨e, he, hi⟩ := (info_eq_some_iff _ _ _).mp hs
    obtain ⟨hk, hd, -⟩ := (reload_active declared hc hp _ e).mp he
    have hid : (Handler.info e.handler).id = i.id := congrArg Info.id hi
    exact ⟨e.handler, ⟨by rw [hid]; exact hk, by rw [hid]; exact hn, hd⟩, hi⟩

theorem mem_departures_iff (hc : r.roster.Coherent) (s : Registry H) (i : Info) :
    (∃ a ∈ r.roster.active.toList.filter fun a => ! s.roster.active.contains a.1,
        a.2.info = i) ↔ r.info? i.id = some i ∧ s.info? i.id = none := by
  simp only [List.mem_filter, Bool.not_eq_true', contains_active, Option.isSome_eq_false_iff,
    Option.isNone_iff_eq_none]
  constructor
  · rintro ⟨⟨id, e⟩, ⟨hm, hn⟩, rfl⟩
    have ha := ExtTreeMap.mem_toList_iff_getElem?_eq_some.mp hm
    have hid : e.info.id = id := hc.named ha
    rw [hid]
    exact ⟨(info_eq_some_iff _ _ _).mpr ⟨e, ha, rfl⟩, hn⟩
  · rintro ⟨hr, hn⟩
    obtain ⟨e, ha, he⟩ := (info_eq_some_iff _ _ _).mp hr
    exact ⟨(i.id, e), ⟨ExtTreeMap.mem_toList_iff_getElem?_eq_some.mpr ha, hn⟩, he⟩

theorem reload_announces (declared : H → Int8) (hc : r.roster.Coherent) {p : Provider}
    (hp : r.provider.reload = .ok p) :
    ∃ back gone : List Info,
      (r.reload declared).notices = back.map .registered ++ gone.map .unregistered ∧
      (back.map Info.id).Pairwise (· < ·) ∧ (gone.map Info.id).Pairwise (· < ·) ∧
      (∀ i, i ∈ back ↔ r.info? i.id = none ∧
        (r.reload declared).registry.info? i.id = some i) ∧
      ∀ i, i ∈ gone ↔ r.info? i.id = some i ∧
        (r.reload declared).registry.info? i.id = none := by
  have hn := reload_notices declared hc hp
  rw [dropped] at hn
  refine ⟨(r.roster.known.values.filter fun h => ! r.roster.active.contains (Handler.info h).id &&
      ! p.table.isDisabled (Handler.info h).id).map Handler.info,
    (r.roster.active.toList.filter fun a =>
      ! (r.reload declared).registry.roster.active.contains a.1).map fun a => a.2.info,
    ?_, ?_, ?_, ?_, ?_⟩
  · rw [hn, List.map_map, List.map_map]
    rfl
  · have ho := Trees.values_ordered r.roster.known (fun h => (Handler.info h).id)
      fun id h hk => (hc.worded id h hk).1
    rw [List.map_map, List.pairwise_map]
    exact (ho.sublist List.filter_sublist).imp compareOfLessAndEq_eq_lt.mp
  · have ho := r.roster.active.ordered_keys_toList
    rw [List.map_map, List.pairwise_map]
    apply (ho.sublist List.filter_sublist).imp_of_mem
    intro a b ha hb hab
    have hid (x : String × Entry H) (hx : x ∈ r.roster.active.toList) : x.2.info.id = x.1 :=
      hc.named (ExtTreeMap.mem_toList_iff_getElem?_eq_some.mp hx)
    dsimp only [Function.comp]
    rw [hid a (List.mem_filter.mp ha).1, hid b (List.mem_filter.mp hb).1]
    exact compareOfLessAndEq_eq_lt.mp hab
  · intro i
    rw [List.mem_map, mem_arrivals_iff declared hc hp]
  · intro i
    rw [List.mem_map, mem_departures_iff hc]

theorem reload_mirrored (declared : H → Int8) (hc : r.roster.Coherent) (hm : l.Mirrors r) :
    l.ExpectsAll (r.reload declared).notices ∧
      Ledger.Mirrors ((r.reload declared).notices.foldl Ledger.hear l)
        (r.reload declared).registry := by
  cases hp : r.provider.reload with
  | error t =>
    rw [reload_of_error declared hp]
    exact ⟨trivial, hm⟩
  | ok p =>
    have hc' := reload_coherent declared hc
    obtain ⟨back, gone, hn, hb, hg, hback, hgone⟩ := reload_announces declared hc hp
    obtain ⟨he, hl⟩ := Ledger.hear_arrivals back (hb.imp String.ne_of_lt) l
      (fun i hi => (hm i.id).trans ((hback i).mp hi).1)
    obtain ⟨he', hl'⟩ := Ledger.hear_departures gone (hg.imp String.ne_of_lt) _
      (fun i hi => (hl i.id i).mpr (Or.inl ((hm i.id).trans ((hgone i).mp hi).1)))
    rw [hn]
    refine ⟨(l.expectsAll_append _ _).mpr ⟨he, he'⟩, ?_⟩
    intro id
    apply Option.ext
    intro i
    rw [List.foldl_append, hl', hl, hm]
    constructor
    · -- An id that is not among those who left is one that stayed or one that came.
      rintro ⟨hr | ⟨hi, rfl⟩, hnone⟩
      · cases hs : (r.reload declared).registry.info? id with
        | none =>
          have hid := info_id hc hr
          rw [← hid] at hr hs
          exact absurd hid (hnone i ((hgone i).mpr ⟨hr, hs⟩))
        | some j => rw [reload_info_stays declared hc hp hr hs]
      · exact ((hback i).mp hi).2
    · intro hs
      have hid := info_id hc' hs
      refine ⟨?_, ?_⟩
      · cases hr : r.info? id with
        | none => exact Or.inr ⟨(hback i).mpr ⟨by rw [hid]; exact hr, by rw [hid]; exact hs⟩, hid⟩
        | some j => exact Or.inl (by rw [reload_info_stays declared hc hp hr hs])
      · rintro j hj rfl
        rw [((hgone j).mp hj).2] at hs
        cases hs

theorem make_mirrored (m : Move H) (hc : r.roster.Coherent) (hm : l.Mirrors r) :
    l.ExpectsAll (r.make m).notices ∧
      (l.follow m (r.make m).notices).Mirrors (r.make m).registry := by
  cases m with
  | register declared h => exact register_mirrored declared h hc hm
  | unregister id => exact unregister_mirrored hc hm id
  | clear =>
    refine ⟨trivial, ?_⟩
    intro id
    simp [Ledger.follow, make, clear, info?, Roster.empty]
  | reload declared => exact reload_mirrored declared hc hm
  | provide p => exact ⟨trivial, hm⟩

end Registry

end Brokerage
