import Brokerage.Proofs.Registry.Filing
import Mathlib.Logic.Function.Basic

/-!
An index as a catalog that keeps the entries of each kind by id. Entries are filed by rank, which is
finer than their ids, so a removal that looks under one rank must find what going through all entries
of the kind would find.
-/

namespace Brokerage

open Std

variable {H : Type}

abbrev Catalog (H : Type) := Kind → ExtTreeMap String (Entry H)

variable [Handler H]

def Entry.Precedes (x y : Entry H) : Prop :=
  y.priority < x.priority ∨ x.priority = y.priority ∧ x.id < y.id

namespace Catalog

def add (e : Entry H) (c : Catalog H) : Bool × Catalog H :=
  (! (c e.kind).contains e.id, Function.update c e.kind ((c e.kind).insertIfNew e.id e))

def remove (e : Entry H) (c : Catalog H) : Bool × Catalog H :=
  ((c e.kind).contains e.id, Function.update c e.kind ((c e.kind).erase e.id))

end Catalog

namespace Ranking

def sweep (e : Entry H) (g : Ranking H) : Bool × Ranking H :=
  let rest := g.filter fun _ x => x.id ≠ e.id
  (rest.size ≠ g.size, rest)

structure Lists (g : Ranking H) (m : ExtTreeMap String (Entry H)) : Prop where
  filed : ∀ (rank : Rank) (e : Entry H), g[rank]? = some e ↔ m[rank.id]? = some e ∧ e.rank = rank
  named : ∀ (id : String) (e : Entry H), m[id]? = some e → e.id = id

theorem holds_iff_mem (g : Ranking H) (id : String) :
    g.holds id = true ↔ ∃ x ∈ g.values, x.id = id := by
  simp only [holds, List.any_eq_true, decide_eq_true_eq]

theorem sweep_fst (e : Entry H) (g : Ranking H) : (g.sweep e).1 = g.holds e.id := by
  rw [Bool.eq_iff_iff, holds_iff, sweep, decide_eq_true_eq, ne_eq,
    ExtTreeMap.size_filter_eq_size_iff]
  constructor
  · intro h
    obtain ⟨rank, hr⟩ := not_forall.mp h
    obtain ⟨hm, hr⟩ := not_forall.mp hr
    exact ⟨rank, g[rank], ExtTreeMap.getElem?_eq_some_getElem hm, by simpa using hr⟩
  · rintro ⟨rank, x, hr, hx⟩ h
    obtain ⟨hm, rfl⟩ := ExtTreeMap.getElem?_eq_some_iff.mp hr
    exact of_decide_eq_true (h rank hm) hx

theorem getElem?_sweep (e : Entry H) (g : Ranking H) (rank : Rank) (x : Entry H) :
    (g.sweep e).2[rank]? = some x ↔ g[rank]? = some x ∧ x.id ≠ e.id := by
  simp [sweep]

theorem remove_of_unranked {g : Ranking H} {e : Entry H} (h : g[e.rank]? = none) :
    g.remove e = g.sweep e := by
  simp only [remove, Trees.contains_of_none h, Bool.false_eq_true, ↓reduceIte, sweep]

namespace Lists

variable {g : Ranking H} {m : ExtTreeMap String (Entry H)}

theorem empty : Lists (∅ : Ranking H) ∅ := ⟨by simp, by simp⟩

theorem ranked (h : g.Lists m) {id : String} {e : Entry H} (he : m[id]? = some e) :
    g[e.rank]? = some e := by
  have hid : e.rank.id = id := h.named id e he
  rw [h.filed, hid]
  exact ⟨he, rfl⟩

theorem mem_iff (h : g.Lists m) (e : Entry H) : e ∈ g.values ↔ m[e.id]? = some e := by
  rw [Trees.mem_values_iff]
  constructor
  · rintro ⟨rank, hr⟩
    obtain ⟨hm, rfl⟩ := (h.filed rank e).mp hr
    exact hm
  · intro hm
    exact ⟨e.rank, h.ranked hm⟩

theorem once (h : g.Lists m) {x y : Entry H} (hx : x ∈ g.values) (hy : y ∈ g.values)
    (hid : x.id = y.id) : x = y := by
  rw [h.mem_iff] at hx hy
  rw [hid, hy] at hx
  cases hx
  rfl

theorem ordered (h : g.Lists m) :
    g.values.Pairwise fun x y => compare x.rank y.rank = .lt :=
  Trees.values_ordered g Entry.rank fun rank x hr => ((h.filed rank x).mp hr).2

theorem precede (h : g.Lists m) : g.values.Pairwise Entry.Precedes :=
  h.ordered.imp fun {x y} hlt => (Rank.compare_eq_lt_iff x.rank y.rank).mp hlt

theorem ids_nodup (h : g.Lists m) : (g.values.map Entry.id).Nodup := by
  rw [List.Nodup, List.pairwise_map]
  apply h.ordered.imp_of_mem
  intro x y hx hy hlt hid
  rw [h.once hx hy hid, Std.compare_self] at hlt
  cases hlt

theorem holds_eq (h : g.Lists m) (id : String) : g.holds id = m.contains id := by
  rw [Bool.eq_iff_iff, holds_iff, ExtTreeMap.contains_eq_isSome_getElem?,
    Option.isSome_iff_exists]
  constructor
  · rintro ⟨rank, e, hr, rfl⟩
    obtain ⟨hm, rfl⟩ := (h.filed rank e).mp hr
    exact ⟨e, hm⟩
  · rintro ⟨e, hm⟩
    exact ⟨e.rank, e, h.ranked hm, h.named id e hm⟩

theorem insert (h : g.Lists m) {e : Entry H} (hn : e.id ∉ m) :
    Lists (g.insert e.rank e) (m.insertIfNew e.id e) := by
  constructor
  · intro rank x
    have hid : e.rank.id = e.id := rfl
    have hf := h.filed rank x
    rw [ExtTreeMap.getElem?_insert, ExtTreeMap.getElem?_insertIfNew]
    simp only [Std.compare_eq_iff_eq, hn, not_false_eq_true, and_true]
    -- Nothing is filed under the id yet, under whatever rank.
    have hnone : m[e.id]? = none := ExtTreeMap.getElem?_eq_none hn
    grind
  · intro id x hx
    rw [ExtTreeMap.getElem?_insertIfNew] at hx
    split at hx
    · next hj =>
      cases hx
      exact LawfulEqCmp.eq_of_compare hj.1
    · exact h.named id x hx

theorem add (h : g.Lists m) (e : Entry H) :
    (g.add e).1 = (! m.contains e.id) ∧ (g.add e).2.Lists (m.insertIfNew e.id e) := by
  have hh := h.holds_eq e.id
  cases hm : m.contains e.id with
  | true =>
    rw [hm] at hh
    simp only [Ranking.add, hh, ↓reduceIte, Trees.insertIfNew_of_contains hm]
    exact ⟨rfl, h⟩
  | false =>
    rw [hm] at hh
    rw [add_of_absent hh]
    refine ⟨rfl, h.insert ?_⟩
    rw [ExtTreeMap.mem_iff_contains, hm]
    exact Bool.false_ne_true

theorem sweep (h : g.Lists m) (e : Entry H) :
    (g.sweep e).1 = m.contains e.id ∧ (g.sweep e).2.Lists (m.erase e.id) := by
  refine ⟨by rw [sweep_fst, h.holds_eq], ?_, ?_⟩
  · intro rank x
    have hid : x.rank = rank → x.id = rank.id := congrArg Rank.id
    rw [getElem?_sweep, h.filed, ExtTreeMap.getElem?_erase]
    grind
  · intro id x hx
    rw [ExtTreeMap.getElem?_erase] at hx
    split at hx
    · cases hx
    · exact h.named id x hx

theorem sweep_of_ranked (h : g.Lists m) {e x : Entry H} (hr : g[e.rank]? = some x) :
    g.sweep e = (true, g.erase e.rank) := by
  have hrank : x.rank = e.rank := ((h.filed e.rank x).mp hr).2
  have hid : x.id = e.id := congrArg Rank.id hrank
  have hx : x ∈ g.values := (Trees.mem_values_iff g x).mpr ⟨e.rank, hr⟩
  apply Prod.ext
  · rw [sweep_fst, holds_iff]
    exact ⟨e.rank, x, hr, hid⟩
  · apply ExtTreeMap.ext_getElem?
    intro rank
    apply Option.ext
    intro y
    rw [getElem?_sweep, ExtTreeMap.getElem?_erase]
    split
    · next hj =>
      rw [← LawfulEqCmp.eq_of_compare hj, hr]
      constructor
      · rintro ⟨hy, hn⟩
        cases hy
        exact absurd hid hn
      · nofun
    · next hj =>
      refine ⟨And.left, fun hy => ⟨hy, fun hyid => hj ?_⟩⟩
      have hm : y ∈ g.values := (Trees.mem_values_iff g y).mpr ⟨rank, hy⟩
      have hxy : x = y := h.once hx hm (hid.trans hyid.symm)
      rw [← ((h.filed rank y).mp hy).2, ← hxy, hrank]
      exact ReflCmp.compare_self

theorem remove_eq_sweep (h : g.Lists m) (e : Entry H) : g.remove e = g.sweep e := by
  cases hr : g[e.rank]? with
  | none => exact remove_of_unranked hr
  | some x => rw [remove_of_ranked hr, h.sweep_of_ranked hr]

end Lists

end Ranking

namespace Index

structure Lists (ix : Index H) (c : Catalog H) : Prop where
  inhabited : ix.Inhabited
  rankings : ∀ k : Kind, (ix.ranking k).Lists (c k)
  kinds : ∀ (k : Kind) (id : String) (e : Entry H), (c k)[id]? = some e → e.kind = k

theorem add_of_held {ix : Index H} {e : Entry H} (h : (ix.ranking e.kind).holds e.id = true) :
    ix.add e = (false, ix) := by
  obtain ⟨rank, x, hr, -⟩ := (Ranking.holds_iff _ _).mp h
  have hk : ix[e.kind]? = some (ix.ranking e.kind) := get_of_ranked hr
  simp only [add, Ranking.add, h, ↓reduceIte, Trees.insert_of_some hk]

namespace Lists

variable {ix : Index H} {c : Catalog H}

theorem empty : Lists (∅ : Index H) fun _ => ∅ where
  inhabited := Inhabited.empty
  rankings k := by rw [ranking_empty]; exact Ranking.Lists.empty
  kinds k id e h := by simp at h

theorem update (h : ix.Lists c) {next : Index H} {k : Kind} {m : ExtTreeMap String (Entry H)}
    (hi : next.Inhabited) (hl : (next.ranking k).Lists m)
    (ho : ∀ j : Kind, k ≠ j → next.ranking j = ix.ranking j)
    (hm : ∀ (id : String) (e : Entry H), m[id]? = some e → e.kind = k) :
    next.Lists (Function.update c k m) := by
  refine ⟨hi, ?_, ?_⟩
  · intro j
    by_cases hj : k = j
    · rw [← hj, Function.update_self]
      exact hl
    · rw [Function.update_of_ne (Ne.symm hj), ho j hj]
      exact h.rankings j
  · intro j id e he
    by_cases hj : k = j
    · rw [← hj, Function.update_self] at he
      exact (hm id e he).trans hj
    · rw [Function.update_of_ne (Ne.symm hj)] at he
      exact h.kinds j id e he

theorem add (h : ix.Lists c) (e : Entry H) :
    (ix.add e).1 = (c.add e).1 ∧ (ix.add e).2.Lists (c.add e).2 := by
  obtain ⟨ha, hl⟩ := (h.rankings e.kind).add e
  refine ⟨ha, h.update ?_ ?_ ?_ ?_⟩
  · cases hh : (ix.ranking e.kind).holds e.id with
    | true =>
      rw [add_of_held hh]
      exact h.inhabited
    | false => exact h.inhabited.add hh
  · rw [ranking_add, if_pos rfl]
    exact hl
  · intro j hj
    rw [ranking_add, if_neg hj]
  · intro id x hx
    rw [ExtTreeMap.getElem?_insertIfNew] at hx
    split at hx
    · cases hx
      rfl
    · exact h.kinds e.kind id x hx

theorem remove (h : ix.Lists c) (e : Entry H) :
    (ix.remove e).1 = (c.remove e).1 ∧ (ix.remove e).2.Lists (c.remove e).2 := by
  obtain ⟨ha, hl⟩ := (h.rankings e.kind).sweep e
  rw [← (h.rankings e.kind).remove_eq_sweep] at ha hl
  refine ⟨(remove_fst ix e).trans ha, h.update (h.inhabited.remove e) ?_ ?_ ?_⟩
  · rw [ranking_remove, if_pos rfl]
    exact hl
  · intro j hj
    rw [ranking_remove, if_neg hj]
  · intro id x hx
    rw [ExtTreeMap.getElem?_erase] at hx
    split at hx
    · cases hx
    · exact h.kinds e.kind id x hx

end Lists

inductive Change (H : Type) where
  | add (e : Entry H)
  | remove (e : Entry H)

def Change.makeAll {S : Type} (make : Change H → S → Bool × S) :
    List (Change H) → S → List Bool × S
  | [], s => ([], s)
  | x :: xs, s =>
    let (answer, s) := make x s
    let (answers, s) := makeAll make xs s
    (answer :: answers, s)

def make : Change H → Index H → Bool × Index H
  | .add e => add e
  | .remove e => remove e

def Change.record : Change H → Catalog H → Bool × Catalog H
  | .add e => Catalog.add e
  | .remove e => Catalog.remove e

namespace Lists

variable {ix : Index H} {c : Catalog H}

theorem make (h : ix.Lists c) (x : Change H) :
    (Index.make x ix).1 = (x.record c).1 ∧ (Index.make x ix).2.Lists (x.record c).2 := by
  cases x with
  | add e => exact h.add e
  | remove e => exact h.remove e

theorem makeAll (h : ix.Lists c) (xs : List (Change H)) :
    (Change.makeAll Index.make xs ix).1 = (Change.makeAll Change.record xs c).1 ∧
      (Change.makeAll Index.make xs ix).2.Lists (Change.makeAll Change.record xs c).2 := by
  induction xs generalizing ix c with
  | nil => exact ⟨rfl, h⟩
  | cons x xs ih =>
    obtain ⟨ha, hl⟩ := h.make x
    obtain ⟨has, hls⟩ := ih hl
    exact ⟨congrArg₂ List.cons ha has, hls⟩

end Lists

omit [Handler H] in
theorem Inhabited.mem_iff {ix : Index H} (h : ix.Inhabited) (k : Kind) :
    k ∈ ix ↔ ∃ x : Entry H, x ∈ (ix.ranking k).values := by
  rw [ExtTreeMap.mem_iff_isSome_getElem?, Option.isSome_iff_exists]
  constructor
  · rintro ⟨g, hg⟩
    obtain ⟨rank, x, hx⟩ := Trees.exists_of_ne_empty (h k g hg)
    rw [ranking_of_some hg]
    exact ⟨x, (Trees.mem_values_iff g x).mpr ⟨rank, hx⟩⟩
  · rintro ⟨x, hx⟩
    obtain ⟨rank, hr⟩ := (Trees.mem_values_iff _ x).mp hx
    exact ⟨_, get_of_ranked hr⟩

structure Added (e : Entry H) (ix : Index H) (o : Bool × Index H) : Prop where
  answer : o.1 = true ↔ ∀ x ∈ (ix.ranking e.kind).values, x.id ≠ e.id
  entered : o.1 = true →
    ∀ x, x ∈ (o.2.ranking e.kind).values ↔ x = e ∨ x ∈ (ix.ranking e.kind).values
  refused : o.1 = false → o.2 = ix
  others : ∀ k : Kind, k ≠ e.kind → o.2[k]? = ix[k]?

structure Removed (e : Entry H) (ix : Index H) (o : Bool × Index H) : Prop where
  answer : o.1 = true ↔ ∃ x ∈ (ix.ranking e.kind).values, x.id = e.id
  left : ∀ x, x ∈ (o.2.ranking e.kind).values ↔ x ∈ (ix.ranking e.kind).values ∧ x.id ≠ e.id
  dropped : e.kind ∈ o.2 ↔ ∃ x ∈ (ix.ranking e.kind).values, x.id ≠ e.id
  others : ∀ k : Kind, k ≠ e.kind → o.2[k]? = ix[k]?

namespace Lists

variable {ix : Index H} {c : Catalog H}

theorem others (h : ix.Lists c) {next : Index H} (hn : next.Inhabited) {e : Entry H}
    (ho : ∀ k : Kind, e.kind ≠ k → next.ranking k = ix.ranking k) (k : Kind) (hk : k ≠ e.kind) :
    next[k]? = ix[k]? := by
  rw [hn.getElem?_eq, h.inhabited.getElem?_eq, ho k hk.symm]

theorem added (h : ix.Lists c) (e : Entry H) : Added e ix (ix.add e) := by
  have hl := h.rankings e.kind
  obtain ⟨ha, hn⟩ := h.add e
  refine ⟨?_, ?_, ?_, h.others hn.inhabited fun k hk => by rw [ranking_add, if_neg hk]⟩
  · rw [ha, Catalog.add, ← hl.holds_eq, Bool.not_eq_true', Bool.eq_false_iff, ne_eq,
      Ranking.holds_iff_mem]
    simp
  · intro ht x
    have hm : e.id ∉ c e.kind := by
      rw [ha, Catalog.add, Bool.not_eq_true'] at ht
      rw [ExtTreeMap.mem_iff_contains, ht]
      exact Bool.false_ne_true
    have hnone : (c e.kind)[e.id]? = none := ExtTreeMap.getElem?_eq_none hm
    rw [ranking_add, if_pos rfl, (hl.add e).2.mem_iff, hl.mem_iff, ExtTreeMap.getElem?_insertIfNew]
    simp only [Std.compare_eq_iff_eq, hm, not_false_eq_true, and_true]
    grind
  · intro hf
    rw [ha, Catalog.add, Bool.not_eq_false', ← hl.holds_eq] at hf
    rw [add_of_held hf]

theorem removed (h : ix.Lists c) (e : Entry H) : Removed e ix (ix.remove e) := by
  have hl := h.rankings e.kind
  have hn := (h.remove e).2
  have left : ∀ x, x ∈ ((ix.remove e).2.ranking e.kind).values ↔
      x ∈ (ix.ranking e.kind).values ∧ x.id ≠ e.id := by
    intro x
    rw [ranking_remove, if_pos rfl, hl.remove_eq_sweep, Trees.mem_values_iff, Trees.mem_values_iff]
    simp only [Ranking.getElem?_sweep, exists_and_right]
  refine ⟨?_, left, ?_, h.others hn.inhabited fun k hk => by rw [ranking_remove, if_neg hk]⟩
  · rw [remove_fst, hl.remove_eq_sweep, Ranking.sweep_fst, Ranking.holds_iff_mem]
  · rw [hn.inhabited.mem_iff]
    exact exists_congr left

end Lists

/-- However an index has come to be, it answers as a catalog by kind and id does and holds the same
entries, in rankings of their own kind that are not empty and in which no id comes twice. To remove
what is filed under a rank comes to the same as going through all entries for the id. -/
theorem filed_by_id (changes : List (Change H)) :
    let made := Change.makeAll make changes (∅ : Index H)
    let recorded := Change.makeAll Change.record changes (fun _ => ∅ : Catalog H)
    let ix := made.2
    made.1 = recorded.1 ∧
    (∀ (k : Kind) (x : Entry H), x ∈ (ix.ranking k).values ↔ (recorded.2 k)[x.id]? = some x) ∧
    (∀ (k : Kind) (g : Ranking H), ix[k]? = some g →
      g ≠ ∅ ∧ (g.values.map Entry.id).Nodup ∧ g.values.Pairwise Entry.Precedes ∧
        ∀ (rank : Rank) (x : Entry H), g[rank]? = some x → x.rank = rank ∧ x.kind = k) ∧
    ∀ e : Entry H, Added e ix (ix.add e) ∧ Removed e ix (ix.remove e) ∧
      (ix.ranking e.kind).remove e = (ix.ranking e.kind).sweep e := by
  intro made recorded ix
  obtain ⟨ha, hl⟩ : made.1 = recorded.1 ∧ ix.Lists recorded.2 := Lists.empty.makeAll changes
  refine ⟨ha, fun k x => (hl.rankings k).mem_iff x, ?_, ?_⟩
  · intro k g hg
    have hk := hl.rankings k
    rw [ranking_of_some hg] at hk
    refine ⟨hl.inhabited k g hg, hk.ids_nodup, hk.precede, ?_⟩
    intro rank x hr
    obtain ⟨hx, hrank⟩ := (hk.filed rank x).mp hr
    exact ⟨hrank, hl.kinds k rank.id x hx⟩
  · intro e
    exact ⟨hl.added e, hl.removed e, (hl.rankings e.kind).remove_eq_sweep e⟩

end Index

end Brokerage
