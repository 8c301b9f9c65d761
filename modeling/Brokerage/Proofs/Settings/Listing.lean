import Brokerage.Proofs.Settings.Rows
import Brokerage.Proofs.Trees

namespace Brokerage

open Std

namespace Row

inductive Precedes (a b : Row) : Prop
  | higher {x y : Int32} (ha : a.priority = some x) (hb : b.priority = some y) (h : y < x)
  | level (hp : a.priority = b.priority) (h : a.id < b.id)
  | ranked {x : Int32} (ha : a.priority = some x) (hb : b.priority = none)

theorem order_eq_lt_iff (a b : Row) : a.order b = .lt ↔ a.Precedes b := by
  obtain ⟨i, n, d, g⟩ := a
  obtain ⟨j, m, d', g'⟩ := b
  have hid : compare i j = .lt ↔ i < j := compareOfLessAndEq_eq_lt
  cases n with
  | none =>
    cases m with
    | none =>
      rw [order, hid]
      constructor
      · intro h
        exact .level rfl h
      · rintro (⟨ha, -, -⟩ | ⟨-, h⟩ | ⟨ha, -⟩)
        · cases ha
        · exact h
        · cases ha
    | some y =>
      constructor
      · nofun
      · rintro (⟨ha, -, -⟩ | ⟨hp, -⟩ | ⟨ha, -⟩)
        · cases ha
        · cases hp
        · cases ha
  | some x =>
    cases m with
    | none => exact ⟨fun _ => .ranked rfl rfl, fun _ => rfl⟩
    | some y =>
      rw [order, Ordering.then_eq_lt, Std.compare_eq_lt, Std.compare_eq_iff_eq, hid]
      constructor
      · rintro (h | ⟨rfl, h⟩)
        · exact .higher rfl rfl h
        · exact .level rfl h
      · rintro (⟨ha, hb, h⟩ | ⟨hp, h⟩ | ⟨-, hb⟩)
        · cases ha
          cases hb
          exact .inl h
        · cases hp
          exact .inr ⟨rfl, h⟩
        · cases hb

def standing? (r : Row) : Option Standing :=
  if r.disabled then some .disabled else r.priority.map .ranked

end Row

namespace Settings

def stated (rows : List Row) : List (String × Standing) :=
  rows.filterMap fun r => r.standing?.map fun s => (r.id, s)

def ofRows (rows : List Row) : Settings where
  standings := .ofList (stated rows)
  generous := .ofList ((rows.filter Row.generous).map Row.id)

theorem standing?_row (t : Settings) (id : String) : (t.row id).standing? = t.standings[id]? := by
  cases hs : t.standings[id]? with
  | none => simp [row, Row.standing?, configured, isDisabled, hs]
  | some s => cases s <;> simp [row, Row.standing?, configured, isDisabled, hs]

theorem configured_of_disabled (t : Settings) {id : String} (h : t.isDisabled id = true) :
    t.configured id = none := by
  rw [configured, show t.standings[id]? = some .disabled by simpa [isDisabled] using h]

theorem mem_map_id_iff (t : Settings) (id : String) :
    id ∈ t.rows.map Row.id ↔ id ∈ t.standings ∨ id ∈ t.generous := by
  rw [t.map_id_rows.mem_iff, ExtTreeSet.mem_toList, mem_ids_iff, or_comm]
  rfl

theorem rows_precede (t : Settings) : t.rows.Pairwise Row.Precedes := by
  have hd : t.rows.Pairwise fun a b => a.id ≠ b.id := List.pairwise_map.mp t.ids_nodup
  apply (t.rows_ordered.and hd).imp
  rintro a b ⟨hle, hne⟩
  rw [← Row.order_eq_lt_iff]
  cases ho : a.order b with
  | lt => rfl
  | eq => exact absurd (Row.id_eq_of_order ho) hne
  | gt =>
    rw [ho] at hle
    cases hle

theorem eq_rows_of_precede {t : Settings} {rows : List Row} (ho : rows.Pairwise Row.Precedes)
    (hm : ∀ r, r ∈ rows ↔ r ∈ t.rows) : rows = t.rows := by
  have hlt : rows.Pairwise fun a b => a.order b = .lt :=
    ho.imp fun h => (Row.order_eq_lt_iff _ _).mpr h
  have hn : rows.Nodup := hlt.imp Row.ne_of_order
  have hp : t.rows.Perm rows :=
    (List.perm_ext_iff_of_nodup t.rows_nodup hn).mpr fun r => (hm r).symm
  have hle : rows.Pairwise fun a b => (a.order b).isLE = true := by
    apply hlt.imp
    intro a b h
    rw [h]
    rfl
  exact (eq_of_rows_ordered (List.Sublist.refl _) hle hp).symm

theorem mem_stated_iff (t : Settings) (id : String) (s : Standing) :
    (id, s) ∈ stated t.rows ↔ t.standings[id]? = some s := by
  simp only [stated, List.mem_filterMap, Option.map_eq_some_iff, Prod.mk.injEq]
  constructor
  · rintro ⟨r, hr, x, hx, rfl, rfl⟩
    have hrow := ((t.mem_rows_iff r).mp hr).2
    rwa [hrow, standing?_row] at hx
  · intro hs
    have hid : id ∈ t.ids := (t.mem_ids_iff id).mpr (.inr (Trees.mem_of_some hs))
    have hr : t.row id ∈ t.rows := (t.mem_rows_iff _).mpr ⟨hid, rfl⟩
    exact ⟨t.row id, hr, s, by rw [standing?_row, hs], rfl, rfl⟩

theorem stated_distinct (t : Settings) :
    (stated t.rows).Pairwise fun a b => ¬ compare a.1 b.1 = .eq := by
  have hd : t.rows.Pairwise fun a b => a.id ≠ b.id := List.pairwise_map.mp t.ids_nodup
  apply hd.filterMap
  intro a b hab x hx y hy
  obtain ⟨s, -, rfl⟩ := Option.map_eq_some_iff.mp hx
  obtain ⟨u, -, rfl⟩ := Option.map_eq_some_iff.mp hy
  exact fun h => hab (LawfulEqCmp.eq_of_compare h)

theorem mem_generous_ofRows (t : Settings) (id : String) :
    id ∈ (ofRows t.rows).generous ↔ id ∈ t.generous := by
  simp only [ofRows, ExtTreeSet.mem_ofList, List.contains_iff_mem, List.mem_map, List.mem_filter]
  constructor
  · rintro ⟨r, ⟨hr, hg⟩, rfl⟩
    rw [((t.mem_rows_iff r).mp hr).2] at hg
    exact hg
  · intro hg
    have hr : t.row id ∈ t.rows := (t.mem_rows_iff _).mpr ⟨(t.mem_ids_iff id).mpr (.inl hg), rfl⟩
    exact ⟨t.row id, ⟨hr, hg⟩, rfl⟩

theorem ofRows_rows (t : Settings) : ofRows t.rows = t := by
  have hs : (ofRows t.rows).standings = t.standings := Trees.ofList_eq t.stated_distinct t.mem_stated_iff
  have hg : (ofRows t.rows).generous = t.generous := ExtTreeSet.ext_mem t.mem_generous_ofRows
  exact congrArg₂ Settings.mk hs hg

/-- A table lists every id it mentions once, with what can be asked about the id. The rows follow
each other in the order of rows, which no other listing of them does, and no other table has them. -/
theorem rows_recoverable (t : Settings) :
    ((t.rows.map Row.id).Nodup ∧
      ∀ id : String, id ∈ t.rows.map Row.id ↔ id ∈ t.standings ∨ id ∈ t.generous) ∧
    (∀ r ∈ t.rows, r.priority = t.configured r.id ∧ r.disabled = t.isDisabled r.id ∧
      r.generous = t.isGenerous r.id ∧ (r.disabled = true → r.priority = none)) ∧
    (t.rows.Pairwise Row.Precedes ∧ ∀ rows : List Row, rows.Pairwise Row.Precedes →
      (∀ r, r ∈ rows ↔ r ∈ t.rows) → rows = t.rows) ∧
    ofRows t.rows = t ∧ ∀ u : Settings, u.rows = t.rows → u = t := by
  refine ⟨⟨t.ids_nodup, t.mem_map_id_iff⟩, ?_, ⟨t.rows_precede, fun _ => eq_rows_of_precede⟩,
    t.ofRows_rows, ?_⟩
  · intro r hr
    have hrow := ((t.mem_rows_iff r).mp hr).2
    refine ⟨congrArg Row.priority hrow, congrArg Row.disabled hrow, congrArg Row.generous hrow, ?_⟩
    intro hd
    rw [hrow] at hd ⊢
    exact t.configured_of_disabled hd
  · intro u hu
    rw [← u.ofRows_rows, hu, t.ofRows_rows]

end Settings

end Brokerage
