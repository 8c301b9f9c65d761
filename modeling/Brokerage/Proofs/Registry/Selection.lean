import Brokerage.Proofs.Registry.Runs
import Brokerage.Registry.Views
import Brokerage.Transaction.Mediator

namespace Brokerage

open Std

namespace Registry

variable {H : Type} [Handler H]

theorem mem_ranking_iff {r : Registry H} (hc : r.roster.Coherent) (k : Kind) (e : Entry H) :
    e ∈ (r.roster.index.ranking k).values ↔ r.roster.active[e.id]? = some e ∧ e.kind = k := by
  rw [Trees.mem_values_iff]
  constructor
  · rintro ⟨rank, hr⟩
    obtain ⟨ha, rfl, hk⟩ := (hc.filed k rank e).mp hr
    exact ⟨ha, hk⟩
  · rintro ⟨ha, rfl⟩
    exact ⟨e.rank, hc.ranked ha⟩

theorem ranking_ordered {r : Registry H} (hc : r.roster.Coherent) (k : Kind) :
    (r.roster.index.ranking k).values.Pairwise fun x y => compare x.rank y.rank = .lt :=
  Trees.values_ordered _ Entry.rank fun rank e hr => ((hc.filed k rank e).mp hr).2.1

end Registry

variable {H O : Type} [Trades H O]

namespace Case

def Suits (c : Case O) (generous : String → Bool) (e : Entry H) : Prop :=
  Trades.handles e.handler c.direction c.scope c.object = true ∧
    (generous e.id = false ∨ Trades.permits e.handler c.direction c.scope c.object = true)

instance (c : Case O) (generous : String → Bool) (e : Entry H) : Decidable (c.Suits generous e) :=
  inferInstanceAs (Decidable (_ ∧ _))

def inquiry (c : Case O) (generous : String → Bool) (e : Entry H) : List (Probe H) :=
  let permits := Trades.permits e.handler c.direction c.scope c.object
  let handles := Trades.handles e.handler c.direction c.scope c.object
  (if generous e.id = true then [⟨e.handler, c.direction, .permits, permits⟩] else []) ++
    if generous e.id = true ∧ permits = false then []
    else [⟨e.handler, c.direction, .handles, handles⟩]

theorem select_of_suits (c : Case O) {generous : String → Bool} {e : Entry H}
    (es : List (Entry H)) (hf : c.fits e = true) (hs : c.Suits generous e) :
    c.select generous (e :: es) = (some e, c.inquiry generous e) := by
  obtain ⟨hh, hg⟩ := hs
  have ha : c.ask e.handler .handles = true := hh
  rcases hg with hg | hp
  · simp only [select, inquiry, hf, hg, ha, hh, probe, Bool.not_true, Bool.false_eq_true,
      ↓reduceIte, Bool.false_and, false_and]
  · have hq : c.ask e.handler .permits = true := hp
    simp only [select, inquiry, hf, hq, ha, hh, hp, probe, Bool.not_true, Bool.false_eq_true,
      ↓reduceIte, Bool.and_false, Bool.true_eq_false, and_false]

theorem select_of_not_suits (c : Case O) {generous : String → Bool} {e : Entry H}
    (es : List (Entry H)) (hf : c.fits e = true) (hs : ¬ c.Suits generous e) :
    c.select generous (e :: es) =
      ((c.select generous es).1, c.inquiry generous e ++ (c.select generous es).2) := by
  have ha : c.ask e.handler .handles = Trades.handles e.handler c.direction c.scope c.object := rfl
  have hq : c.ask e.handler .permits = Trades.permits e.handler c.direction c.scope c.object := rfl
  by_cases hy : generous e.id = true ∧ Trades.permits e.handler c.direction c.scope c.object = false
  · obtain ⟨hg, hp⟩ := hy
    simp only [select, inquiry, probe, hq, hf, hg, hp, Bool.not_true, Bool.not_false,
      Bool.and_self, Bool.false_eq_true, ↓reduceIte, and_self, List.append_nil]
  · have hh : Trades.handles e.handler c.direction c.scope c.object = false := by
      rw [← Bool.not_eq_true]
      intro hh
      apply hs
      refine ⟨hh, ?_⟩
      cases hg : generous e.id with
      | false => exact Or.inl rfl
      | true => exact Or.inr (Bool.not_eq_false _ ▸ fun hp => hy ⟨hg, hp⟩)
    have hy' : (generous e.id &&
        ! Trades.permits e.handler c.direction c.scope c.object) = false := by
      rw [← Bool.not_eq_true]
      simpa only [Bool.and_eq_true, Bool.not_eq_true'] using hy
    simp only [select, inquiry, probe, hf, hy, hy', ha, hq, hh, Bool.not_true, Bool.false_eq_true,
      ↓reduceIte, List.append_assoc, List.cons_append, List.nil_append]

theorem select_first (c : Case O) (generous : String → Bool) (es : List (Entry H))
    (hf : ∀ e ∈ es, c.fits e = true) :
    (∃ (before : List (Entry H)) (e : Entry H) (rest : List (Entry H)), es = before ++ e :: rest ∧
      (∀ x ∈ before, ¬ c.Suits generous x) ∧ c.Suits generous e ∧
      c.select generous es = (some e, (before ++ [e]).flatMap (c.inquiry generous))) ∨
    (∀ x ∈ es, ¬ c.Suits generous x) ∧
      c.select generous es = (none, es.flatMap (c.inquiry generous)) := by
  induction es with
  | nil => exact Or.inr ⟨by simp, rfl⟩
  | cons x es ih =>
    have hx := hf x List.mem_cons_self
    by_cases hs : c.Suits generous x
    · refine Or.inl ⟨[], x, es, rfl, by simp, hs, ?_⟩
      rw [c.select_of_suits es hx hs]
      simp
    · have hn := c.select_of_not_suits es hx hs
      rcases ih (fun e he => hf e (List.mem_cons_of_mem x he)) with
        ⟨before, e, rest, rfl, hb, he, hsel⟩ | ⟨hb, hsel⟩
      · refine Or.inl ⟨x :: before, e, rest, rfl, ?_, he, ?_⟩
        · intro y hy
          rcases List.mem_cons.mp hy with rfl | hy
          · exact hs
          · exact hb y hy
        · rw [hn, hsel]
          simp
      · refine Or.inr ⟨?_, ?_⟩
        · intro y hy
          rcases List.mem_cons.mp hy with rfl | hy
          · exact hs
          · exact hb y hy
        · rw [hn, hsel]
          simp

theorem select_fst (c : Case O) (generous : String → Bool) {es : List (Entry H)}
    (hf : ∀ e ∈ es, c.fits e = true) :
    (c.select generous es).1 = es.find? fun e => c.Suits generous e := by
  rcases c.select_first generous es hf with ⟨before, e, rest, rfl, hb, he, hs⟩ | ⟨hb, hs⟩
  · rw [hs, List.find?_append, List.find?_eq_none.mpr (by simpa using hb), Option.none_or,
      List.find?_cons_of_pos (by simpa using he)]
  · rw [hs, List.find?_eq_none.mpr (by simpa using hb)]

end Case

namespace Registry

theorem dispatch_fst {r : Registry H} (hc : r.roster.Coherent) (c : Case O) :
    (r.dispatch c).1 = (r.roster.index.ranking (Trades.kindOf H c.object)).values.find?
      fun e => c.Suits r.provider.table.isGenerous e := by
  rw [dispatch, c.select_fst]
  intro e he
  simp only [Case.fits, ((mem_ranking_iff hc _ e).mp he).2, decide_true]

/-- In a registry that has come to be in whatever way, a case goes to the first handler of its kind
that suits it, and nobody is asked in vain. -/
theorem mediate_first (p : Provider) (moves : List (Move H)) (c : Case O) :
    let r := after moves (start p)
    let k := Trades.kindOf H c.object
    let es := (r.roster.index.ranking k).values
    let generous := r.provider.table.isGenerous
    r.ranking k = es.map (fun e => ⟨e.info, e.priority⟩) ∧
    (∀ e : Entry H, e ∈ es ↔ r.roster.active[e.id]? = some e ∧ e.kind = k) ∧
    es.Pairwise (fun x y => compare x.rank y.rank = .lt) ∧
    ((∃ (before : List (Entry H)) (e : Entry H) (rest : List (Entry H)),
        es = before ++ e :: rest ∧ (∀ x ∈ before, ¬ c.Suits generous x) ∧ c.Suits generous e ∧
        r.mediate c = (some ⟨e.handler, e.info, c.direction, c.scope, c.object⟩,
          (before ++ [e]).flatMap (c.inquiry generous))) ∨
      (∀ x ∈ es, ¬ c.Suits generous x) ∧
        r.mediate c = (none, es.flatMap (c.inquiry generous))) := by
  intro r k es generous
  have hc : r.roster.Coherent := reached_coherent p moves
  have hm := mem_ranking_iff hc k
  refine ⟨rfl, hm, ranking_ordered hc k, ?_⟩
  have hf : ∀ e ∈ es, c.fits e = true := by
    intro e he
    simp only [Case.fits, ((hm e).mp he).2, k, decide_true]
  have hmed : r.mediate c = ((c.select generous es).1.map (Mediator.ofEntry c),
      (c.select generous es).2) := rfl
  rcases c.select_first generous es hf with ⟨before, e, rest, hes, hb, he, hs⟩ | ⟨hb, hs⟩
  · refine Or.inl ⟨before, e, rest, hes, hb, he, ?_⟩
    rw [hmed, hs]
    rfl
  · refine Or.inr ⟨hb, ?_⟩
    rw [hmed, hs]
    rfl

end Registry

end Brokerage
