import Brokerage.Proofs.Registry.Reordering
import Brokerage.Proofs.Registry.Selection
import Brokerage.Scenario.Scripted

namespace Brokerage

open Std Text

variable {H O : Type} [Trades H O]

namespace Case

theorem select_congr (c : Case O) {generous generous' : String → Bool} {es : List (Entry H)}
    (h : ∀ e ∈ es, generous e.id = generous' e.id) :
    c.select generous es = c.select generous' es := by
  induction es with
  | nil => rfl
  | cons e es ih =>
    rw [select, select, h e List.mem_cons_self, ih fun x hx => h x (List.mem_cons_of_mem e hx)]

end Case

def Entry.First {H : Type} [Handler H] (P : Entry H → Prop) (e : Entry H) : Prop :=
  P e ∧ ∀ x : Entry H, P x → x = e ∨ compare e.rank x.rank = .lt

namespace Entry

variable {H : Type} [Handler H]

theorem not_lt_self (e : Entry H) : compare e.rank e.rank ≠ .lt := by
  rw [Std.compare_self]
  nofun

theorem ne_of_lt {x y : Entry H} (h : compare x.rank y.rank = .lt) : x ≠ y := by
  rintro rfl
  exact x.not_lt_self h

theorem lt_of_not_lt {x y : Entry H} (hid : x.id ≠ y.id) (h : compare y.rank x.rank ≠ .lt) :
    compare x.rank y.rank = .lt := by
  cases hc : compare x.rank y.rank with
  | lt => rfl
  | eq => exact absurd (congrArg Rank.id (LawfulEqCmp.eq_of_compare hc)) hid
  | gt => exact absurd (OrientedCmp.lt_of_gt hc) h

theorem First.congr {P Q : Entry H → Prop} (h : ∀ x, P x ↔ Q x) (e : Entry H) :
    First P e ↔ First Q e := by
  have hPQ : P = Q := funext fun x => propext (h x)
  rw [hPQ]

theorem find?_eq_some_iff {es : List (Entry H)}
    (ho : es.Pairwise fun x y => compare x.rank y.rank = .lt) (p : Entry H → Bool) (e : Entry H) :
    es.find? p = some e ↔ First (fun x => x ∈ es ∧ p x = true) e := by
  rw [List.find?_eq_some_iff_append]
  constructor
  · rintro ⟨hp, before, rest, rfl, hb⟩
    refine ⟨⟨by simp, hp⟩, ?_⟩
    rintro x ⟨hx, hpx⟩
    rcases List.mem_append.mp hx with hx | hx
    · simpa [hpx] using hb x hx
    · rcases List.mem_cons.mp hx with rfl | hx
      · exact Or.inl rfl
      · exact Or.inr ((List.pairwise_cons.mp (List.pairwise_append.mp ho).2.1).1 x hx)
  · rintro ⟨⟨he, hp⟩, hfirst⟩
    obtain ⟨before, rest, rfl⟩ := List.append_of_mem he
    refine ⟨hp, before, rest, rfl, ?_⟩
    intro x hx
    have hlt := (List.pairwise_append.mp ho).2.2 x hx e List.mem_cons_self
    rw [Bool.not_eq_true', ← Bool.not_eq_true]
    intro hpx
    rcases hfirst x ⟨List.mem_append_left _ hx, hpx⟩ with rfl | hgt
    · exact x.not_lt_self hlt
    · exact x.not_lt_self (TransCmp.lt_trans hlt hgt)

end Entry

namespace Registry

variable {r s : Registry H}

def Candidate (r : Registry H) (c : Case O) (e : Entry H) : Prop :=
  r.roster.active[e.id]? = some e ∧ e.kind = Trades.kindOf H c.object ∧
    c.Suits r.provider.table.isGenerous e

theorem Candidate.eq_of_id {c : Case O} {x y : Entry H} (hx : r.Candidate c x)
    (hy : r.Candidate c y) (hid : x.id = y.id) : x = y := by
  have h := hx.1
  rw [hid, hy.1] at h
  exact (Option.some.inj h).symm

theorem dispatch_eq_some_iff (hc : r.roster.Coherent) (c : Case O) (e : Entry H) :
    (r.dispatch c).1 = some e ↔ Entry.First (r.Candidate c) e := by
  rw [dispatch_fst hc, Entry.find?_eq_some_iff (ranking_ordered hc _)]
  apply Entry.First.congr
  intro x
  rw [mem_ranking_iff hc, decide_eq_true_eq, Candidate, and_assoc]

theorem dispatch_eq_none_iff (hc : r.roster.Coherent) (c : Case O) :
    (r.dispatch c).1 = none ↔ ∀ e, ¬ r.Candidate c e := by
  rw [dispatch_fst hc, List.find?_eq_none]
  simp only [mem_ranking_iff hc, decide_eq_true_eq, Candidate, and_imp, not_and]

section

variable (hr : r.roster.Coherent) (hs : s.roster.Coherent) {c : Case O} {Out : Entry H → Prop}
  (h : ∀ x, s.Candidate c x ↔ r.Candidate c x ∧ ¬ Out x)

include hr hs h

theorem dispatch_of_kept (hk : ∀ e, (r.dispatch c).1 = some e → ¬ Out e) :
    (s.dispatch c).1 = (r.dispatch c).1 := by
  cases hd : (r.dispatch c).1 with
  | none =>
    rw [dispatch_eq_none_iff hr] at hd
    rw [dispatch_eq_none_iff hs]
    exact fun e he => hd e ((h e).mp he).1
  | some e =>
    have hout := hk e hd
    rw [dispatch_eq_some_iff hr] at hd
    rw [dispatch_eq_some_iff hs]
    exact ⟨(h e).mpr ⟨hd.1, hout⟩, fun x hx => hd.2 x ((h x).mp hx).1⟩

theorem dispatch_of_dropped {e : Entry H} (he : (r.dispatch c).1 = some e)
    (hout : ∀ x, r.Candidate c x → (Out x ↔ x = e)) :
    ∃ before rest, (r.roster.index.ranking (Trades.kindOf H c.object)).values =
        before ++ e :: rest ∧
      (s.dispatch c).1 = rest.find? fun x => c.Suits r.provider.table.isGenerous x := by
  have ho := ranking_ordered hr (Trades.kindOf H c.object)
  have hm := mem_ranking_iff hr (Trades.kindOf H c.object)
  rw [dispatch_eq_some_iff hr] at he
  obtain ⟨before, rest, hes⟩ := List.append_of_mem ((hm e).mpr ⟨he.1.1, he.1.2.1⟩)
  refine ⟨before, rest, hes, ?_⟩
  rw [hes] at ho hm
  obtain ⟨-, hrest, hbefore⟩ := List.pairwise_append.mp ho
  obtain ⟨hbelow, hrest⟩ := List.pairwise_cons.mp hrest
  apply Option.ext
  intro x
  rw [dispatch_eq_some_iff hs, Entry.find?_eq_some_iff hrest]
  apply Entry.First.congr
  intro y
  rw [h, decide_eq_true_eq]
  constructor
  · -- Nobody before the old first is a candidate, so whoever is left stands below it.
    rintro ⟨hy, hn⟩
    refine ⟨?_, hy.2.2⟩
    have hne : y ≠ e := fun heq => hn ((hout y hy).mpr heq)
    have hlt := (he.2 y hy).resolve_left hne
    rcases List.mem_append.mp ((hm y).mpr ⟨hy.1, hy.2.1⟩) with hy' | hy'
    · exact absurd (TransCmp.lt_trans hlt (hbefore y hy' e List.mem_cons_self)) e.not_lt_self
    · exact (List.mem_cons.mp hy').resolve_left hne
  · rintro ⟨hy, hsuits⟩
    have hin : y ∈ before ++ e :: rest := by simp [hy]
    have hcand : r.Candidate c y := ⟨((hm y).mp hin).1, ((hm y).mp hin).2, hsuits⟩
    exact ⟨hcand, fun ho => Entry.ne_of_lt (hbelow y hy) ((hout y hcand).mp ho).symm⟩

end

theorem dispatch_of_joined (hr : r.roster.Coherent) (hs : s.roster.Coherent) {c : Case O}
    {e : Entry H} {Fit : Prop} (h : ∀ x, s.Candidate c x ↔ r.Candidate c x ∨ x = e ∧ Fit)
    (hnew : ∀ x, r.Candidate c x → x.id ≠ e.id) :
    ((s.dispatch c).1 = some e ∨ (s.dispatch c).1 = (r.dispatch c).1) ∧
      ((s.dispatch c).1 = some e ↔
        Fit ∧ ∀ x, (r.dispatch c).1 = some x → compare e.rank x.rank = .lt) := by
  by_cases hwins : Fit ∧ ∀ x, (r.dispatch c).1 = some x → compare e.rank x.rank = .lt
  · have hd : (s.dispatch c).1 = some e := by
      rw [dispatch_eq_some_iff hs]
      refine ⟨(h e).mpr (Or.inr ⟨rfl, hwins.1⟩), ?_⟩
      intro y hy
      rcases (h y).mp hy with hy | ⟨rfl, -⟩
      · -- It stands before the old first, and so before all the old candidates.
        cases hx : (r.dispatch c).1 with
        | none => exact absurd hy ((dispatch_eq_none_iff hr c).mp hx y)
        | some x =>
          have hlt := hwins.2 x hx
          rcases ((dispatch_eq_some_iff hr c x).mp hx).2 y hy with rfl | hxy
          · exact Or.inr hlt
          · exact Or.inr (TransCmp.lt_trans hlt hxy)
      · exact Or.inl rfl
    exact ⟨Or.inl hd, iff_of_true hd hwins⟩
  · have hd : (s.dispatch c).1 = (r.dispatch c).1 := by
      cases hx : (r.dispatch c).1 with
      | none =>
        rw [dispatch_eq_none_iff hs]
        intro y hy
        rcases (h y).mp hy with hy | ⟨-, hfit⟩
        · exact (dispatch_eq_none_iff hr c).mp hx y hy
        · exact hwins ⟨hfit, fun x hx' => by rw [hx] at hx'; cases hx'⟩
      | some x =>
        have hfirst := (dispatch_eq_some_iff hr c x).mp hx
        rw [dispatch_eq_some_iff hs]
        refine ⟨(h x).mpr (Or.inl hfirst.1), ?_⟩
        intro y hy
        rcases (h y).mp hy with hy | ⟨rfl, hfit⟩
        · exact hfirst.2 y hy
        · refine Or.inr (Entry.lt_of_not_lt (hnew x hfirst.1) fun hlt => hwins ⟨hfit, ?_⟩)
          intro x' hx'
          rw [← Option.some.inj (hx.symm.trans hx')]
          exact hlt
    have hne : (r.dispatch c).1 ≠ some e := fun he =>
      hnew e ((dispatch_eq_some_iff hr c e).mp he).1 rfl
    exact ⟨Or.inr hd, iff_of_false (by rwa [hd]) hwins⟩

theorem candidate_register {declared : H → Int8} {h : H} (hc : r.roster.Coherent)
    (hn : r.roster.active[(Handler.info h).id]? = none)
    (ha : (r.register declared h).answer = .ok ()) (c : Case O) (x : Entry H) :
    (r.register declared h).registry.Candidate c x ↔ r.Candidate c x ∨
      x = r.entry declared h ∧ (Handler.info h).kind = Trades.kindOf H c.object ∧
        c.Suits r.provider.table.isGenerous (r.entry declared h) := by
  have hid : (r.entry declared h).id = (Handler.info h).id := rfl
  have hg : (r.provider.ensureEntry (Handler.info h).id
      (r.entry declared h).priority).table.isGenerous = r.provider.table.isGenerous := by
    funext id
    rw [Settings.isGenerous, Provider.table_ensureEntry, Settings.generous_ensureEntry,
      ← Settings.isGenerous]
  rw [Candidate, register_of_accepted hc ha]
  dsimp only
  rw [hg, Roster.install_active, ExtTreeMap.getElem?_insert, Candidate]
  simp only [hid, Std.compare_eq_iff_eq]
  by_cases hx : (Handler.info h).id = x.id
  · rw [if_pos hx, ← hx, hn]
    constructor
    · rintro ⟨he, hk, hsuits⟩
      obtain rfl := Option.some.inj he
      exact Or.inr ⟨rfl, hk, hsuits⟩
    · rintro (⟨he, -⟩ | ⟨rfl, hk, hsuits⟩)
      · cases he
      · exact ⟨rfl, hk, hsuits⟩
  · rw [if_neg hx]
    constructor
    · exact Or.inl
    · rintro (hcand | ⟨rfl, -⟩)
      · exact hcand
      · exact absurd rfl hx

theorem candidate_unregister (hc : r.roster.Coherent) (id : String) (c : Case O) (x : Entry H) :
    (r.unregister id).registry.Candidate c x ↔ r.Candidate c x ∧ ¬ x.id = id := by
  rw [Candidate, unregister_eq hc]
  dsimp only
  rw [Roster.withdraw_active, ExtTreeMap.getElem?_erase, Candidate]
  simp only [Std.compare_eq_iff_eq]
  by_cases hx : id = x.id
  · rw [if_pos hx]
    constructor
    · rintro ⟨he, -⟩
      cases he
    · rintro ⟨-, hne⟩
      exact absurd hx.symm hne
  · rw [if_neg hx]
    exact ⟨fun h => ⟨h, fun he => hx he.symm⟩, And.left⟩

/-- A handler that comes in gets a case only if it suits it and stands before the one who had it,
and otherwise changes nothing. If another one leaves, nothing changes either, and if the one who had
the case leaves, it goes to the next one below that suits it. -/
theorem dispatch_moves_by_one (p : Provider) (moves : List (Move H)) (c : Case O) :
    let r := after moves (start p)
    let found := (r.dispatch c).1
    let generous := r.provider.table.isGenerous
    (∀ (declared : H → Int8) (h : H), r.roster.active[(Handler.info h).id]? = none →
      (r.register declared h).answer = .ok () →
      let next := (r.register declared h).registry
      let e : Entry H := ⟨h, r.provider.table.priority (Handler.info h).id (declared h)⟩
      next.roster.active[(Handler.info h).id]? = some e ∧ found ≠ some e ∧
      ((next.dispatch c).1 = some e ∨ (next.dispatch c).1 = found) ∧
      ((next.dispatch c).1 = some e ↔ ((Handler.info h).kind = Trades.kindOf H c.object ∧
        c.Suits generous e) ∧ ∀ x, found = some x → compare e.rank x.rank = .lt)) ∧
    (∀ id : String, (∀ e, found = some e → e.id ≠ id) →
      ((r.unregister id).registry.dispatch c).1 = found) ∧
    ∀ e, found = some e → ∃ before rest,
      (r.roster.index.ranking (Trades.kindOf H c.object)).values = before ++ e :: rest ∧
      ((r.unregister e.id).registry.dispatch c).1 = rest.find? fun x => c.Suits generous x := by
  intro r found generous
  have hc : r.roster.Coherent := reached_coherent p moves
  refine ⟨?_, ?_, ?_⟩
  · intro declared h hn ha next e
    have hnew : ∀ x, r.Candidate c x → x.id ≠ e.id := by
      intro x hx hid
      have hactive := hx.1
      rw [hid] at hactive
      exact absurd (hn.symm.trans hactive) nofun
    obtain ⟨hor, hiff⟩ := dispatch_of_joined hc (register_coherent declared h hc)
      (candidate_register hc hn ha c) hnew
    refine ⟨?_, ?_, hor, hiff⟩
    · simp only [next, register_of_accepted hc ha, Roster.install_active]
      exact ExtTreeMap.getElem?_insert_self
    · exact fun he => hnew e ((dispatch_eq_some_iff hc c e).mp he).1 rfl
  · intro id hk
    exact dispatch_of_kept hc (unregister_coherent hc id) (candidate_unregister hc id c) hk
  · intro e he
    have hcand := ((dispatch_eq_some_iff hc c e).mp he).1
    refine dispatch_of_dropped hc (unregister_coherent hc e.id) (candidate_unregister hc e.id c) he
      fun x hx => ⟨fun hid => hx.eq_of_id hcand hid, congrArg Entry.id⟩

open Scenario in
theorem dispatch_moves_by_one_shop :
    let shop := Scripted.bare "c" "shop"
    let moves : List (Move Scripted) :=
      [.register (fun _ => 5) (.bare "a" "bank"), .register (fun _ => 1) (.bare "b" "till")]
    let r := after moves (start (.memory .empty))
    let c : Case Item := ⟨.sale, .system, .text "apple"⟩
    (r.dispatch c).1.map Entry.rank = some ⟨5, "bank"⟩ ∧
      ((r.register (fun _ => 9) shop).registry.dispatch c).1.map Entry.rank = some ⟨9, "shop"⟩ ∧
      ((r.unregister "till").registry.dispatch c).1 = (r.dispatch c).1 ∧
      ((r.unregister "bank").registry.dispatch c).1.map Entry.rank = some ⟨1, "till"⟩ := by
  intro shop moves r c
  have hrank : (r.dispatch c).1.map Entry.rank = some ⟨5, "bank"⟩ := by decide +kernel
  obtain ⟨hcomes, hkeeps, -⟩ := dispatch_moves_by_one (.memory .empty) moves c
  obtain ⟨-, -, -, htakes⟩ := hcomes (fun _ => 9) shop (by decide +kernel) (by decide +kernel)
  have hfound : ∀ e, (r.dispatch c).1 = some e → e.rank = ⟨5, "bank"⟩ := by
    intro e he
    rw [he] at hrank
    exact Option.some.inj hrank
  refine ⟨hrank, ?_, ?_, by decide +kernel⟩
  · rw [htakes.mpr ⟨by decide +kernel, fun e he => by rw [hfound e he]; decide +kernel⟩]
    decide +kernel
  · apply hkeeps
    intro e he hid
    have hbank := congrArg Rank.id (hfound e he)
    exact absurd (hid.symm.trans hbank) (by decide)

theorem table_configure (f : Settings → Settings) (r : Registry H) :
    (r.configure f).provider.table = f r.provider.table := by
  rw [configure]
  cases r.provider <;> rfl

end Registry

namespace Settings

theorem setGenerous_undone {t : Settings} {id : String} (hg : t.isGenerous id = false) :
    (t.setGenerous id true).setGenerous id false = t := by
  apply ext_slot
  intro j
  rw [slot_setGenerous, slot_setGenerous]
  split
  · -- Erasing what was just inserted gives the same set only because it was not in there before.
    next hj => rw [slot, ← hj, hg]
  · rfl

end Settings

namespace Registry

variable {r : Registry H}

theorem candidate_generous {id : String} (hg : r.provider.table.isGenerous id = false) (c : Case O)
    (x : Entry H) : (r.configure (Settings.setGenerous id true)).Candidate c x ↔ r.Candidate c x ∧
      ¬ (x.id = id ∧ Trades.permits x.handler c.direction c.scope c.object = false) := by
  have hroster : (r.configure (Settings.setGenerous id true)).roster = r.roster := rfl
  simp only [Candidate, hroster, table_configure, Case.Suits, Settings.isGenerous_setGenerous,
    and_assoc]
  refine and_congr_right fun _ => and_congr_right fun _ => and_congr_right fun _ => ?_
  by_cases hx : id = x.id
  · rw [if_pos hx, ← hx, hg]
    simp
  · rw [if_neg hx]
    exact ⟨fun h => ⟨h, fun ho => hx ho.1.symm⟩, And.left⟩

/-- A handler that is made generous loses a case only if it could not carry it out, and then to the
next one below that suits the case. Nothing else changes, and taking the mark away brings all
back. -/
theorem generous_yields_downwards (p : Provider) (moves : List (Move H)) {id : String}
    (hg : (after moves (start p)).provider.table.isGenerous id = false) (c : Case O) :
    let r := after moves (start p)
    let next := r.configure (Settings.setGenerous id true)
    let back := next.configure (Settings.setGenerous id false)
    let Yields (e : Entry H) : Prop := (r.dispatch c).1 = some e ∧ e.id = id ∧
      Trades.permits e.handler c.direction c.scope c.object = false
    ((next.dispatch c).1 = (r.dispatch c).1 ↔ ∀ e, ¬ Yields e) ∧
    (∀ e, Yields e → ∃ before rest,
      (r.roster.index.ranking (Trades.kindOf H c.object)).values = before ++ e :: rest ∧
      (next.dispatch c).1 = rest.find? fun x => c.Suits r.provider.table.isGenerous x) ∧
    next.roster = r.roster ∧
    ((∀ e, r.roster.active[id]? = some e → e.kind ≠ Trades.kindOf H c.object) →
      next.dispatch c = r.dispatch c) ∧
    back.roster = r.roster ∧ back.provider.table = r.provider.table ∧
    back.dispatch c = r.dispatch c := by
  intro r next back Yields
  have hc : r.roster.Coherent := reached_coherent p moves
  have hnext : next.roster.Coherent := hc
  have hcand := candidate_generous hg c
  have htable : back.provider.table = r.provider.table := by
    rw [table_configure, table_configure, Settings.setGenerous_undone hg]
  refine ⟨⟨?_, ?_⟩, ?_, rfl, ?_, rfl, htable, ?_⟩
  · rintro heq e ⟨he, hout⟩
    exact ((hcand e).mp ((dispatch_eq_some_iff hnext c e).mp (heq.trans he)).1).2 hout
  · exact fun hkept => dispatch_of_kept hc hnext hcand fun e he hout => hkept e ⟨he, hout⟩
  · rintro e ⟨he, hid, hp⟩
    have hfirst := ((dispatch_eq_some_iff hc c e).mp he).1
    refine dispatch_of_dropped hc hnext hcand he fun x hx => ⟨fun h => ?_, ?_⟩
    · exact hx.eq_of_id hfirst (h.1.trans hid.symm)
    · rintro rfl
      exact ⟨hid, hp⟩
  · intro hkind
    rw [dispatch, dispatch, table_configure]
    apply c.select_congr
    intro e he
    rw [Settings.isGenerous_setGenerous, if_neg]
    rintro rfl
    obtain ⟨hactive, hk⟩ := (mem_ranking_iff hc _ e).mp he
    exact hkind e hactive hk
  · rw [dispatch, dispatch, htable]
    rfl

open Scenario in
theorem generous_yields_downwards_shop :
    let torn (key id : String) : Scripted :=
      { Scripted.bare key id with feasible := fun _ => .always false }
    let t := Settings.empty.setGenerous "till" true
    let moves : List (Move Scripted) := [.register (fun _ => 9) (torn "a" "bank"),
      .register (fun _ => 5) (torn "b" "till"), .register (fun _ => 1) (torn "c" "shop")]
    let r := after moves (start (.memory t))
    let next := r.configure (Settings.setGenerous "bank" true)
    let back := next.configure (Settings.setGenerous "bank" false)
    let c : Case Item := ⟨.sale, .system, .text "apple"⟩
    r.provider.table.isGenerous "bank" = false ∧
      (r.dispatch c).1.map Entry.id = some "bank" ∧ (next.dispatch c).1.map Entry.id = some "shop" ∧
      back.dispatch c = r.dispatch c := by
  intro torn t moves r next back c
  have hg : r.provider.table.isGenerous "bank" = false := by decide +kernel
  obtain ⟨-, -, -, -, -, -, hback⟩ := generous_yields_downwards (.memory t) moves hg c
  exact ⟨hg, by decide +kernel, by decide +kernel, hback⟩

end Registry

end Brokerage
