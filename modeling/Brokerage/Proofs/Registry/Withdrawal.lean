import Brokerage.Proofs.Registry.Reload
import Brokerage.Proofs.Registry.Selection

namespace Brokerage

open Std Text

namespace Registry

variable {H : Type} [Handler H]

def Move.Offers (h : H) : Move H → Prop
  | .register _ x => x = h
  | _ => False

def Unknown (h : H) (r : Registry H) : Prop := r.roster.known[(Handler.info h).id]? ≠ some h

/-- The moves that put a handler out: its id is withdrawn or all are, another handler is offered
under its id and takes its place in what is active or in what is only known, or it is refused itself
and is not even remembered. -/
inductive Discards (h : H) (r : Registry H) : Move H → Prop where
  | withdrawn : Discards h r (.unregister (Handler.info h).id)
  | cleared : Discards h r .clear
  | superseded {declared : H → Int8} {x : H} (other : x ≠ h)
      (same : (Handler.info x).id = (Handler.info h).id)
      (accepted : (r.register declared x).answer = .ok ()) : Discards h r (.register declared x)
  | forestalled {declared : H → Int8} {x : H} (other : x ≠ h)
      (same : (Handler.info x).id = (Handler.info h).id)
      (refused : (r.register declared x).answer = .error (.disabled (Handler.info h).id))
      (inactive : r.roster.active[(Handler.info h).id]? = none) :
      Discards h r (.register declared x)
  | shadowed {declared : H → Int8} {e : Entry H} (other : e.handler ≠ h)
      (active : r.roster.active[(Handler.info h).id]? = some e)
      (refused : (r.register declared h).answer = .error (.disabled (Handler.info h).id)) :
      Discards h r (.register declared h)
  | invalid {declared : H → Int8}
      (refused : (r.register declared h).answer = .error (.invalidId (Handler.info h).id)) :
      Discards h r (.register declared h)

variable {h : H} {r : Registry H}

theorem Unknown.not_active (hu : r.Unknown h) (hc : r.roster.Coherent) {e : Entry H}
    (ha : r.roster.active[(Handler.info h).id]? = some e) : e.handler ≠ h := by
  rintro rfl
  exact hu (hc.remembered _ e ha)

theorem unknown_of_not_word (hc : r.roster.Coherent) (hw : isWord (Handler.info h).id = false) :
    r.Unknown h := by
  intro hk
  rw [(hc.worded _ h hk).2] at hw
  cases hw

theorem unknown_of_other {x : H} (hx : x ≠ h)
    (hk : r.roster.known[(Handler.info h).id]? = some x) : r.Unknown h := by
  intro hh
  rw [hk] at hh
  exact hx (Option.some.inj hh)

theorem register_known (declared : H → Int8) (x : H) (hc : r.roster.Coherent) :
    (r.register declared x).registry.roster.known = r.roster.known ∨
      (r.register declared x).registry.roster.known =
        r.roster.known.insert (Handler.info x).id x := by
  obtain ⟨-, he⟩ | ⟨-, -, he⟩ | ⟨-, -, he⟩ := register_cases declared x hc
  · rw [he]
    exact Or.inl rfl
  · rw [he]
    dsimp only [Roster.note]
    split
    · exact Or.inl rfl
    · exact Or.inr rfl
  · rw [he]
    exact Or.inr (Roster.install_known _ _)

theorem Unknown.make (hu : r.Unknown h) (hc : r.roster.Coherent) {m : Move H}
    (hm : ¬ m.Offers h) : (r.make m).registry.Unknown h := by
  cases m with
  | register declared x =>
    have hx : x ≠ h := hm
    rw [Unknown, Registry.make]
    rcases register_known declared x hc with hk | hk
    · rw [hk]
      exact hu
    · rw [hk, ExtTreeMap.getElem?_insert]
      split
      · exact fun he => hx (Option.some.inj he)
      · exact hu
  | unregister id =>
    rw [Unknown, Registry.make, unregister_eq hc]
    dsimp only
    rw [Roster.withdraw_known, ExtTreeMap.getElem?_erase]
    split
    · simp
    · exact hu
  | clear =>
    rw [Unknown, Registry.make]
    simp [clear, Roster.empty]
  | reload declared =>
    rw [Unknown, Registry.make]
    cases hq : r.provider.reload with
    | error t =>
      rw [reload_of_error declared hq]
      exact hu
    | ok q =>
      rw [reload_known declared hc hq]
      exact hu
  | provide p => exact hu

theorem Unknown.after (hu : r.Unknown h) (hc : r.roster.Coherent) {moves : List (Move H)}
    (hm : ∀ m ∈ moves, ¬ m.Offers h) : (after moves r).Unknown h := by
  induction moves generalizing r with
  | nil => exact hu
  | cons m moves ih =>
    exact ih (hu.make hc (hm m List.mem_cons_self)) (make_coherent m hc)
      fun m' hm' => hm m' (List.mem_cons_of_mem m hm')

theorem Discards.unknown {m : Move H} (hd : Discards h r m) (hc : r.roster.Coherent) :
    (r.make m).registry.Unknown h := by
  cases hd with
  | withdrawn =>
    rw [Unknown, make, unregister_eq hc]
    simp [Roster.withdraw_known]
  | cleared =>
    rw [Unknown, make]
    simp [clear, Roster.empty]
  | @superseded declared x other same accepted =>
    apply unknown_of_other other
    rw [make, register_of_accepted hc accepted]
    dsimp only
    rw [Roster.install_known, ← same]
    exact ExtTreeMap.getElem?_insert_self
  | @forestalled declared x other same refused inactive =>
    apply unknown_of_other other
    rw [make, register_of_barred hc refused]
    rw [← same] at inactive ⊢
    rw [Roster.note_of_inactive inactive]
    exact ExtTreeMap.getElem?_insert_self
  | @shadowed declared e other active refused =>
    apply unknown_of_other other
    rw [make, register_of_barred hc refused]
    rw [Roster.note_of_active active]
    exact hc.remembered _ e active
  | @invalid declared refused =>
    obtain ⟨hw, he⟩ | ⟨-, -, he⟩ | ⟨-, -, he⟩ := register_cases declared h hc
    · rw [make, he]
      exact unknown_of_not_word hc hw
    · rw [he] at refused
      cases refused
    · rw [he] at refused
      cases refused

variable {O : Type} {H : Type} [Trades H O]

theorem dispatch_active {r : Registry H} (hc : r.roster.Coherent) (c : Case O) {e : Entry H}
    (he : (r.dispatch c).1 = some e) : r.roster.active[e.id]? = some e := by
  rw [dispatch_fst hc] at he
  exact ((mem_ranking_iff hc _ e).mp (List.mem_of_find?_eq_some he)).1

/-- A handler that was put out is neither active nor known, and gets no case, whatever happens later,
as long as it is not offered again. -/
theorem discarded_stays_out (p : Provider) (before : List (Move H)) {m : Move H} {h : H}
    (hd : Discards h (after before (start p)) m) {later : List (Move H)}
    (hl : ∀ m ∈ later, ¬ m.Offers h) (c : Case O) :
    let r := after (before ++ m :: later) (start p)
    r.roster.known[(Handler.info h).id]? ≠ some h ∧
      (∀ e : Entry H, r.roster.active[(Handler.info h).id]? = some e → e.handler ≠ h) ∧
      ∀ d : Mediator H O, (r.mediate c).1 = some d → d.handler ≠ h := by
  intro r
  have hc : r.roster.Coherent := reached_coherent p _
  have hb : (after before (start p)).roster.Coherent := reached_coherent p before
  have hu : r.Unknown h := by
    have ha := (hd.unknown hb).after (make_coherent m hb) hl
    simpa only [r, after, List.foldl_append, List.foldl_cons] using ha
  refine ⟨hu, fun e => hu.not_active hc, ?_⟩
  intro d hm
  obtain ⟨e, he, rfl⟩ := Option.map_eq_some_iff.mp
    (show ((r.dispatch c).1).map (Mediator.ofEntry c) = some d from hm)
  rintro rfl
  exact hu.not_active hc (dispatch_active hc c he) rfl

open Scenario in
theorem forestalled_stays_out :
    let old := Scripted.bare "old" "shop"
    let new := Scripted.bare "new" "shop"
    let off := Settings.empty.setDisabled "shop" true
    let before : List (Move Scripted) :=
      [.register (fun _ => 1) old, .provide (.memory off), .reload fun _ => 1]
    let offer : Move Scripted := .register (fun _ => 1) new
    let later : List (Move Scripted) := [.provide (.memory .empty), .reload fun _ => 1]
    let r := after (before ++ offer :: later) (start (.memory .empty))
    ((after before (start (.memory .empty))).roster.known["shop"]?).map Scripted.key = some "old" ∧
      (r.roster.active["shop"]?).map (fun e => e.handler.key) = some "new" ∧ r.roster.known["shop"]? ≠ some old ∧
      ∀ d : Mediator Scripted Item,
        (r.mediate ⟨.purchase, .system, .text "x"⟩).1 = some d → d.handler ≠ old := by
  intro old new off before offer later r
  have other : new ≠ old := by
    intro he
    exact absurd (congrArg Scripted.key he) (by decide)
  have refused : ((after before (start (.memory .empty))).register (fun _ => 1) new).answer =
      .error (.disabled "shop") := by
    rw [register_of_disabled _ (by decide +kernel) (by decide +kernel)]
    rfl
  have hd : Discards old (after before (start (.memory .empty))) offer :=
    .forestalled other rfl refused (Option.isNone_iff_eq_none.mp (by decide +kernel))
  have hl : ∀ m ∈ later, ¬ m.Offers old := by simp [later, Move.Offers]
  obtain ⟨hk, -, hm⟩ := discarded_stays_out (.memory .empty) before hd hl
    (⟨.purchase, .system, .text "x"⟩ : Case Item)
  exact ⟨by decide +kernel, by decide +kernel, hk, hm⟩

end Registry

end Brokerage
