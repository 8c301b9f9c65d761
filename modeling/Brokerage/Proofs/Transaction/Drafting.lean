import Brokerage.Item
import Brokerage.Proofs.Transaction.Hearings
import Brokerage.Transaction.Mediator

namespace Brokerage

inductive Revision where
  | volume (n : UInt32)
  | value (a : Amount)
  | listing
  deriving DecidableEq

namespace Revision

def volume? : Revision → Option UInt32
  | .volume n => some n
  | _ => none

def value? : Revision → Option Amount
  | .value a => some a
  | _ => none

def lastVolume (edits : List Revision) : Option UInt32 := (edits.filterMap volume?).getLast?

def lastValue (edits : List Revision) : Option Amount := (edits.filterMap value?).getLast?

theorem lastVolume_cons (e : Revision) (edits : List Revision) :
    lastVolume (e :: edits) = (lastVolume edits).or e.volume? := by
  cases h : e.volume? with
  | none => rw [lastVolume, List.filterMap_cons_none h, lastVolume, Option.or_none]
  | some n =>
    rw [lastVolume, List.filterMap_cons_some h, List.getLast?_cons, ← lastVolume]
    cases lastVolume edits <;> rfl

theorem lastVolume_singleton (e : Revision) : lastVolume [e] = e.volume? := lastVolume_cons e []

theorem lastValue_cons (e : Revision) (edits : List Revision) :
    lastValue (e :: edits) = (lastValue edits).or e.value? := by
  cases h : e.value? with
  | none => rw [lastValue, List.filterMap_cons_none h, lastValue, Option.or_none]
  | some a =>
    rw [lastValue, List.filterMap_cons_some h, List.getLast?_cons, ← lastValue]
    cases lastValue edits <;> rfl

theorem lastValue_singleton (e : Revision) : lastValue [e] = e.value? := lastValue_cons e []

end Revision

namespace Draft

variable {O : Type}

def opened (q : Request O) (asListing : Bool) : Draft O :=
  if asListing then startListing q else start q

def edit : Revision → Draft O → Except VolumeFault (Draft O)
  | .volume n, d => d.setVolume n
  | .value a, d => .ok (d.setValue a)
  | .listing, d => .ok d.setListing

def revise (edits : List Revision) (d : Draft O) : Except VolumeFault (Draft O) :=
  edits.foldlM (fun d e => d.edit e) d

def revised (edits : List Revision) (d : Draft O) : Draft O :=
  { d with
    volume := (Revision.lastVolume edits).getD d.volume
    amount := ((Revision.lastValue edits).map Amount.abs).getD d.amount
    listing := d.listing || (edits.contains .listing && d.direction = .sale) }

structure Sound (d : Draft O) : Prop where
  volume_ne : d.volume ≠ 0
  amount_nonneg : 0 ≤ d.amount.coefficient
  sale_of_listing : d.listing = true → d.direction = .sale

theorem Sound.edit {d d' : Draft O} (hd : d.Sound) {e : Revision} (he : d.edit e = .ok d') :
    d'.Sound := by
  cases e with
  | volume n =>
    simp only [Draft.edit, setVolume] at he
    split at he
    · cases he
    · next hn =>
      cases he
      exact ⟨hn, hd.amount_nonneg, hd.sale_of_listing⟩
  | value a =>
    cases he
    exact ⟨hd.volume_ne, Int.natCast_nonneg _, hd.sale_of_listing⟩
  | listing =>
    cases he
    exact ⟨hd.volume_ne, hd.amount_nonneg, of_decide_eq_true⟩

theorem revised_nil (d : Draft O) : d.revised [] = d := by
  simp [revised, Revision.lastVolume, Revision.lastValue]

theorem revised_cons (e : Revision) (edits : List Revision) (d : Draft O) :
    d.revised (e :: edits) = (d.revised [e]).revised edits := by
  simp only [revised, Revision.lastVolume_cons, Revision.lastValue_cons, List.contains_cons]
  congr 1
  · cases Revision.lastVolume edits <;> simp [Revision.lastVolume]
  · cases Revision.lastValue edits <;> simp [Revision.lastValue]
  · simp [Bool.and_or_distrib_right, Bool.or_assoc]

theorem revised_singleton (e : Revision) (d : Draft O) : d.revised [e] =
    { d with
      volume := e.volume?.getD d.volume
      amount := (e.value?.map Amount.abs).getD d.amount
      listing := d.listing || (.listing == e && d.direction = .sale) } := by
  simp only [revised, Revision.lastVolume_singleton, Revision.lastValue_singleton,
    List.contains_cons, List.contains_nil, Bool.or_false]

theorem edit_eq {d : Draft O} (hd : d.Sound) {e : Revision} (he : e ≠ .volume 0) :
    d.edit e = .ok (d.revised [e]) := by
  cases e with
  | volume n =>
    have hn : n ≠ 0 := fun h => he (congrArg Revision.volume h)
    simp [edit, setVolume, hn, revised_singleton, Revision.volume?, Revision.value?]
  | value a =>
    simp [edit, setValue, revised_singleton, Revision.volume?, Revision.value?]
  | listing =>
    have hl : (d.listing || decide (d.direction = .sale)) = decide (d.direction = .sale) := by
      cases h : d.listing with
      | false => rfl
      | true => simp [hd.sale_of_listing h]
    simp [edit, setListing, revised_singleton, Revision.volume?, Revision.value?, hl]

theorem revise_eq {edits : List Revision} (hn : Revision.volume 0 ∉ edits) {d : Draft O}
    (hd : d.Sound) :
    d.revise edits = .ok (d.revised edits) ∧ (d.revised edits).Sound := by
  -- Every edit leaves a sound draft, as the next one needs it.
  induction edits generalizing d with
  | nil =>
    rw [revised_nil]
    exact ⟨rfl, hd⟩
  | cons e edits ih =>
    have hstep := edit_eq hd fun he : e = .volume 0 => hn (he ▸ List.mem_cons_self)
    obtain ⟨hr, hs⟩ := ih (fun h => hn (List.mem_cons_of_mem e h)) (hd.edit hstep)
    rw [revised_cons]
    refine ⟨?_, hs⟩
    rw [revise, List.foldlM_cons, hstep]
    exact hr

theorem opened_sound {q : Request O} (hq : q.listing = true → q.direction = .sale)
    (asListing : Bool) : (opened q asListing).Sound := by
  have hv : (1 : UInt32) ≠ 0 := by decide
  have hs : (start q).Sound := ⟨hv, Int.le_refl 0, hq⟩
  cases asListing with
  | false => exact hs
  | true =>
    have he : (start q).edit .listing = .ok (opened q true) := rfl
    exact hs.edit he

theorem terms_revised {q : Request O} (hq : q.listing = true → q.direction = .sale)
    (asListing : Bool) (edits : List Revision) :
    let listing : Bool :=
      q.listing || q.direction = .sale && (asListing || edits.contains .listing)
    ((opened q asListing).revised edits).terms =
      ⟨q.direction, q.object, q.scope, (Revision.lastVolume edits).getD 1,
        if listing then .zero else ((Revision.lastValue edits).map Amount.abs).getD .zero,
        listing⟩ := by
  have hl : q.direction = .purchase → q.listing = false := by
    intro hd
    rw [← Bool.not_eq_true]
    intro hl
    rw [hq hl] at hd
    cases hd
  cases asListing <;> cases hd : q.direction <;>
    simp [terms, value, revised, opened, startListing, start, setListing, hd, hl]

theorem Sound.terms {d : Draft O} (hd : d.Sound) :
    0 < d.terms.volume ∧ 0 ≤ d.terms.value.coefficient := by
  refine ⟨UInt32.pos_iff_ne_zero.mpr hd.volume_ne, ?_⟩
  simp only [Draft.terms, value]
  split
  · exact Int.le_refl 0
  · exact hd.amount_nonneg

end Draft

theorem Mediator.request_eq {H O : Type} (m : Mediator H O) {volume : UInt32} (hv : volume ≠ 0)
    (asked : Bool) : m.request volume asked =
      .ok ⟨m.info, m.direction, m.scope, m.object, volume, asked && m.direction = .sale⟩ := by
  simp only [request, hv, ↓reduceIte]

/-- Whatever was asked of a mediator and however a handler stages it: the terms that are vetted,
those of the record and those that are announced are the same, and each part of them is what it was
last set to. A listing has no value, whether the value or the listing was set first. -/
theorem agreed_throughout {H O A σ : Type} (m : Mediator H O) {volume : UInt32} (hv : volume ≠ 0)
    (asked asListing : Bool) {edits : List Revision} (hn : Revision.volume 0 ∉ edits)
    (ending : Ending A) (vetters : List (Observer (StateM σ) O)) (perform : A → StateM σ Unit)
    (audience : StateM σ (List (Observer (StateM σ) O))) (w : σ) :
    let listing : Bool := m.direction = .sale && (asked || asListing || edits.contains .listing)
    let value : Amount := ((Revision.lastValue edits).map Amount.abs).getD .zero
    let t : Terms O := ⟨m.direction, m.object, m.scope, (Revision.lastVolume edits).getD 1,
      if listing then .zero else value, listing⟩
    0 < t.volume ∧ 0 ≤ t.value.coefficient ∧
    ∃ (q : Request O) (d : Draft O), m.request volume asked = .ok q ∧
      (Draft.opened q asListing).revise edits = .ok d ∧ d.info = m.info ∧ d.terms = t ∧
      let ((r, vetted), next) := ((d.close (vetters.map Observer.noting) ending).run []).run w
      (r, next) = (d.close vetters ending).run w ∧ r.info = m.info ∧ r.terms = t ∧
      vetted = ending.heard vetters m.info t ∧
      ∀ later : σ,
        let completion := ((r.complete (r.enactNoting perform audience)).run []).run later
        (r.isSuccess = false → completion = ((false, []), later)) ∧
        (r.isSuccess = true → ∃ a : A, ending = .success a ∧ completion.1 = (true,
          (audience.run ((perform a).run later).2).1.map fun _ => .completed m.info t)) := by
  intro listing value t
  let q : Request O :=
    ⟨m.info, m.direction, m.scope, m.object, volume, asked && m.direction = .sale⟩
  have hq : q.listing = true → q.direction = .sale := by simp [q]
  obtain ⟨hd, hs⟩ := Draft.revise_eq hn (Draft.opened_sound hq asListing)
  have ht : ((Draft.opened q asListing).revised edits).terms = t := by
    rw [Draft.terms_revised hq]
    simp only [q, t, listing, value, ← Bool.and_or_distrib_left, Bool.and_comm asked, Bool.or_assoc]
  have hi : ((Draft.opened q asListing).revised edits).info = m.info := by
    cases asListing <;> rfl
  generalize (Draft.opened q asListing).revised edits = d at hd hs ht hi
  obtain ⟨hvolume, hvalue⟩ := hs.terms
  rw [ht] at hvolume hvalue
  refine ⟨hvolume, hvalue, q, d, m.request_eq hv asked, hd, hi, ht, ?_⟩
  obtain ⟨stage, hr, hstage⟩ := Rush.close_eq vetters d ending w
  rw [Draft.run_close_noting, StateT.run_map, hi, ht]
  generalize (d.close vetters ending).run w = outcome at hr
  obtain ⟨r, next⟩ := outcome
  have hri : r.info = m.info := (congrArg Record.info hr).trans hi
  have hrt : r.terms = t := (congrArg Record.terms hr).trans ht
  refine ⟨rfl, hri, hrt, rfl, fun later => ⟨fun hf => ?_, fun ht => ?_⟩⟩
  · rw [Record.complete_of_failed _ hf]
    rfl
  · obtain ⟨reason, rfl⟩ | ⟨a, he, rfl⟩ := hstage
    · rw [hr] at ht
      cases ht
    · have ha : r.stage = .ready a := congrArg Record.stage hr
      refine ⟨a, he, ?_⟩
      rw [Record.run_complete_noting perform audience ha, hri, hrt]
      rfl

theorem agreed_throughout_listing :
    let m : Mediator Unit Item := ⟨(), ⟨"shop", "tests", .text⟩, .sale, .system, .text "apple"⟩
    let edits : List Revision := [.value ⟨-405, 1⟩, .volume 3, .listing, .value ⟨7, 0⟩]
    let quiet : Observer (StateM Nat) Item := ⟨fun _ => pure (), fun _ => pure (),
      fun _ _ => do modify (· + 1); pure false, fun _ _ => modify (· + 10)⟩
    let t : Terms Item := ⟨.sale, .text "apple", .system, 3, .zero, true⟩
    ∃ (q : Request Item) (d : Draft Item), m.request 5 false = .ok q ∧
      (Draft.opened q false).revise edits = .ok d ∧
      let ((r, vetted), _) := ((d.close [quiet.noting, quiet.noting] (.success ())).run []).run 0
      r.terms = t ∧ vetted = [.vetted m.info t, .vetted m.info t] := by
  intro m edits quiet t
  have hv : (5 : UInt32) ≠ 0 := by decide
  have hn : Revision.volume 0 ∉ edits := by decide
  obtain ⟨-, -, q, d, hq, hd, -, -, hclosed⟩ := agreed_throughout m hv false false hn (.success ())
    [quiet, quiet] (fun _ => pure ()) (pure [quiet]) 0
  obtain ⟨-, -, hr, hvetted, -⟩ := hclosed
  exact ⟨q, d, hq, hd, hr, hvetted⟩

end Brokerage
