import Brokerage.Proofs.Registry.Steadiness

namespace Brokerage

open Std

variable {H : Type} [Handler H]

theorem Settings.priority_of_none {t : Settings} {id : String} (h : t.standings[id]? = none)
    (declared : Int8) : t.priority id declared = declared.toInt32 := by
  rw [priority, configured, h]
  rfl

theorem Provider.ensureAll_append (es es' : List (Entry H)) (p : Provider) :
    p.ensureAll (es ++ es') = (p.ensureAll es).ensureAll es' :=
  List.foldl_append

namespace Registry

def admitted (r : Registry H) : Move H → List (Entry H)
  | .register declared h =>
    match (r.register declared h).answer with
    | .ok () => [⟨h, (declared h).toInt32⟩]
    | .error _ => []
  | _ => []

def admissions : List (Move H) → Registry H → List (Entry H)
  | [], _ => []
  | m :: moves, r => r.admitted m ++ admissions moves (r.make m).registry

variable {r : Registry H}

theorem ensureEntry_priority (p : Provider) (id : String) (declared : Int8) :
    p.ensureEntry id (p.table.priority id declared) = p.ensureEntry id declared.toInt32 := by
  cases hs : p.table.standings[id]? with
  | none => rw [Settings.priority_of_none hs]
  | some s =>
    have hm : id ∈ p.table.standings := Trees.mem_of_some hs
    rw [Provider.ensureEntry_of_mem hm, Provider.ensureEntry_of_mem hm]

theorem register_provider (declared : H → Int8) (h : H) (hc : r.roster.Coherent) :
    (r.register declared h).registry.provider =
      r.provider.ensureAll (r.admitted (.register declared h)) := by
  obtain ⟨-, he⟩ | ⟨-, -, he⟩ | ⟨-, -, he⟩ := register_cases declared h hc
  · rw [admitted, he]
    rfl
  · rw [admitted, he]
    rfl
  · rw [admitted, he]
    exact ensureEntry_priority r.provider (Handler.info h).id (declared h)

theorem make_provider (hs : r.Steady) (hc : r.roster.Coherent)
    (hq : r.provider.reload = .ok r.provider) {m : Move H} (hm : m.Own) :
    (r.make m).registry.provider = r.provider.ensureAll (r.admitted m) := by
  cases m with
  | register declared h => exact register_provider declared h hc
  | unregister id => rfl
  | clear => rfl
  | reload declared => rw [make, hs.reload_eq hc hq declared]; rfl
  | provide p => exact hm.elim

theorem after_provider (hs : r.Steady) (hc : r.roster.Coherent) {t : Settings}
    (ht : r.provider = .memory t) {moves : List (Move H)} (hm : ∀ m ∈ moves, m.Own) :
    (after moves r).provider = r.provider.ensureAll (admissions moves r) := by
  -- A reload along the way is idle only as long as the settings are in memory and in step.
  induction moves generalizing r t with
  | nil => rfl
  | cons m moves ih =>
    have hown := hm m List.mem_cons_self
    obtain ⟨u, hu⟩ := make_memory hc ht hown.inMemory
    have hstep := make_provider hs hc (by rw [ht]; rfl) hown
    have hrest := ih (hs.make hc hown) (make_coherent m hc) hu
      fun x hx => hm x (List.mem_cons_of_mem m hx)
    rw [admissions, Provider.ensureAll_append, ← hstep, ← hrest]
    rfl

/-- Settings in memory that only the registry touches: what the operator has settled stays, and a
handler admitted under an id without a standing leaves the priority that it declared. That is the
last word on the id, whatever is registered, withdrawn or reloaded later. Dispatches are no moves,
since a registry is the same after them. -/
theorem standings_kept (t : Settings) {moves : List (Move H)} (hm : ∀ m ∈ moves, m.Own) :
    let r := after moves (start (.memory t))
    let es := admissions moves (start (.memory t))
    ∃ u : Settings, r.provider = .memory u ∧ u.generous = t.generous ∧
      (∀ (id : String) (s : Standing), t.standings[id]? = some s → u.standings[id]? = some s) ∧
      (∀ id : String, id ∈ u.standings ↔ id ∈ t.standings ∨ ∃ e ∈ es, e.id = id) ∧
      (∀ id : String, t.standings[id]? = none → u.standings[id]? =
        (es.find? fun e => e.id = id).map fun e => .ranked e.priority) ∧
      ∀ later : List (Move H), (∀ m ∈ later, m.Own) → ∀ (id : String) (s : Standing),
        u.standings[id]? = some s → (after later r).provider.table.standings[id]? = some s := by
  intro r es
  have hc : (start (.memory t) : Registry H).roster.Coherent := Roster.Coherent.empty
  have hs : (start (.memory t) : Registry H).Steady := .empty _
  have hmem : ∀ m ∈ moves, m.InMemory := fun m h => (hm m h).inMemory
  obtain ⟨u, hu⟩ := after_memory hc rfl hmem
  have hp : Provider.memory u = (Provider.memory t).ensureAll es := by
    rw [← hu]
    exact after_provider hs hc rfl hm
  have hst (id : String) : u.standings[id]? = (t.standings[id]?).or
      ((es.find? fun e => e.id = id).map fun e => .ranked e.priority) := by
    have h := Provider.standing_ensureAll es (.memory t) id
    rwa [← hp] at h
  refine ⟨u, hu, ?_, ?_, ?_, ?_, ?_⟩
  · have h := Provider.generous_ensureAll es (.memory t)
    rwa [← hp] at h
  · intro id s h
    rw [hst, h, Option.some_or]
  · intro id
    simp only [ExtTreeMap.mem_iff_isSome_getElem?, hst, Option.isSome_or, Option.isSome_map,
      List.find?_isSome, Bool.or_eq_true, decide_eq_true_eq]
  · intro id h
    rw [hst, h, Option.none_or]
  · intro later hl id s h
    have hlater := after_provider (hs.after hc hm) (after_coherent moves hc) hu hl
    have ht : r.provider.table = u := congrArg Provider.table hu
    rw [hlater, Provider.standing_ensureAll, ht, h, Option.some_or]

open Scenario in
theorem standings_kept_shop :
    let t := (Settings.empty.setPriority "bank" 5).setDisabled "till" true
    let moves : List (Move Scripted) := [.register (fun _ => 9) (.bare "a" "bank"),
      .register (fun _ => 1) (.bare "b" "till"), .register (fun _ => 2) (.bare "c" "shop"),
      .unregister "shop", .register (fun _ => 8) (.bare "d" "shop"), .reload fun _ => 7, .clear]
    let u := (after moves (start (.memory t))).provider.table
    u.standings["bank"]? = some (.ranked 5) ∧ u.standings["till"]? = some .disabled ∧
      u.standings["shop"]? = some (.ranked 2) := by
  intro t moves u
  have hm : ∀ m ∈ moves, m.Own := by simp [moves, Move.Own]
  obtain ⟨v, hv, -, hkeep, -, hnew, -⟩ := standings_kept t hm
  have hu : u = v := congrArg Provider.table hv
  rw [hu]
  exact ⟨hkeep _ _ (by decide +kernel), hkeep _ _ (by decide +kernel),
    (hnew "shop" (by decide +kernel)).trans (by decide +kernel)⟩

end Registry

end Brokerage
