import Brokerage.Proofs.Registry.Reload
import Brokerage.Proofs.Settings.Upkeep

/-!
Registries that a reload leaves as they are. Registering writes the priority of a handler into the
settings, and who is known without being active is disabled there; so as long as nobody changes the
settings, reading them again brings the same handlers back under the same priorities.
-/

namespace Brokerage

open Std Text

namespace Settings

theorem isDisabled_iff (t : Settings) (id : String) :
    t.isDisabled id = true ↔ t.standings[id]? = some .disabled := by
  rw [isDisabled, decide_eq_true_eq]

theorem isDisabled_of_ranked {t : Settings} {id : String} {n : Int32}
    (h : t.standings[id]? = some (.ranked n)) : t.isDisabled id = false := by
  rw [isDisabled, h]
  rfl

theorem priority_of_ranked {t : Settings} {id : String} {n : Int32}
    (h : t.standings[id]? = some (.ranked n)) (declared : Int8) : t.priority id declared = n := by
  rw [priority, configured, h]
  rfl

theorem or_ranked_priority {t : Settings} {id : String} (hd : t.isDisabled id = false)
    (declared : Int8) : (t.standings[id]?).or (some (.ranked (t.priority id declared))) =
      some (.ranked (t.priority id declared)) := by
  cases hs : t.standings[id]? with
  | none => rfl
  | some s =>
    cases s with
    | ranked n =>
      rw [priority_of_ranked hs]
      rfl
    | disabled =>
      rw [(t.isDisabled_iff id).mpr hs] at hd
      cases hd

theorem standing_ensureEntry_self (t : Settings) (id : String) (n : Int32) :
    (t.ensureEntry id n).2.standings[id]? = (t.standings[id]?).or (some (.ranked n)) := by
  rw [standing_ensureEntry]
  cases t.standings[id]? <;> simp

end Settings

namespace Provider

theorem ensureEntry_of_mem {p : Provider} {id : String} (h : id ∈ p.table.standings) (n : Int32) :
    p.ensureEntry id n = p := by
  cases p with
  | memory t => exact congrArg (memory ·.2) (Settings.ensureEntry_of_mem h n)
  | file s d => exact congrArg (file · d) (Stored.ensureEntry_of_mem h n)

variable {H : Type} [Handler H]

theorem ensureAll_of_ranked {p : Provider} {es : List (Entry H)}
    (h : ∀ e ∈ es, p.table.standings[e.id]? = some (.ranked e.priority)) : p.ensureAll es = p := by
  induction es with
  | nil => rfl
  | cons e es ih =>
    have hm : e.id ∈ p.table.standings := Trees.mem_of_some (h e List.mem_cons_self)
    rw [ensureAll_cons, ensureEntry_of_mem hm]
    exact ih fun x hx => h x (List.mem_cons_of_mem e hx)

end Provider

namespace Registry

variable {H : Type}

structure Steady (r : Registry H) : Prop where
  ranked : ∀ (id : String) (e : Entry H), r.roster.active[id]? = some e →
    r.provider.table.standings[id]? = some (.ranked e.priority)
  disabled : ∀ (id : String) (h : H), r.roster.known[id]? = some h →
    r.roster.active[id]? = none → r.provider.table.isDisabled id = true

def Move.Own : Move H → Prop
  | .provide _ => False
  | _ => True

def Move.InMemory : Move H → Prop
  | .provide p => ∃ t : Settings, p = .memory t
  | _ => True

theorem Move.Own.inMemory {m : Move H} (hm : m.Own) : m.InMemory := by
  cases m with
  | provide p => exact hm.elim
  | _ => trivial

theorem Steady.empty (p : Provider) : Steady (⟨.empty, p⟩ : Registry H) where
  ranked id e h := by simp [Roster.empty] at h
  disabled id h hk := by simp [Roster.empty] at hk

variable [Handler H] {r : Registry H}

theorem Steady.register (hs : r.Steady) (hc : r.roster.Coherent) (declared : H → Int8) (h : H) :
    (r.register declared h).registry.Steady := by
  obtain ⟨-, he⟩ | ⟨-, hd, he⟩ | ⟨-, hd, he⟩ := register_cases declared h hc
  · rw [he]
    exact hs
  · rw [he]
    refine ⟨?_, ?_⟩
    · intro id e ha
      rw [Roster.note_active] at ha
      exact hs.ranked id e ha
    · intro id x hk ha
      rw [Roster.note_active] at ha
      dsimp only [Roster.note] at hk
      split at hk
      · exact hs.disabled id x hk ha
      · simp only [Roster.learn, ExtTreeMap.getElem?_insert, Std.compare_eq_iff_eq] at hk
        split at hk
        · next hid => rw [← hid]; exact hd
        · exact hs.disabled id x hk ha
  · rw [he]
    have hi : (r.entry declared h).id = (Handler.info h).id := rfl
    refine ⟨?_, ?_⟩
    · intro id e ha
      simp only [Roster.install_active, hi, ExtTreeMap.getElem?_insert, Std.compare_eq_iff_eq] at ha
      rw [Provider.table_ensureEntry]
      split at ha
      · next hid =>
        cases ha
        rw [← hid, Settings.standing_ensureEntry_self]
        exact Settings.or_ranked_priority hd (declared h)
      · next hid =>
        rw [Settings.standing_ensureEntry, if_neg fun hn => hid hn.1]
        exact hs.ranked id e ha
    · intro id x hk ha
      simp only [Roster.install_active, Roster.install_known, hi, ExtTreeMap.getElem?_insert,
        Std.compare_eq_iff_eq] at hk ha
      split at ha
      · cases ha
      · next hid =>
        rw [if_neg hid] at hk
        rw [Provider.table_ensureEntry, Settings.isDisabled_ensureEntry]
        exact hs.disabled id x hk ha

theorem Steady.unregister (hs : r.Steady) (hc : r.roster.Coherent) (id : String) :
    (r.unregister id).registry.Steady := by
  rw [unregister_eq hc]
  refine ⟨?_, ?_⟩
  · intro j e ha
    simp only [Roster.withdraw_active, ExtTreeMap.getElem?_erase] at ha
    split at ha
    · cases ha
    · exact hs.ranked j e ha
  · intro j x hk ha
    simp only [Roster.withdraw_active, Roster.withdraw_known, ExtTreeMap.getElem?_erase] at hk ha
    split at hk
    · cases hk
    · next hid =>
      rw [if_neg hid] at ha
      exact hs.disabled j x hk ha

theorem steady_reload (declared : H → Int8) (hc : r.roster.Coherent) {q : Provider}
    (hq : r.provider.reload = .ok q) : (r.reload declared).registry.Steady := by
  have hc' := reload_coherent declared hc
  have hact := reload_active declared hc hq
  have hst (id : String) : (r.reload declared).registry.provider.table.standings[id]? =
      (q.table.standings[id]?).or (((r.reload declared).registry.roster.active[id]?).map
        fun e => .ranked e.priority) := by
    rw [reload_provider declared hc hq, Provider.standing_ensureAll, hc'.find_active]
  refine ⟨?_, ?_⟩
  · intro id e ha
    obtain ⟨hd, hn⟩ := ((hact id e).mp ha).2
    rw [hst, ha, Option.map_some, hn, ← hc'.named ha]
    exact Settings.or_ranked_priority hd _
  · intro id h hk ha
    rw [reload_known declared hc hq] at hk
    rw [Settings.isDisabled_iff, hst, ha, Option.map_none, Option.or_none,
      ← Settings.isDisabled_iff, ← Bool.not_eq_false]
    intro hd
    obtain rfl := (hc.worded id h hk).1
    let e : Entry H := ⟨h, q.table.priority (Handler.info h).id (declared h)⟩
    have he := (hact _ e).mpr ⟨hk, hd, rfl⟩
    rw [ha] at he
    cases he

theorem Steady.make (hs : r.Steady) (hc : r.roster.Coherent) {m : Move H} (hm : m.Own) :
    (r.make m).registry.Steady := by
  cases m with
  | register declared h => exact hs.register hc declared h
  | unregister id => exact hs.unregister hc id
  | clear => exact .empty r.provider
  | reload declared =>
    cases hq : r.provider.reload with
    | error t =>
      rw [Registry.make, reload_of_error declared hq]
      exact hs
    | ok q => exact steady_reload declared hc hq
  | provide p => exact hm.elim

theorem Steady.after (hs : r.Steady) (hc : r.roster.Coherent) {moves : List (Move H)}
    (hm : ∀ m ∈ moves, m.Own) : (after moves r).Steady := by
  induction moves generalizing r with
  | nil => exact hs
  | cons m moves ih =>
    exact ih (hs.make hc (hm m List.mem_cons_self)) (make_coherent m hc)
      fun m' hm' => hm m' (List.mem_cons_of_mem m hm')

theorem Steady.reload_active (hs : r.Steady) (hc : r.roster.Coherent)
    (hq : r.provider.reload = .ok r.provider) (declared : H → Int8) :
    (r.reload declared).registry.roster.active = r.roster.active := by
  apply ExtTreeMap.ext_getElem?
  intro id
  apply Option.ext
  intro e
  rw [Registry.reload_active declared hc hq]
  constructor
  · rintro ⟨hk, hd, hn⟩
    obtain rfl : e.id = id := (hc.worded id e.handler hk).1
    cases ha : r.roster.active[e.id]? with
    | none =>
      have hd' := hs.disabled e.id e.handler hk ha
      rw [hd] at hd'
      cases hd'
    | some x =>
      have hr := hc.remembered e.id x ha
      rw [hk] at hr
      rw [Settings.priority_of_ranked (hs.ranked e.id x ha)] at hn
      obtain ⟨h, n⟩ := e
      obtain ⟨h', n'⟩ := x
      cases hr
      cases hn
      rfl
  · intro ha
    have hr := hs.ranked id e ha
    rw [← hc.named ha] at hr
    exact ⟨hc.remembered id e ha, Settings.isDisabled_of_ranked hr,
      (Settings.priority_of_ranked hr _).symm⟩

theorem Steady.reload_registry (hs : r.Steady) (hc : r.roster.Coherent)
    (hq : r.provider.reload = .ok r.provider) (declared : H → Int8) :
    (r.reload declared).registry = r := by
  have hact := hs.reload_active hc hq declared
  have hprovider : (r.reload declared).registry.provider = r.provider := by
    rw [reload_provider declared hc hq, hact]
    apply Provider.ensureAll_of_ranked
    intro e he
    exact hs.ranked e.id e ((hc.mem_active_iff e).mp he)
  exact ext_of_coherent (reload_coherent declared hc) hc hact (reload_known declared hc hq)
    hprovider

theorem reload_silent (declared : H → Int8) (hc : r.roster.Coherent) {q : Provider}
    (hq : r.provider.reload = .ok q) (hr : (r.reload declared).registry = r) :
    (r.reload declared).notices = [] := by
  obtain ⟨back, gone, hn, -, -, hback, hgone⟩ := reload_announces declared hc hq
  rw [hr] at hback hgone
  -- Nobody can be there and not be there in one and the same registry.
  have hb : back = [] := by
    apply List.eq_nil_iff_forall_not_mem.mpr
    intro i hi
    obtain ⟨h₁, h₂⟩ := (hback i).mp hi
    rw [h₁] at h₂
    cases h₂
  have hg : gone = [] := by
    apply List.eq_nil_iff_forall_not_mem.mpr
    intro i hi
    obtain ⟨h₁, h₂⟩ := (hgone i).mp hi
    rw [h₁] at h₂
    cases h₂
  rw [hn, hb, hg]
  rfl

theorem Steady.reload_eq (hs : r.Steady) (hc : r.roster.Coherent)
    (hq : r.provider.reload = .ok r.provider) (declared : H → Int8) :
    r.reload declared = ⟨.ok (), r, []⟩ := by
  have hr := hs.reload_registry hc hq declared
  have ha := reload_answer declared hq
  have hn := reload_silent declared hc hq hr
  generalize r.reload declared = o at hr ha hn
  obtain ⟨a, s, n⟩ := o
  dsimp only at hr ha hn
  rw [hr, ha, hn]

theorem register_memory (declared : H → Int8) (h : H) (hc : r.roster.Coherent) {t : Settings}
    (ht : r.provider = .memory t) :
    ∃ t' : Settings, (r.register declared h).registry.provider = .memory t' := by
  obtain ⟨-, he⟩ | ⟨-, -, he⟩ | ⟨-, -, he⟩ := register_cases declared h hc
  · exact ⟨t, by rw [he, ht]⟩
  · exact ⟨t, by rw [he]; exact ht⟩
  · exact ⟨_, by rw [he, ht]; rfl⟩

theorem ensureAll_memory (es : List (Entry H)) (t : Settings) :
    ∃ t' : Settings, (Provider.memory t).ensureAll es = .memory t' := by
  induction es generalizing t with
  | nil => exact ⟨t, rfl⟩
  | cons e es ih => exact ih _

theorem make_memory (hc : r.roster.Coherent) {t : Settings} (ht : r.provider = .memory t)
    {m : Move H} (hm : m.InMemory) :
    ∃ t' : Settings, (r.make m).registry.provider = .memory t' := by
  cases m with
  | register declared h => exact register_memory declared h hc ht
  | unregister id =>
    refine ⟨t, ?_⟩
    rw [make, unregister_eq hc]
    exact ht
  | clear => exact ⟨t, ht⟩
  | reload declared =>
    have hq : r.provider.reload = .ok (.memory t) := by rw [ht]; rfl
    rw [make, reload_provider declared hc hq]
    exact ensureAll_memory _ t
  | provide p => exact hm

theorem after_memory (hc : r.roster.Coherent) {t : Settings} (ht : r.provider = .memory t)
    {moves : List (Move H)} (hm : ∀ m ∈ moves, m.InMemory) :
    ∃ t' : Settings, (after moves r).provider = .memory t' := by
  induction moves generalizing r t with
  | nil => exact ⟨t, ht⟩
  | cons m moves ih =>
    obtain ⟨t', ht'⟩ := make_memory hc ht (hm m List.mem_cons_self)
    exact ih (make_coherent m hc) ht' fun m' hm' => hm m' (List.mem_cons_of_mem m hm')

theorem steady_reloaded (t : Settings) {before moves : List (Move H)}
    (hb : ∀ m ∈ before, m.InMemory) (hm : ∀ m ∈ moves, m.Own) (earlier : H → Int8) :
    (after (before ++ .reload earlier :: moves) (start (.memory t))).Steady := by
  have hc := reached_coherent (H := H) (.memory t) before
  obtain ⟨u, hu⟩ := after_memory (r := start (.memory t)) Roster.Coherent.empty rfl hb
  have hq : (after before (start (.memory t)) : Registry H).provider.reload = .ok (.memory u) := by
    rw [hu]
    rfl
  have hs := (steady_reload earlier hc hq).after (reload_coherent earlier hc) hm
  rw [after, List.foldl_append, List.foldl_cons]
  exact hs

/-- Settings in memory that nobody has changed since the start, or since the last reload: reloading
succeeds, changes nothing and announces nothing, whatever priorities handlers declare by then.
Dispatches are no moves, since a registry is the same after them. -/
theorem reload_idle (t : Settings) {before moves : List (Move H)}
    (hb : ∀ m ∈ before, m.InMemory) (hm : ∀ m ∈ moves, m.Own) (earlier declared : H → Int8) :
    let r := after moves (start (.memory t))
    let s := after (before ++ .reload earlier :: moves) (start (.memory t))
    r.reload declared = ⟨.ok (), r, []⟩ ∧ s.reload declared = ⟨.ok (), s, []⟩ := by
  intro r s
  have hown : ∀ m ∈ moves, m.InMemory := fun m h => (hm m h).inMemory
  have hc := reached_coherent (H := H) (.memory t) before
  obtain ⟨u, hu⟩ := after_memory (r := start (.memory t)) Roster.Coherent.empty rfl hb
  have hq : (after before (start (.memory t)) : Registry H).provider.reload = .ok (.memory u) := by
    rw [hu]
    rfl
  have hs : s = after moves ((after before (start (.memory t))).reload earlier).registry := by
    simp only [s, after, List.foldl_append, List.foldl_cons]
    rfl
  have idle {x : Registry H} (hx : x.Steady) (hc : x.roster.Coherent) {v : Settings}
      (hv : x.provider = .memory v) :
      (after moves x).reload declared = ⟨.ok (), after moves x, []⟩ := by
    obtain ⟨w, hw⟩ := after_memory hc hv hown
    exact (hx.after hc hm).reload_eq (after_coherent moves hc) (by rw [hw]; rfl) declared
  constructor
  · exact idle (.empty _) Roster.Coherent.empty rfl
  · obtain ⟨v, hv⟩ := make_memory hc hu (m := .reload earlier) trivial
    rw [hs]
    exact idle (steady_reload earlier hc hq) (reload_coherent earlier hc) hv

open Scenario in
theorem reload_idle_shop :
    let shop := Scripted.bare "a" "shop"
    let bank := Scripted.bare "b" "bank"
    let off := Settings.empty.setDisabled "bank" true
    let before : List (Move Scripted) := [.register (fun _ => 1) bank, .provide (.memory off)]
    let moves : List (Move Scripted) := [.register (fun _ => 2) shop, .unregister "none"]
    let s := after (before ++ .reload (fun _ => 3) :: moves) (start (.memory .empty))
    s.reload (fun _ => 9) = ⟨.ok (), s, []⟩ ∧
      s.roster.active.values.map (fun e => (e.handler.key, e.priority)) = [("a", 2)] ∧
      s.roster.known.keys = ["bank", "shop"] := by
  intro shop bank off before moves s
  have hb : ∀ m ∈ before, m.InMemory := by simp [before, Move.InMemory]
  have hm : ∀ m ∈ moves, m.Own := by simp [moves, Move.Own]
  obtain ⟨-, hs⟩ := reload_idle .empty hb hm (fun _ => 3) fun _ => 9
  exact ⟨hs, by decide +kernel, by decide +kernel⟩

end Registry

end Brokerage
