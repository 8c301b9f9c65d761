import Brokerage.Proofs.Registry.Rebuild
import Brokerage.Proofs.Registry.Runs
import Brokerage.Proofs.Settings.Locality
import Brokerage.Registry.Views
import Brokerage.Scenario.Scripted
import Mathlib.Data.List.Perm.Basic

namespace Brokerage

open Std Text

theorem Provider.ensureEntry_comm (p : Provider) {a b : String} (hab : a ≠ b) (n m : Int32) :
    (p.ensureEntry a n).ensureEntry b m = (p.ensureEntry b m).ensureEntry a n := by
  have hid : (Amendment.ensure a n).id ≠ (Amendment.ensure b m).id := hab
  cases p with
  | memory t => exact congrArg memory (Amendment.apply_comm hid t)
  | file s d => exact congrArg (file · d) (Stored.amend_comm hid s)

def Notice.id : Notice → String
  | .registered i => i.id
  | .unregistered i => i.id

namespace Registry

variable {H : Type} [Handler H] {r : Registry H}

theorem ext_of_coherent {s : Registry H} (hr : r.roster.Coherent) (hs : s.roster.Coherent)
    (hactive : r.roster.active = s.roster.active) (hknown : r.roster.known = s.roster.known)
    (hprovider : r.provider = s.provider) : r = s := by
  obtain ⟨ro, p⟩ := r
  obtain ⟨so, q⟩ := s
  obtain rfl : ro = so := hr.ext hs hactive hknown
  exact congrArg (Registry.mk ro) hprovider

def admits (r : Registry H) (h : H) : Bool :=
  isWord (Handler.info h).id && ! r.provider.table.isDisabled (Handler.info h).id

def retains (r : Registry H) (h : H) : Bool :=
  isWord (Handler.info h).id && (! r.provider.table.isDisabled (Handler.info h).id ||
    ! r.roster.active.contains (Handler.info h).id)

def verdict (r : Registry H) (h : H) : Except Rejection Unit :=
  if isWord (Handler.info h).id = false then .error (.invalidId (Handler.info h).id)
  else if r.provider.table.isDisabled (Handler.info h).id = true then
    .error (.disabled (Handler.info h).id)
  else .ok ()

structure Offered (declared : H → Int8) (h : H) (r : Registry H)
    (o : Outcome H (Except Rejection Unit)) : Prop where
  answer : o.answer = r.verdict h
  notices : o.notices =
    if r.admits h then r.roster.leaving (Handler.info h).id ++ [.registered (Handler.info h)]
    else []
  active : o.registry.roster.active =
    if r.admits h then r.roster.active.insert (Handler.info h).id (r.entry declared h)
    else r.roster.active
  known : o.registry.roster.known =
    if r.retains h then r.roster.known.insert (Handler.info h).id h else r.roster.known
  provider : o.registry.provider =
    if r.admits h then r.provider.ensureEntry (Handler.info h).id (r.entry declared h).priority
    else r.provider

theorem register_offered (declared : H → Int8) (h : H) (hc : r.roster.Coherent) :
    Offered declared h r (r.register declared h) := by
  obtain ⟨hw, he⟩ | ⟨hw, hd, he⟩ | ⟨hw, hd, he⟩ := register_cases declared h hc
  · rw [he]
    refine ⟨?_, ?_, ?_, ?_, ?_⟩ <;> simp [admits, retains, verdict, hw]
  · rw [he]
    refine ⟨?_, ?_, ?_, ?_, ?_⟩
    · simp [verdict, hw, hd]
    · simp [admits, hd]
    · simp [admits, hd, Roster.note_active]
    · cases ha : r.roster.active.contains (Handler.info h).id <;>
        simp [retains, hw, hd, ha, Roster.note, Roster.learn]
    · simp [admits, hd]
  · rw [he]
    refine ⟨?_, ?_, ?_, ?_, ?_⟩
    · simp [verdict, hw, hd]
    · simp [admits, hw, hd]
    · simp only [admits, hw, hd, Bool.not_false, Bool.and_self, ↓reduceIte]
      exact Roster.install_active _ _
    · simp only [retains, hw, hd, Bool.not_false, Bool.true_or, Bool.and_self, ↓reduceIte]
      exact Roster.install_known _ _
    · simp [admits, hw, hd]

section

variable (declared : H → Int8) {h : H} (hc : r.roster.Coherent)

include hc

theorem admits_register (x : H) : (r.register declared h).registry.admits x = r.admits x := by
  rw [admits, register_isDisabled declared h hc, admits]

theorem verdict_register (x : H) : (r.register declared h).registry.verdict x = r.verdict x := by
  rw [verdict, register_isDisabled declared h hc, verdict]

theorem active_register_of_ne {id : String} (hid : (Handler.info h).id ≠ id) :
    (r.register declared h).registry.roster.active[id]? = r.roster.active[id]? := by
  rw [(register_offered declared h hc).active]
  split
  · rw [ExtTreeMap.getElem?_insert, if_neg (by rwa [Std.compare_eq_iff_eq])]
  · rfl

variable {x : H} (hid : (Handler.info h).id ≠ (Handler.info x).id)

include hid

theorem retains_register : (r.register declared h).registry.retains x = r.retains x := by
  rw [retains, register_isDisabled declared h hc, ExtTreeMap.contains_eq_isSome_getElem?,
    active_register_of_ne declared hc hid, ← ExtTreeMap.contains_eq_isSome_getElem?, retains]

theorem leaving_register :
    (r.register declared h).registry.roster.leaving (Handler.info x).id =
      r.roster.leaving (Handler.info x).id := by
  rw [Roster.leaving, active_register_of_ne declared hc hid, Roster.leaving]

theorem entry_register :
    (r.register declared h).registry.entry declared x = r.entry declared x := by
  rw [entry, entry]
  rcases register_table declared h hc with ht | ⟨n, ht⟩
  · rw [ht]
  · rw [ht, Settings.priority_ensureEntry _ hid]

theorem register_comm :
    ((r.register declared h).registry.register declared x).registry =
      ((r.register declared x).registry.register declared h).registry := by
  have hh := register_coherent declared h hc
  have hx := register_coherent declared x hc
  have rh := register_offered declared h hc
  have rx := register_offered declared x hc
  have rhx := register_offered declared x hh
  have rxh := register_offered declared h hx
  -- Neither offer changes what the other one reads, so it only matters that their writes commute.
  apply ext_of_coherent (register_coherent declared x hh) (register_coherent declared h hx)
  · rw [rhx.active, rxh.active, rh.active, rx.active, admits_register declared hc,
      admits_register declared hc, entry_register declared hc hid,
      entry_register declared hc hid.symm]
    cases r.admits h with
    | false => rfl
    | true =>
      cases r.admits x with
      | false => rfl
      | true => exact Trees.insert_comm _ hid _ _
  · rw [rhx.known, rxh.known, rh.known, rx.known, retains_register declared hc hid,
      retains_register declared hc hid.symm]
    cases r.retains h with
    | false => rfl
    | true =>
      cases r.retains x with
      | false => rfl
      | true => exact Trees.insert_comm _ hid _ _
  · rw [rhx.provider, rxh.provider, rh.provider, rx.provider, admits_register declared hc,
      admits_register declared hc, entry_register declared hc hid,
      entry_register declared hc hid.symm]
    cases r.admits h with
    | false => rfl
    | true =>
      cases r.admits x with
      | false => rfl
      | true => exact r.provider.ensureEntry_comm hid _ _

end

def offerAll (declared : H → Int8) : List H → Registry H →
    Outcome H (List (Except Rejection Unit))
  | [], r => ⟨[], r, []⟩
  | h :: hs, r =>
    let o := r.register declared h
    let rest := offerAll declared hs o.registry
    ⟨o.answer :: rest.answer, rest.registry, o.notices ++ rest.notices⟩

theorem registerAll_eq (declared : H → Int8) (hs : List H) (r : Registry H) :
    registerAll declared hs r =
      ((offerAll declared hs r).registry, (offerAll declared hs r).notices) := by
  induction hs generalizing r with
  | nil => rfl
  | cons h hs ih => rw [registerAll_cons, ih, offerAll]

variable (declared : H → Int8)

theorem register_notices_of_ne {h x : H} (hc : r.roster.Coherent)
    (hid : (Handler.info h).id ≠ (Handler.info x).id) :
    ((r.register declared h).registry.register declared x).notices =
      (r.register declared x).notices := by
  rw [(register_offered declared x (register_coherent declared h hc)).notices,
    (register_offered declared x hc).notices, admits_register declared hc,
    leaving_register declared hc hid]

theorem register_answer_of_ne {h x : H} (hc : r.roster.Coherent) :
    ((r.register declared h).registry.register declared x).answer =
      (r.register declared x).answer := by
  rw [(register_offered declared x (register_coherent declared h hc)).answer,
    (register_offered declared x hc).answer, verdict_register declared hc]

theorem offerAll_each (hc : r.roster.Coherent) {hs : List H}
    (hn : (hs.map fun h => (Handler.info h).id).Nodup) :
    (offerAll declared hs r).answer = hs.map (fun h => (r.register declared h).answer) ∧
      (offerAll declared hs r).notices = hs.flatMap fun h => (r.register declared h).notices := by
  induction hs generalizing r with
  | nil => exact ⟨rfl, rfl⟩
  | cons h hs ih =>
    have hne := ne_of_nodup_cons hn
    obtain ⟨ha, hnotices⟩ := ih (register_coherent declared h hc) (List.nodup_cons.mp hn).2
    constructor
    · rw [offerAll, ha, List.map_cons]
      exact congrArg _ (List.map_congr_left fun x hx => register_answer_of_ne declared hc)
    · rw [offerAll, hnotices, List.flatMap_cons]
      exact congrArg _ (List.flatMap_congr fun x hx =>
        register_notices_of_ne declared hc (hne x hx))

theorem offerAll_registry_perm (hc : r.roster.Coherent) {hs hs' : List H} (hp : hs.Perm hs')
    (hn : (hs.map fun h => (Handler.info h).id).Nodup) :
    (offerAll declared hs r).registry = (offerAll declared hs' r).registry := by
  induction hp generalizing r with
  | nil => rfl
  | cons h hp ih => exact ih (register_coherent declared h hc) (List.nodup_cons.mp hn).2
  | swap h x hs =>
    have hne := ne_of_nodup_cons hn h List.mem_cons_self
    simp only [offerAll]
    rw [register_comm declared hc hne]
  | trans hp hp' ih ih' => exact (ih hc hn).trans (ih' hc ((hp.map _).nodup_iff.mp hn))

theorem registerAll_perm (hc : r.roster.Coherent) {hs hs' : List H} (hp : hs.Perm hs')
    (hn : (hs.map fun h => (Handler.info h).id).Nodup) :
    (registerAll declared hs r).1 = (registerAll declared hs' r).1 ∧
      (registerAll declared hs r).2.Perm (registerAll declared hs' r).2 := by
  have hn' := (hp.map _).nodup_iff.mp hn
  rw [registerAll_eq, registerAll_eq]
  refine ⟨offerAll_registry_perm declared hc hp hn, ?_⟩
  rw [(offerAll_each declared hc hn).2, (offerAll_each declared hc hn').2]
  exact hp.flatMap_right _

theorem id_of_mem_notices (hc : r.roster.Coherent) (h : H) :
    ∀ n ∈ (r.register declared h).notices, n.id = (Handler.info h).id := by
  intro n hn
  rw [(register_offered declared h hc).notices] at hn
  split at hn
  · rcases List.mem_append.mp hn with hn | hn
    · obtain ⟨e, he, rfl⟩ := List.mem_map.mp hn
      exact hc.named (Option.mem_toList.mp he)
    · rw [List.mem_singleton.mp hn]
      rfl
  · cases hn

omit [Handler H] in
theorem filter_perm {key : H → String} {hs hs' : List H} (hp : hs.Perm hs')
    (hn : (hs.map key).Nodup) (id : String) :
    hs.filter (fun h => key h = id) = hs'.filter fun h => key h = id := by
  induction hp with
  | nil => rfl
  | cons h hp ih => rw [List.filter_cons, List.filter_cons, ih (List.nodup_cons.mp hn).2]
  | swap h x hs =>
    have hne := ne_of_nodup_cons hn h List.mem_cons_self
    simp only [List.filter_cons, decide_eq_true_eq]
    by_cases hx : key x = id
    · have hh : key h ≠ id := fun hh => hne (hx.trans hh.symm)
      rw [if_neg hh, if_pos hx, if_neg hh]
    · rw [if_neg hx, if_neg hx]
  | trans hp hp' ih ih' => exact (ih hn).trans (ih' ((hp.map _).nodup_iff.mp hn))

theorem offerAll_notices_filter (hc : r.roster.Coherent) {hs : List H}
    (hn : (hs.map fun h => (Handler.info h).id).Nodup) (id : String) :
    (offerAll declared hs r).notices.filter (fun n => n.id = id) =
      (hs.filter fun h => (Handler.info h).id = id).flatMap fun h =>
        (r.register declared h).notices := by
  rw [(offerAll_each declared hc hn).2]
  clear hn
  induction hs with
  | nil => rfl
  | cons h hs ih =>
    have hnotices := id_of_mem_notices declared hc h
    -- All that is told about one offer has its id, so it is kept or left out as a whole.
    rw [List.flatMap_cons, List.filter_append, ih, List.filter_cons]
    by_cases hid : (Handler.info h).id = id
    · have hall : ∀ n ∈ (r.register declared h).notices, decide (n.id = id) = true :=
        fun n hm => decide_eq_true ((hnotices n hm).trans hid)
      rw [List.filter_eq_self.mpr hall, if_pos (decide_eq_true hid), List.flatMap_cons]
    · have hnone : ∀ n ∈ (r.register declared h).notices, ¬ decide (n.id = id) = true :=
        fun n hm he => hid ((hnotices n hm).symm.trans (of_decide_eq_true he))
      rw [List.filter_eq_nil_iff.mpr hnone, if_neg (by simpa using hid), List.nil_append]

/-- Handlers under different ids that are offered to a registry, however it has come to be: in
whatever order they come, each gets the answer that it would get alone, and the registry is the
same in the end, with its settings. What is announced is the same but for the order, and in the same
order for each id. -/
theorem offered_in_any_order (p : Provider) (moves : List (Move H)) {hs hs' : List H}
    (hn : (hs.map fun h => (Handler.info h).id).Nodup) (hp : hs.Perm hs') :
    let r := after moves (start p)
    let o := offerAll declared hs r
    let o' := offerAll declared hs' r
    o.answer = hs.map (fun h => (r.register declared h).answer) ∧
    o'.answer = hs'.map (fun h => (r.register declared h).answer) ∧
    o.registry = o'.registry ∧ o.notices.Perm o'.notices ∧
    ∀ id : String, o.notices.filter (fun n => n.id = id) =
      o'.notices.filter fun n => n.id = id := by
  intro r o o'
  have hc : r.roster.Coherent := reached_coherent p moves
  have hn' := (hp.map _).nodup_iff.mp hn
  obtain ⟨ha, hnotices⟩ := offerAll_each declared hc hn
  obtain ⟨ha', hnotices'⟩ := offerAll_each declared hc hn'
  refine ⟨ha, ha', offerAll_registry_perm declared hc hp hn, ?_, ?_⟩
  · rw [hnotices, hnotices']
    exact hp.flatMap_right _
  · intro id
    rw [offerAll_notices_filter declared hc hn, offerAll_notices_filter declared hc hn',
      filter_perm hp hn]

open Scenario in
theorem offered_in_any_order_shop :
    let old : Scripted := { Scripted.bare "old" "bank" with kind := .flag }
    let new := Scripted.bare "new" "bank"
    let t := (Settings.empty.setPriority "bank" 5).setDisabled "till" true
    let hs := [.bare "a" "shop", .bare "b" "till", .bare "c" "two words", new]
    let r := after [.register (fun _ => 1) old] (start (.memory t))
    let o := offerAll (fun _ => 5) hs r
    let o' := offerAll (fun _ => 5) hs.reverse r
    o.registry = o'.registry ∧ o.registry.kinds = [.text] ∧
      (o.registry.ranking .text).map (fun x => (x.info.id, x.priority)) =
        [("bank", 5), ("shop", 5)] ∧
      o.registry.roster.known.keys = ["bank", "shop", "till"] ∧
      o.notices.filter (fun n => n.id = "bank") =
        [.unregistered (Handler.info old), .registered (Handler.info new)] ∧
      o'.notices.filter (fun n => n.id = "bank") = o.notices.filter fun n => n.id = "bank" := by
  intro old new t hs r o o'
  have hn : (hs.map fun h => (Handler.info h).id).Nodup := by decide
  obtain ⟨-, -, hr, -, hf⟩ := offered_in_any_order (fun _ => 5) (.memory t)
    [.register (fun _ => 1) old] hn hs.reverse_perm.symm
  exact ⟨hr, by decide +kernel, by decide +kernel, by decide +kernel, by decide +kernel,
    (hf "bank").symm⟩

end Registry

end Brokerage
