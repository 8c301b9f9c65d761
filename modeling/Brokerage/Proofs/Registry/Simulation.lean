import Brokerage.Proofs.Registry.Runs
import Brokerage.Proofs.Settings.Persistence
import Brokerage.Registry.Views
import Brokerage.Transaction.Mediator

namespace Brokerage

open Std Text

namespace Provider

def save : Provider → Except Trouble Provider
  | .memory t => .ok (.memory t)
  | .file s d => (s.save d).map fun r => .file r.1 r.2

structure Agree (p q : Provider) : Prop where
  disabled : ∀ id : String, isWord id = true → p.table.isDisabled id = q.table.isDisabled id
  priority : ∀ id : String, isWord id = true →
    ∀ n : Int8, p.table.priority id n = q.table.priority id n
  generous : p.table.generous = q.table.generous

/-- A relation that holds on, whatever a registry and an operator do on both sides. Settings are
read again only when they were just saved. -/
structure Indistinct (R : Provider → Provider → Prop) : Prop where
  agree : ∀ {p q : Provider}, R p q → p.Agree q
  ensureEntry : ∀ {p q : Provider} {id : String}, R p q → isWord id = true →
    ∀ n : Int32, R (p.ensureEntry id n) (q.ensureEntry id n)
  edit : ∀ {p q : Provider} {e : Edit}, R p q → isWord e.id = true →
    R (p.change e.apply) (q.change e.apply)
  save : ∀ {p q : Provider}, R p q → ∃ p₁ q₁ : Provider, p.save = .ok p₁ ∧ q.save = .ok q₁ ∧
    R p₁ q₁ ∧ ∃ p₂ q₂ : Provider, p₁.reload = .ok p₂ ∧ q₁.reload = .ok q₂ ∧ R p₂ q₂

end Provider

namespace Registry

variable {H : Type} [Handler H]

/-- Whatever happens to a registry whose settings nobody else changes. To `refresh` is to save the
settings and to reload right after that. -/
inductive Act (H : Type) where
  | register (declared : H → Int8) (h : H)
  | unregister (id : String)
  | clear
  | edit (e : Edit)
  | save
  | refresh (declared : H → Int8)

def moved (r : Registry H) (m : Move H) : Outcome H (Except Trouble Answer) :=
  let o := r.make m
  ⟨.ok o.answer, o.registry, o.notices⟩

def act (r : Registry H) : Act H → Outcome H (Except Trouble Answer)
  | .register declared h => r.moved (.register declared h)
  | .unregister id => r.moved (.unregister id)
  | .clear => r.moved .clear
  | .edit e => r.moved (.provide (r.provider.change e.apply))
  | .save =>
    match r.provider.save with
    | .error t => ⟨.error t, r, []⟩
    | .ok p => r.moved (.provide p)
  | .refresh declared =>
    match r.provider.save with
    | .error t => ⟨.error t, r, []⟩
    | .ok p => moved { r with provider := p } (.reload declared)

def Act.Worded : Act H → Prop
  | .edit e => isWord e.id = true
  | _ => True

structure Twins (R : Provider → Provider → Prop) (r s : Registry H) : Prop where
  roster : r.roster = s.roster
  provider : R r.provider s.provider

structure Alike {α : Type} (R : Provider → Provider → Prop) (a b : Outcome H α) : Prop where
  answer : a.answer = b.answer
  notices : a.notices = b.notices
  registry : Twins R a.registry b.registry

variable {R : Provider → Provider → Prop} {r s : Registry H}

theorem register_alike (hR : Provider.Indistinct R) (ht : Twins R r s) (declared : H → Int8)
    (h : H) : Alike R (r.register declared h) (s.register declared h) := by
  obtain ⟨ro, p⟩ := r
  obtain ⟨_, q⟩ := s
  obtain ⟨rfl, hp⟩ := ht
  dsimp only at hp
  cases hw : isWord (Handler.info h).id with
  | false =>
    simp only [register, hw, Bool.not_false, ↓reduceIte]
    exact ⟨rfl, rfl, rfl, hp⟩
  | true =>
    -- The settings are asked about the id of a handler only after it was found to be a word.
    have hd := (hR.agree hp).disabled _ hw
    have hn := (hR.agree hp).priority _ hw (declared h)
    have he := hR.ensureEntry hp hw (q.table.priority (Handler.info h).id (declared h))
    simp only [register, hw, hd, hn, Bool.not_true, Bool.false_eq_true, ↓reduceIte]
    split
    · exact ⟨rfl, rfl, rfl, hp⟩
    · split
      · exact ⟨rfl, rfl, rfl, hp⟩
      · exact ⟨rfl, rfl, rfl, he⟩

theorem registerAll_twins (hR : Provider.Indistinct R) (ht : Twins R r s) (declared : H → Int8)
    (hs : List H) : Twins R (registerAll declared hs r).1 (registerAll declared hs s).1 ∧
      (registerAll declared hs r).2 = (registerAll declared hs s).2 := by
  induction hs generalizing r s with
  | nil => exact ⟨ht, rfl⟩
  | cons h hs ih =>
    have ha := register_alike hR ht declared h
    obtain ⟨hr, hn⟩ := ih ha.registry
    rw [registerAll_cons, registerAll_cons, ha.notices, hn]
    exact ⟨hr, rfl⟩

theorem unregister_alike (ht : Twins R r s) (id : String) :
    Alike R (r.unregister id) (s.unregister id) := by
  obtain ⟨ro, p⟩ := r
  obtain ⟨_, q⟩ := s
  obtain ⟨rfl, hp⟩ := ht
  exact ⟨rfl, rfl, rfl, hp⟩

theorem reload_alike (hR : Provider.Indistinct R) (hr : r.roster = s.roster) {p q : Provider}
    (hp : r.provider.reload = .ok p) (hq : s.provider.reload = .ok q) (hpq : R p q)
    (declared : H → Int8) : Alike R (r.reload declared) (s.reload declared) := by
  have ht : Twins R (⟨.empty, p⟩ : Registry H) ⟨.empty, q⟩ := ⟨rfl, hpq⟩
  obtain ⟨ha, hn⟩ := registerAll_twins hR ht declared s.roster.known.values
  simp only [reload, hp, hq, hr]
  exact ⟨rfl, by rw [hn, ha.roster], ha⟩

theorem act_alike (hR : Provider.Indistinct R) (ht : Twins R r s) {a : Act H} (ha : a.Worded) :
    Alike R (r.act a) (s.act a) := by
  cases a with
  | register declared h =>
    have h := register_alike hR ht declared h
    exact ⟨congrArg (Except.ok ∘ Answer.registered) h.answer, h.notices, h.registry⟩
  | unregister id =>
    have h := unregister_alike ht id
    exact ⟨congrArg (Except.ok ∘ Answer.unregistered) h.answer, h.notices, h.registry⟩
  | clear => exact ⟨rfl, rfl, rfl, ht.provider⟩
  | edit e => exact ⟨rfl, rfl, ht.roster, hR.edit ht.provider ha⟩
  | save =>
    obtain ⟨p₁, q₁, hp₁, hq₁, h₁, -⟩ := hR.save ht.provider
    simp only [act, hp₁, hq₁]
    exact ⟨rfl, rfl, ht.roster, h₁⟩
  | refresh declared =>
    obtain ⟨p₁, q₁, hp₁, hq₁, -, p₂, q₂, hp₂, hq₂, h₂⟩ := hR.save ht.provider
    have h := reload_alike (r := ⟨r.roster, p₁⟩) (s := ⟨s.roster, q₁⟩) hR ht.roster hp₂ hq₂ h₂
      declared
    simp only [act, hp₁, hq₁]
    exact ⟨congrArg (Except.ok ∘ Answer.reloaded) h.answer, h.notices, h.registry⟩

structure View (H O : Type) where
  infos : List Info
  info? : String → Option Info
  kinds : List Kind
  ranking : Kind → List Ranked
  mediate : Case O → Option (Mediator H O) × List (Probe H)
  settings : Settings

def view (O : Type) {H : Type} [Trades H O] (r : Registry H) : View H O :=
  ⟨r.infos, r.info?, r.kinds, r.ranking, r.mediate, r.provider.table⟩

structure Scene (H O : Type) where
  answer : Except Trouble Answer
  notices : List Notice
  view : View H O

def scenes (O : Type) {H : Type} [Trades H O] : List (Act H) → Registry H → List (Scene H O)
  | [], _ => []
  | a :: as, r =>
    let o := r.act a
    ⟨o.answer, o.notices, o.registry.view O⟩ :: scenes O as o.registry

def View.under {H O : Type} (look : Settings → Settings) (v : View H O) : View H O :=
  { v with settings := look v.settings }

def Scene.under {H O : Type} (look : Settings → Settings) (s : Scene H O) : Scene H O :=
  { s with view := s.view.under look }

variable {O : Type} {H : Type} [Trades H O] {R : Provider → Provider → Prop} {r s : Registry H}
variable {look : Settings → Settings}

theorem view_under (hR : Provider.Indistinct R)
    (hl : ∀ {p q : Provider}, R p q → look p.table = look q.table) (ht : Twins R r s) :
    (r.view O).under look = (s.view O).under look := by
  obtain ⟨ro, p⟩ := r
  obtain ⟨_, q⟩ := s
  obtain ⟨rfl, hp⟩ := ht
  have hg : p.table.isGenerous = q.table.isGenerous := by
    funext id
    rw [Settings.isGenerous, Settings.isGenerous, (hR.agree hp).generous]
  have hm : (⟨ro, p⟩ : Registry H).mediate (O := O) = (⟨ro, q⟩ : Registry H).mediate := by
    funext c
    simp only [mediate, dispatch, hg]
  simp only [View.under, view, hm, hl hp]
  rfl

theorem scenes_under (hR : Provider.Indistinct R)
    (hl : ∀ {p q : Provider}, R p q → look p.table = look q.table) (ht : Twins R r s)
    {acts : List (Act H)} (ha : ∀ a ∈ acts, a.Worded) :
    (scenes O acts r).map (Scene.under look) = (scenes O acts s).map (Scene.under look) := by
  induction acts generalizing r s with
  | nil => rfl
  | cons a as ih =>
    have h := act_alike hR ht (ha a List.mem_cons_self)
    have hs := ih h.registry fun x hx => ha x (List.mem_cons_of_mem a hx)
    have hv := view_under (O := O) hR hl h.registry
    simp only [scenes, List.map_cons, hs, Scene.under, h.answer, h.notices, hv]

end Registry

end Brokerage
