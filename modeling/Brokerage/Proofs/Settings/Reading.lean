import Brokerage.Proofs.Json.Layout
import Brokerage.Proofs.Settings.Passing
import Brokerage.Proofs.Text.Words

namespace Brokerage

open Std Json Text

inductive Spelling where
  | number (n : Int)
  | word
  | marker

namespace Spelling

def value : Spelling → Value
  | .number n => .number (.ofInt n)
  | .word => .string "disabled"
  | .marker => .object [("disabled", .null)]

def setting : Spelling → Standing
  | .number n => .ranked (Int32.ofInt n)
  | .word | .marker => .disabled

def standing? : Spelling → Option Standing
  | .number n =>
    if Int32.minValue.toInt ≤ n ∧ n ≤ Int32.maxValue.toInt then some (.ranked (Int32.ofInt n))
    else none
  | .word | .marker => some .disabled

theorem setting_of_standing? {sp : Spelling} {st : Standing} (h : sp.standing? = some st) :
    sp.setting = st := by
  cases sp with
  | number n =>
    rw [standing?, Option.ite_none_right_eq_some] at h
    exact Option.some.inj h.2
  | word | marker => exact Option.some.inj h

theorem isSome_standing?_iff (sp : Spelling) : sp.standing?.isSome ↔
    ∀ n : Int, sp = .number n → -2147483648 ≤ n ∧ n ≤ 2147483647 := by
  cases sp with
  | number n =>
    rw [standing?, Option.isSome_ite]
    constructor
    · rintro h _ ⟨⟩
      exact h
    · intro h
      exact h n rfl
  | word | marker => exact ⟨fun _ => nofun, fun _ => rfl⟩

theorem ofTokens?_number (n : Int) :
    Standing.ofTokens? [.number (.ofInt n)] = (number n).standing? := by
  simp only [Standing.ofTokens?, Number.int_ofInt, Option.bind_eq_bind, Option.bind_some, standing?]

theorem sound_of_fits {n : Int} (h : (number n).standing?.isSome) :
    (Token.number (.ofInt n)).sound = true := by
  apply Number.double_ofInt
  have hl : Int32.minValue.toInt = -2147483648 := rfl
  have hu : Int32.maxValue.toInt = 2147483647 := rfl
  have hs : UInt64.size = 18446744073709551616 := rfl
  simp only [standing?, Option.isSome_ite] at h
  omega

end Spelling

namespace Settings

namespace Reading

def keep (m : ExtTreeMap String Standing) (e : String × Spelling) :
    Option (ExtTreeMap String Standing) := e.2.standing?.map (m.insert e.1)

def collect (es : List (String × Spelling)) : Option (ExtTreeMap String Standing) :=
  es.foldlM keep ∅

variable {κ α : Type}

def Ends (At : Due → κ → Reading → Prop) (x : Except Fault Reading) : Option κ → Prop
  | some k => ∃ r : Reading, x = .ok r ∧ At .separator k r
  | none => ∃ e : Fault, x = .error e

theorem Ends.append {ι : Type} {At : Due → ι → Reading → Prop} {At' : Due → κ → Reading → Prop}
    {ts us : List Token} {r : Reading} {i : Option ι} {next : ι → Option κ}
    (h : Ends At (ts.foldlM step r) i)
    (hu : ∀ {j : ι} {q : Reading}, At .separator j q → Ends At' (us.foldlM step q) (next j)) :
    Ends At' ((ts ++ us).foldlM step r) (i.bind next) := by
  cases i with
  | none =>
    obtain ⟨e, he⟩ := h
    exact ⟨e, foldlM_append_of_error he⟩
  | some j =>
    obtain ⟨q, hq, hj⟩ := h
    rw [foldlM_append_of_ok hq]
    exact hu hj

def oneMember (m : String × Value) : List Token := .string (some m.1) :: .colon :: m.2.tokens

theorem memberTokens_cons (m : String × Value) (ms : List (String × Value)) :
    Value.memberTokens (m :: ms) =
      oneMember m ++ if ms.isEmpty then [] else .comma :: Value.memberTokens ms := rfl

theorem ends_memberTokens {At : Due → κ → Reading → Prop} (f : α → String × Value)
    {add : κ → α → Option κ}
    (hc : ∀ {k : κ} {r : Reading}, At .separator k r → ∃ r', r.step .comma = .ok r' ∧ At .key k r')
    (a : α) (as : List α)
    (hm : ∀ x ∈ a :: as, ∀ {d : Due} {k : κ} {r : Reading}, d = .member ∨ d = .key → At d k r →
      Ends At ((oneMember (f x)).foldlM step r) (add k x))
    {d : Due} (hd : d = .member ∨ d = .key) {k : κ} {r : Reading} (hr : At d k r) :
    Ends At ((Value.memberTokens ((a :: as).map f)).foldlM step r) ((a :: as).foldlM add k) := by
  induction as generalizing a d k r with
  | nil =>
    rw [List.map_cons, memberTokens_cons]
    exact (hm a List.mem_cons_self hd hr).append fun {j q} hj => ⟨q, rfl, hj⟩
  | cons x as ih =>
    rw [List.map_cons, memberTokens_cons, List.map_cons, List.isEmpty_cons,
      if_neg Bool.false_ne_true]
    apply (hm a List.mem_cons_self hd hr).append
    intro j q hj
    obtain ⟨q', hq, hk⟩ := hc hj
    rw [foldlM_cons_of_ok hq]
    exact ih x (fun y hy => hm y (List.mem_cons_of_mem a hy)) (.inr rfl) hk

theorem advance_of_step {r : Reading} {t : Token} {p : Place} (hp : r.place.step t = some p)
    (hr : r.passes = false) (ht : t.sound = true) (hd : p.opened.length ≤ deepest) :
    r.advance t = .ok p := by
  have hd' : decide (deepest < p.opened.length) = false := decide_eq_false (by omega)
  simp only [advance, hp, hr, ht, hd', Bool.not_true, Bool.or_self, Bool.false_eq_true, ↓reduceIte]

theorem step_of_unsound {r : Reading} {t : Token} (hr : r.passes = false) (ht : t.sound = false) :
    ∃ e : Fault, r.step t = .error e := by
  cases hp : r.place.step t with
  | none => exact ⟨_, by simp only [step, advance, hp, bind, Except.bind]; rfl⟩
  | some p =>
    have ha : r.advance t = .error (.lapse .malformed) := by
      simp only [advance, hp, hr, ht, Bool.not_false, Bool.true_or, Bool.false_eq_true, ↓reduceIte]
    exact ⟨_, by simp only [step, ha, bind, Except.bind]; rfl⟩

theorem step_of_mean {r r' : Reading} {t : Token} {p : Place} (ha : r.advance t = .ok p)
    (hm : r.mean t p = .ok r') : r.step t = .ok { r' with place := p } := by
  simp only [step, ha, hm, bind, Except.bind]

theorem step_of_mean_error {r : Reading} {t : Token} {p : Place} {e : Fault}
    (ha : r.advance t = .ok p) (hm : r.mean t p = .error e) : r.step t = .error e := by
  simp only [step, ha, hm, bind, Except.bind]

section Standings

variable (id : String) (m : ExtTreeMap String Standing) (g : Option (ExtTreeSet String))

def among (d : Due) : Reading := ⟨⟨[.curly, .curly], d⟩, .priorities, id, [], some m, g⟩

def Among (d : Due) (m : ExtTreeMap String Standing) (r : Reading) : Prop :=
  ∃ id : String, r = among id m g d

theorem ends_number (n : Int) : Ends (Among g) ((among id m g .value).step (.number (.ofInt n)))
    ((Spelling.number n).standing?.map (m.insert id)) := by
  let p : Place := ⟨[.curly, .curly], .separator⟩
  have hd : p.opened.length ≤ deepest := by decide
  have hm : (among id m g .value).mean (.number (.ofInt n)) p =
      settle { among id m g .value with said := [.number (.ofInt n)] } := rfl
  rw [settle, Spelling.ofTokens?_number] at hm
  cases hs : (Spelling.number n).standing? with
  | some s =>
    have ha : (among id m g .value).advance (.number (.ofInt n)) = .ok p :=
      advance_of_step rfl rfl (Spelling.sound_of_fits (by rw [hs]; rfl)) hd
    rw [hs] at hm
    exact ⟨among id (m.insert id s) g .separator, step_of_mean ha hm, id, rfl⟩
  | none =>
    rw [hs] at hm
    cases ht : (Token.number (.ofInt n)).sound with
    | true => exact ⟨_, step_of_mean_error (advance_of_step rfl rfl ht hd) hm⟩
    | false => exact step_of_unsound rfl ht

theorem ends_spelling (sp : Spelling) : Ends (Among g)
    (sp.value.tokens.foldlM step (among id m g .value)) (sp.standing?.map (m.insert id)) := by
  cases sp with
  | number n =>
    have h := ends_number id m g n
    rwa [← bind_pure ((among id m g .value).step _)] at h
  | word => exact ⟨among id (m.insert id .disabled) g .separator, rfl, id, rfl⟩
  | marker => exact ⟨among id (m.insert id .disabled) g .separator, rfl, id, rfl⟩

theorem ends_standing (e : String × Spelling) {d : Due} (hd : d = .member ∨ d = .key)
    {r : Reading} (hr : Among g d m r) :
    Ends (Among g) ((oneMember (e.1, e.2.value)).foldlM step r) (keep m e) := by
  obtain ⟨id, rfl⟩ := hr
  have hid : (among id m g d).step (.string (some e.1)) = .ok (among e.1 m g .colon) := by
    rcases hd with rfl | rfl <;> rfl
  have hc : (among e.1 m g .colon).step .colon = .ok (among e.1 m g .value) := rfl
  rw [oneMember, foldlM_cons_of_ok hid, foldlM_cons_of_ok hc]
  exact ends_spelling e.1 m g e.2

end Standings

def standingsValue (es : List (String × Spelling)) : Value :=
  .object (es.map fun e => (e.1, e.2.value))

def between (id : String) (d : Due) (f : Field) (m : Option (ExtTreeMap String Standing))
    (g : Option (ExtTreeSet String)) : Reading := ⟨⟨[.curly], d⟩, f, id, [], m, g⟩

def Past (g : Option (ExtTreeSet String)) (d : Due) (m : ExtTreeMap String Standing) (r : Reading) :
    Prop := ∃ id : String, r = between id d .priorities (some m) g

theorem ends_standings (id : String) (g : Option (ExtTreeSet String)) (es : List (String × Spelling)) :
    Ends (Past g) ((standingsValue es).tokens.foldlM step (between id .value .priorities none g))
      (collect es) := by
  have ho : (between id .value .priorities none g).step (.opening .curly) =
      .ok (among id ∅ g .member) := rfl
  have hu {id : String} {m : ExtTreeMap String Standing} {d : Due}
      (hd : d = .member ∨ d = .separator) : Ends (Past g)
        ([.closing .curly].foldlM step (among id m g d)) (some m) := by
    rcases hd with rfl | rfl <;> exact ⟨between id .separator .priorities (some m) g, rfl, id, rfl⟩
  rw [standingsValue, Value.tokens, foldlM_cons_of_ok ho, ← Option.bind_fun_some (collect es)]
  cases es with
  | nil => exact hu (.inl rfl)
  | cons e es =>
    have hr : Among g .member ∅ (among id ∅ g .member) := ⟨id, rfl⟩
    have hc {m : ExtTreeMap String Standing} {r : Reading} (h : Among g .separator m r) :
        ∃ r', r.step .comma = .ok r' ∧ Among g .key m r' := by
      obtain ⟨id, rfl⟩ := h
      exact ⟨among id m g .key, rfl, id, rfl⟩
    have hm := ends_memberTokens (fun e : String × Spelling => (e.1, e.2.value)) hc e es
      (fun x _ {d m r} hd hr => ends_standing m g x hd hr) (.inl rfl) hr
    exact hm.append fun {m q} ⟨last, hl⟩ => hl ▸ hu (.inr rfl)

structure Gathered where
  standings : Option (ExtTreeMap String Standing)
  generous : Option (ExtTreeSet String)

namespace Gathered

def nothing : Gathered := ⟨none, none⟩

def settings (k : Gathered) : Settings := ⟨k.standings.getD ∅, k.generous.getD ∅⟩

def holds (k : Gathered) : Field → Bool
  | .priorities => k.standings.isSome
  | .generous => k.generous.isSome
  | .other => false

theorem holds_iff (k : Gathered) (f : Field) : k.holds f = true ↔
    (f = .priorities ∧ k.standings.isSome) ∨ (f = .generous ∧ k.generous.isSome) := by
  cases f <;> simp [holds]

def put (es : List (String × Spelling)) (g : String) (k : Gathered) : Field → Option Gathered
  | .priorities => (collect es).map fun m => { k with standings := some m }
  | .generous => some { k with generous := some (.ofList (words g)) }
  | .other => some k

def add (es : List (String × Spelling)) (g : String) (k : Gathered) (f : Field) : Option Gathered :=
  if k.holds f then none else k.put es g f

def told (es : List (String × Spelling)) (g : String) (k : Gathered) (x : String × Value) :
    Option Gathered := k.add es g (Field.ofName x.1)

end Gathered

def gather (es : List (String × Spelling)) (g : String) (fields : List (String × Value)) :
    Option Gathered := fields.foldlM (Gathered.told es g) Gathered.nothing

def Between (d : Due) (k : Gathered) (r : Reading) : Prop :=
  ∃ (id : String) (f : Field), r = between id d f k.standings k.generous

variable {es : List (String × Spelling)} {g : String} {k : Gathered}

theorem step_name (k : Gathered) (id s : String) (f : Field) {d : Due} (hd : d = .member ∨ d = .key) :
    (between id d f k.standings k.generous).step (.string (some s)) =
      if k.holds (Field.ofName s) then .error (.misfit (.repeated (Field.ofName s)))
      else .ok (between id .colon (Field.ofName s) k.standings k.generous) := by
  let p : Place := ⟨[.curly], .colon⟩
  have ha : (between id d f k.standings k.generous).advance (.string (some s)) = .ok p := by
    apply advance_of_step _ _ rfl (by decide)
    · rcases hd with rfl | rfl <;> rfl
    · rcases hd with rfl | rfl <;> cases f <;> rfl
  have hm : (between id d f k.standings k.generous).mean (.string (some s)) p =
      (between id d f k.standings k.generous).name s := by
    rcases hd with rfl | rfl <;> rfl
  by_cases hk : k.holds (Field.ofName s)
  · have hn : (between id d f k.standings k.generous).name s =
        .error (.misfit (.repeated (Field.ofName s))) := if_pos ((k.holds_iff _).mp hk)
    rw [if_pos hk]
    exact step_of_mean_error ha (hm.trans hn)
  · have hn : (between id d f k.standings k.generous).name s =
        .ok (between id d (Field.ofName s) k.standings k.generous) :=
      if_neg fun h => hk ((k.holds_iff _).mpr h)
    rw [if_neg hk]
    exact step_of_mean ha (hm.trans hn)

theorem ends_named {f : Field} {v : Value} (hk : k.holds f = false)
    (hp : f = .priorities → v = standingsValue es) (hg : f = .generous → v = .string g)
    (id : String) :
    Ends Between (v.tokens.foldlM step (between id .value f k.standings k.generous))
      (k.put es g f) := by
  cases f with
  | priorities =>
    have hs : k.standings = none := Option.isNone_iff_eq_none.mp (Option.isSome_eq_false_iff.mp hk)
    have h := ends_standings id k.generous es
    rw [hp rfl, hs, Gathered.put]
    cases hc : collect es with
    | none => rwa [hc] at h
    | some m =>
      rw [hc] at h
      obtain ⟨q, hq, last, rfl⟩ := h
      exact ⟨_, hq, last, .priorities, rfl⟩
  | generous =>
    rw [hg rfl]
    exact ⟨between id .separator .generous k.standings (some (.ofList (words g))), rfl, id,
      .generous, rfl⟩
  | other =>
    have hr : ((between id .value .other k.standings k.generous).placed [.curly] .value).passes =
      true := rfl
    exact ⟨_, foldlM_passed rfl v (.inl rfl) hr, id, .other, rfl⟩

theorem ends_field {x : String × Value}
    (hp : Field.ofName x.1 = .priorities → x.2 = standingsValue es)
    (hg : Field.ofName x.1 = .generous → x.2 = .string g) {d : Due} (hd : d = .member ∨ d = .key)
    {r : Reading} (hr : Between d k r) :
    Ends Between ((oneMember x).foldlM step r) (k.told es g x) := by
  obtain ⟨id, f, rfl⟩ := hr
  have hn := step_name k id x.1 f hd
  by_cases hk : k.holds (Field.ofName x.1)
  · rw [if_pos hk] at hn
    rw [Gathered.told, Gathered.add, if_pos hk, oneMember, List.foldlM_cons, hn]
    exact ⟨_, rfl⟩
  · have hc : (between id .colon (Field.ofName x.1) k.standings k.generous).step .colon =
        .ok (between id .value (Field.ofName x.1) k.standings k.generous) := by
      cases Field.ofName x.1 <;> rfl
    rw [if_neg hk] at hn
    rw [Gathered.told, Gathered.add, if_neg hk, oneMember, foldlM_cons_of_ok hn, foldlM_cons_of_ok hc]
    exact ends_named (Bool.eq_false_iff.mpr hk) hp hg id

def Over (_ : Due) (t : Settings) (r : Reading) : Prop := r.finish .clean = .ok t

theorem ends_closing {d : Due} (hd : d = .member ∨ d = .separator) {r : Reading}
    (hr : Between d k r) : Ends Over ([.closing .curly].foldlM step r) (some k.settings) := by
  obtain ⟨id, f, rfl⟩ := hr
  rcases hd with rfl | rfl <;> cases f <;> exact ⟨_, rfl, rfl⟩

theorem ends_object {fields : List (String × Value)}
    (hp : ∀ x ∈ fields, Field.ofName x.1 = .priorities → x.2 = standingsValue es)
    (hg : ∀ x ∈ fields, Field.ofName x.1 = .generous → x.2 = .string g) :
    Ends Over ((Value.object fields).tokens.foldlM step start)
      ((gather es g fields).map Gathered.settings) := by
  have ho : start.step (.opening .curly) = .ok (between "" .member .other none none) := rfl
  rw [Value.tokens, foldlM_cons_of_ok ho, Option.map_eq_bind]
  have hr : Between .member .nothing (between "" .member .other none none) := ⟨"", .other, rfl⟩
  cases fields with
  | nil => exact ends_closing (.inl rfl) hr
  | cons x xs =>
    have hc {k : Gathered} {r : Reading} (h : Between .separator k r) :
        ∃ r', r.step .comma = .ok r' ∧ Between .key k r' := by
      obtain ⟨id, f, rfl⟩ := h
      cases f <;> exact ⟨_, rfl, id, _, rfl⟩
    have hm := ends_memberTokens (fun x : String × Value => x) hc x xs
      (fun y hy {d k r} hd hr => ends_field (hp y hy) (hg y hy) hd hr) (.inl rfl) hr
    rw [List.map_id_fun'] at hm
    exact hm.append fun {k q} hq => ends_closing (.inr rfl) hq

end Reading

open Reading

theorem ofTokens?_object {es : List (String × Spelling)} {g : String} {fields : List (String × Value)}
    (hp : ∀ x ∈ fields, Field.ofName x.1 = .priorities → x.2 = standingsValue es)
    (hg : ∀ x ∈ fields, Field.ofName x.1 = .generous → x.2 = .string g) :
    (ofTokens? ((Value.object fields).tokens, .clean)).toOption =
      (gather es g fields).map Gathered.settings := by
  have h := ends_object hp hg
  cases ho : (gather es g fields).map Gathered.settings with
  | none =>
    rw [ho] at h
    obtain ⟨e, he⟩ := h
    rw [ofTokens?, he]
    rfl
  | some t =>
    rw [ho] at h
    obtain ⟨r, hr, hf⟩ := h
    rw [ofTokens?, hr]
    exact congrArg Except.toOption hf

end Settings

end Brokerage
