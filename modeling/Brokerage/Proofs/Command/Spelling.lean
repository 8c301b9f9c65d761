import Brokerage.Command.Arguments
import Brokerage.Proofs.Text.Digits

namespace Brokerage

open Text

namespace Invocation

theorem not_isValue_of_isNegative {a : String} (h : isNegative a = true) : isValue a = false := by
  rw [isNegative] at h
  split at h
  · next cs he =>
    rw [isValue, he]
    cases cs with
    | nil => cases h
    | cons c cs => rfl
  · cases h

theorem inlinePath?_of_isNegative {a : String} (h : isNegative a = true) :
    inlinePath? a = .none := by
  rw [inlinePath?]
  apply if_neg
  intro hp
  obtain ⟨cs, hc⟩ := List.isPrefixOf_iff_prefix.mp hp
  have hs : "--config=".toList = '-' :: '-' :: "config=".toList := by decide
  rw [isNegative, ← hc, hs] at h
  exact absurd h (by simp [takeDigits, digit?])

variable {allowed : Allowed} {a : String} {args values : List String} {o : Options}

theorem scan_dashes : scan allowed ("--" :: args) values o = .ok (o, values ++ args) := by
  rw [scan, if_pos rfl]
  exact fun _ _ h => absurd h (by decide)

theorem scan_off (h : allowed.off = true) :
    scan allowed ("--off" :: args) values o = o.addOff.bind (scan allowed args values) := by
  rw [scan, if_neg (by decide), if_neg (by decide), if_neg (by decide), if_neg (by decide),
    if_pos rfl, h]
  · rfl
  · exact fun _ _ h => absurd h (by decide)

theorem scan_value (h : isValue a = true) :
    scan allowed (a :: args) values o = scan allowed args (values ++ [a]) o := by
  have hd : a ≠ "--" := by
    rintro rfl
    exact absurd h (by decide)
  rw [scan, if_neg hd, if_pos h]
  rintro path rest rfl -
  exact absurd h (by decide)

theorem scan_values {vs : List String} (h : ∀ v ∈ vs, isValue v = true) :
    scan allowed (vs ++ args) values o = scan allowed args (values ++ vs) o := by
  induction vs generalizing values with
  | nil => rw [List.nil_append, List.append_nil]
  | cons v vs ih =>
    rw [List.cons_append, scan_value (h v List.mem_cons_self),
      ih fun x hx => h x (List.mem_cons_of_mem v hx), List.append_assoc]
    rfl

theorem scan_negative (h : isNegative a = true) (ha : allowed.negative values = true) :
    scan allowed (a :: args) values o = scan allowed args (values ++ [a]) o := by
  have hs : ∀ s : String, isNegative s = false → a ≠ s := by
    rintro s hs rfl
    rw [h] at hs
    cases hs
  rw [scan, if_neg (hs _ (by decide)), not_isValue_of_isNegative h, if_neg Bool.false_ne_true,
    if_neg (hs _ (by decide)), if_neg (hs _ (by decide)), if_neg (hs _ (by decide)),
    inlinePath?_of_isNegative h]
  · simp only [ha, h, Bool.and_self, ↓reduceIte]
  · rintro path rest rfl -
    exact absurd h (by decide)

theorem leading_value (h : isValue a = true) (hn : a ≠ "help") :
    leading (a :: args) o = fromCommand o a args := by
  rw [leading, if_neg hn, if_pos h]
  rintro path rest rfl -
  exact absurd h (by decide)

theorem isNegative_intText {n : Int} (h : n < 0) : isNegative (intText n) = true := by
  obtain ⟨ds, he, -, hne, -⟩ := digitsOf_eq n.natAbs
  have ht : takeDigits (digitsOf n.natAbs) = (ds, []) := by
    have h := takeDigits_append ds .nil
    rwa [List.append_nil, ← he] at h
  have hc : (intText n).toList = '-' :: digitsOf n.natAbs := by
    rw [intText, String.toList_ofList, intChars, if_pos h]
  rw [isNegative, hc]
  simp [ht, hne]

theorem isValue_intText {n : Int} (h : ¬ n < 0) : isValue (intText n) = true := by
  obtain ⟨ds, he, -, hne, -⟩ := digitsOf_eq n.natAbs
  obtain ⟨d, ds, rfl⟩ := List.exists_cons_of_ne_nil hne
  have hc : (intText n).toList = digitChar d :: ds.map digitChar := by
    rw [intText, String.toList_ofList, intChars, if_neg h, he, List.map_cons]
  rw [isValue, hc]
  split
  · next hm => exact absurd (List.cons.inj hm).1 (digitChar_ne_sign d).1
  · rfl

theorem readInt32?_intText (n : Int32) : readInt32? (intText n.toInt) = some n := by
  have hn : Int32.minValue.toInt ≤ n.toInt ∧ n.toInt ≤ Int32.maxValue.toInt :=
    ⟨n.minValue_le_toInt, n.toInt_le⟩
  rw [readInt32?, intText, String.toList_ofList, readInt?_intChars]
  change (if _ then some (Int32.ofInt n.toInt) else none) = _
  rw [if_pos hn, Int32.ofInt_toInt]

end Invocation

namespace Command

open Invocation

def name : Command → String
  | .init => "init"
  | .list => "show"
  | .rank _ _ => "priority"
  | .disable _ => "disable"
  | .enable _ => "enable"
  | .generous _ _ => "generous"

def values : Command → List String
  | .rank id n => [id, intText n.toInt]
  | c => c.ids

def flags : Command → List String
  | .generous _ false => ["--off"]
  | _ => []

def arguments (dashes : Bool) (c : Command) : List String :=
  c.name :: if dashes then c.flags ++ "--" :: c.values else c.values ++ c.flags

def Sayable (c : Command) : Prop := ∀ on : Bool, c ≠ .generous [] on

variable {c : Command}

theorem isValue_name : isValue c.name = true ∧ c.name ≠ "help" := by
  have h : ∀ s ∈ ["init", "show", "priority", "disable", "enable", "generous"],
      isValue s = true ∧ s ≠ "help" := by decide
  apply h
  cases c <;> simp [name]

def options (c : Command) : Options := ⟨none, false, ! c.flags.isEmpty⟩

theorem scan_flags (args values : List String) :
    scan (allowedFor c.name) (c.flags ++ args) values .none =
      scan (allowedFor c.name) args values c.options := by
  cases c with
  | generous ids on =>
    cases on with
    | false => exact scan_off rfl
    | true => rfl
  | _ => rfl

theorem scan_plain (h : ∀ id ∈ c.ids, isValue id = true) (args : List String) {o : Options} :
    scan (allowedFor c.name) (c.values ++ args) [] o =
      scan (allowedFor c.name) args c.values o := by
  cases c with
  | rank id n =>
    rw [values, List.cons_append, scan_value (h id List.mem_cons_self)]
    by_cases hn : n.toInt < 0
    · exact scan_negative (isNegative_intText hn) rfl
    · exact scan_value (isValue_intText hn)
  | _ => exact scan_values h

theorem command?_values (hc : c.Sayable) :
    command? c.name c.options.off c.values = some c := by
  cases c with
  | rank id n =>
    change (readInt32? (intText n.toInt)).map (Command.rank id) = _
    rw [readInt32?_intText]
    rfl
  | generous ids on =>
    cases ids with
    | nil => exact absurd rfl (hc on)
    | cons id ids => cases on <;> rfl
  | _ => rfl

theorem ofArguments?_arguments (hc : c.Sayable) (dashes : Bool)
    (h : dashes = true ∨ ∀ id ∈ c.ids, isValue id = true) :
    ofArguments? (c.arguments dashes) = some ⟨standardPath, false, c⟩ := by
  have hs : scan (allowedFor c.name)
      (if dashes then c.flags ++ "--" :: c.values else c.values ++ c.flags) [] .none =
      .ok (c.options, c.values) := by
    cases dashes with
    | true => exact (scan_flags _ []).trans scan_dashes
    | false =>
      have hf := scan_flags (c := c) [] c.values
      rw [List.append_nil] at hf
      exact (scan_plain (h.resolve_left Bool.false_ne_true) c.flags).trans hf
  rw [ofArguments?, ofArguments, arguments, leading_value isValue_name.1 isValue_name.2, fromCommand,
    hs]
  simp only [bind, Except.bind, command?_values hc]
  rfl

end Command

end Brokerage
