import Brokerage.Proofs.Settings.Reading

namespace Brokerage

open Std Json Text

theorem Field.ofName_priorities : Field.ofName "priorities" = .priorities := by decide

theorem Field.ofName_generous : Field.ofName "generous" = .generous := by decide

theorem Field.ofName_other {s : String} (hp : s ≠ "priorities") (hg : s ≠ "generous") :
    Field.ofName s = .other := by
  rw [ofName, if_neg hp, if_neg hg]

namespace Settings

namespace Reading

theorem foldlM_perm {κ α : Type} {add : κ → α → Option κ}
    (hc : ∀ (k : κ) (a b : α), (add k a).bind (add · b) = (add k b).bind (add · a))
    {l l' : List α} (h : l.Perm l') (k : κ) : l.foldlM add k = l'.foldlM add k := by
  induction h generalizing k with
  | nil => rfl
  | cons a _ ih => simp only [List.foldlM_cons, ih]
  | swap a b l =>
    calc (b :: a :: l).foldlM add k
      _ = ((add k b).bind (add · a)).bind (l.foldlM add ·) := (Option.bind_assoc ..).symm
      _ = ((add k a).bind (add · b)).bind (l.foldlM add ·) := by rw [hc]
      _ = (a :: b :: l).foldlM add k := Option.bind_assoc ..
  | trans _ _ ih ih' => exact (ih k).trans (ih' k)

variable {es : List (String × Spelling)} {g : String}

theorem Gathered.add_comm (k : Gathered) (f f' : Field) :
    (add es g k f).bind (add es g · f') = (add es g k f').bind (add es g · f) := by
  obtain ⟨_ | m, _ | ids⟩ := k <;> cases hc : collect es <;> cases f <;> cases f' <;>
    simp [add, holds, put, hc]

theorem told_unknown {unknown : List (String × Value)}
    (hu : ∀ u ∈ unknown, Field.ofName u.1 = .other) (k : Gathered) :
    unknown.foldlM (Gathered.told es g) k = some k := by
  induction unknown with
  | nil => rfl
  | cons u us ih =>
    rw [List.foldlM_cons, Gathered.told, hu u List.mem_cons_self]
    exact ih fun x hx => hu x (List.mem_cons_of_mem u hx)

theorem gather_fields {unknown fields : List (String × Value)}
    (hu : ∀ u ∈ unknown, Field.ofName u.1 = .other)
    (hf : fields.Perm (("priorities", standingsValue es) :: ("generous", .string g) :: unknown)) :
    gather es g fields = (collect es).map fun m => ⟨some m, some (.ofList (words g))⟩ := by
  have hc (k : Gathered) (a b : String × Value) :
      (k.told es g a).bind (Gathered.told es g · b) = (k.told es g b).bind (Gathered.told es g · a) :=
    k.add_comm _ _
  have hp : Gathered.told es g .nothing ("priorities", standingsValue es) =
      (collect es).map fun m => ⟨some m, none⟩ := by
    rw [Gathered.told, Field.ofName_priorities]
    rfl
  have hg (m : ExtTreeMap String Standing) : Gathered.told es g ⟨some m, none⟩ ("generous", .string g) =
      some ⟨some m, some (.ofList (words g))⟩ := by
    rw [Gathered.told, Field.ofName_generous]
    rfl
  rw [gather, foldlM_perm hc hf, List.foldlM_cons, hp]
  cases collect es with
  | none => rfl
  | some m =>
    rw [Option.map_some, Option.map_some, Option.bind_eq_bind, Option.bind_some, List.foldlM_cons, hg]
    exact told_unknown hu _

end Reading

open Reading

theorem ofTokens?_fields (es : List (String × Spelling)) (g : String)
    {unknown fields : List (String × Value)}
    (hu : ∀ u ∈ unknown, Field.ofName u.1 = .other)
    (hf : fields.Perm (("priorities", standingsValue es) :: ("generous", .string g) :: unknown)) :
    (ofTokens? ((Value.object fields).tokens, .clean)).toOption =
      (collect es).map fun m => ⟨m, .ofList (words g)⟩ := by
  have hx : ∀ x ∈ fields, (Field.ofName x.1 = .priorities → x.2 = standingsValue es) ∧
      (Field.ofName x.1 = .generous → x.2 = .string g) := by
    intro x hx
    rcases List.mem_cons.mp (hf.mem_iff.mp hx) with rfl | hx
    · exact ⟨fun _ => rfl, fun h => nomatch Field.ofName_priorities.symm.trans h⟩
    rcases List.mem_cons.mp hx with rfl | hx
    · exact ⟨fun h => (nomatch Field.ofName_generous.symm.trans h), fun _ => rfl⟩
    · rw [hu x hx]
      exact ⟨nofun, nofun⟩
  rw [ofTokens?_object (fun x h => (hx x h).1) (fun x h => (hx x h).2), gather_fields hu hf,
    Option.map_map]
  rfl

theorem collect_concat (es : List (String × Spelling)) (e : String × Spelling) :
    collect (es ++ [e]) = (collect es).bind (keep · e) := by
  simp only [collect, List.foldlM_append, List.foldlM_cons, List.foldlM_nil, bind_pure,
    Option.bind_eq_bind]

theorem isSome_collect (es : List (String × Spelling)) :
    (collect es).isSome ↔ ∀ e ∈ es, e.2.standing?.isSome := by
  induction es using List.reverseRecOn with
  | nil => exact ⟨fun _ => nofun, fun _ => rfl⟩
  | append_singleton es e ih =>
    rw [collect_concat, List.forall_mem_append, List.forall_mem_singleton, ← ih]
    cases collect es with
    | none => simp
    | some m => simp [keep]

theorem getElem?_collect {es : List (String × Spelling)} {m : ExtTreeMap String Standing}
    (h : collect es = some m) (id : String) :
    m[id]? = (es.reverse.lookup id).map Spelling.setting := by
  induction es using List.reverseRecOn generalizing m with
  | nil =>
    cases h
    exact ExtTreeMap.getElem?_empty
  | append_singleton es e ih =>
    rw [collect_concat] at h
    obtain ⟨m', hm, h⟩ := Option.bind_eq_some_iff.mp h
    obtain ⟨st, hs, rfl⟩ := Option.map_eq_some_iff.mp h
    rw [List.reverse_concat, ExtTreeMap.getElem?_insert]
    by_cases he : id = e.1
    · subst he
      rw [if_pos compare_self, List.lookup_cons_self, Option.map_some,
        Spelling.setting_of_standing? hs]
    · have hb : (id == e.1) = false := beq_false_of_ne he
      rw [if_neg fun hc => he (LawfulEqCmp.eq_of_compare hc).symm, ih hm, List.lookup_cons, hb]

/-- An object that tells of standings and of generous ids once each, in any order and among fields of
other names, is read from any of its texts exactly if every number it gives for a standing is a
priority. What is read depends on nothing but the standings and the generous ids: an id has the
standing that was given last, and the generous ids are the words of their text. -/
theorem decode_exact (es : List (String × Spelling)) (g : String) :
    ∃ o : Option Settings,
      (∀ (unknown fields : List (String × Value)) (s : String),
        (∀ u ∈ unknown, u.1 ≠ "priorities" ∧ u.1 ≠ "generous") →
        fields.Perm (("priorities", standingsValue es) :: ("generous", .string g) :: unknown) →
        Spelled s.toList (Value.object fields).tokens → (read? s).toOption = o) ∧
      (o.isSome ↔ ∀ e ∈ es, ∀ n : Int, e.2 = .number n → -2147483648 ≤ n ∧ n ≤ 2147483647) ∧
      ∀ t ∈ o, (∀ id : String, t.standings[id]? = (es.reverse.lookup id).map Spelling.setting) ∧
        ∀ w : String, w ∈ t.generous ↔ IsRun w g := by
  refine ⟨(collect es).map fun m => ⟨m, .ofList (words g)⟩, ?_, ?_, ?_⟩
  · intro unknown fields s hu hf hs
    have ho : ∀ u ∈ unknown, Field.ofName u.1 = .other :=
      fun u h => Field.ofName_other (hu u h).1 (hu u h).2
    rw [read?, tokens_of_spelled hs]
    exact ofTokens?_fields es g ho hf
  · rw [Option.isSome_map, isSome_collect]
    simp only [Spelling.isSome_standing?_iff]
  · intro t ht
    obtain ⟨m, hm, rfl⟩ := Option.map_eq_some_iff.mp ht
    refine ⟨getElem?_collect hm, ?_⟩
    intro w
    rw [← mem_words_iff, ExtTreeSet.mem_ofList]
    exact List.contains_iff_mem

example : (read? ("\x7b\"generous\": \"a\\u0062  c\", \"other\": [1E+5], " ++
    "\"priorities\": \x7b\"k\": 1, \"\\u006b\": 7\x7d\x7d")).toOption =
    some ⟨.ofList [("k", Standing.ranked 7)], .ofList ["ab", "c"]⟩ := by decide +kernel

end Settings

end Brokerage
