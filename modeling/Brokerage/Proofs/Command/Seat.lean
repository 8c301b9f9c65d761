import Brokerage.Command.Folder

namespace Brokerage

open Std

theorem splitOnAux_standardPath (n : Nat) (hn : n ≤ 11) :
    String.splitOnAux Invocation.standardPath "/" 0 0 0 [] =
      String.splitOnAux Invocation.standardPath "/" 0 ⟨n⟩ 0 [] := by
  induction n with
  | zero => rfl
  | succ n ih =>
    have h : ∀ n < 11, String.Pos.Raw.atEnd Invocation.standardPath ⟨n⟩ = false ∧
        (String.Pos.Raw.get Invocation.standardPath ⟨n⟩ == String.Pos.Raw.get "/" 0) = false ∧
        String.Pos.Raw.next Invocation.standardPath (String.Pos.Raw.unoffsetBy ⟨n⟩ 0) =
          ⟨n + 1⟩ := by decide +kernel
    obtain ⟨h₁, h₂, h₃⟩ := h n (by omega)
    rw [ih (by omega), String.splitOnAux, h₁, h₂, h₃]
    rfl

namespace Path

def standard : Path := ⟨false, [Invocation.standardPath]⟩

theorem read_standard : read Invocation.standardPath = standard := by
  have h : Invocation.standardPath.splitOn "/" = [Invocation.standardPath] := by
    have he : String.Pos.Raw.atEnd Invocation.standardPath ⟨11⟩ = true := by decide +kernel
    have hx : String.Pos.Raw.extract Invocation.standardPath 0 ⟨11⟩ = Invocation.standardPath := by
      decide +kernel
    rw [String.splitOn, if_neg (by decide), splitOnAux_standardPath 11 (Nat.le_refl _),
      String.splitOnAux, he, if_pos rfl, hx]
    rfl
  rw [read, h]
  rfl

theorem standard_fits : standard.fits = true := by decide +kernel

theorem standard_parent : standard.parent = ⟨false, []⟩ := by decide +kernel

theorem stays_standard : stays Invocation.standardPath = false := by decide

theorem leaves_standard : leaves Invocation.standardPath = false := by decide

theorem nameFits_standard : nameFits Invocation.standardPath = true := by decide +kernel

end Path

def Disk.ofNode : Option Node → Disk
  | none => .absent
  | some .directory => .directory
  | some (.file bytes) => .file bytes

theorem Disk.ofNode_eq_absent_iff {n : Option Node} : ofNode n = .absent ↔ n = none := by
  rcases n with _ | ⟨_⟩ | _ <;> simp [ofNode]

theorem Disk.ofNode_eq_file_iff {n : Option Node} {bytes : ByteArray} :
    ofNode n = .file bytes ↔ n = some (.file bytes) := by
  rcases n with _ | ⟨_⟩ | _ <;> simp [ofNode]

namespace Folder

def seat : Location := Invocation.standardPath :: home

variable (f : Folder)

theorem makeDirectories_standard : f.makeDirectories Path.standard.parent = (true, f) := by
  rw [Path.standard_parent, makeDirectories]
  rfl

theorem follow_standard : f.follow home Path.standard.names =
    if f.isDirectory home then
      if f.nodes.contains seat then .ok seat else .error .missing
    else .error .barred := by
  rw [Path.standard, follow]
  cases f.isDirectory home
  · rfl
  · simp only [Path.stays_standard, Path.leaves_standard, Path.nameFits_standard, Bool.not_true,
      Bool.false_eq_true, ↓reduceIte]
    rfl

theorem node?_standard : f.node? Path.standard =
    if f.isDirectory home then f.nodes[seat]? else none := by
  have hs : start Path.standard = home := rfl
  rw [node?, Path.standard_fits, if_pos rfl, hs, follow_standard]
  split
  · rw [ExtTreeMap.contains_eq_isSome_getElem?]
    cases hn : f.nodes[seat]? with
    | none => rfl
    | some n => exact hn
  · rfl

theorem entry_standard : f.entry Path.standard =
    if f.isDirectory home then .ok (home, Invocation.standardPath) else .error .barred := by
  rw [entry, Path.standard_fits]
  cases hd : f.isDirectory home <;>
    simp [Path.standard, start, follow, hd, Path.nameFits_standard, bind, Except.bind]

theorem writeFile_standard (bytes : ByteArray) : f.writeFile Path.standard bytes =
    if f.isDirectory home && ! f.isDirectory seat then
      some ⟨f.nodes.insert seat (.file bytes)⟩
    else none := by
  rw [writeFile, entry_standard]
  cases f.isDirectory home
  · rfl
  · change (if Path.stays Invocation.standardPath || Path.leaves Invocation.standardPath ||
      f.isDirectory seat then none else some _) = _
    rw [Path.stays_standard, Path.leaves_standard]
    cases f.isDirectory seat <;> rfl

def settings : Disk := f.disk Invocation.standardPath

theorem settings_eq : f.settings =
    if f.isDirectory home then Disk.ofNode f.nodes[seat]? else .blocked := by
  simp only [settings, disk, Path.read_standard, makeDirectories_standard, node?_standard,
    writeFile_standard, Bool.true_and]
  cases f.isDirectory home with
  | false => rfl
  | true =>
    cases hn : f.nodes[seat]? with
    | none =>
      have hs : f.isDirectory seat = false := by rw [isDirectory, hn]; rfl
      rw [hs]
      rfl
    | some n => cases n <;> rfl

theorem settings_eq_absent_iff : f.settings = .absent ↔
    f.isDirectory home = true ∧ f.nodes[seat]? = none := by
  rw [settings_eq, ← Disk.ofNode_eq_absent_iff]
  cases f.isDirectory home <;> simp

theorem settings_eq_file_iff {bytes : ByteArray} : f.settings = .file bytes ↔
    f.isDirectory home = true ∧ f.nodes[seat]? = some (.file bytes) := by
  rw [settings_eq, ← Disk.ofNode_eq_file_iff]
  cases f.isDirectory home <;> simp

def keepSettings (d : Disk) : Folder := f.keep Invocation.standardPath d

theorem keepSettings_of_no_bytes {d : Disk} (h : d.bytes? = none) : f.keepSettings d = f := by
  simp only [keepSettings, keep, Path.read_standard, makeDirectories_standard, h]
  rfl

theorem keepSettings_file (bytes : ByteArray) : f.keepSettings (.file bytes) =
    if f.isDirectory home && ! f.isDirectory seat then ⟨f.nodes.insert seat (.file bytes)⟩
    else f := by
  simp only [keepSettings, keep, Path.read_standard, makeDirectories_standard, Disk.bytes?,
    Option.bind_some, writeFile_standard]
  cases f.isDirectory home && ! f.isDirectory seat <;> rfl

theorem nodes_keepSettings (d : Disk) {l : Location} (hl : l ≠ seat) :
    (f.keepSettings d).nodes[l]? = f.nodes[l]? := by
  cases d with
  | file bytes =>
    rw [keepSettings_file]
    split
    · dsimp only
      rw [ExtTreeMap.getElem?_insert, if_neg fun h => hl (Std.compare_eq_iff_eq.mp h).symm]
    · rfl
  | _ => rw [f.keepSettings_of_no_bytes rfl]

theorem keepSettings_settings : f.keepSettings f.settings = f := by
  cases hd : f.settings with
  | file bytes =>
    obtain ⟨-, hn⟩ := f.settings_eq_file_iff.mp hd
    have hi : f.nodes.insert seat (.file bytes) = f.nodes := by
      apply ExtTreeMap.ext_getElem?
      intro l
      rw [ExtTreeMap.getElem?_insert]
      split
      · next h => rw [← Std.compare_eq_iff_eq.mp h, hn]
      · rfl
    rw [keepSettings_file, hi]
    split <;> rfl
  | _ => exact f.keepSettings_of_no_bytes rfl

theorem settings_keepSettings {f : Folder}
    (hf : f.settings = .absent ∨ ∃ bytes : ByteArray, f.settings = .file bytes) (bytes : ByteArray) :
    (f.keepSettings (.file bytes)).settings = .file bytes := by
  have hd : f.isDirectory home = true ∧ f.isDirectory seat = false := by
    rcases hf with hf | ⟨_, hf⟩
    · obtain ⟨hh, hn⟩ := f.settings_eq_absent_iff.mp hf
      exact ⟨hh, by rw [isDirectory, hn]; rfl⟩
    · obtain ⟨hh, hn⟩ := f.settings_eq_file_iff.mp hf
      exact ⟨hh, by rw [isDirectory, hn]; rfl⟩
  have hh : (f.keepSettings (.file bytes)).isDirectory home = true := by
    rw [isDirectory, f.nodes_keepSettings _ (by decide)]
    exact hd.1
  refine (settings_eq_file_iff _).mpr ⟨hh, ?_⟩
  rw [keepSettings_file, hd.1, hd.2]
  exact ExtTreeMap.getElem?_insert_self

theorem runBy_unsaid {args : List String} (host : Command.Host)
    (h : Invocation.ofArguments? args = none) : (f.runBy host args).2 = f := by
  rw [Invocation.ofArguments?] at h
  rw [runBy]
  cases ha : Invocation.ofArguments args with
  | error s => rfl
  | ok i =>
    rw [ha] at h
    cases h

theorem runBy_said {args : List String} {i : Invocation} (host : Command.Host)
    (h : Invocation.ofArguments? args = some i) (hp : i.path = Invocation.standardPath) :
    f.runBy host args = (Exit.ofResult (i.command.run host f.settings).1,
      f.keepSettings (i.command.run host f.settings).2) := by
  rw [Invocation.ofArguments?] at h
  cases ha : Invocation.ofArguments args with
  | error s =>
    rw [ha] at h
    cases h
  | ok j =>
    rw [ha] at h
    obtain rfl := Option.some.inj h
    simp only [runBy, ha, hp]
    rfl

theorem settings_fresh : fresh.settings = .absent := by
  have hd : fresh.isDirectory home = true := by decide +kernel
  have hn : (fresh.nodes[seat]?).isNone = true := by decide +kernel
  exact (settings_eq_absent_iff _).mpr ⟨hd, Option.isNone_iff_eq_none.mp hn⟩

end Folder

end Brokerage
