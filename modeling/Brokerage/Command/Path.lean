namespace Brokerage

structure Path where
  rooted : Bool
  names : List String
  deriving DecidableEq

namespace Path

def read (s : String) : Path :=
  match s.splitOn "/" with
  | "" :: n :: ns => ⟨true, n :: ns⟩
  | ns => ⟨false, ns⟩

def text (p : Path) : String := (if p.rooted then "/" else "") ++ "/".intercalate p.names

def fits (p : Path) : Bool := p.text.utf8ByteSize < 4096

def nameFits (n : String) : Bool := n.utf8ByteSize ≤ 255

def stays (n : String) : Bool := n = "" || n = "."

def leaves (n : String) : Bool := n = ".."

def trim (ns : List String) : List String := (ns.reverse.dropWhile stays).reverse

def parent (p : Path) : Path := { p with names := trim (trim p.names).dropLast }

theorem trim_length (ns : List String) : (trim ns).length ≤ ns.length := by
  have h := (List.dropWhile_sublist (l := ns.reverse) stays).length_le
  simpa [trim] using h

theorem parent_length {p : Path} (h : p.names ≠ []) :
    p.parent.names.length < p.names.length := by
  have h₁ := trim_length (trim p.names).dropLast
  have h₂ := trim_length p.names
  have h₃ := List.length_pos_iff.mpr h
  simp only [List.length_dropLast] at h₁
  simp only [parent]
  omega

end Path

end Brokerage
