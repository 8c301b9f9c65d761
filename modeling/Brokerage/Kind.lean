import Brokerage.Text.Outline
import Brokerage.Text.Quoted
import Std.Data.ExtTreeMap

namespace Brokerage

open Text

/-- A kind of objects that are traded. The name stands for the type of these objects, so two types of
one name would be one kind. -/
structure Kind where
  name : String
  deriving DecidableEq

namespace Kind

instance : Ord Kind := ⟨compareOn Kind.name⟩

instance : Std.TransOrd Kind := inferInstanceAs (Std.TransCmp (compareOn Kind.name))

instance : Std.LawfulEqOrd Kind where
  eq_of_compare {a b} h := by
    obtain ⟨a⟩ := a
    obtain ⟨b⟩ := b
    exact congrArg Kind.mk (Std.LawfulEqOrd.eq_of_compare h)

def outline (k : Kind) : Outline := .tuple "ObjectType" [.leaf (quoted k.name)]

end Kind

end Brokerage
