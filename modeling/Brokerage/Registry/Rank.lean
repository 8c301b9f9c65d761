import Brokerage.Handler
import Std.Data.ExtTreeMap

namespace Brokerage

open Std

structure Rank where
  priority : Int32
  id : String
  deriving DecidableEq

namespace Rank

def byPriority (a b : Rank) : Ordering := compare b.priority a.priority

instance : TransCmp byPriority := @TransCmp.opposite _ (compareOn Rank.priority) _

instance : Ord Rank := ⟨compareLex byPriority (compareOn Rank.id)⟩

instance : TransOrd Rank := inferInstanceAs (TransCmp (compareLex byPriority (compareOn Rank.id)))

instance : LawfulEqOrd Rank where
  eq_of_compare {a b} h := by
    obtain ⟨n, i⟩ := a
    obtain ⟨m, j⟩ := b
    have h : (compare m n).then (compare i j) = .eq := h
    obtain ⟨hn, hi⟩ := Ordering.then_eq_eq.mp h
    rw [LawfulEqOrd.eq_of_compare hn, LawfulEqOrd.eq_of_compare hi]

end Rank

structure Entry (H : Type) where
  handler : H
  priority : Int32
  deriving DecidableEq

namespace Entry

variable {H : Type} [Handler H]

def info (e : Entry H) : Info := Handler.info e.handler

def id (e : Entry H) : String := e.info.id

def kind (e : Entry H) : Kind := e.info.kind

def rank (e : Entry H) : Rank := ⟨e.priority, e.id⟩

end Entry

end Brokerage
