namespace Brokerage

inductive Direction where
  | purchase
  | sale
  deriving DecidableEq

namespace Direction

def label : Direction → String
  | .purchase => "purchase"
  | .sale => "sale"

def title : Direction → String
  | .purchase => "Purchase"
  | .sale => "Sale"

def cancelReason (d : Direction) : String := d.title ++ " cancelled"

def failureReason (d : Direction) : String := d.label ++ " failed"

end Direction

end Brokerage
