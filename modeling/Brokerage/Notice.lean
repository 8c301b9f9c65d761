import Brokerage.Handler

namespace Brokerage

inductive Notice where
  | registered (i : Info)
  | unregistered (i : Info)
  deriving DecidableEq

end Brokerage
