namespace Brokerage.Json

inductive Lapse where
  | early
  | malformed
  deriving DecidableEq

end Brokerage.Json
