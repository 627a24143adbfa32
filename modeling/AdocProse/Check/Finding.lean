import AdocProse.Number.Decimal

/-!
Findings: the potential errors that a server reports, each with its place in the document, the
corrections it suggests and the rule that it broke.
-/

namespace AdocProse

structure Finding where
  start : Nat
  stop : Nat
  message : String
  suggestions : List String
  rule : String
  deriving DecidableEq

namespace Finding

def text (f : Finding) : String :=
  "Potential error at characters " ++ Decimal.text f.start ++ "-" ++ Decimal.text f.stop ++ ": " ++
    f.message ++ "\nSuggested correction(s): [" ++ String.intercalate ", " f.suggestions ++ "]"

end Finding

end AdocProse
