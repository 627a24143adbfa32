import AdocProse.Json.Fault

/-!
What can go wrong while a server is asked for findings.
-/

namespace AdocProse

inductive CheckError where
  /-- No reply came. -/
  | http
  /-- The reply's status is no success. -/
  | status (code : Nat) (body : String)
  /-- The reply's body presents no findings. -/
  | response (fault : Json.Fault)
  deriving DecidableEq

def CheckError.text : CheckError → String
  | .http => "request to LanguageTool failed"
  | .status code body => "LanguageTool returned HTTP " ++ Decimal.text code ++ ": " ++ body
  | .response _ => "invalid LanguageTool response"

end AdocProse
