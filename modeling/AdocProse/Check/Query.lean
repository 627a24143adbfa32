import AdocProse.Check.Checker

/-!
How a check is asked for: the address that a server answers at, and the fields of the form that is
sent to it. The text goes with its markup, so the positions of findings are positions in the
document.
-/

namespace AdocProse

namespace Query

/-- The server's address without the slashes at its end, and the path of the check. -/
def endpoint (server : String) : String :=
  String.ofList ((server.toList.reverse.dropWhile (· == '/')).reverse) ++ "/v2/check"

def rulesField (name : String) (rules : List String) : List (String × String) :=
  if rules = [] then [] else [(name, String.intercalate "," rules)]

/-- Fields for rules are there only if there are rules. -/
def form (r : CheckRequest) : List (String × String) :=
  [("language", r.language), ("data", r.text.toJson)] ++
    rulesField "disabledRules" r.disabledRules ++
    rulesField "enabledRules" r.enabledRules ++
    (match r.motherTongue with
      | some tongue => [("motherTongue", tongue)]
      | none => [])

end Query

end AdocProse
