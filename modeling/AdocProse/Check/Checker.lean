import AdocProse.Annotation
import AdocProse.Check.Finding

/-!
Checking annotated text with a selection of rules. The rule about repeated white space is always
disabled: markup is left out of the text that is checked, and runs of blanks stay behind. Findings
of disabled rules are dropped, whatever the engine reports.
-/

namespace AdocProse

structure CheckSettings where
  server : String := "http://localhost:8081"
  language : String := "en-US"
  motherTongue : Option String := none
  disabledRules : List String := []
  enabledRules : List String := []
  deriving DecidableEq

/-- Sets of rules, in ascending order without repetition. -/
def insertRule (rule : String) : List String → List String
  | [] => [rule]
  | r :: rs =>
    if rule < r then rule :: r :: rs
    else if rule = r then r :: rs
    else r :: insertRule rule rs

def ruleSet (rules : List String) : List String :=
  rules.foldr insertRule []

structure Checker where
  language : String
  motherTongue : Option String
  disabledRules : List String
  enabledRules : List String
  deriving DecidableEq

structure CheckRequest where
  language : String
  motherTongue : Option String
  disabledRules : List String
  enabledRules : List String
  text : AnnotatedText
  deriving DecidableEq

namespace Checker

def whitespaceRule : String :=
  "WHITESPACE_RULE"

def ofSettings (s : CheckSettings) : Checker where
  language := s.language
  motherTongue := s.motherTongue
  disabledRules := ruleSet (whitespaceRule :: s.disabledRules)
  enabledRules := s.enabledRules.filter (· != whitespaceRule)

/-- One warning for every mention of the rule that cannot be enabled. -/
def warnings (s : CheckSettings) : List String :=
  (s.enabledRules.filter (· == whitespaceRule)).map fun rule =>
    "Ignoring enabled rule " ++ rule ++ ": it cannot be enabled"

def request (c : Checker) (text : AnnotatedText) : CheckRequest :=
  ⟨c.language, c.motherTongue, c.disabledRules, c.enabledRules, text⟩

def keeps (c : Checker) (f : Finding) : Bool :=
  !c.disabledRules.contains f.rule

/-- Asks the engine once and keeps the findings of rules that are not disabled. -/
def check {m : Type → Type} [Monad m] (c : Checker) (engine : CheckRequest → m (List Finding))
    (text : AnnotatedText) : m (List Finding) := do
  let findings ← engine (c.request text)
  pure (findings.filter c.keeps)

def checkTree {m : Type → Type} [Monad m] (c : Checker)
    (engine : CheckRequest → m (List Finding)) (tree : Node) : m (List Finding) :=
  c.check engine tree.annotate

end Checker

end AdocProse
