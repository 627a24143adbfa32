import AdocProse.Proofreading
import AdocProse.Toml.Document

/-!
Settings from the table of a configuration file. What is not set keeps its default, and keys that
nobody knows are ignored if their values are in range. A record may be written as a table or as an
array of its fields in order.
-/

namespace AdocProse

namespace Toml

/-- The numbers in a value that nobody reads must still have a value, and be in range. -/
def Scalar.inRange : Scalar → Bool
  | .integer value => value.any fun n => -Int.pow 2 127 ≤ n && n < Int.pow 2 128
  | .float fits => fits
  | .bool _ => true
  | .dateTime => true

namespace Value

mutual

def inRange : Value → Bool
  | .string _ => true
  | .scalar s => s.inRange
  | .array items => inRangeItems items
  | .table _ entries => inRangeEntries entries
  | .tables items => inRangeTables items

def inRangeItems : List Value → Bool
  | [] => true
  | v :: vs => v.inRange && inRangeItems vs

def inRangeEntries : List (String × Value) → Bool
  | [] => true
  | (_, v) :: es => v.inRange && inRangeEntries es

def inRangeTables : List (List (String × Value)) → Bool
  | [] => true
  | es :: ts => inRangeEntries es && inRangeTables ts

end

def string? : Value → Option String
  | .string s => some s
  | _ => none

def strings? : Value → Option (List String)
  | .array items => items.mapM string?
  | _ => none

def path? (v : Value) : Option Path :=
  Path.mk <$> v.string?

end Value

structure Setting (σ : Type) where
  name : String
  set : Value → σ → Option σ

namespace Setting

variable {σ : Type}

def ofEntries (fields : List (Setting σ)) : σ → List (String × Value) → Option σ
  | s, [] => some s
  | s, (key, v) :: es =>
    match fields.find? (·.name == key) with
    | some f => do ofEntries fields (← f.set v s) es
    | none => if v.inRange then ofEntries fields s es else none

/-- Items past the last field are not looked at, whether their numbers have values or not. -/
def ofItems : List (Setting σ) → σ → List Value → Option σ
  | f :: fs, s, v :: vs => do ofItems fs (← f.set v s) vs
  | _, s, _ => some s

/-- Sets what a value says of a record. A date counts as a table without known keys. -/
def ofValue (fields : List (Setting σ)) (s : σ) : Value → Option σ
  | .table _ entries => ofEntries fields s entries
  | .array items => ofItems fields s items
  | .tables items => ofItems fields s (items.reverse.map (Value.table .written))
  | .scalar .dateTime => some s
  | _ => none

end Setting

end Toml

open Toml

def ParserSettings.fields : List (Setting ParserSettings) := [
  ⟨"java", fun v c => do some { c with java := some (← v.path?) }⟩,
  ⟨"jvm_args", fun v c => do some { c with jvmArgs := ← v.strings? }⟩,
  ⟨"jar", fun v c => do some { c with jar := some (← v.path?) }⟩,
  ⟨"jar_url", fun v c => do some { c with jarUrl := ← v.string? }⟩,
  ⟨"cache_dir", fun v c => do some { c with cacheDir := some (← v.path?) }⟩,
  ⟨"temp_dir", fun v c => do some { c with tempDir := some (← v.path?) }⟩]

def CheckSettings.fields : List (Setting CheckSettings) := [
  ⟨"server", fun v c => do some { c with server := ← v.string? }⟩,
  ⟨"language", fun v c => do some { c with language := ← v.string? }⟩,
  ⟨"mother_tongue", fun v c => do some { c with motherTongue := some (← v.string?) }⟩,
  ⟨"disabled_rules", fun v c => do some { c with disabledRules := ← v.strings? }⟩,
  ⟨"enabled_rules", fun v c => do some { c with enabledRules := ← v.strings? }⟩]

namespace Settings

def fields : List (Setting Settings) := [
  ⟨"parser", fun v c => do
    some { c with parser := ← Setting.ofValue ParserSettings.fields {} v }⟩,
  ⟨"checker", fun v c => do
    some { c with checker := ← Setting.ofValue CheckSettings.fields {} v }⟩]

def ofText? (text : String) : Option Settings := do
  Setting.ofEntries fields {} (← Toml.Document.parse? text).entries

end Settings

end AdocProse
