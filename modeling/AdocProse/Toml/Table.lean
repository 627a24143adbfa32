import AdocProse.Toml.Scalar

/-!
Tables of a configuration file. A table can be extended by later lines as far as its origin allows:
one that was written out under a header or inline is closed to dotted keys from elsewhere, and a
header may open only a table that other headers merely passed through.
-/

namespace AdocProse.Toml

inductive Origin where
  /-- Opened by its own header. -/
  | written
  /-- Passed through by the header of a table inside. -/
  | implied
  /-- Passed through by a dotted key. -/
  | dotted
  | inline
  deriving DecidableEq

inductive Value where
  | string (s : String)
  | scalar (s : Scalar)
  | array (items : List Value)
  | table (origin : Origin) (entries : List (String × Value))
  /-- Tables under one repeated header, the latest first. -/
  | tables (items : List (List (String × Value)))

structure Table where
  origin : Origin
  entries : List (String × Value)

namespace Table

def get? (t : Table) (key : String) : Option Value :=
  t.entries.lookup key

def put (t : Table) (key : String) (v : Value) : Table :=
  ⟨t.origin, t.entries.filter (fun e => e.1 ≠ key) ++ [(key, v)]⟩

def toValue (t : Table) : Value :=
  .table t.origin t.entries

/-- Changes the table that a path leads to, making the tables on the way. Of repeated tables the
latest is meant. -/
def descend (dotted : Bool) (change : Table → Option Table) : List String → Table → Option Table
  | [], t => change t
  | key :: path, t =>
    match t.get? key with
    | none => do
      let child ← descend dotted change path ⟨if dotted then .dotted else .implied, []⟩
      some (t.put key child.toValue)
    | some (.table origin entries) =>
      if origin = .inline ∨ (dotted ∧ origin = .written) then none
      else do
        let child ← descend dotted change path ⟨origin, entries⟩
        some (t.put key child.toValue)
    | some (.tables (latest :: earlier)) => do
      let child ← descend dotted change path ⟨.written, latest⟩
      some (t.put key (.tables (child.entries :: earlier)))
    | some _ => none

/-- Sets a new key. A dotted key does not end in a table that has been written out. -/
def insert (path : List String) (key : String) (v : Value) : Table → Option Table :=
  descend true (fun t =>
    if path ≠ [] ∧ (t.origin = .written ∨ t.origin = .inline) then none
    else if (t.get? key).isSome then none
    else some (t.put key v)) path

def openTable (path : List String) (key : String) : Table → Option Table :=
  descend false (fun t =>
    match t.get? key with
    | none => some (t.put key (.table .written []))
    | some (.table .implied entries) => some (t.put key (.table .written entries))
    | some _ => none) path

def openRepeated (path : List String) (key : String) : Table → Option Table :=
  descend false (fun t =>
    match t.get? key with
    | none => some (t.put key (.tables [[]]))
    | some (.tables earlier) => some (t.put key (.tables ([] :: earlier)))
    | some _ => none) path

def insertBelow (header path : List String) (key : String) (v : Value) : Table → Option Table :=
  descend false (insert path key v) header

end Table

end AdocProse.Toml
