import AdocProse.Json.Value

/-!
Reading typed data from values. A reading takes the number of containers that may still be opened,
and stops at the first fault. A record is read from an object, where members may stand in any order
and unknown ones are skipped, or from an array of its fields. `Record` is generic in what stands
for a member's value, so that the value can carry more than the bare document.
-/

namespace AdocProse.Json

/-- A result that depends on how many containers may still be opened. -/
abbrev Reading := ReaderT Nat (Except Fault)

namespace Reading

def fail {α : Type} (f : Fault) : Reading α :=
  fun _ => .error f

def check : Option Fault → Reading Unit
  | none => fun _ => .ok ()
  | some f => fail f

def inside {α : Type} (r : Reading α) : Reading α
  | 0 => .error .malformed
  | room + 1 => r room

/-- The reading of a value of another kind than the expected one. -/
def mismatch {α : Type} (v : Value) (expected : String) : Reading α :=
  fun _ => do throw (.unfit (.kind (← v.found) expected))

def string : Value → Reading String
  | .string s => fun _ => s.text
  | v => mismatch v "a string"

/-- A natural number that fits 64 bits. -/
def size : Value → Reading Nat
  | .number n => fun _ => do
    match ← n.toNumber with
    | .natural k => .ok k
    | .negative k => .error (.unfit (.range (.negative k) "usize"))
    | .float x => .error (.unfit (.kind (.float x) "usize"))
  | v => mismatch v "usize"

def sequence {α : Type} : List (Reading α) → Option Fault → Reading (List α)
  | [], ending => do
    check ending
    pure []
  | r :: rs, ending => do
    let a ← r
    let as ← sequence rs ending
    pure (a :: as)

def list {α : Type} (item : Value → Reading α) : Value → Reading (List α)
  | .array items ending => inside (sequence (items.map item) ending)
  | v => mismatch v "a sequence"

end Reading

/-- A field of a record under construction `σ`; `α` stands for the values of members. -/
structure Field (α σ : Type) where
  name : String
  optional : Bool
  isSet : σ → Bool
  set : α → σ → Reading σ

/-- A record of type `ρ`. What is there of it is gathered first; `finish` asks for the fields that
must be there. -/
structure Record (α σ ρ : Type) where
  name : String
  fields : List (Field α σ)
  empty : σ
  skip : α → Option Fault
  finish : σ → Except Misfit ρ

namespace Record

variable {α σ ρ : Type}

def required {β : Type} (field : String) : Option β → Except Misfit β
  | some b => .ok b
  | none => .error (.missing field)

def field? (r : Record α σ ρ) (name : String) : Option (Field α σ) :=
  r.fields.find? (·.name == name)

/-- A known field may occur once. -/
def member (r : Record α σ ρ) (s : σ) (m : StringLit × α) : Reading σ := do
  let name ← m.1.text
  match r.field? name with
  | none => do
    Reading.check (r.skip m.2)
    pure s
  | some f => if f.isSet s then Reading.fail (.unfit (.repeated name)) else f.set m.2 s

def members (r : Record α σ ρ) : σ → List (StringLit × α) → Reading σ
  | s, [] => pure s
  | s, m :: ms => do members r (← r.member s m) ms

def complete (r : Record α σ ρ) (s : σ) : Reading ρ :=
  match r.finish s with
  | .ok a => pure a
  | .error why => Reading.fail (.unfit why)

def ofMembers (r : Record α σ ρ) (ms : List (StringLit × α)) (ending : Option Fault) :
    Reading ρ := do
  let s ← r.members r.empty ms
  Reading.check ending
  r.complete s

/-- `count` fields were there before the remaining ones. -/
def items (r : Record α σ ρ) (ending : Option Fault) :
    Nat → List (Field α σ) → σ → List α → Reading σ
  | _, [], s, [] => do
    Reading.check ending
    pure s
  | _, [], _, _ :: _ => Reading.fail .malformed
  | count, f :: fs, s, [] => do
    Reading.check ending
    if f.optional then items r ending (count + 1) fs s []
    else Reading.fail (.unfit (.short count r.name r.fields.length))
  | count, f :: fs, s, a :: as => do items r ending (count + 1) fs (← f.set a s) as

def ofItems (r : Record α σ ρ) (as : List α) (ending : Option Fault) : Reading ρ := do
  r.complete (← r.items ending 0 r.fields r.empty as)

/-- Reads a record whose members' values are bare. -/
def ofValue (r : Record Value σ ρ) : Value → Reading ρ
  | .object ms ending => Reading.inside (r.ofMembers ms ending)
  | .array vs ending => Reading.inside (r.ofItems vs ending)
  | v => Reading.mismatch v ("struct " ++ r.name)

end Record

namespace Document

/-- How many containers may be open at once. -/
def depth : Nat :=
  127

def read {α : Type} (d : Document) (root : Value → Reading α) : Except Fault α := do
  let a ← root d.root depth
  if d.trailing then .error .malformed else .ok a

end Document

end AdocProse.Json
