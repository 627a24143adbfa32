import AdocProse.Check.Finding
import AdocProse.Json.Reader

/-!
Reading the findings out of a server's response. Members that are not needed are skipped.
-/

namespace AdocProse.Response

open Json

structure RuleSlots where
  id : Option String := none

def rule : Record Value RuleSlots String where
  name := "ApiRule"
  fields := [⟨"id", false, fun s => s.id.isSome,
    fun v s => do return { s with id := some (← Reading.string v) }⟩]
  empty := {}
  skip := Value.skipFault
  finish := fun s => Record.required "id" s.id

structure ReplacementSlots where
  value : Option String := none

def replacement : Record Value ReplacementSlots String where
  name := "ApiReplacement"
  fields := [⟨"value", false, fun s => s.value.isSome,
    fun v s => do return { s with value := some (← Reading.string v) }⟩]
  empty := {}
  skip := Value.skipFault
  finish := fun s => Record.required "value" s.value

structure MatchSlots where
  message : Option String := none
  replacements : Option (List String) := none
  offset : Option Nat := none
  length : Option Nat := none
  rule : Option String := none

/-- A match without replacements suggests nothing. Where it ends is a sum of 64 bits, which wraps
around. -/
def finding : Record Value MatchSlots Finding where
  name := "ApiMatch"
  fields := [
    ⟨"message", false, fun s => s.message.isSome,
      fun v s => do return { s with message := some (← Reading.string v) }⟩,
    ⟨"replacements", true, fun s => s.replacements.isSome,
      fun v s => do
        return { s with replacements := some (← Reading.list replacement.ofValue v) }⟩,
    ⟨"offset", false, fun s => s.offset.isSome,
      fun v s => do return { s with offset := some (← Reading.size v) }⟩,
    ⟨"length", false, fun s => s.length.isSome,
      fun v s => do return { s with length := some (← Reading.size v) }⟩,
    ⟨"rule", false, fun s => s.rule.isSome,
      fun v s => do return { s with rule := some (← rule.ofValue v) }⟩]
  empty := {}
  skip := Value.skipFault
  finish := fun s => do
    let message ← Record.required "message" s.message
    let offset ← Record.required "offset" s.offset
    let length ← Record.required "length" s.length
    let rule ← Record.required "rule" s.rule
    return ⟨offset, (offset + length) % UInt64.size, message, s.replacements.getD [], rule⟩

structure ResponseSlots where
  matches? : Option (List Finding) := none

def response : Record Value ResponseSlots (List Finding) where
  name := "CheckResponse"
  fields := [⟨"matches", false, fun s => s.matches?.isSome,
    fun v s => do return { s with matches? := some (← Reading.list finding.ofValue v) }⟩]
  empty := {}
  skip := Value.skipFault
  finish := fun s => Record.required "matches" s.matches?

def findings (body : String) : Except Fault (List Finding) :=
  (Document.ofBytes (Utf8.encode body)).read response.ofValue

end AdocProse.Response
