import AdocProse.Json.Reader
import AdocProse.Proofs.Json.StringLit
import Mathlib.Data.List.Forall2

/-! Readings that succeed, one step after the other. -/

namespace AdocProse.Json

variable {α β σ ρ : Type} {room : Nat}

namespace Reading

lemma bind_ok {r : Reading α} {a : α} (h : r room = .ok a) (f : α → Reading β) :
    (r >>= f) room = f a room := by
  change (r room >>= fun a => f a room) = _
  rw [h]
  rfl

lemma string_printed (s : String) : string (.string (.printed s)) room = .ok s :=
  StringLit.text_printed s

lemma sequence_ok {rs : List (Reading α)} {as : List α}
    (h : List.Forall₂ (fun r a => r room = .ok a) rs as) : sequence rs none room = .ok as := by
  induction h with
  | nil => rfl
  | cons hr hrs ih =>
    rw [sequence, bind_ok hr, bind_ok ih]
    rfl

end Reading

namespace Record

variable {r : Record α σ ρ}

lemma member_ok {name : String} {f : Field α σ} {s s' : σ} {a : α} (hf : r.field? name = some f)
    (hnew : f.isSet s = false) (hset : f.set a s room = .ok s') :
    r.member s (.printed name, a) room = .ok s' := by
  have hname : (liftM (StringLit.printed name).text : Reading String) room = .ok name :=
    StringLit.text_printed name
  rw [member, Reading.bind_ok hname]
  simp only [hf, hnew, Bool.false_eq_true, if_false]
  exact hset

lemma members_cons {s s' : σ} {m : StringLit × α} {ms : List (StringLit × α)}
    (h : r.member s m room = .ok s') : r.members s (m :: ms) room = r.members s' ms room := by
  rw [members, Reading.bind_ok h]

lemma ofMembers_ok {ms : List (StringLit × α)} {s : σ} {a : ρ}
    (hms : r.members r.empty ms room = .ok s) (hfinish : r.finish s = .ok a) :
    r.ofMembers ms none room = .ok a := by
  have hcheck : Reading.check none room = .ok () := rfl
  rw [ofMembers, Reading.bind_ok hms, Reading.bind_ok hcheck, complete, hfinish]
  rfl

end Record

end AdocProse.Json
