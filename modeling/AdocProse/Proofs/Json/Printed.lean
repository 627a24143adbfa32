import AdocProse.Json.Reader
import AdocProse.Proofs.Json.Token
import Mathlib.Data.List.Forall2

/-! Printed strings, numbers, arrays and objects are read as the values they were printed from, in
every place where a value can stand. -/

namespace AdocProse.Json

open Utf8 (bytes)

/-- Wherever a value is awaited, the text `cs` is read as the value `v`. -/
def Reads (cs : List Char) (v : Value) : Prop :=
  ∀ rest, Numeral.Ends rest → ∃ t ts, Token.list (bytes cs ++ rest) = t :: ts ∧ t ≠ .closeArray ∧
    ∀ frames, ∃ a, Awaiting.begin frames t = .ok a ∧
      Awaiting.run a ts = Awaiting.run (.next v frames) (Token.list rest)

namespace Reads

variable {cs : List Char} {v : Value}

lemma run_value (h : Reads cs v) (frames : List Frame) {rest : List UInt8}
    (hrest : Numeral.Ends rest) :
    Awaiting.run (.value frames) (Token.list (bytes cs ++ rest)) =
      Awaiting.run (.next v frames) (Token.list rest) := by
  obtain ⟨t, ts, hlist, -, hbegin⟩ := h rest hrest
  obtain ⟨a, ha, hrun⟩ := hbegin frames
  rw [hlist, Awaiting.run, Awaiting.step, ha]
  exact hrun

lemma run_item (h : Reads cs v) (frames : List Frame) {rest : List UInt8}
    (hrest : Numeral.Ends rest) :
    Awaiting.run (.item frames) (Token.list (bytes cs ++ rest)) =
      Awaiting.run (.value (.array [] :: frames)) (Token.list (bytes cs ++ rest)) := by
  rw [h.run_value _ hrest]
  obtain ⟨t, ts, hlist, hclose, hbegin⟩ := h rest hrest
  obtain ⟨a, ha, hrun⟩ := hbegin (.array [] :: frames)
  have hstep : Awaiting.step (.item frames) t = Awaiting.begin (.array [] :: frames) t := by
    cases t with
    | closeArray => exact absurd rfl hclose
    | _ => rfl
  rw [hlist, Awaiting.run, hstep, ha]
  exact hrun

lemma document (h : Reads cs v) : Document.ofBytes (bytes cs) = ⟨v, false⟩ := by
  have hends : Numeral.Ends [] := by simp [Numeral.Ends]
  have hrun := h.run_value [] hends
  rw [List.append_nil] at hrun
  exact hrun

lemma string (s : String) : Reads (Printer.string s) (.string (.printed s)) := by
  intro rest _
  exact ⟨_, _, Token.list_string s rest, by simp, fun frames => ⟨_, rfl, rfl⟩⟩

lemma natural (n : Nat) : Reads (Decimal.chars n) (.number (.printed n)) := by
  intro rest hrest
  exact ⟨_, _, Token.list_natural n hrest, by simp, fun frames => ⟨_, rfl, rfl⟩⟩

end Reads

lemma ends_mark {c : Char} (h : c = ',' ∨ c = ']' ∨ c = '\x7d') (cs : List Char)
    (rest : List UInt8) : Numeral.Ends (bytes (c :: cs) ++ rest) := by
  intro b hb
  rcases h with rfl | rfl | rfl
  · obtain rfl : 44 = b := Option.some.inj hb
    decide
  · obtain rfl : 93 = b := Option.some.inj hb
    decide
  · obtain rfl : 125 = b := Option.some.inj hb
    decide

lemma list_mark {c : Char} {t : Token} {b : UInt8} (hb : String.utf8EncodeChar c = [b])
    (hscan : ∀ bs, Token.scan b bs = (t, bs)) (hblank : Token.isBlank b = false)
    (cs : List Char) (rest : List UInt8) :
    Token.list (bytes (c :: cs) ++ rest) = t :: Token.list (bytes cs ++ rest) := by
  rw [Utf8.bytes_cons, hb, List.append_assoc, List.singleton_append, Token.list_cons, hscan, hblank]
  rfl

lemma list_comma (cs : List Char) (rest : List UInt8) :
    Token.list (bytes (',' :: cs) ++ rest) = .comma :: Token.list (bytes cs ++ rest) :=
  list_mark rfl (fun _ => rfl) rfl cs rest

lemma list_colon (cs : List Char) (rest : List UInt8) :
    Token.list (bytes (':' :: cs) ++ rest) = .colon :: Token.list (bytes cs ++ rest) :=
  list_mark rfl (fun _ => rfl) rfl cs rest

lemma list_openArray (cs : List Char) (rest : List UInt8) :
    Token.list (bytes ('[' :: cs) ++ rest) = .openArray :: Token.list (bytes cs ++ rest) :=
  list_mark rfl (fun _ => rfl) rfl cs rest

lemma list_closeArray (rest : List UInt8) :
    Token.list (bytes [']'] ++ rest) = .closeArray :: Token.list rest :=
  list_mark rfl (fun _ => rfl) rfl [] rest

lemma list_openObject (cs : List Char) (rest : List UInt8) :
    Token.list (bytes ('\x7b' :: cs) ++ rest) = .openObject :: Token.list (bytes cs ++ rest) :=
  list_mark rfl (fun _ => rfl) rfl cs rest

lemma list_closeObject (rest : List UInt8) :
    Token.list (bytes ['\x7d'] ++ rest) = .closeObject :: Token.list rest :=
  list_mark rfl (fun _ => rfl) rfl [] rest

open Printer (commaSeparated)

lemma commaSeparated_cons_cons (item item' : List Char) (items : List (List Char)) :
    commaSeparated (item :: item' :: items) = item ++ ',' :: commaSeparated (item' :: items) := rfl

lemma run_items {items : List (List Char)} {vs : List Value} (h : List.Forall₂ Reads items vs)
    (hne : items ≠ []) (done : List Value) (frames : List Frame) (rest : List UInt8) :
    Awaiting.run (.value (.array done :: frames))
        (Token.list (bytes (commaSeparated items ++ [']']) ++ rest)) =
      Awaiting.run (.next (.array (done.reverse ++ vs) none) frames) (Token.list rest) := by
  induction h generalizing done with
  | nil => exact absurd rfl hne
  | @cons item v items vs hitem hitems ih =>
    cases hitems with
    | nil =>
      rw [commaSeparated, Utf8.bytes_append, List.append_assoc,
        hitem.run_value _ (ends_mark (by simp) _ _), list_closeArray, Awaiting.run]
      simp only [Awaiting.step, List.reverse_cons]
    | @cons item' v' items vs hitem' hitems =>
      rw [commaSeparated_cons_cons, List.append_assoc, Utf8.bytes_append, List.append_assoc,
        List.cons_append, hitem.run_value _ (ends_mark (by simp) _ _), list_comma, Awaiting.run]
      simp only [Awaiting.step]
      rw [ih (by simp) (v :: done), List.reverse_cons, List.append_assoc, List.singleton_append]

lemma Reads.array {items : List (List Char)} {vs : List Value} (h : List.Forall₂ Reads items vs) :
    Reads (Printer.array items) (.array vs none) := by
  intro rest _
  refine ⟨_, _, list_openArray _ rest, by simp, fun frames => ⟨_, rfl, ?_⟩⟩
  cases h with
  | nil =>
    rw [commaSeparated, List.nil_append, list_closeArray]
    rfl
  | @cons item v items vs hitem hitems =>
    obtain ⟨c, cs, hc, htail⟩ : ∃ c cs, (c = ',' ∨ c = ']' ∨ c = '\x7d') ∧
        commaSeparated (item :: items) ++ [']'] = item ++ c :: cs := by
      cases items with
      | nil => exact ⟨']', [], by simp, rfl⟩
      | cons item' items =>
        exact ⟨',', commaSeparated (item' :: items) ++ [']'], by simp, by
          rw [commaSeparated_cons_cons, List.append_assoc, List.cons_append]⟩
    have hall := run_items (.cons hitem hitems) (by simp) [] frames rest
    rw [htail, Utf8.bytes_append, List.append_assoc] at hall ⊢
    rw [hitem.run_item frames (ends_mark hc cs rest), hall]
    rfl

/-- A printed member is read as a member with its key and its value. -/
def ReadsMember (m : String × List Char) (w : StringLit × Value) : Prop :=
  w.1 = .printed m.1 ∧ Reads m.2 w.2

lemma run_members {ms : List (String × List Char)} {ws : List (StringLit × Value)}
    (h : List.Forall₂ ReadsMember ms ws) (hne : ms ≠ []) (done : List (StringLit × Value))
    (frames : List Frame) (rest : List UInt8) :
    Awaiting.run (.member done frames) (Token.list (bytes (commaSeparated
        (ms.map fun m => Printer.string m.1 ++ ':' :: m.2) ++ ['\x7d']) ++ rest)) =
      Awaiting.run (.next (.object (done.reverse ++ ws) none) frames) (Token.list rest) := by
  induction h generalizing done with
  | nil => exact absurd rfl hne
  | @cons m w ms ws hm hms ih =>
    obtain ⟨key, text⟩ := m
    obtain ⟨lit, v⟩ := w
    obtain ⟨rfl, hv⟩ : lit = .printed key ∧ Reads text v := hm
    -- the key and the colon lead to the member's value, whatever stands behind it
    have hkey : ∀ cs, Awaiting.run (.member done frames)
        (Token.list (bytes ((Printer.string key ++ ':' :: text) ++ cs) ++ rest)) =
        Awaiting.run (.value (.object done (.printed key) :: frames))
          (Token.list (bytes text ++ (bytes cs ++ rest))) := by
      intro cs
      rw [List.append_assoc, List.cons_append, Utf8.bytes_append, List.append_assoc,
        Token.list_string, list_colon, Utf8.bytes_append, List.append_assoc]
      cases done <;> rfl
    cases hms with
    | nil =>
      simp only [List.map_cons, List.map_nil]
      rw [commaSeparated, hkey, hv.run_value _ (ends_mark (by simp) _ _), list_closeObject, Awaiting.run]
      simp only [Awaiting.step, List.reverse_cons]
    | @cons m' w' ms ws hm' hms =>
      simp only [List.map_cons] at ih ⊢
      rw [commaSeparated_cons_cons, List.append_assoc, List.cons_append, hkey,
        hv.run_value _ (ends_mark (by simp) _ _), list_comma, Awaiting.run]
      simp only [Awaiting.step]
      rw [ih (by simp) ((.printed key, v) :: done), List.reverse_cons, List.append_assoc,
        List.singleton_append]

lemma Reads.object {ms : List (String × List Char)} {ws : List (StringLit × Value)}
    (h : List.Forall₂ ReadsMember ms ws) : Reads (Printer.object ms) (.object ws none) := by
  intro rest _
  refine ⟨_, _, list_openObject _ rest, by simp, fun frames => ⟨_, rfl, ?_⟩⟩
  cases h with
  | nil =>
    rw [List.map_nil, commaSeparated, List.nil_append, list_closeObject]
    rfl
  | cons hm hms => exact run_members (.cons hm hms) (by simp) [] frames rest

end AdocProse.Json
