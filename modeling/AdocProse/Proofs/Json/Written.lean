import AdocProse.Json.Printer
import AdocProse.Proofs.Json.Parsing

/-! Printed strings, arrays and objects are written in the grammar, without blanks and without control
characters. -/

namespace AdocProse.Json

open Utf8 (bytes)

namespace StringLit

lemma piece_plain {bs : List UInt8} (h : ∀ b ∈ bs, Plain b) :
    ∃ parts, List.Forall₂ Piece.Spelled (bs.map .byte) parts ∧ parts.flatten = bs := by
  induction bs with
  | nil => exact ⟨[], .nil, rfl⟩
  | cons b bs ih =>
    obtain ⟨parts, hparts, hflat⟩ := ih fun c hc => h c (List.mem_cons_of_mem _ hc)
    exact ⟨[b] :: parts, .cons (.plain (h b List.mem_cons_self)) hparts, congrArg (b :: ·) hflat⟩

lemma piece_simple (c : Char) {b letter : UInt8} (hescape : bytes (Printer.escape c) = [92, letter])
    (hpieces : charPieces c = [.byte b]) (hletter : Piece.Spelled (.byte b) [92, letter]) :
    ∃ parts, List.Forall₂ Piece.Spelled (charPieces c) parts ∧
      parts.flatten = bytes (Printer.escape c) := by
  rw [hescape, hpieces]
  exact ⟨[[92, letter]], .cons hletter .nil, rfl⟩

lemma pieces_control {n : Nat} (h : n < 0x20) :
    ∃ parts, List.Forall₂ Piece.Spelled (charPieces (Char.ofNat n)) parts ∧
      parts.flatten = bytes (Printer.escape (Char.ofNat n)) := by
  by_cases hn : n ∈ [8, 9, 10, 12, 13]
  · simp only [List.mem_cons, List.not_mem_nil, or_false] at hn
    rcases hn with rfl | rfl | rfl | rfl | rfl
    all_goals exact piece_simple _ rfl rfl (.escaped (by decide))
  · obtain ⟨hbytes, hunit, hpieces⟩ := control_unit n h hn
    rw [hbytes, hpieces]
    exact ⟨[_], .cons (.coded hunit) .nil, rfl⟩

lemma pieces_escape (c : Char) :
    ∃ parts, List.Forall₂ Piece.Spelled (charPieces c) parts ∧
      parts.flatten = bytes (Printer.escape c) := by
  by_cases hlow : c.toNat < 0x20
  · have hc := pieces_control hlow
    rwa [Char.ofNat_toNat] at hc
  · by_cases hquote : c = '"'
    · subst hquote
      exact piece_simple _ rfl rfl (.escaped (by decide))
    · by_cases hbackslash : c = '\\'
      · subst hbackslash
        exact piece_simple _ rfl rfl (.escaped (by decide))
      · have hplain : ∀ b ∈ String.utf8EncodeChar c, Plain b := by
          apply plain_encodeChar (by omega)
          · exact fun h => hquote (Char.toNat_inj.mp h)
          · exact fun h => hbackslash (Char.toNat_inj.mp h)
        rw [escape_other (by omega) hquote hbackslash, charPieces, if_neg (by omega)]
        simpa [bytes] using piece_plain hplain

lemma pieces_printed (cs : List Char) :
    ∃ parts, List.Forall₂ Piece.Spelled (cs.flatMap charPieces) parts ∧
      parts.flatten = bytes (cs.flatMap Printer.escape) := by
  induction cs with
  | nil => exact ⟨[], .nil, rfl⟩
  | cons c cs ih =>
    obtain ⟨first, hfirst, hflat⟩ := pieces_escape c
    obtain ⟨parts, hparts, hflats⟩ := ih
    refine ⟨first ++ parts, ?_, ?_⟩
    · rw [List.flatMap_cons]
      exact List.rel_append hfirst hparts
    · rw [List.flatten_append, hflat, hflats, List.flatMap_cons, Utf8.bytes_append]

end StringLit

namespace Token

lemma spelled_printed (s : String) :
    Spelled (.string (StringLit.printed s)) (bytes (Printer.string s)) := by
  obtain ⟨parts, hparts, hflat⟩ := StringLit.pieces_printed s.toList
  have hbytes : bytes (Printer.string s) = 34 :: (parts.flatten ++ [34]) := by
    rw [hflat, Printer.string, Utf8.bytes_cons, Utf8.bytes_append]
    rfl
  rw [hbytes]
  exact .string hparts

/-- In front of anything that is laid out, the text is the tokens without blanks. -/
def Written (ts : List Token) (cs : List Char) : Prop :=
  ∀ us rest, Laid us rest → Laid (ts ++ us) (bytes cs ++ rest)

namespace Written

lemma token {t : Token} {cs : List Char} (h : t.Spelled (bytes cs)) : Written [t] cs := by
  intro us rest hus
  have hblanks : Blanks [] := by simp [Blanks]
  exact Laid.cons hblanks h hus

lemma mark {t : Token} (c : Char) (h : (t, [c]) ∈ fixed) : Written [t] [c] :=
  token (.fixed h)

lemma append {ts us : List Token} {cs ds : List Char} (h : Written ts cs) (h' : Written us ds) :
    Written (ts ++ us) (cs ++ ds) := by
  intro vs rest hvs
  rw [List.append_assoc, Utf8.bytes_append, List.append_assoc]
  exact h _ _ (h' _ _ hvs)

lemma separated {groups : List (List Token)} {items : List (List Char)}
    (h : List.Forall₂ Written groups items) :
    Written ([Token.comma].intercalate groups) (Printer.commaSeparated items) := by
  induction h with
  | nil => exact fun us rest hus => hus
  | @cons g item groups items hg hgroups ih =>
    cases hgroups with
    | nil => simpa [Printer.commaSeparated] using hg
    | cons =>
      rw [List.intercalate_cons_cons, List.append_assoc]
      exact hg.append ((mark ',' (by simp [fixed])).append ih)

lemma laid {ts : List Token} {cs : List Char} (h : Written ts cs) : Laid ts (bytes cs) := by
  have hall := h [] [] (.nil (by simp [Blanks]))
  rwa [List.append_nil, List.append_nil] at hall

end Written

end Token

namespace Term

open Token (Written)

def ofString (s : String) : Term :=
  .string (StringLit.printed s).pieces

lemma written_string (s : String) : Written (ofString s).tokens (Printer.string s) :=
  .token (Token.spelled_printed s)

lemma written_null : Written null.tokens ['n', 'u', 'l', 'l'] :=
  .token (.fixed (by simp [Token.fixed]))

lemma written_natural (n : Nat) : Written (number (.printed n)).tokens (Decimal.chars n) := by
  apply Written.token
  have hspelled : (Numeral.printed n).Spelled ((if false then ['-'] else []) ++ Decimal.chars n ++ [] ++ []) :=
    .mk (Decimal.digits_ne_nil n) (fun _ => Decimal.digits_cons_zero) .absent
  rw [List.append_nil, List.append_nil] at hspelled
  exact .number hspelled

lemma written_array {xs : List Term} {items : List (List Char)}
    (h : List.Forall₂ (fun x item => Written x.tokens item) xs items) :
    Written (array xs).tokens (Printer.array items) := by
  rw [tokens, itemTokens_eq]
  have hitems : List.Forall₂ Written (xs.map tokens) items := List.forall₂_map_left_iff.mpr h
  exact (Written.mark '[' (by simp [Token.fixed])).append
    ((Written.separated hitems).append (.mark ']' (by simp [Token.fixed])))

def ofMembers (ms : List (String × Term)) : Term :=
  .object (ms.map fun m => ((StringLit.printed m.1).pieces, m.2))

lemma written_object {ms : List (String × Term)} {texts : List (String × List Char)}
    (h : List.Forall₂ (fun m text => m.1 = text.1 ∧ Written m.2.tokens text.2) ms texts) :
    Written (ofMembers ms).tokens (Printer.object texts) := by
  rw [ofMembers, tokens, memberTokens_eq, List.map_map]
  have hmembers : List.Forall₂ Written
      (ms.map fun m => .string (StringLit.printed m.1) :: .colon :: m.2.tokens)
      (texts.map fun m => Printer.string m.1 ++ ':' :: m.2) := by
    rw [List.forall₂_map_left_iff, List.forall₂_map_right_iff]
    apply h.imp
    rintro ⟨key, x⟩ ⟨_, text⟩ ⟨rfl, hx⟩
    exact (Written.token (Token.spelled_printed key)).append
      ((Written.mark ':' (by simp [Token.fixed])).append hx)
  exact (Written.mark '\x7b' (by simp [Token.fixed])).append
    ((Written.separated hmembers).append (.mark '\x7d' (by simp [Token.fixed])))

def single (key : String) (x : Term) : Term :=
  .object [((StringLit.printed key).pieces, x)]

lemma written_single (key : String) {x : Term} {text : List Char} (h : Written x.tokens text) :
    Written (single key x).tokens (Printer.object [(key, text)]) := by
  have hmembers : List.Forall₂ (fun m text => m.1 = text.1 ∧ Written m.2.tokens text.2)
      [(key, x)] [(key, text)] := .cons ⟨rfl, h⟩ .nil
  exact written_object hmembers

end Term

end AdocProse.Json
