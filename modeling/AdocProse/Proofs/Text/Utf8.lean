import AdocProse.Text.Utf8
import Mathlib.Tactic.Lemma
import Mathlib.Tactic.SplitIfs

/-! Reading the bytes of a string gives the string back; every part of a string begins at the byte
where what stands before it ends. The order of strings is the order of their bytes. -/

namespace AdocProse.Utf8

lemma toNat_ofNat {n : Nat} (h : n < 256) : (UInt8.ofNat n).toNat = n := by
  simp only [UInt8.toNat_ofNat']
  omega

lemma unitsFrom_last {value low high t : Nat} (hlow : low ≤ t + 0x80) (hhigh : t + 0x80 ≤ high)
    (ht : t < 64) (rest : List UInt8) :
    unitsFrom (some ⟨0, value, low, high⟩) (UInt8.ofNat (t + 0x80) :: rest) =
      some (Char.ofNat (value * 64 + t)) :: unitsFrom none rest := by
  have hb := toNat_ofNat (show t + 0x80 < 256 by omega)
  rw [unitsFrom, if_pos (by rw [hb]; exact ⟨hlow, hhigh⟩)]
  simp only [hb, Nat.add_sub_cancel]

lemma unitsFrom_more {k value low high t : Nat} (hlow : low ≤ t + 0x80)
    (hhigh : t + 0x80 ≤ high) (ht : t < 64) (rest : List UInt8) :
    unitsFrom (some ⟨k + 1, value, low, high⟩) (UInt8.ofNat (t + 0x80) :: rest) =
      unitsFrom (some ⟨k, value * 64 + t, 0x80, 0xBF⟩) rest := by
  have hb := toNat_ofNat (show t + 0x80 < 256 by omega)
  rw [unitsFrom, if_pos (by rw [hb]; exact ⟨hlow, hhigh⟩)]
  simp only [hb, Nat.add_sub_cancel]

lemma lead_one {v : Nat} (h : v < 0x80) : lead (UInt8.ofNat v) = .complete (Char.ofNat v) := by
  simp only [lead, toNat_ofNat (show v < 256 by omega), if_pos h]

lemma lead_two {k : Nat} (hlow : 2 ≤ k) (hhigh : k < 32) :
    lead (UInt8.ofNat (k + 0xC0)) = .begun ⟨0, k, 0x80, 0xBF⟩ := by
  simp only [lead, toNat_ofNat (show k + 0xC0 < 256 by omega)]
  rw [if_neg (by omega), if_neg (by omega), if_pos (by omega), Nat.add_sub_cancel]

lemma lead_three : ∀ k < 16, lead (UInt8.ofNat (k + 0xE0)) =
    .begun ⟨1, k, if k = 0 then 0xA0 else 0x80, if k = 13 then 0x9F else 0xBF⟩ := by
  decide

lemma lead_four : ∀ k < 5, lead (UInt8.ofNat (k + 0xF0)) =
    .begun ⟨2, k, if k = 0 then 0x90 else 0x80, if k = 4 then 0x8F else 0xBF⟩ := by
  decide

lemma toNat_bounds (c : Char) :
    c.toNat < 0xD800 ∨ 0xDFFF < c.toNat ∧ c.toNat < 0x110000 := c.valid

lemma unitsFrom_encodeChar (c : Char) (rest : List UInt8) :
    unitsFrom none (String.utf8EncodeChar c ++ rest) = some c :: unitsFrom none rest := by
  obtain ⟨v, hv⟩ : ∃ v, v = c.toNat := ⟨_, rfl⟩
  have hc : Char.ofNat v = c := by rw [hv, Char.ofNat_toNat]
  have hbounds := toNat_bounds c
  rw [← hv] at hbounds
  simp only [String.utf8EncodeChar, show c.val.toNat = v from hv.symm]
  -- one case for each number of bytes
  split_ifs with h₁ h₂ h₃
  · rw [List.cons_append, List.nil_append, unitsFrom, lead_one (by omega), hc]
  · simp only [List.cons_append, List.nil_append]
    rw [unitsFrom, lead_two (by omega) (by omega)]
    simp only
    rw [unitsFrom_last (by omega) (by omega) (by omega),
      show v / 64 % 32 * 64 + v % 64 = v by omega, hc]
  · simp only [List.cons_append, List.nil_append]
    rw [unitsFrom, lead_three _ (by omega)]
    simp only
    rw [unitsFrom_more (by split_ifs <;> omega) (by split_ifs <;> omega) (by omega),
      unitsFrom_last (by omega) (by omega) (by omega),
      show (v / 4096 % 16 * 64 + v / 64 % 64) * 64 + v % 64 = v by omega, hc]
  · simp only [List.cons_append, List.nil_append]
    rw [unitsFrom, lead_four _ (by omega)]
    simp only
    rw [unitsFrom_more (by split_ifs <;> omega) (by split_ifs <;> omega) (by omega),
      unitsFrom_more (by omega) (by omega) (by omega),
      unitsFrom_last (by omega) (by omega) (by omega),
      show ((v / 262144 % 8 * 64 + v / 4096 % 64) * 64 + v / 64 % 64) * 64 + v % 64 = v by omega, hc]

def bytes (cs : List Char) : List UInt8 :=
  cs.flatMap String.utf8EncodeChar

@[simp] lemma bytes_nil : bytes [] = [] := rfl

lemma bytes_cons (c : Char) (cs : List Char) : bytes (c :: cs) = String.utf8EncodeChar c ++ bytes cs := rfl

@[simp] lemma bytes_append (cs ds : List Char) : bytes (cs ++ ds) = bytes cs ++ bytes ds :=
  List.flatMap_append

lemma encode_eq (s : String) : encode s = bytes s.toList := rfl

@[simp] lemma encode_ofList (cs : List Char) : encode (String.ofList cs) = bytes cs := by
  rw [encode_eq, String.toList_ofList]

@[simp] lemma encode_append (s t : String) : encode (s ++ t) = encode s ++ encode t := by
  simp only [encode_eq, String.toList_append, bytes_append]

lemma units_bytes (cs : List Char) : units (bytes cs) = cs.map some := by
  induction cs with
  | nil => rfl
  | cons c cs ih => rw [bytes_cons, units, unitsFrom_encodeChar, ← units, ih, List.map_cons]

lemma decode?_encode (s : String) : decode? (encode s) = some s := by
  have hm : ∀ cs : List Char, (cs.map some).mapM id = some cs := by
    intro cs
    induction cs with
    | nil => rfl
    | cons c cs ih => simp [ih]
  rw [decode?, encode_eq, units_bytes, hm, Option.map_some, String.ofList_toList]

example : decode? [0xE2, 0x82, 0xAC] = some "€" := by decide +kernel

lemma decodeLossy_encode (s : String) : decodeLossy (encode s) = s := by
  rw [decodeLossy, encode_eq, units_bytes, List.map_map]
  simp [Function.comp_def]

@[simp] lemma size_append (s t : String) : size (s ++ t) = size s + size t :=
  String.utf8ByteSize_append

lemma length_bytes (cs : List Char) : (bytes cs).length = size (String.ofList cs) := by
  induction cs with
  | nil => rfl
  | cons c cs ih =>
    have hcons : String.ofList (c :: cs) = String.singleton c ++ String.ofList cs := by
      rw [← String.toList_inj]
      simp
    have hsingle : size (String.singleton c) = c.utf8Size := String.utf8ByteSize_singleton
    rw [bytes_cons, List.length_append, ih, hcons, size_append, String.length_utf8EncodeChar, hsingle]

lemma length_encode (s : String) : (encode s).length = size s := by
  rw [encode_eq, length_bytes, String.ofList_toList]

lemma size_join (ss : List String) : size (String.join ss) = total ss := by
  induction ss with
  | nil => rfl
  | cons s ss ih => rw [String.join_cons, size_append, ih, total]

/-- The string `s` begins in `t` at the byte `p`. -/
def BeginsAt (s t : String) (p : Nat) : Prop :=
  ∃ before after, t = before ++ s ++ after ∧ size before = p

lemma BeginsAt.bytes_at {s t : String} {p : Nat} (h : BeginsAt s t p) :
    encode s <+: (encode t).drop p := by
  obtain ⟨before, after, rfl, rfl⟩ := h
  refine ⟨encode after, ?_⟩
  rw [encode_append, encode_append, ← length_encode before, List.append_assoc, List.drop_left]

lemma ofNat_lt {m n : Nat} (hm : m < 256) (hn : n < 256) : UInt8.ofNat m < UInt8.ofNat n ↔ m < n := by
  rw [UInt8.lt_iff_toNat_lt, toNat_ofNat hm, toNat_ofNat hn]

lemma ofNat_inj {m n : Nat} (hm : m < 256) (hn : n < 256) : UInt8.ofNat m = UInt8.ofNat n ↔ m = n := by
  rw [← UInt8.toNat_inj, toNat_ofNat hm, toNat_ofNat hn]

/-- The greater character has the greater byte where two characters first differ, so it does not matter what
follows them. -/
lemma encodeChar_lt {c d : Char} (h : c < d) (bs bs' : List UInt8) :
    String.utf8EncodeChar c ++ bs < String.utf8EncodeChar d ++ bs' := by
  obtain ⟨v, hv⟩ : ∃ v, v = c.toNat := ⟨_, rfl⟩
  obtain ⟨u, hu⟩ : ∃ u, u = d.toNat := ⟨_, rfl⟩
  have hlt : v < u := by
    rw [hv, hu]
    exact UInt32.lt_iff_toNat_lt.mp h
  have hbounds := toNat_bounds c
  have hbounds' := toNat_bounds d
  rw [← hv] at hbounds
  rw [← hu] at hbounds'
  -- Numbers are compared digit by digit to the base 64.
  have hone : v / 64 < u / 64 ∨ v / 64 = u / 64 ∧ v % 64 < u % 64 := by omega
  have htwo : v / 4096 < u / 4096 ∨ v / 4096 = u / 4096 ∧ v / 64 % 64 ≤ u / 64 % 64 := by omega
  have hthree : v / 262144 < u / 262144 ∨ v / 262144 = u / 262144 ∧ v / 4096 % 64 ≤ u / 4096 % 64 := by omega
  simp only [String.utf8EncodeChar, show c.val.toNat = v from hv.symm, show d.val.toNat = u from hu.symm]
  clear hv hu h
  split_ifs <;>
    simp (disch := omega) only [List.cons_append, List.nil_append, List.cons_lt_cons_iff, ofNat_lt, ofNat_inj,
      Nat.mod_eq_of_lt] <;>
    omega

lemma encodeChar_ne_nil (c : Char) : String.utf8EncodeChar c ≠ [] := by
  rw [← List.length_pos_iff, String.length_utf8EncodeChar]
  exact c.utf8Size_pos

lemma bytes_lt {cs ds : List Char} (h : cs < ds) : bytes cs < bytes ds := by
  induction h with
  | @nil d ds =>
    obtain ⟨b, bs, hbytes⟩ := List.exists_cons_of_ne_nil (encodeChar_ne_nil d)
    rw [bytes_cons, hbytes]
    exact List.nil_lt_cons b _
  | rel h => exact encodeChar_lt h _ _
  | cons _ ih => exact List.append_left_lt ih

lemma encode_lt {s t : String} (h : s < t) : encode s < encode t :=
  bytes_lt (String.lt_iff.mp h)

end AdocProse.Utf8
