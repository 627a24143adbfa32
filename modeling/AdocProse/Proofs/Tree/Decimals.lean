import AdocProse.Proofs.Tree.Offset

/-! A string with an exponent, or with nothing but digits behind its first point, is read as an offset only
if it is a decimal number from its first character to its last. In any other string what stands behind
the first point is passed over. -/

namespace AdocProse.Offset

open Json

/-- A decimal number in full: digits with a point in front of, among or behind them. The sign, the point
and the exponent may be absent. -/
inductive IsDecimal : List Char → Prop
  | mk {sign point exponent : List Char} {whole fraction : List Digit} {x : Option Exponent}
      (hsign : sign = [] ∨ sign = ['+'] ∨ sign = ['-']) (hdigits : whole ≠ [] ∨ fraction ≠ [])
      (hpoint : point = ['.'] ∨ point = [] ∧ fraction = []) (hexponent : Exponent.Spelled x exponent) :
    IsDecimal (sign ++ whole.map Digit.toChar ++ (point ++ fraction.map Digit.toChar) ++ exponent)

def IsMarker (c : Char) : Prop :=
  c = 'e' ∨ c = 'E'

/-- No character of the string is passed over. -/
def ReadInFull (cs : List Char) : Prop :=
  (∃ c ∈ cs, IsMarker c) ∨ ∀ c ∈ (cs.dropWhile (· != '.')).drop 1, (Digit.ofChar? c).isSome

lemma sign_append {cs rest : List Char} {negative : Bool} (h : sign cs = (negative, rest)) :
    ∃ front, cs = front ++ rest ∧
      if negative then front = ['-'] else front = [] ∨ front = ['+'] := by
  unfold sign at h
  split at h
  all_goals obtain ⟨rfl, rfl⟩ := Prod.mk.inj h
  · exact ⟨['-'], rfl, rfl⟩
  · exact ⟨['+'], rfl, .inr rfl⟩
  · exact ⟨[], rfl, .inl rfl⟩

lemma exponent_spelled {c : Char} {marked power : List Char} {down : Bool} {ds : List Digit} (hmarker : IsMarker c)
    (hpower : sign marked = (down, power)) (hne : ds ≠ [])
    (hds : Decimal.span Digit.ofChar? power = (ds, [])) :
    Exponent.Spelled (some ⟨down, ds⟩) (c :: marked) := by
  obtain ⟨front, rfl, hfront⟩ := sign_append hpower
  rw [Decimal.append_of_span hds, List.append_nil]
  exact .present hmarker hfront hne

lemma isDecimal_of_float? {cs : List Char} {x : Binary64} (h : float? cs = some x) : IsDecimal cs := by
  rw [float?] at h
  split at h
  next negative unsigned hsign =>
  split at h
  next whole rest hwhole =>
  split at h
  next fraction behind hfraction =>
  split at h
  · exact absurd h (by simp)
  next hdigits =>
  split at h
  · exact absurd h (by simp)
  next c marked =>
  split at h
  next hmarker =>
    split at h
    next down power hpower =>
    split at h
    · exact absurd h (by simp)
    · exact absurd h (by simp)
    next ds hne hds =>
    obtain ⟨front, hfront, hfrontSign⟩ := sign_append hsign
    have hpoint : ∃ point, rest = point ++ fraction.map Digit.toChar ++ c :: marked ∧
        (point = ['.'] ∨ point = [] ∧ fraction = []) := by
      split at hfraction
      · exact ⟨['.'], congrArg ('.' :: ·) (Decimal.append_of_span hfraction), .inl rfl⟩
      · obtain ⟨rfl, hrest⟩ := Prod.mk.inj hfraction
        exact ⟨[], hrest, .inr ⟨rfl, rfl⟩⟩
    obtain ⟨point, hrest, hpoint⟩ := hpoint
    have hcs : cs = front ++ whole.map Digit.toChar ++ (point ++ fraction.map Digit.toChar) ++ c :: marked := by
      rw [hfront, Decimal.append_of_span hwhole, hrest]
      simp only [List.append_assoc]
    rw [hcs]
    refine .mk ?_ (not_and_or.mp hdigits) hpoint (exponent_spelled hmarker hpower hne hds)
    cases negative with
    | true => exact .inr (.inr hfrontSign)
    | false => exact hfrontSign.imp_right .inl
  · exact absurd h (by simp)

lemma ofInteger?_some {cs : List Char} {n : Nat} (h : ofInteger? cs = some n) :
    ∃ plus, ∃ ds : List Digit, cs = plus ++ ds.map Digit.toChar ∧ (plus = [] ∨ plus = ['+']) ∧ ds ≠ [] := by
  unfold ofInteger? at h
  dsimp only at h
  split at h
  · exact absurd h (by simp)
  · exact absurd h (by simp)
  next ds hne hds =>
  have hunsigned := Decimal.append_of_span hds
  rw [List.append_nil] at hunsigned
  split at hunsigned
  · exact ⟨['+'], ds, congrArg ('+' :: ·) hunsigned, .inr rfl, hne⟩
  · exact ⟨[], ds, hunsigned, .inl rfl, hne⟩

lemma any_marker {cs : List Char} :
    cs.any (fun c => c == 'e' || c == 'E') = true ↔ ∃ c ∈ cs, IsMarker c := by
  simp [IsMarker]

lemma exists_digits {cs : List Char} (h : ∀ c ∈ cs, (Digit.ofChar? c).isSome) :
    ∃ ds : List Digit, cs = ds.map Digit.toChar := by
  induction cs with
  | nil => exact ⟨[], rfl⟩
  | cons c cs ih =>
    obtain ⟨d, hd⟩ := Option.isSome_iff_exists.mp (h c List.mem_cons_self)
    obtain ⟨ds, rfl⟩ := ih fun c hc => h c (List.mem_cons_of_mem _ hc)
    exact ⟨d :: ds, by rw [List.map_cons, Decimal.toChar_of_ofChar? hd]⟩

lemma append_of_ofInteger? {cs : List Char} {n : Nat}
    (h : ofInteger? (cs.takeWhile (· != '.')) = some n) :
    ∃ plus, ∃ ds : List Digit, cs = plus ++ ds.map Digit.toChar ++ cs.dropWhile (· != '.') ∧
      (plus = [] ∨ plus = ['+']) ∧ ds ≠ [] ∧
      (cs.dropWhile (· != '.') = [] ∨ ∃ rest, cs.dropWhile (· != '.') = '.' :: rest) := by
  obtain ⟨plus, ds, hwhole, hplus, hne⟩ := ofInteger?_some h
  refine ⟨plus, ds, ?_, hplus, hne, ?_⟩
  · rw [← hwhole, List.takeWhile_append_dropWhile]
  · cases hbehind : cs.dropWhile (· != '.') with
    | nil => exact .inl rfl
    | cons c rest =>
      have hc := List.head_dropWhile_not (· != '.') (l := cs) (by simp [hbehind])
      simp only [hbehind, List.head_cons, bne_eq_false_iff_eq] at hc
      exact .inr ⟨rest, by rw [hc]⟩

lemma IsDecimal.behind_point {cs : List Char} (h : IsDecimal cs) (hmarker : ¬∃ c ∈ cs, IsMarker c) :
    ∀ c ∈ (cs.dropWhile (· != '.')).drop 1, (Digit.ofChar? c).isSome := by
  obtain ⟨hsign, hdigits, hpoint, hexponent⟩ := h
  rename_i sign point exponent whole fraction x
  have hbefore : ∀ c ∈ sign ++ whole.map Digit.toChar, (c != '.') = true := by
    apply before_point
    rcases hsign with rfl | rfl | rfl <;> decide
  cases hexponent with
  | present he => exact absurd ⟨_, by simp, he⟩ hmarker
  | absent =>
    rw [List.append_nil, List.dropWhile_append_of_pos hbefore]
    rcases hpoint with rfl | ⟨rfl, rfl⟩
    · intro c hc
      obtain ⟨d, -, rfl⟩ := List.mem_map.mp (by simpa using hc)
      rw [Decimal.ofChar?_toChar, Option.isSome_some]
    · simp

lemma isDecimal_of_behind {plus behind : List Char} {ds : List Digit} (hplus : plus = [] ∨ plus = ['+'])
    (hne : ds ≠ []) (hbehind : behind = [] ∨ ∃ rest, behind = '.' :: rest)
    (hdigits : ∀ c ∈ behind.drop 1, (Digit.ofChar? c).isSome) :
    IsDecimal (plus ++ ds.map Digit.toChar ++ behind) := by
  obtain ⟨point, es, rfl, hpoint⟩ : ∃ point, ∃ es : List Digit,
      behind = point ++ es.map Digit.toChar ++ [] ∧ (point = ['.'] ∨ point = [] ∧ es = []) := by
    rcases hbehind with rfl | ⟨rest, rfl⟩
    · exact ⟨[], [], rfl, .inr ⟨rfl, rfl⟩⟩
    · obtain ⟨es, hes⟩ := exists_digits hdigits
      refine ⟨['.'], es, ?_, .inl rfl⟩
      rw [List.append_nil, ← hes]
      rfl
  rw [← List.append_assoc]
  exact .mk (hplus.imp_right .inl) (.inl hne) hpoint .absent

/-- A string that is accepted is a decimal number if and only if it is read in full, and every other string
that is read in full is refused. -/
theorem accepted_decimals (s : String) :
    (∀ n, ofText s = .ok n → (IsDecimal s.toList ↔ ReadInFull s.toList)) ∧
    (ReadInFull s.toList → ¬IsDecimal s.toList →
      ofText s = .error (refuse ("invalid offset " ++ quoted s))) := by
  have hdecimal : ∀ n, ofString? s = some n → (IsDecimal s.toList ↔ ReadInFull s.toList) := by
    intro n hn
    rw [ofString?, ofChars?] at hn
    split at hn
    · next hmarker =>
      rw [Option.bind_eq_bind, Option.bind_eq_some_iff] at hn
      obtain ⟨x, hx, -⟩ := hn
      exact iff_of_true (isDecimal_of_float? hx) (.inl (any_marker.mp hmarker))
    · next hmarker =>
      rw [any_marker] at hmarker
      refine ⟨fun h => .inr (h.behind_point hmarker), fun h => ?_⟩
      have hdigits := h.resolve_left hmarker
      obtain ⟨plus, ds, hcs, hplus, hne, hbehind⟩ := append_of_ofInteger? hn
      generalize s.toList.dropWhile (· != '.') = behind at *
      rw [hcs]
      exact isDecimal_of_behind hplus hne hbehind hdigits
  rw [ofText]
  cases hs : ofString? s with
  | none => exact ⟨fun n hn => absurd hn (by simp), fun _ _ => rfl⟩
  | some n => exact ⟨fun _ _ => hdecimal n hs, fun hfull hnot => absurd ((hdecimal n hs).mpr hfull) hnot⟩

theorem offset_behind_point_unread : ofText "12.-5" = .ok 12 ∧ ¬IsDecimal "12.-5".toList := by
  refine ⟨rfl, fun hdecimal => ?_⟩
  have hunmarked : ¬∃ c ∈ "12.-5".toList, IsMarker c := by
    simp [IsMarker]
  have hminus := hdecimal.behind_point hunmarked '-' (by decide)
  exact absurd hminus (by decide)

end AdocProse.Offset
