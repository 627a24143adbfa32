import AdocProse.Text.Pieces
import Mathlib.Tactic.Lemma

/-! Pieces of texts put together with the separator between them, or behind each of them, are the
pieces of each text. -/

namespace AdocProse.Pieces

lemma split_separator (separator : Char) (cs : List Char) :
    split separator (separator :: cs) = [] :: split separator cs := by
  rw [split, if_pos rfl]

lemma split_other {separator c : Char} (hc : c ≠ separator) {cs piece : List Char}
    {pieces : List (List Char)} (h : split separator cs = piece :: pieces) :
    split separator (c :: cs) = (c :: piece) :: pieces := by
  rw [split, if_neg hc, h]

lemma split_append_separator (separator : Char) (cs ds : List Char) :
    split separator (cs ++ separator :: ds) = split separator cs ++ split separator ds := by
  induction cs with
  | nil => exact split_separator separator ds
  | cons c cs ih =>
    by_cases hc : c = separator
    · rw [hc, List.cons_append, split_separator, split_separator, ih, List.cons_append]
    · obtain ⟨piece, pieces, hcs⟩ := List.exists_cons_of_ne_nil (split_ne_nil separator cs)
      rw [hcs, List.cons_append] at ih
      rw [List.cons_append, split_other hc ih, split_other hc hcs, List.cons_append]

lemma split_intercalate (separator : Char) {texts : List (List Char)} (hne : texts ≠ []) :
    split separator ([separator].intercalate texts) = texts.flatMap (split separator) := by
  induction texts with
  | nil => exact absurd rfl hne
  | cons text texts ih =>
    cases texts with
    | nil => simp
    | cons next texts =>
      rw [List.intercalate_cons_cons, List.append_assoc, List.singleton_append,
        split_append_separator, ih (by simp), ← List.flatMap_cons]

lemma split_whole {separator : Char} {cs : List Char} (h : separator ∉ cs) :
    split separator cs = [cs] := by
  induction cs with
  | nil => rfl
  | cons c cs ih =>
    rw [List.mem_cons, not_or] at h
    exact split_other (Ne.symm h.1) (ih h.2)

lemma separator_notMem {separator : Char} {cs piece : List Char} (h : piece ∈ split separator cs) :
    separator ∉ piece := by
  induction cs generalizing piece with
  | nil =>
    rw [split, List.mem_singleton] at h
    simp [h]
  | cons c cs ih =>
    obtain ⟨first, pieces, hcs⟩ := List.exists_cons_of_ne_nil (split_ne_nil separator cs)
    rw [hcs, List.forall_mem_cons] at ih
    by_cases hc : c = separator
    · rw [hc, split_separator, hcs, List.mem_cons, List.mem_cons] at h
      rcases h with rfl | rfl | h
      · exact List.not_mem_nil
      · exact ih.1
      · exact ih.2 _ h
    · rw [split_other hc hcs, List.mem_cons] at h
      rcases h with rfl | h
      · rw [List.mem_cons, not_or]
        exact ⟨Ne.symm hc, ih.1⟩
      · exact ih.2 _ h

lemma split_join {separator : Char} {pieces : List (List Char)} (hne : pieces ≠ [])
    (h : ∀ piece ∈ pieces, separator ∉ piece) : split separator (join separator pieces) = pieces := by
  induction pieces with
  | nil => exact absurd rfl hne
  | cons piece pieces ih =>
    rw [List.forall_mem_cons] at h
    cases pieces with
    | nil => exact split_whole h.1
    | cons next pieces =>
      rw [join, split_append_separator, split_whole h.1, ih (by simp) h.2, List.singleton_append]
      simp

lemma join_prefix (separator : Char) {pieces : List (List Char)} (hne : pieces ≠ []) (more : List (List Char)) :
    join separator pieces <+: join separator (pieces ++ more) := by
  induction pieces with
  | nil => exact absurd rfl hne
  | cons piece pieces ih =>
    cases pieces with
    | nil =>
      cases more with
      | nil => exact List.prefix_rfl
      | cons next more => exact List.prefix_append piece _
    | cons next pieces =>
      change piece ++ separator :: join separator (next :: pieces) <+:
        piece ++ separator :: join separator (next :: pieces ++ more)
      exact (List.prefix_append_right_inj _).mpr (List.cons_prefix_cons.mpr ⟨rfl, ih (by simp)⟩)

lemma append_separator_inj {separator : Char} {cs cs' ds ds' : List Char} (hcs : separator ∉ cs)
    (hcs' : separator ∉ cs') (h : cs ++ separator :: ds = cs' ++ separator :: ds') :
    cs = cs' ∧ ds = ds' := by
  have hsplit := congrArg (split separator) h
  rw [split_append_separator, split_append_separator, split_whole hcs, split_whole hcs'] at hsplit
  obtain ⟨hfirst, hpieces⟩ := List.cons.inj hsplit
  refine ⟨hfirst, ?_⟩
  rw [← join_split separator ds, ← join_split separator ds']
  exact congrArg (join separator) hpieces

lemma split_terminated {separator : Char} {lines : List (List Char)}
    (h : ∀ line ∈ lines, separator ∉ line) :
    split separator (lines.flatMap (· ++ [separator])) = lines ++ [[]] := by
  induction lines with
  | nil => rfl
  | cons line lines ih =>
    rw [List.flatMap_cons, List.append_assoc, List.singleton_append, split_append_separator,
      split_whole (h line List.mem_cons_self), ih fun l hl => h l (List.mem_cons_of_mem _ hl)]
    rfl

end AdocProse.Pieces
