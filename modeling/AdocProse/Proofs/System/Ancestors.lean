import AdocProse.Proofs.System.Path
import Mathlib.Logic.Relation

/-! The paths above a path are its parent, the parent's parent and so on, until there is no parent: their
number is never cut off. -/

namespace AdocProse.Path

variable {p q : Path}

lemma pieces_length_pos (p : Path) : 0 < p.pieces.length :=
  List.length_pos_iff.mpr (Pieces.split_ne_nil '/' p.text.toList)

lemma parent_shorter (h : p.parent? = some q) :
    q.pieces.length < p.pieces.length ∨ q.parent? = none := by
  obtain ⟨first, rest, hp, ⟨-, -, rfl⟩ | ⟨kept, removed, name, rfl, hremoved, ⟨-, -, rfl⟩ | ⟨-, rfl⟩⟩⟩ :=
    parent?_cases h
  · exact .inr (by decide)
  · exact .inr (by decide)
  · have hpos : 0 < removed.length := by
      refine List.length_pos_iff.mpr ?_
      rintro rfl
      cases hremoved
    rw [pieces_ofPieces_append hp (List.cons_ne_nil first kept), hp, List.length_cons, List.length_cons,
      List.length_append]
    exact .inl (by omega)

/-- What holds for a path if it holds for its parent holds for all paths. -/
@[elab_as_elim]
theorem parentInduct {P : Path → Prop} (step : ∀ p, (∀ q, p.parent? = some q → P q) → P p) (p : Path) :
    P p := by
  induction hn : p.pieces.length using Nat.strong_induction_on generalizing p with
  | _ n ih =>
    subst hn
    refine step p fun q hparent => ?_
    rcases parent_shorter hparent with hshort | htop
    · exact ih _ hshort q rfl
    · exact step q fun r hr => absurd (htop.symm.trans hr) (by simp)

lemma ancestorsFor_top (h : p.parent? = none) (fuel : Nat) : ancestorsFor fuel p = [p] := by
  cases fuel with
  | zero => rfl
  | succ fuel => rw [ancestorsFor, h]

lemma ancestorsFor_enough {fuel fuel' : Nat} (h : p.pieces.length ≤ fuel) (h' : p.pieces.length ≤ fuel') :
    ancestorsFor fuel p = ancestorsFor fuel' p := by
  have hpos := pieces_length_pos p
  induction fuel generalizing p fuel' with
  | zero => omega
  | succ fuel ih =>
    obtain ⟨fuel', rfl⟩ := Nat.exists_eq_add_one_of_ne_zero (show fuel' ≠ 0 by omega)
    rw [ancestorsFor, ancestorsFor]
    cases hparent : p.parent? with
    | none => rfl
    | some q =>
      rcases parent_shorter hparent with hshort | htop
      · have hq : ancestorsFor fuel q = ancestorsFor fuel' q :=
          ih (by omega) (by omega) (pieces_length_pos q)
        simp only [hq]
      · simp only [ancestorsFor_top htop]

lemma ancestors_top (h : p.parent? = none) : p.ancestors = [p] :=
  ancestorsFor_top h _

lemma ancestors_parent (h : p.parent? = some q) : p.ancestors = p :: q.ancestors := by
  rw [ancestors, ancestorsFor, h, ancestors]
  rcases parent_shorter h with hshort | htop
  · have hq : ancestorsFor p.pieces.length q = ancestorsFor (q.pieces.length + 1) q :=
      ancestorsFor_enough (by omega) (by omega)
    simp only [hq]
  · simp only [ancestorsFor_top htop]

end AdocProse.Path
