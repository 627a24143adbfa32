/-!
Texts cut at a separator. `split` gives one piece more than there are separators, and `join` puts
the pieces together again.
-/

namespace AdocProse.Pieces

def split (separator : Char) : List Char → List (List Char)
  | [] => [[]]
  | c :: cs =>
    if c = separator then [] :: split separator cs
    else
      match split separator cs with
      | [] => [[c]]
      | piece :: pieces => (c :: piece) :: pieces

def join (separator : Char) : List (List Char) → List Char
  | [] => []
  | [piece] => piece
  | piece :: pieces => piece ++ separator :: join separator pieces

theorem split_ne_nil (separator : Char) (cs : List Char) : split separator cs ≠ [] := by
  induction cs with
  | nil => simp [split]
  | cons c cs ih =>
    rw [split]
    split
    · simp
    · split <;> simp

theorem join_split (separator : Char) (cs : List Char) :
    join separator (split separator cs) = cs := by
  induction cs with
  | nil => rfl
  | cons c cs ih =>
    rw [split]
    split
    · next h =>
      have hne := split_ne_nil separator cs
      match hs : split separator cs with
      | [] => exact absurd hs hne
      | piece :: pieces => rw [hs] at ih; simp [join, ih, h]
    · match hs : split separator cs with
      | [] => exact absurd hs (split_ne_nil separator cs)
      | [piece] => rw [hs] at ih; simp only [join] at ih ⊢; rw [ih]
      | piece :: piece' :: pieces =>
        rw [hs] at ih
        simp only [join, List.cons_append] at ih ⊢
        rw [ih]

end AdocProse.Pieces
