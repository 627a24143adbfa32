import AdocProse.Text.Pieces

/-!
Paths as they are spelled. A path is absolute if it starts with a slash. Empty pieces and dots
between slashes name nothing, so they are dropped from the end of a parent's spelling; a dot in
front of a relative path counts.
-/

namespace AdocProse

structure Path where
  text : String
  deriving DecidableEq

namespace Path

def pieces (p : Path) : List (List Char) :=
  Pieces.split '/' p.text.toList

def ofPieces (ps : List (List Char)) : Path :=
  ⟨String.ofList (Pieces.join '/' ps)⟩

def isAbsolute (p : Path) : Bool :=
  p.text.toList.head? == some '/'

/-- An absolute path replaces the one that it is joined to. -/
def join (p : Path) (name : String) : Path :=
  if (Path.mk name).isAbsolute then ⟨name⟩
  else if p.text.toList = [] ∨ p.text.toList.getLast? = some '/' then ⟨p.text ++ name⟩
  else ⟨p.text ++ "/" ++ name⟩

/-- Whether a piece names nothing. -/
def isIdle (piece : List Char) : Bool :=
  piece == [] || piece == ['.']

def extend (p : Path) (ps : List (List Char)) : Path :=
  (ps.filter fun piece => !isIdle piece).foldl (fun p piece => p.join (String.ofList piece)) p

/-- A path as it is meant in a directory, which an absolute path does not depend on. -/
def within (p dir : Path) : Path :=
  if p.isAbsolute then p else dir.extend p.pieces

def dropIdleEnd (ps : List (List Char)) : List (List Char) :=
  (ps.reverse.dropWhile isIdle).reverse

/-- The path without its last component; a root and an empty path have none. -/
def parent? (p : Path) : Option Path :=
  match p.pieces with
  | [] => none
  | first :: rest =>
    match dropIdleEnd rest with
    | [] =>
      if first = [] then none else some ⟨""⟩
    | r :: rs =>
      match dropIdleEnd (r :: rs).dropLast with
      | [] => if first = [] then some ⟨"/"⟩ else some (ofPieces [first])
      | kept => some (ofPieces (first :: kept))

/-- The path and the parents above it, `fuel` of them at most. -/
def ancestorsFor : Nat → Path → List Path
  | 0, p => [p]
  | fuel + 1, p =>
    match p.parent? with
    | none => [p]
    | some q => p :: ancestorsFor fuel q

/-- Every parent has fewer pieces, or no text. -/
def ancestors (p : Path) : List Path :=
  ancestorsFor (p.pieces.length + 1) p

end Path

end AdocProse
