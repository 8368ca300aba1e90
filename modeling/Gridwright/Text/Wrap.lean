import Gridwright.Text.Pieces

/-!
# Filling lines with words

A comment that lists every exit of a grid is broken into lines of bounded width.
Words are never torn apart unless one of them alone is wider than a line, in
which case it is first cut into chunks of exactly the width.  Lines are filled
greedily: a chunk goes to the current line whenever it still fits.

Widths are counted in characters and a width of zero counts as one.
-/

namespace Gridwright.Text

/-! ### Chunks of a word -/

/-- A word cut into chunks of `width + 1` characters, the last one possibly
shorter. -/
def chunks (width : Nat) : List Char → List (List Char)
  | [] => []
  | c :: rest => (c :: rest.take width) :: chunks width (rest.drop width)
termination_by word => word.length
decreasing_by simp only [List.length_drop, List.length_cons]; omega

@[simp] theorem chunks_nil (width : Nat) : chunks width [] = [] := by rw [chunks]

theorem chunks_cons (width : Nat) (c : Char) (rest : List Char) :
    chunks width (c :: rest) =
      (c :: rest.take width) :: chunks width (rest.drop width) := by rw [chunks]

/-- The chunks of a word make up the word. -/
theorem flatten_chunks (width : Nat) (word : List Char) :
    (chunks width word).flatten = word := by
  fun_induction chunks width word with
  | case1 => rfl
  | case2 c rest ih => simp [ih]

/-! ### Greedy filling -/

/-- A line that is being filled. -/
structure Filling where
  /-- The number of characters in it, with a space between neighbouring chunks. -/
  length : Nat
  /-- The chunks in it, the newest first. -/
  chunks : List (List Char)

/-- Adds one chunk to the lines filled so far, the newest line first. -/
def addChunk (width : Nat) (filled : List Filling) (chunk : List Char) : List Filling :=
  match filled with
  | [] => [⟨chunk.length, [chunk]⟩]
  | current :: earlier =>
    let longer := current.length + 1 + chunk.length
    if longer ≤ width then ⟨longer, chunk :: current.chunks⟩ :: earlier
    else ⟨chunk.length, [chunk]⟩ :: current :: earlier

/-- The given chunks in order, told apart by the line they are on. -/
def fill (width : Nat) (parts : List (List Char)) : List (List (List Char)) :=
  (parts.foldl (addChunk width) []).reverse.map fun line => line.chunks.reverse

/-- The words of a text in lines of at most `width` characters. -/
def wrap (width : Nat) (text : List Char) : List (List Char) :=
  (fill (max width 1) ((words text).flatMap (chunks (width - 1)))).map (join [' '])

/-- The lines of `wrap`, each behind a mark that does not count towards the
width. -/
def wrapMarked (mark text : String) (width : Nat) : List String :=
  (wrap width text.toList).map fun line => mark ++ String.ofList line

end Gridwright.Text
