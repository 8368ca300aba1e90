import Gridwright.Text.Blank

/-!
# Cutting a text at separators

A text is cut at every separator into pieces, which hold no separator; a text
with `n` separators has `n + 1` pieces, some of them possibly empty.  Words,
lines, exit aliases and the levels of an attribute path are all read this way.

`pieces_cons` is the recursion that proofs use.
-/

namespace Gridwright.Text

/-! ### Pieces -/

/-- Puts a character in front of the first piece. -/
def extendFirst (c : Char) : List (List Char) → List (List Char)
  | [] => [[c]]
  | piece :: rest => (c :: piece) :: rest

/-- The maximal runs without separators, in order and with the empty ones. -/
def pieces (isSeparator : Char → Bool) (s : List Char) : List (List Char) :=
  s.foldr (fun c rest => if isSeparator c then [] :: rest else extendFirst c rest) [[]]

@[simp] theorem pieces_nil (isSeparator : Char → Bool) : pieces isSeparator [] = [[]] := rfl

theorem pieces_cons (isSeparator : Char → Bool) (c : Char) (s : List Char) :
    pieces isSeparator (c :: s) =
      if isSeparator c then [] :: pieces isSeparator s
      else extendFirst c (pieces isSeparator s) := rfl

theorem pieces_ne_nil (isSeparator : Char → Bool) (s : List Char) :
    pieces isSeparator s ≠ [] := by
  cases s with
  | nil => simp
  | cons c s =>
    rw [pieces_cons]
    split
    · simp
    · cases pieces isSeparator s <;> simp [extendFirst]

/-- The pieces that hold at least one character. -/
def nonemptyPieces (isSeparator : Char → Bool) (s : List Char) : List (List Char) :=
  (pieces isSeparator s).filter (!·.isEmpty)

/-! ### Words and lines -/

/-- The maximal runs of characters that are not blank. -/
def words (s : List Char) : List (List Char) := nonemptyPieces isBlank s

/-- A text without the carriage return at its very end, if there is one. -/
def dropReturn (s : List Char) : List Char :=
  if s.getLast? = some '\r' then s.dropLast else s

/-- The lines of a text.  A line ends at a line feed, and a carriage return
before that line feed belongs to the line's end.  Text after the last line feed
is a line too unless it is empty. -/
def lines (s : List Char) : List (List Char) :=
  let cut := pieces (· == '\n') s
  cut.dropLast.map dropReturn ++ cut.getLast?.toList.filter (!·.isEmpty)

/-! ### Joining -/

/-- The texts one after another, with a separator between neighbours. -/
def join (separator : List Char) (texts : List (List Char)) : List Char :=
  separator.intercalate texts

end Gridwright.Text
