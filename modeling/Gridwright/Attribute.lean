import Gridwright.Text.Pieces

/-!
# Attribute names and attribute trees

Every room is remembered on the builder under an attribute.  The names of
attributes are restricted, and differently on every server, so the characters
that some server refuses are spelled out: a space becomes an underscore, and any
other refused character becomes a dollar sign and its code in hexadecimal.

An attribute path may be nested, with a backquote between its levels.  A server
accepts a nested attribute only where all the branches above it exist, so
`branches` lists those that have to be made.
-/

namespace Gridwright.Attribute

/-! ### Names -/

/-- The characters, other than the space, that some server refuses in the name
of an attribute. -/
def refusedChars : List Char :=
  ['"', '%', '(', ')', '*', ',', ':', ';', '[', '\\', ']', '^', '\x7b', '|', '\x7d']

/-- One character as it is spelled in the name of an attribute. -/
def escapeChar (c : Char) : List Char :=
  if c = ' ' then ['_']
  else if c ∈ refusedChars then '$' :: Nat.toDigits 16 c.toNat
  else [c]

/-- A text as it is spelled in the name of an attribute. -/
def escapeChars (s : List Char) : List Char := s.flatMap escapeChar

def escape (text : String) : String := String.ofList (escapeChars text.toList)

@[simp] theorem escapeChars_nil : escapeChars [] = [] := rfl

theorem escapeChars_cons (c : Char) (s : List Char) :
    escapeChars (c :: s) = escapeChar c ++ escapeChars s := List.flatMap_cons

/-! ### Trees -/

/-- The mark between two levels of an attribute path. -/
def levelMark : Char := '\x60'

/-- The levels of an attribute path, outermost first. -/
def levels (path : String) : List (List Char) :=
  Text.nonemptyPieces (· == levelMark) path.toList

/-- The prefixes of a list that hold at least one element, shortest first. -/
def nonemptyPrefixes {α : Type} : List α → List (List α)
  | [] => []
  | a :: rest => [a] :: (nonemptyPrefixes rest).map (a :: ·)

/-- The branches that a path of more than one level runs through, outermost
first and itself included.  A path of one level needs none. -/
def branchesOf (path : String) : List String :=
  let parts := levels path
  if 1 < parts.length then
    (nonemptyPrefixes parts).map fun upper => String.ofList (Text.join [levelMark] upper)
  else
    []

/-- Whether a text comes before another in the order of code points. -/
def precedes : List Char → List Char → Bool
  | _, [] => false
  | [], _ :: _ => true
  | c :: s, d :: t => if c = d then precedes s t else decide (c.toNat < d.toNat)

/-- Adds a text to an ascending list of texts, unless it is there already. -/
def insertSorted (text : String) : List String → List String
  | [] => [text]
  | other :: rest =>
    if precedes text.toList other.toList then text :: other :: rest
    else if text = other then other :: rest
    else other :: insertSorted text rest

/-- The distinct texts in ascending order. -/
def sortedDistinct (texts : List String) : List String :=
  texts.foldr insertSorted []

/-- Adds a text at the end of a list, unless it is there already. -/
def appendNew (texts : List String) (text : String) : List String :=
  if text ∈ texts then texts else texts ++ [text]

/-- The branches that the given paths need, each once and after the branch above
it.  The paths are taken in ascending order, so the order in which they are given
does not matter. -/
def branches (paths : List String) : List String :=
  ((sortedDistinct paths).flatMap branchesOf).foldl appendNew []

end Gridwright.Attribute
