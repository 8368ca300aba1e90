import Gridwright.Text.Blank

/-!
# Keywords and gaps

The fixed parts of a grid line: keywords, which most lines spell in capitals and
two lines spell in any case, and the gaps between the parts, which are runs of
blank characters.  Each reader here takes its part off the front of a text and
returns what is left.
-/

namespace Gridwright.Line

open Gridwright.Text

/-! ### Keywords -/

/-- Takes a keyword off the front of a text, under a given way to compare one of
its letters with a character. -/
def dropWord? (same : Char → Char → Bool) : List Char → List Char → Option (List Char)
  | [], s => some s
  | _ :: _, [] => none
  | letter :: word, c :: s => if same letter c then dropWord? same word s else none

/-- A character without its case.  The long s and the Kelvin sign are letters of
the Latin alphabet in this respect. -/
def foldCase (c : Char) : Char :=
  if c = '\u017f' then 's' else if c = '\u212a' then 'k' else c.toLower

/-- Takes a keyword off the front of a text. -/
def keyword? (word : String) (s : List Char) : Option (List Char) :=
  dropWord? (· == ·) word.toList s

/-- Takes a keyword in any case off the front of a text. -/
def keywordAnyCase? (word : String) (s : List Char) : Option (List Char) :=
  dropWord? (fun letter c => foldCase letter == foldCase c) word.toList s

/-- Exactly the texts that start with the keyword have one to take off. -/
theorem dropWord?_eq_some_iff (word s rest : List Char) :
    dropWord? (· == ·) word s = some rest ↔ s = word ++ rest := by
  induction word generalizing s with
  | nil => simp [dropWord?]
  | cons letter word ih =>
    cases s with
    | nil => simp [dropWord?]
    | cons c s =>
      by_cases h : letter = c
      · subst h; simp [dropWord?, ih]
      · simp [dropWord?, h, Ne.symm h]

/-! ### Gaps -/

/-- Takes a gap of at least one blank character off the front of a text. -/
def gap? : List Char → Option (List Char)
  | [] => none
  | c :: s => if isBlank c then some (trimStart s) else none

/-- Whether a text holds nothing but blank characters. -/
def isBlankText (s : List Char) : Bool := s.all isBlank

/-- Whether a text stays within one line. -/
def isSingleLine (s : List Char) : Bool := s.all (· != '\n')

end Gridwright.Line
