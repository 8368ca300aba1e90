import Gridwright.Line.Keyword

/-!
# A label at the end of a line

Where a label ends its line it may hold quotes of its own: the text from the
first quote to the end, blank characters at the end apart, is a label as soon as
*some* quote closes it.  That quote may be followed by a suffix without blank
characters, which must not start with `-` or `>`, the signs that begin and end an
arrow.

The text is read once, from its end to its start.  `Ahead` collects what is known
about the part that has been read, and `Ahead.step` extends it by one character
in front.
-/

namespace Gridwright.Line

open Gridwright.Text

/-- Whether a character may start the suffix behind a closing quote. -/
def startsSuffix (c : Char) : Bool := c != '-' && c != '>' && !isBlank c

namespace ClosingLabel

/-- What is known about the end of a line. -/
structure Ahead where
  /-- It is blank. -/
  blank : Bool
  /-- It is a run without blank characters and then blank. -/
  solid : Bool
  /-- It is an optional suffix and then blank. -/
  suffix : Bool
  /-- Some quote in it closes a label that started before it. -/
  closes : Bool

def Ahead.nil : Ahead := ⟨true, true, true, false⟩

def Ahead.step (c : Char) (ahead : Ahead) : Ahead :=
  let blank := isBlank c && ahead.blank
  { blank
    solid := blank || (!isBlank c && ahead.solid)
    suffix := blank || (startsSuffix c && ahead.solid)
    closes := (c != '\n' && ahead.closes) || (c == '"' && ahead.suffix) }

def ahead (s : List Char) : Ahead := s.foldr Ahead.step .nil

@[simp] theorem ahead_nil : ahead [] = .nil := rfl

@[simp] theorem ahead_cons (c : Char) (s : List Char) : ahead (c :: s) = (ahead s).step c := rfl

end ClosingLabel

/-- The label that a text consists of, blank characters at its end apart. -/
def closingLabel? : List Char → Option (List Char)
  | [] => none
  | c :: s =>
    if c = '"' ∧ (ClosingLabel.ahead s).closes then some (trimEnd (c :: s)) else none

end Gridwright.Line
