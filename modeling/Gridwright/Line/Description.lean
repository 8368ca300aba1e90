import Gridwright.Line.OpenLabel

/-!
# A label and its description

A `DESCRIBE` line ends in a label, an equals sign and a text that stays within
the line.  The suffix of the label cannot start with the equals sign, but it may
hold one: it is taken as long as possible, so of several equals signs in a run
without blank characters the last one divides.

The line is read once, from its end to its start.
-/

namespace Gridwright.Line

open Gridwright.Text

namespace Description

/-- What is known about the end of a line. -/
structure Ahead where
  /-- The end of the line itself. -/
  rest : List Char
  /-- It holds no line feed. -/
  single : Bool
  /-- The description it is, blank characters in front apart. -/
  text : Option (List Char)
  /-- The description behind the equals sign it starts with, blank characters in
  front apart. -/
  assigned : Option (List Char)
  /-- The part of the described label that reaches into it. -/
  label : OpenLabel.Ahead (List Char)

/-- Whether a character may start the suffix of a described label. -/
def startsDescribed (c : Char) : Bool := startsSuffix c && c != '='

def Ahead.nil : Ahead := ⟨[], true, some [], none, .nil none⟩

def Ahead.step (c : Char) (ahead : Ahead) : Ahead :=
  let rest := c :: ahead.rest
  let single := c != '\n' && ahead.single
  let assigned :=
    if isBlank c then ahead.assigned else if c = '=' then ahead.text else none
  { rest
    single
    text := if isBlank c then ahead.text else if single then some rest else none
    assigned
    label := ahead.label.step startsDescribed assigned c }

def ahead (s : List Char) : Ahead := s.foldr Ahead.step .nil

@[simp] theorem ahead_nil : ahead [] = .nil := rfl

@[simp] theorem ahead_cons (c : Char) (s : List Char) : ahead (c :: s) = (ahead s).step c := rfl

end Description

/-- The label and the description that a text consists of. -/
def description? : List Char → Option (List Char × List Char)
  | [] => none
  | c :: s => if c = '"' then extend c (Description.ahead s).label.body else none

end Gridwright.Line
