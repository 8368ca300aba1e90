import Gridwright.Line.ClosingLabel
import Gridwright.Line.OpenLabel

/-!
# An exit and the room it leaves

An `ON` line ends in a quoted exit, the keyword `FROM` and the label of a room,
with gaps around the keyword.  The exit may hold quotes, and even a `FROM` of its
own: it is taken as long as possible, so the last `FROM` that can divide the line
does.

The line is read once, from its end to its start.
-/

namespace Gridwright.Line

open Gridwright.Text

namespace ExitFrom

/-- What is known about the end of a line. -/
structure Ahead where
  /-- The end of the line itself. -/
  rest : List Char
  /-- What is known about it as the end of a label. -/
  label : ClosingLabel.Ahead
  /-- The label that it is, behind an optional gap. -/
  room : Option (List Char)
  /-- The label that it is, behind a gap. -/
  gapRoom : Option (List Char)
  /-- It starts with `M` and goes on as `gapRoom`. -/
  m : Option (List Char)
  /-- It starts with `OM` and goes on as `gapRoom`. -/
  om : Option (List Char)
  /-- It starts with `ROM` and goes on as `gapRoom`. -/
  rom : Option (List Char)
  /-- It starts with `FROM`, behind an optional gap, and goes on as `gapRoom`. -/
  part : Option (List Char)
  /-- The same behind a gap. -/
  gapPart : Option (List Char)
  /-- The longest text up to a quote that is followed by `gapPart`, and the label
  there. -/
  exit : Option (List Char × List Char)

def Ahead.nil : Ahead :=
  { rest := []
    label := .nil
    room := none
    gapRoom := none
    m := none
    om := none
    rom := none
    part := none
    gapPart := none
    exit := none }

def Ahead.step (c : Char) (ahead : Ahead) : Ahead :=
  let rest := c :: ahead.rest
  { rest
    label := ahead.label.step c
    room :=
      if isBlank c then ahead.room
      else if c = '"' ∧ ahead.label.closes then some rest
      else none
    gapRoom := if isBlank c then ahead.room else none
    m := if c = 'M' then ahead.gapRoom else none
    om := if c = 'O' then ahead.m else none
    rom := if c = 'R' then ahead.om else none
    part := if isBlank c then ahead.part else if c = 'F' then ahead.rom else none
    gapPart := if isBlank c then ahead.part else none
    exit :=
      (if c = '\n' then none else extend c ahead.exit) <|>
        (if c = '"' then ahead.gapPart.map (([], ·)) else none) }

def ahead (s : List Char) : Ahead := s.foldr Ahead.step .nil

@[simp] theorem ahead_nil : ahead [] = .nil := rfl

@[simp] theorem ahead_cons (c : Char) (s : List Char) : ahead (c :: s) = (ahead s).step c := rfl

end ExitFrom

/-- The exit, without its quotes, and the room that a text consists of. -/
def exitFrom? : List Char → Option (List Char × List Char)
  | [] => none
  | c :: s =>
    if c = '"' then
      (ExitFrom.ahead s).exit.map fun (exit, room) => (exit, trimEnd room)
    else
      none

end Gridwright.Line
