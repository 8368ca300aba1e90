import Gridwright.Line.OpenLabel

/-!
# Link lines

A link line names an exit and a path of rooms: `"out" : "Hall" -> "Yard" <-> "Barn"`.
It is accepted if it can be read as an exit label, a colon, a room label and at
least one hop, where a hop is an arrow and a room label.  Labels end as early as
the rest of the line allows.

Accepting the line fixes the exit, the first room and where the hops begin, and
nothing more: the hops themselves are told apart by `hops`, which goes through the
text from left to right and need not agree with the reading that made the line
acceptable.  In `"x" : "A" -> "B"y-> "C"` the line is accepted with two hops, yet
the suffix of the first one swallows the second arrow.

Accepting reads the line once, from its end to its start.
-/

namespace Gridwright.Line

open Gridwright.Text

/-! ### Accepting a link line -/

namespace Link

/-- What is known about the end of a line. -/
structure Ahead where
  /-- The end of the line itself. -/
  rest : List Char
  /-- It is blank. -/
  blank : Bool
  /-- The room of a hop reaches into it, and hops may follow to its end. -/
  room : OpenLabel.Ahead Unit
  /-- The room of a hop starts in it, behind an optional gap. -/
  target : Bool
  /-- It starts with `>` and goes on as `target`. -/
  tip : Bool
  /-- It starts with `->` and goes on as `target`. -/
  arrow : Bool
  /-- It consists of hops, at least one. -/
  hops : Bool
  /-- The first room reaches into it; the value is the text of the hops. -/
  first : OpenLabel.Ahead (List Char)
  /-- The first room and the text of the hops, behind an optional gap. -/
  path : Option (List Char × List Char)
  /-- The same behind a colon, with optional gaps around it. -/
  colon : Option (List Char × List Char)
  /-- The exit reaches into it; the value is the path behind the colon. -/
  exit : OpenLabel.Ahead (List Char × List Char)

def Ahead.nil : Ahead :=
  { rest := []
    blank := true
    room := .nil (some ())
    target := false
    tip := false
    arrow := false
    hops := false
    first := .nil none
    path := none
    colon := none
    exit := .nil none }

def Ahead.step (c : Char) (ahead : Ahead) : Ahead :=
  let rest := c :: ahead.rest
  let blank := isBlank c && ahead.blank
  let arrow := c == '-' && ahead.tip
  let hops := if isBlank c then ahead.hops else arrow || (c == '<' && ahead.arrow)
  let colon := if isBlank c then ahead.colon else if c = ':' then ahead.path else none
  { rest
    blank
    room := ahead.room.step startsSuffix (if blank || hops then some () else none) c
    target := if isBlank c then ahead.target else c == '"' && ahead.room.body.isSome
    tip := c == '>' && ahead.target
    arrow
    hops
    first := ahead.first.step startsSuffix (if hops then some rest else none) c
    path :=
      if isBlank c then ahead.path
      else if c = '"' then extend c ahead.first.body
      else none
    colon
    exit := ahead.exit.step startsSuffix colon c }

def ahead (s : List Char) : Ahead := s.foldr Ahead.step .nil

@[simp] theorem ahead_nil : ahead [] = .nil := rfl

@[simp] theorem ahead_cons (c : Char) (s : List Char) : ahead (c :: s) = (ahead s).step c := rfl

end Link

/-- The exit, the first room and the text of the hops, if the text is a link
line. -/
def link? : List Char → Option (List Char × List Char × List Char)
  | [] => none
  | c :: s =>
    if c = '"' then
      (extend c (Link.ahead s).exit.body).map fun (exit, first, hops) =>
        (exit, first, trimEnd hops)
    else
      none

end Gridwright.Line
