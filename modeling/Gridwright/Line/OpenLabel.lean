import Gridwright.Line.ClosingLabel

/-!
# A label inside a line

Where more follows behind a label, the label ends at the first quote that lets
the rest of the line be read.  Of the suffixes that are possible there the
longest one that lets the rest be read is taken, and none at all only if no
suffix will do.

The reader is general in what follows: `OpenLabel.Ahead α` is extended to the
left one character at a time, and is told for every place of the line what the
rest of the line from there on is worth as a value of `α`, or that it cannot be
read.
-/

namespace Gridwright.Line

open Gridwright.Text

/-- Puts a character in front of a text that has been read together with what
follows it. -/
def extend {α : Type} (c : Char) (read : Option (List Char × α)) : Option (List Char × α) :=
  read.map fun (text, rest) => (c :: text, rest)

namespace OpenLabel

/-- What the end of a line is worth to a label that reaches into it: the part of
the label's text that stands there, and the value of the rest. -/
structure Ahead (α : Type) where
  /-- Inside a suffix. -/
  run : Option (List Char × α)
  /-- Right behind the closing quote. -/
  closed : Option (List Char × α)
  /-- Inside the quotes. -/
  body : Option (List Char × α)

/-- At the end of the line, where `rest` is what an empty rest is worth. -/
def Ahead.nil {α : Type} (rest : Option α) : Ahead α :=
  { run := rest.map (([], ·))
    closed := rest.map (([], ·))
    body := none }

/-- One character further to the left.  Here `starts` tells which characters may
start a suffix, and `rest` is what the line from `c` on is worth. -/
def Ahead.step {α : Type} (starts : Char → Bool) (rest : Option α) (c : Char)
    (ahead : Ahead α) : Ahead α :=
  { run := (if isBlank c then none else extend c ahead.run) <|> rest.map (([], ·))
    closed := (if starts c then extend c ahead.run else none) <|> rest.map (([], ·))
    body :=
      (if c = '"' then extend c ahead.closed else none) <|>
        (if c = '\n' then none else extend c ahead.body) }

end OpenLabel

end Gridwright.Line
