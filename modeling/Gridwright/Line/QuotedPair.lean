import Gridwright.Line.Keyword

/-!
# Two quoted texts at the end of a line

`ALIAS` and `REVERSE` lines end in two quoted texts.  A quoted text may hold
quotes, so there can be several ways to tell the two apart: the first text is
taken as long as possible, and the second one reaches to the last quote of the
line.  Neither text may hold a line feed.

The line is read once, from its end to its start.
-/

namespace Gridwright.Line

open Gridwright.Text

namespace QuotedPair

/-- What is known about the end of a line. -/
structure Ahead where
  /-- It is blank. -/
  blank : Bool
  /-- The text up to its last quote, if only blank characters follow that. -/
  closing : Option (List Char)
  /-- The quoted text it consists of. -/
  second : Option (List Char)
  /-- The longest text up to a quote behind which a quoted text stands, and that
  quoted text. -/
  both : Option (List Char × List Char)

def Ahead.nil : Ahead := ⟨true, none, none, none⟩

def Ahead.step (c : Char) (ahead : Ahead) : Ahead :=
  { blank := isBlank c && ahead.blank
    closing :=
      (if c = '\n' then none else ahead.closing.map (c :: ·)) <|>
        (if c = '"' ∧ ahead.blank then some [] else none)
    second :=
      if isBlank c then ahead.second else if c = '"' then ahead.closing else none
    both :=
      (if c = '\n' then none else ahead.both.map fun (first, second) => (c :: first, second)) <|>
        (if c = '"' then ahead.second.map (([], ·)) else none) }

def ahead (s : List Char) : Ahead := s.foldr Ahead.step .nil

@[simp] theorem ahead_nil : ahead [] = .nil := rfl

@[simp] theorem ahead_cons (c : Char) (s : List Char) : ahead (c :: s) = (ahead s).step c := rfl

end QuotedPair

/-- The two quoted texts that a text consists of, without their quotes. -/
def quotedPair? : List Char → Option (List Char × List Char)
  | [] => none
  | c :: s => if c = '"' then (QuotedPair.ahead s).both else none

end Gridwright.Line
