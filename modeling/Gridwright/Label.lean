import Gridwright.Attribute

/-!
# Labels and references

A label names a room or an exit.  It is written as a quoted name, with an
optional suffix right behind the closing quote (`"Hall"2`), so that two rooms may
bear the same name.  The whole text is the identity of the object; the name a
player sees and the key used in attributes are derived from it.

A reference points at a parent or a zone: either at an object that exists in the
game already, by its dbref, or at a room of the grid, by its label.
-/

namespace Gridwright

/-- What identifies a room or an exit: its text, quotes included. -/
structure Label where
  text : String
deriving DecidableEq

namespace Label

/-- The text between the first and the last quote, if there are two. -/
def between? (s : List Char) : Option (List Char) :=
  match s.dropWhile (· != '"') with
  | [] => none
  | _ :: inner =>
    match inner.reverse.dropWhile (· != '"') with
    | [] => none
    | _ :: body => some body.reverse

/-- The name a player sees: what stands between the first and the last quote.
A label without two quotes is its own name. -/
def name (label : Label) : String :=
  ((between? label.text.toList).map String.ofList).getD label.text

/-- A text without one quote at its start and one at its end, where present. -/
def unquote (s : List Char) : List Char :=
  let body := match s with
    | '"' :: rest => rest
    | other => other
  if body.getLast? = some '"' then body.dropLast else body

def key (label : Label) : String :=
  String.ofList (Attribute.escapeChars (unquote label.text.toList))

end Label

/-- A parent or a zone. -/
inductive Reference where
  /-- An object of the game, passed through as it is written. -/
  | dbref (text : String)
  /-- A room of the grid. -/
  | label (target : Label)
deriving DecidableEq

/-- The room of the grid that a reference points at, if it does. -/
def Reference.target? : Reference → Option Label
  | .dbref _ => none
  | .label target => some target

def Reference.text : Reference → String
  | .dbref text => text
  | .label target => target.text

end Gridwright
