import Gridwright.Text.Pieces

/-!
# Names of exits

Players type the name of an exit to walk through it, so an exit is opened under
its name followed by shorter aliases, all divided by semicolons.  A name that
marks letters with angle brackets (`<N>orth`) has those letters as its alias.
Where automatic brackets are asked for, a name without marks gets one around the
first letter of each word (`North East` becomes `<N>orth <E>ast;NE`).
-/

namespace Gridwright

open Gridwright.Text

/-- How the aliases of an exit are derived. -/
structure NamingOptions where
  /-- Take the bracketed letters of a name as its alias. -/
  detectBrackets : Bool := true
  /-- Put the first letter of each word in brackets. -/
  autoBrackets : Bool := false
deriving DecidableEq

namespace ExitName

/-! ### Brackets -/

/-- The text between the first `<` and the last `>` of a word, unless it is
empty. -/
def bracketed? (word : List Char) : Option (List Char) :=
  match word.dropWhile (· != '<') with
  | [] => none
  | _ :: inner =>
    match inner.reverse.dropWhile (· != '>') with
    | [] => none
    | _ :: body => if body.isEmpty then none else some body.reverse

/-- The bracketed texts of a name, at most one for each word. -/
def bracketedParts (name : List Char) : List (List Char) := (words name).filterMap bracketed?

/-- A word with its first letter in brackets. -/
def bracketFirst : List Char → List Char
  | [] => []
  | c :: rest => '<' :: c :: '>' :: rest

def initials (name : List Char) : List Char := (words name).filterMap (·.head?)

/-! ### Full names -/

/-- The name to show and the alias to derive from it. -/
def display (options : NamingOptions) (name : List Char) : List Char × List Char :=
  if options.detectBrackets && !(bracketedParts name).isEmpty then
    (name, (bracketedParts name).flatten)
  else if options.autoBrackets then
    (join [' '] ((words name).map bracketFirst), initials name)
  else
    (name, [])

/-- The parts of a full name: the name to show, the derived alias and the aliases
that the declared name already carries, without the empty ones among them. -/
def parts (options : NamingOptions) (declared : List Char) : List (List Char) :=
  match pieces (· == ';') declared with
  | [] => []
  | name :: given =>
    let (shown, derived) := display options name
    (shown :: derived :: given).filter (!·.isEmpty)

/-- The name under which an exit is opened. -/
def full (options : NamingOptions) (declared : String) : String :=
  String.ofList (join [';'] (parts options declared.toList))

/-- The part of a full name that refers to the exit: all up to the first
semicolon. -/
def short (fullName : String) : String :=
  String.ofList (fullName.toList.takeWhile (· != ';'))

end ExitName

end Gridwright
