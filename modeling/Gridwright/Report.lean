import Gridwright.Label

/-!
# Errors, warnings and where they arise

An error ends a compilation; a warning travels with its result.  Both may carry
the source line they arose from.  An error is kept as its cause, and the words
for each cause are given once, in `Cause.message`.
-/

namespace Gridwright

/-! ### Locations -/

/-- A line of a named source. -/
structure Location where
  file : String
  line : Nat
deriving DecidableEq

def Location.describe (location : Location) : String :=
  "File '" ++ location.file ++ "' Line " ++ location.line.repr

/-- A message behind the location it belongs to, if there is one. -/
def locate (location : Option Location) (message : String) : String :=
  match location with
  | none => message
  | some place => place.describe ++ ": " ++ message

/-! ### Errors -/

/-- Why a compilation ends. -/
inductive Cause where
  /-- A source line asks for it: an unknown line or a misplaced block end. -/
  | directive (message : String)
  /-- A room is used that has not been created. -/
  | roomMissing (room : Label)
  /-- An exit is used that its room does not have. -/
  | exitMissing (exit room : Label)
  /-- An exit is opened that its room already has. -/
  | duplicateExit (exit room : Label)
  /-- A two-way link uses an exit that has no reverse. -/
  | missingReverse (exit : Label)
  /-- The requested modes exclude each other. -/
  | invalidMode (reason : String)
  /-- A parent or zone is neither a room nor a stand-in. -/
  | unresolvedReference (target : String)
  /-- A source cannot be read. -/
  | unreadable (path reason : String)
deriving DecidableEq

def Cause.message : Cause → String
  | .directive message => message
  | .roomMissing room => "Room " ++ room.text ++ " doesn't exist"
  | .exitMissing exit room => "Exit " ++ exit.text ++ " doesn't exist in room " ++ room.text
  | .duplicateExit exit room =>
    "There is already an exit " ++ exit.text ++ " in room " ++ room.text
  | .missingReverse exit => "No reverse exit for " ++ exit.text
  | .invalidMode reason => "invalid mode: " ++ reason
  | .unresolvedReference target => "unresolved reference: " ++ target
  | .unreadable path reason => "cannot read " ++ path ++ ": " ++ reason

/-- What ends a compilation, and the source line that brought it about. -/
structure Error where
  cause : Cause
  location : Option Location := none
deriving DecidableEq

def Error.located (error : Error) (location : Location) : Error :=
  { error with location := some location }

def Error.message (error : Error) : String := locate error.location error.cause.message

/-! ### Warnings -/

/-- Something worth telling that does not end a compilation.  A warning about the
grid as a whole has no location. -/
structure Warning where
  location : Option Location := none
  message : String
deriving DecidableEq

def Warning.describe (warning : Warning) : String := locate warning.location warning.message

/-- Whether a text occurs somewhere in another. -/
def occursIn (needle : List Char) : List Char → Bool
  | [] => needle.isEmpty
  | c :: rest => needle.isPrefixOf (c :: rest) || occursIn needle rest

/-- How many of the warnings contain a text. -/
def countMentioning (needle : String) (warnings : List Warning) : Nat :=
  warnings.countP fun warning => occursIn needle.toList warning.message.toList

end Gridwright
