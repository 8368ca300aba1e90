import Gridwright.Report

/-!
# Directives

A directive is what one source line asks for, together with the line that asks
for it.  A line may ask for several things: a link line creates rooms and exits
one after another.
-/

namespace Gridwright

/-- The two kinds of objects that a default can be set for. -/
inductive ObjectKind where
  | room
  | exit
deriving DecidableEq

/-- The two references an object has. -/
inductive Slot where
  | parent
  | zone
deriving DecidableEq

/-- One thing to do. -/
inductive Action where
  /-- Nothing: the line is blank, a comment or the edge of a block. -/
  | nop
  /-- End the compilation. -/
  | error (message : String)
  /-- Tell something and go on. -/
  | warning (message : String)
  /-- Keep later rooms under this attribute path. -/
  | attrBase (path : String)
  /-- Open an exit under these names instead of the ones derived from its label. -/
  | exitAlias (exit : Label) (names : String)
  /-- Register the exit that leads back. -/
  | reverse (exit back : Label)
  /-- Give later objects this parent or zone, or none. -/
  | setReference (kind : ObjectKind) (slot : Slot) (value : Option Reference)
  /-- Give later objects these flags, or none. -/
  | setFlags (kind : ObjectKind) (value : Option String)
  /-- Create a room unless it exists. -/
  | createRoom (room : Label)
  /-- Open an exit from one room to another. -/
  | createExit (exit source target : Label)
  /-- Open the reverse of an exit, from the target of the exit to its source. -/
  | createReverseExit (exit source target : Label)
  /-- Add code to a room. -/
  | bufferRoom (room : Label) (text : String)
  /-- Add code to an exit. -/
  | bufferExit (room exit : Label) (text : String)
deriving DecidableEq

/-- A thing to do and the line that asks for it. -/
structure Directive where
  location : Location
  action : Action
deriving DecidableEq

end Gridwright
