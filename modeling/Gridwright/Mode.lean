import Gridwright.Report

/-!
# Modes

A script can be written in three ways: to be uploaded again and again and find
what it built before, to build everything afresh, or to build everything afresh
for a server that lacks the functions with side effects.
-/

namespace Gridwright

/-- How a script creates objects. -/
inductive Mode where
  /-- Look for an object before creating it. -/
  | managed
  /-- Create every object. -/
  | unmanaged
  /-- Create every object, by commands alone. -/
  | noSideEffects
deriving DecidableEq

def Mode.isManaged (mode : Mode) : Bool := mode = .managed

def Mode.name : Mode → String
  | .managed => "managed"
  | .unmanaged => "unmanaged"
  | .noSideEffects => "no-side-effects"

/-- The modes that were asked for. -/
structure ModeFlags where
  managed : Bool := false
  unmanaged : Bool := false
  noSideEffects : Bool := false
deriving DecidableEq

/-- The mode that was asked for.  A script without side effects is unmanaged, and
a script is managed if nothing else is asked for. -/
def ModeFlags.resolve (flags : ModeFlags) : Except Cause Mode :=
  if flags.managed && flags.noSideEffects then
    .error (.invalidMode "cannot use managed mode with no-side-effects mode")
  else if flags.managed && flags.unmanaged then
    .error (.invalidMode "cannot use managed and unmanaged mode together")
  else if flags.noSideEffects then .ok .noSideEffects
  else if flags.unmanaged then .ok .unmanaged
  else .ok .managed

end Gridwright
