import Gridwright.Softcode

/-!
# Commands

The commands a script is made of.  The dbref of every object that a script
creates is stored in an attribute of the builder, and later commands reach the
object by looking that attribute up.

Names inside function calls are escaped; names that are arguments of plain
commands are written as they are.
-/

namespace Gridwright

/-- What a parent or zone is in a script. -/
inductive Target where
  /-- An object of the game. -/
  | dbref (text : String)
  /-- The object whose dbref is stored in an attribute. -/
  | stored (attr : String)
deriving DecidableEq

/-- The look-up of an attribute. -/
def lookUp (attr : String) : String := "[v(" ++ attr ++ ")]"

def Target.render : Target → String
  | .dbref text => text
  | .stored attr => lookUp attr

/-- A command of a script. -/
inductive Command where
  /-- A line that does nothing. -/
  | comment (text : String)
  /-- Tell the builder how far the script is. -/
  | announce (text : String)
  /-- Warn the builder. -/
  | warn (message : String)
  /-- Make a branch of an attribute tree. -/
  | makeBranch (branch : String)
  /-- Dig a room and go there. -/
  | digAndEnter (name : String)
  /-- Store the dbref of the room the builder is in. -/
  | storeHere (attr : String)
  /-- The same by a function. -/
  | storeHereByFunction (attr : String)
  /-- Create a thing and store its dbref. -/
  | createThing (attr name : String)
  /-- Create a thing and store its dbref, unless one is stored. -/
  | ensureThing (attr name : String)
  /-- Dig a room and store its dbref, unless one is stored. -/
  | ensureRoom (attr name : String)
  /-- Let nobody but the builder pick the object up. -/
  | lock (attr : String)
  /-- Let nobody but the builder use the object as a zone. -/
  | lockZone (attr : String)
  /-- Make the builder the home of the object. -/
  | linkHome (attr : String)
  /-- Go to the object. -/
  | goTo (attr : String)
  /-- Put the object where the builder is. -/
  | putHere (attr : String)
  /-- Go to where the object is. -/
  | goOut (attr : String)
  /-- Take the object back. -/
  | takeBack (attr : String)
  /-- Run code of the grid. -/
  | run (code : String)
  /-- Open an exit, unless there is one, and link it to its target. -/
  | ensureExit (fullName shortName target : String)
  /-- Open an exit to its target. -/
  | openExit (fullName target : String)
  /-- Give an object its parent. -/
  | setParent (subject : String) (parent : Target)
  /-- The same by a function. -/
  | setParentByFunction (subject : String) (parent : Target)
  /-- Give an object its zone. -/
  | setZone (subject : String) (zone : Target)
  /-- Give an object its flags. -/
  | setFlags (subject flags : String)
deriving DecidableEq

namespace Command

def render : Command → String
  | .comment text => "@@ " ++ text
  | .announce text => "think " ++ text
  | .warn message => "think WARNING: " ++ message
  | .makeBranch branch => "&" ++ branch ++ " me=Placeholder"
  | .digAndEnter name => "@dig/teleport " ++ name
  | .storeHere attr => "@set me=" ++ attr ++ ":%l"
  | .storeHereByFunction attr => "think set(me," ++ attr ++ ":%l)"
  | .createThing attr name =>
    "think set(me," ++ attr ++ ":[create(" ++ Softcode.escape name ++ ",10)])"
  | .ensureThing attr name =>
    "think set(me," ++ attr ++ ":[default(me/" ++ attr ++ ",create(" ++
      Softcode.escape name ++ ",10))])"
  | .ensureRoom attr name =>
    "think set(me," ++ attr ++ ":[default(me/" ++ attr ++
      ",switch(functions(),* DIG *,dig(" ++ Softcode.escape name ++ "),create(" ++
      Softcode.escape name ++ ",,r)))])"
  | .lock attr => "@lock " ++ lookUp attr ++ "= =me"
  | .lockZone attr => "@lock/zone " ++ lookUp attr ++ "= =me"
  | .linkHome attr => "@link " ++ lookUp attr ++ "=me"
  | .goTo attr => "@teleport " ++ lookUp attr
  | .putHere attr => "@teleport " ++ lookUp attr ++ "=here"
  | .goOut attr => "@teleport [loc(v(" ++ attr ++ "))]"
  | .takeBack attr => "@teleport " ++ lookUp attr ++ "=me"
  | .run code => code
  | .ensureExit fullName shortName target =>
    "@teleport [setr(0,ifelse(t(setr(0,locate(me," ++ Softcode.escape shortName ++
      ",eE))),r(0),switch(functions(),* OPEN *,open(" ++ Softcode.escape fullName ++
      "),create(" ++ Softcode.escape fullName ++ ",,e))))][link(%q0,v(" ++ target ++ "))]=here"
  | .openExit fullName target => "@open " ++ fullName ++ "=" ++ lookUp target
  | .setParent subject parent => "@parent " ++ subject ++ "=" ++ parent.render
  | .setParentByFunction subject parent =>
    "think parent(" ++ Softcode.escape subject ++ "," ++ parent.render ++ ")"
  | .setZone subject zone => "@chzone " ++ subject ++ "=" ++ zone.render
  | .setFlags subject flags => "@set " ++ subject ++ "=" ++ flags

def warning? : Command → Option String
  | .warn message => some message
  | _ => none

end Command

/-- Commands as text, each on lines of its own. -/
def scriptText (commands : List Command) : String :=
  String.join (commands.map fun command => command.render ++ "\n")

end Gridwright
