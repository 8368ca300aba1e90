import Gridwright.ExitName
import Gridwright.Grid.Basic

/-!
# Building a grid

Directives are applied in order, one after another.  Defaults, aliases and
reverses hold for what is created after them.  A directive that fails leaves the
builder as it was, and its error carries the line of the directive.
-/

namespace Gridwright

/-! ### State -/

/-- What changes how a grid is built. -/
structure BuildOptions where
  naming : NamingOptions := {}
  /-- A reverse holds in both directions. -/
  bidirectionalReverse : Bool := true
deriving DecidableEq

/-- The attribute path in force until a source gives another. -/
def defaultAttrBase : String := "ROOM."

/-- What has been said about the objects to come. -/
structure Context where
  attrBase : String := defaultAttrBase
  /-- The names of exits that were given explicitly. -/
  aliases : OrderedMap Label String := {}
  /-- The exits that lead back. -/
  reverses : OrderedMap Label Label := {}
  /-- The traits of new rooms. -/
  room : Traits := {}
  /-- The traits of new exits. -/
  exit : Traits := {}
deriving DecidableEq

def Context.updateTraits (context : Context) (kind : ObjectKind) (change : Traits → Traits) :
    Context :=
  match kind with
  | .room => { context with room := change context.room }
  | .exit => { context with exit := change context.exit }

/-- A grid under construction. -/
structure Builder where
  context : Context := {}
  grid : Grid := {}
  warnings : List Warning := []
deriving DecidableEq

namespace Builder

/-! ### Single actions -/

def warn (builder : Builder) (location : Location) (message : String) : Builder :=
  { builder with warnings := builder.warnings ++ [{ location := some location, message }] }

/-- Sets the attribute path for new rooms.  A blank path restores the default. -/
def setAttrBase (builder : Builder) (path : String) : Builder :=
  let trimmed := Text.trim path.toList
  let attrBase := if trimmed.isEmpty then defaultAttrBase else String.ofList trimmed
  { builder with context := { builder.context with attrBase } }

def setAlias (builder : Builder) (location : Location) (exit : Label) (names : String) :
    Builder :=
  let old := builder.context.aliases.find? exit
  let next := { builder with
    context := { builder.context with aliases := builder.context.aliases.insert exit names } }
  match old with
  | none => next
  | some before =>
    next.warn location
      ("Replacing alias definition " ++ exit.text ++ "->\"" ++ before ++ "\" with " ++
        exit.text ++ "->\"" ++ names ++ "\".")

/-- Registers the way back of an exit in one direction. -/
def setReverse (builder : Builder) (location : Location) (exit back : Label) : Builder :=
  let old := builder.context.reverses.find? exit
  let next := { builder with
    context := { builder.context with reverses := builder.context.reverses.insert exit back } }
  match old with
  | none => next
  | some before =>
    next.warn location
      ("Replacing reverse definition " ++ exit.text ++ "->" ++ before.text ++ " with " ++
        exit.text ++ "->" ++ back.text)

/-- Registers the way back of an exit, and the exit as the way back of that one
where reverses hold in both directions. -/
def setReverses (options : BuildOptions) (builder : Builder) (location : Location)
    (exit back : Label) : Builder :=
  let once := builder.setReverse location exit back
  if options.bidirectionalReverse then once.setReverse location back exit else once

def setReference (builder : Builder) (kind : ObjectKind) (slot : Slot)
    (value : Option Reference) : Builder :=
  let grid := match value.bind (·.target?) with
    | none => builder.grid
    | some label => builder.grid.track slot builder.context.attrBase label
  { builder with
    grid
    context := builder.context.updateTraits kind (·.setReference slot value) }

def setFlags (builder : Builder) (kind : ObjectKind) (value : Option String) : Builder :=
  { builder with
    context := builder.context.updateTraits kind fun traits => { traits with flags := value } }

/-- A reference, unless it is to the given room. -/
def notSelf (label : Label) (reference : Option Reference) : Option Reference :=
  reference.filter (·.target? ≠ some label)

/-- The room that a label stands for if it is created now. -/
def newRoom (builder : Builder) (label : Label) : Room :=
  let traits := builder.context.room
  { label
    attrBase := builder.context.attrBase
    traits := { traits with
      parent := notSelf label traits.parent
      zone := notSelf label traits.zone }
    buffer := builder.grid.pendingBuffer label }

/-- Creates a room, unless it exists. -/
def createRoom (builder : Builder) (label : Label) : Builder :=
  match (builder.grid.resolvePending label).addRoom? (builder.newRoom label) with
  | none => builder
  | some grid => { builder with grid }

/-- The exit that a label stands for if it is opened now. -/
def newExit (options : BuildOptions) (builder : Builder) (label source target : Label) : Exit :=
  { label
    fullName :=
      (builder.context.aliases.find? label).getD (ExitName.full options.naming label.name)
    source
    target
    traits := builder.context.exit }

/-- Opens an exit between two rooms that exist. -/
def createExit (options : BuildOptions) (builder : Builder) (label source target : Label) :
    Except Cause Builder :=
  if !builder.grid.hasRoom source then .error (.roomMissing source)
  else if !builder.grid.hasRoom target then .error (.roomMissing target)
  else
    match builder.grid.addExit? (builder.newExit options label source target) with
    | none => .error (.duplicateExit label source)
    | some grid => .ok { builder with grid }

def createReverseExit (options : BuildOptions) (builder : Builder)
    (label source target : Label) : Except Cause Builder :=
  match builder.context.reverses.find? label with
  | none => .error (.missingReverse label)
  | some back => builder.createExit options back target source

/-- Adds code to a room or, if there is none yet, to its placeholder. -/
def bufferRoom (builder : Builder) (label : Label) (text : String) : Except Cause Builder :=
  match builder.grid.appendRoom? label text <|> builder.grid.appendPlaceholder? label text with
  | none => .error (.roomMissing label)
  | some grid => .ok { builder with grid }

def bufferExit (builder : Builder) (room exit : Label) (text : String) : Except Cause Builder :=
  if !builder.grid.hasRoom room then .error (.roomMissing room)
  else
    match builder.grid.appendExit? room exit text with
    | none => .error (.exitMissing exit room)
    | some grid => .ok { builder with grid }

/-! ### Directives -/

def act (options : BuildOptions) (location : Location) (builder : Builder) :
    Action → Except Cause Builder
  | .nop => .ok builder
  | .error message => .error (.directive message)
  | .warning message => .ok (builder.warn location message)
  | .attrBase path => .ok (builder.setAttrBase path)
  | .exitAlias exit names => .ok (builder.setAlias location exit names)
  | .reverse exit back => .ok (builder.setReverses options location exit back)
  | .setReference kind slot value => .ok (builder.setReference kind slot value)
  | .setFlags kind value => .ok (builder.setFlags kind value)
  | .createRoom room => .ok (builder.createRoom room)
  | .createExit exit source target => builder.createExit options exit source target
  | .createReverseExit exit source target => builder.createReverseExit options exit source target
  | .bufferRoom room text => builder.bufferRoom room text
  | .bufferExit room exit text => builder.bufferExit room exit text

def apply (options : BuildOptions) (builder : Builder) (directive : Directive) :
    Except Error Builder :=
  match builder.act options directive.location directive.action with
  | .ok next => .ok next
  | .error cause => .error { cause, location := some directive.location }

/-- Applies directives in order, up to the first that fails. -/
def applyAll (options : BuildOptions) (builder : Builder) :
    List Directive → Except Error Builder
  | [] => .ok builder
  | directive :: rest =>
    match builder.apply options directive with
    | .ok next => applyAll options next rest
    | .error error => .error error

end Builder

end Gridwright
