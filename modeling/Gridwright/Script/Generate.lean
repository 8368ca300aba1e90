import Gridwright.ExitName
import Gridwright.Grid.Promotion
import Gridwright.Mode
import Gridwright.Script.Command
import Gridwright.Text.Wrap

/-!
# From a grid to a script

A script has six sections: comments that list the exits, the attribute trees, the
proxies, the rooms, the exits and code of the rooms, and warnings about rooms
that nobody can enter.

A section is a list of steps.  A step is a command or the cause that ends the
script there; what stands behind such a cause is never reached.
-/

namespace Gridwright

/-- The version that scripts are stamped with. -/
def version : String := "0.1.0"

/-- A command, or the cause that ends the script. -/
abbrev Step := Except Cause Command

namespace Script

/-! ### Running steps -/

/-- The commands in front of the first cause. -/
def commands : List Step → List Command
  | [] => []
  | .error _ :: _ => []
  | .ok command :: rest => command :: commands rest

def failure? : List Step → Option Cause
  | [] => none
  | .error cause :: _ => some cause
  | .ok _ :: rest => failure? rest

/-- The warnings that commands give, which are about the grid as a whole. -/
def warnings (commands : List Command) : List Warning :=
  commands.filterMap fun command => command.warning?.map fun message => { message }

/-! ### Comments and attribute trees -/

/-- The width of the comments that list the exits. -/
def commentWidth : Nat := 75

/-- All exits in the order in which they were opened. -/
def edgeList (grid : Grid) : String :=
  String.intercalate " " (grid.exits.map fun exit => exit.source.key ++ "-->" ++ exit.target.key)

/-- The comments at the start of a script. -/
def preamble (grid : Grid) : List Command :=
  .comment ("Generated by quickbuild v" ++ version) ::
    (Text.wrap commentWidth (edgeList grid).toList).map fun line => .comment (String.ofList line)

/-- The commands that make the branches of the attribute trees. -/
def attributeTrees (grid : Grid) : List Command :=
  match Attribute.branches (grid.rooms.map (·.attrBase)) with
  | [] => []
  | branches => .announce "Constructing attribute trees" :: branches.map .makeBranch

/-! ### Proxies -/

def createProxy (mode : Mode) (proxy : Room) : List Command :=
  match mode with
  | .noSideEffects => [.digAndEnter proxy.name, .storeHere proxy.attrName]
  | .unmanaged => [.createThing proxy.attrName proxy.name]
  | .managed => [.ensureThing proxy.attrName proxy.name]

/-- The commands that run the code of a proxy from inside it and put it back. -/
def proxyCode (mode : Mode) (proxy : Room) : List Command :=
  if proxy.code.isEmpty then []
  else
    match mode with
    | .noSideEffects => [.goTo proxy.attrName, .run proxy.code]
    | .unmanaged | .managed =>
      [.putHere proxy.attrName, .goTo proxy.attrName, .run proxy.code,
       .goOut proxy.attrName, .takeBack proxy.attrName]

def proxy (mode : Mode) (room : Room) : List Command :=
  createProxy mode room ++
    [.lock room.attrName, .lockZone room.attrName, .linkHome room.attrName] ++
    proxyCode mode room

def proxyForm : Mode → String
  | .noSideEffects => "rooms"
  | .unmanaged | .managed => "things"

def proxies (mode : Mode) (grid : Grid) (role : String) (labels : List Label) : List Command :=
  if labels.isEmpty then []
  else
    .announce ("Creating room & exit " ++ role ++ " as " ++ proxyForm mode) ::
      (labels.filterMap grid.room?).flatMap (proxy mode)

/-! ### Rooms -/

/-- Whether a room has a zone, and whether it has a parent. -/
def rank (room : Room) : Bool × Bool := (room.traits.zone.isSome, room.traits.parent.isSome)

/-- The real rooms in the order in which they are built: first those without a
zone, and among them first those without a parent.  Rooms of the same rank keep
the order of their creation. -/
def buildOrder (grid : Grid) : List Room :=
  [(false, false), (false, true), (true, false), (true, true)].flatMap fun wanted =>
    grid.rooms.filter fun room => room.kind = .real ∧ rank room = wanted

/-- What a reference is in the script. -/
def target (grid : Grid) : Reference → Except Cause Target
  | .dbref text => .ok (.dbref text)
  | .label label =>
    match grid.room? label with
    | some room => .ok (.stored room.attrName)
    | none => .error (.unresolvedReference label.text)

def parentCommand (mode : Mode) (subject : String) : Target → Command
  | .dbref text => .setParent subject (.dbref text)
  | .stored attr =>
    if mode.isManaged then .setParentByFunction subject (.stored attr)
    else .setParent subject (.stored attr)

/-- The steps that give an object its parent, zone and flags. -/
def wire (mode : Mode) (grid : Grid) (subject : String) (traits : Traits) : List Step :=
  (traits.parent.toList.map fun parent => (target grid parent).map (parentCommand mode subject)) ++
    (traits.zone.toList.map fun zone => (target grid zone).map (.setZone subject)) ++
    (traits.flags.toList.map fun flags => .ok (.setFlags subject flags))

/-- The commands that create a room and leave the builder inside it. -/
def createRoom (mode : Mode) (room : Room) : List Command :=
  match mode with
  | .managed => [.ensureRoom room.attrName room.name, .goTo room.attrName]
  | .unmanaged => [.digAndEnter room.name, .storeHereByFunction room.attrName]
  | .noSideEffects => [.digAndEnter room.name, .storeHere room.attrName]

/-- The steps that create a room and give it its traits. -/
def dig (mode : Mode) (grid : Grid) (room : Room) : List Step :=
  (createRoom mode room).map .ok ++ wire mode grid "here" room.traits

/-! ### Exits -/

/-- The command that opens an exit to the room stored in an attribute. -/
def openCommand (mode : Mode) (exit : Exit) (destination : String) : Command :=
  if mode.isManaged then
    .ensureExit exit.fullName (ExitName.short exit.fullName) destination
  else
    .openExit exit.fullName destination

def runCode (code : String) : List Command := if code.isEmpty then [] else [.run code]

/-- The steps that open an exit, give it its traits and run its code. -/
def openExit (mode : Mode) (grid : Grid) (exit : Exit) : List Step :=
  match grid.room? exit.target with
  | none => [.error (.roomMissing exit.target)]
  | some destination =>
    .ok (openCommand mode exit destination.attrName) ::
      (wire mode grid (ExitName.short exit.fullName) exit.traits ++
        (runCode exit.code).map .ok)

/-- The steps that open the exits of a room and run its code. -/
def link (mode : Mode) (grid : Grid) (room : Room) : List Step :=
  (if room.exits.isEmpty then [.ok (.warn ("Creating room with no exits: " ++ room.name))]
   else []) ++
    (if !room.exits.isEmpty || !room.code.isEmpty then [.ok (.goTo room.attrName)] else []) ++
    room.exits.flatMap (openExit mode grid) ++
    (runCode room.code).map .ok

/-- The warnings about real rooms that no exit leads to. -/
def entrances (grid : Grid) : List Command :=
  let reached := grid.exits.map (·.target)
  ((buildOrder grid).filter (·.label ∉ reached)).map fun room =>
    .warn ("Created room with no entrances: " ++ room.name)

/-! ### Scripts -/

/-- The steps of the script for a grid whose proxies are given. -/
def steps (mode : Mode) (grid : Grid) (promotion : Promotion) : List Step :=
  let fixed : List Command → List Step := List.map .ok
  fixed (preamble grid) ++
    fixed (attributeTrees grid) ++
    fixed (proxies mode grid "parents" promotion.parents) ++
    fixed (proxies mode grid "zones" promotion.zones) ++
    [.ok (.announce "Digging Rooms")] ++
    (buildOrder grid).flatMap (dig mode grid) ++
    [.ok (.announce "Linking Rooms")] ++
    (buildOrder grid).flatMap (link mode grid) ++
    fixed (entrances grid)

/-- The script for a finished grid, in which the placeholders that are left become
proxies. -/
def generate (mode : Mode) (grid : Grid) : Except Cause (List Command) :=
  let (finished, promotion) := grid.promote
  let plan := steps mode finished promotion
  match failure? plan with
  | none => .ok (commands plan)
  | some cause => .error cause

end Script

end Gridwright
