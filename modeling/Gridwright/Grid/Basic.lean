import Gridwright.Directive
import Gridwright.OrderedMap

/-!
# Grids

A grid is what a compilation builds up: rooms in the order of their creation,
each with the exits that leave it, and the order in which all the exits were
opened.  A parent or zone may be named before it is a room; until then, a
placeholder in one of the pending tables collects the code that is meant for it.
-/

namespace Gridwright

/-! ### Objects -/

/-- The parent, zone and flags of an object, and the defaults for new objects. -/
structure Traits where
  parent : Option Reference := none
  zone : Option Reference := none
  flags : Option String := none
deriving DecidableEq

def Traits.reference (traits : Traits) : Slot → Option Reference
  | .parent => traits.parent
  | .zone => traits.zone

def Traits.setReference (traits : Traits) (slot : Slot) (value : Option Reference) : Traits :=
  match slot with
  | .parent => { traits with parent := value }
  | .zone => { traits with zone := value }

/-- Code as it is run: without the blank characters in front, which only tell
that its first command starts a new line. -/
def runnable (buffer : String) : String :=
  String.ofList (Text.trimStart buffer.toList)

/-- A way from one room to another. -/
structure Exit where
  label : Label
  /-- The name and the aliases it is opened under. -/
  fullName : String
  source : Label
  target : Label
  traits : Traits := {}
  /-- The code collected for it. -/
  buffer : String := ""
deriving DecidableEq

/-- The key that tells the exits of a room apart. -/
def Exit.key (exit : Exit) : String := exit.label.key

def Exit.code (exit : Exit) : String := runnable exit.buffer

/-- What a room of the grid is in the game. -/
inductive RoomKind where
  /-- A room. -/
  | real
  /-- A stand-in for a parent or zone that was named and never created. -/
  | proxy
deriving DecidableEq

/-- A room and the exits that leave it, in the order in which they were opened. -/
structure Room where
  label : Label
  kind : RoomKind := .real
  /-- The attribute path it is kept under. -/
  attrBase : String
  traits : Traits := {}
  /-- The code collected for it. -/
  buffer : String := ""
  exits : List Exit := []
deriving DecidableEq

def Room.name (room : Room) : String := room.label.name

/-- The attribute that holds the room's dbref. -/
def Room.attrName (room : Room) : String := room.attrBase ++ room.label.key

def Room.code (room : Room) : String := runnable room.buffer

def Room.exitAt? (room : Room) (key : String) : Option Exit :=
  room.exits.find? (·.key = key)

/-- The exit that a label leads to: labels with the same key lead to the same
exit. -/
def Room.exit? (room : Room) (label : Label) : Option Exit := room.exitAt? label.key

/-! ### Pending references -/

/-- What is known about a parent or zone before it is a room. -/
structure Placeholder where
  label : Label
  /-- The attribute path in force when it was first named. -/
  attrBase : String
  /-- The code collected for it. -/
  buffer : String := ""
deriving DecidableEq

/-- An entry of a pending table. -/
inductive Pending where
  /-- It is not a room yet. -/
  | placeholder (held : Placeholder)
  /-- It is this room. -/
  | resolved (room : Label)
deriving DecidableEq

def Pending.placeholder? : Pending → Option Placeholder
  | .placeholder held => some held
  | .resolved _ => none

def Pending.buffer (entry : Pending) : String :=
  (entry.placeholder?.map (·.buffer)).getD ""

/-- The parents or zones that have been named. -/
abbrev PendingTable := OrderedMap Label Pending

/-- Which exit was opened: the room it leaves and its key there. -/
structure Edge where
  source : Label
  key : String
deriving DecidableEq

/-! ### Grids -/

/-- Rooms, the order in which their exits were opened, and pending references. -/
structure Grid where
  rooms : List Room := []
  edges : List Edge := []
  parents : PendingTable := {}
  zones : PendingTable := {}
deriving DecidableEq

namespace Grid

def room? (grid : Grid) (label : Label) : Option Room :=
  grid.rooms.find? (·.label = label)

def hasRoom (grid : Grid) (label : Label) : Bool := (grid.room? label).isSome

/-- The exit that a label leads to in a room. -/
def exit? (grid : Grid) (room exit : Label) : Option Exit :=
  (grid.room? room).bind (·.exit? exit)

/-- The grid with one more room.  There is none if a room with that label is
there. -/
def addRoom? (grid : Grid) (room : Room) : Option Grid :=
  if grid.hasRoom room.label then none else some { grid with rooms := grid.rooms ++ [room] }

def updateRoom (grid : Grid) (label : Label) (change : Room → Room) : Grid :=
  { grid with
    rooms := grid.rooms.map fun room => if room.label = label then change room else room }

/-- The grid with one more exit, last among those of its source.  There is none
if the source is missing or already has an exit with that key. -/
def addExit? (grid : Grid) (exit : Exit) : Option Grid :=
  match grid.room? exit.source with
  | none => none
  | some room =>
    if (room.exitAt? exit.key).isSome then none
    else
      let widened := grid.updateRoom exit.source fun source =>
        { source with exits := source.exits ++ [exit] }
      some { widened with edges := grid.edges ++ [⟨exit.source, exit.key⟩] }

/-- The exits in the order in which they were opened. -/
def exits (grid : Grid) : List Exit :=
  grid.edges.filterMap fun edge => (grid.room? edge.source).bind (·.exitAt? edge.key)

/-! ### Code -/

/-- The grid with code added to a room, if there is such a room. -/
def appendRoom? (grid : Grid) (label : Label) (text : String) : Option Grid :=
  if grid.hasRoom label then
    some (grid.updateRoom label fun room => { room with buffer := room.buffer ++ text })
  else
    none

/-- The room with code added to the exit that has the given key. -/
def appendToExit (key text : String) (room : Room) : Room :=
  { room with
    exits := room.exits.map fun exit =>
      if exit.key = key then { exit with buffer := exit.buffer ++ text } else exit }

/-- The grid with code added to an exit, if there is such an exit. -/
def appendExit? (grid : Grid) (room exit : Label) (text : String) : Option Grid :=
  if (grid.exit? room exit).isSome then some (grid.updateRoom room (appendToExit exit.key text))
  else none

/-! ### Pending tables -/

def pending (grid : Grid) : Slot → PendingTable
  | .parent => grid.parents
  | .zone => grid.zones

def setPending (grid : Grid) (slot : Slot) (table : PendingTable) : Grid :=
  match slot with
  | .parent => { grid with parents := table }
  | .zone => { grid with zones := table }

/-- The placeholder under a label in the pending table of a slot. -/
def placeholderIn? (grid : Grid) (slot : Slot) (label : Label) : Option Placeholder :=
  ((grid.pending slot).find? label).bind (·.placeholder?)

/-- The placeholder under a label and the slot whose table holds it.  The parents
come first. -/
def placeholder? (grid : Grid) (label : Label) : Option (Slot × Placeholder) :=
  ((grid.placeholderIn? .parent label).map ((Slot.parent, ·))) <|>
    ((grid.placeholderIn? .zone label).map ((Slot.zone, ·)))

/-- The grid with code added to a placeholder, if there is such a placeholder. -/
def appendPlaceholder? (grid : Grid) (label : Label) (text : String) : Option Grid :=
  (grid.placeholder? label).map fun (slot, found) =>
    grid.setPending slot
      ((grid.pending slot).insert label
        (.placeholder { found with buffer := found.buffer ++ text }))

/-- A pending table in which a label that it holds is resolved. -/
def resolveIn (table : PendingTable) (label : Label) : PendingTable :=
  if table.contains label then table.insert label (.resolved label) else table

/-- The code that a pending table has collected for a label. -/
def bufferIn (table : PendingTable) (label : Label) : String :=
  ((table.find? label).map (·.buffer)).getD ""

/-- The code collected for a label in both pending tables, that of the zones
first. -/
def pendingBuffer (grid : Grid) (label : Label) : String :=
  bufferIn grid.zones label ++ bufferIn grid.parents label

/-- The grid in which a label is resolved wherever it is pending. -/
def resolvePending (grid : Grid) (label : Label) : Grid :=
  { grid with
    parents := resolveIn grid.parents label
    zones := resolveIn grid.zones label }

/-- The grid in which a reference to a label is known to its pending table: as
resolved if the room exists, and by a placeholder if it was not known before. -/
def track (grid : Grid) (slot : Slot) (attrBase : String) (label : Label) : Grid :=
  let table := grid.pending slot
  grid.setPending slot
    (if grid.hasRoom label then table.insert label (.resolved label)
     else table.insertNew label (.placeholder { label, attrBase }))

end Grid

end Gridwright
