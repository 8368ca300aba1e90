import Gridwright.Proofs.Grid.Rooms

/-!
# Grids without their code

Adding code to a room or an exit changes nothing but a buffer, and a reference that
becomes known changes nothing but a pending table.  `Grid.bare` is a grid without
both, so that "nothing else" reads as an equation between bare grids.
-/

namespace Gridwright

def Exit.bare (exit : Exit) : Exit := { exit with buffer := "" }

def Room.bare (room : Room) : Room :=
  { room with buffer := "", exits := room.exits.map Exit.bare }

/-- The rooms and edges of a grid, code and pending tables aside. -/
def Grid.bare (grid : Grid) : Grid :=
  { rooms := grid.rooms.map Room.bare, edges := grid.edges }

@[simp] theorem Exit.key_bare (exit : Exit) : exit.bare.key = exit.key := rfl

@[simp] theorem Exit.edge_bare (exit : Exit) : exit.bare.edge = exit.edge := rfl

theorem Exit.bare_eq_bare_iff {exit other : Exit} :
    other.bare = exit.bare ↔
      other.label = exit.label ∧ other.fullName = exit.fullName ∧ other.source = exit.source ∧
        other.target = exit.target ∧ other.traits = exit.traits := by
  simp [bare]

namespace Room

@[simp] theorem label_bare (room : Room) : room.bare.label = room.label := rfl

@[simp] theorem exits_bare (room : Room) : room.bare.exits = room.exits.map Exit.bare := rfl

theorem bare_eq_bare_iff {room other : Room} :
    other.bare = room.bare ↔
      other.label = room.label ∧ other.kind = room.kind ∧ other.attrBase = room.attrBase ∧
        other.traits = room.traits ∧
        other.exits.map Exit.bare = room.exits.map Exit.bare := by
  simp [bare]

theorem exitAt?_bare (room : Room) (key : String) :
    room.bare.exitAt? key = (room.exitAt? key).map Exit.bare := by
  simp only [exitAt?, exits_bare, List.find?_map]
  rfl

theorem bare_withExit (room : Room) (exit : Exit) :
    (room.withExit exit).bare = room.bare.withExit exit.bare := by
  simp only [withExit, bare, List.map_append, List.map_cons, List.map_nil]

/-- Code for an exit is seen in the buffer of that exit and nowhere else. -/
theorem bare_appendToExit (key text : String) (room : Room) :
    (Grid.appendToExit key text room).bare = room.bare := by
  have hexits : (Grid.appendToExit key text room).exits.map Exit.bare =
      room.exits.map Exit.bare := by
    simp only [Grid.appendToExit, List.map_map]
    apply List.map_congr_left
    intro exit _
    simp only [Function.comp_apply]
    split <;> rfl
  simp only [bare, hexits]
  rfl

end Room

namespace Grid

variable {grid : Grid}

@[simp] theorem rooms_bare : grid.bare.rooms = grid.rooms.map Room.bare := rfl

@[simp] theorem edges_bare : grid.bare.edges = grid.edges := rfl

theorem room?_bare (label : Label) : grid.bare.room? label = (grid.room? label).map Room.bare := by
  simp only [room?, rooms_bare, List.find?_map]
  rfl

/-- A change of a room that is seen in buffers only leaves the bare grid as it
is. -/
theorem bare_updateRoom (label : Label) (change : Room → Room)
    (hchange : ∀ room, (change room).bare = room.bare) :
    (grid.updateRoom label change).bare = grid.bare := by
  have hrooms : (grid.updateRoom label change).rooms.map Room.bare = grid.rooms.map Room.bare := by
    simp only [updateRoom, List.map_map]
    apply List.map_congr_left
    intro room _
    simp only [Function.comp_apply]
    split
    · exact hchange room
    · rfl
  simp only [bare, hrooms]
  rfl

/-- The bare grid depends on rooms and edges alone. -/
theorem bare_congr {other : Grid} (hrooms : other.rooms = grid.rooms)
    (hedges : other.edges = grid.edges) : other.bare = grid.bare := by
  simp only [bare, hrooms, hedges]

theorem bare_withRoom (room : Room) : (grid.withRoom room).bare = grid.bare.withRoom room.bare := by
  simp only [withRoom, bare, List.map_append, List.map_cons, List.map_nil]

theorem bare_withExit (exit : Exit) : (grid.withExit exit).bare = grid.bare.withExit exit.bare := by
  have hrooms : (grid.withExit exit).rooms.map Room.bare =
      (grid.bare.withExit exit.bare).rooms := by
    simp only [rooms_withExit, rooms_bare, List.map_map]
    apply List.map_congr_left
    intro room _
    simp only [Function.comp_apply]
    by_cases hsource : room.label = exit.source
    · rw [if_pos hsource, Room.bare_withExit]
      exact (if_pos hsource).symm
    · rw [if_neg hsource]
      exact (if_neg hsource).symm
  simp only [bare, hrooms]
  rfl

/-- The exits of a bare grid are those of the grid without their code. -/
theorem exits_bare : grid.bare.exits = grid.exits.map Exit.bare := by
  simp only [exits, edges_bare, List.map_filterMap]
  apply List.filterMap_congr
  intro edge _
  rw [room?_bare]
  cases grid.room? edge.source with
  | none => rfl
  | some room => exact room.exitAt?_bare edge.key

/-! ### Adding code -/

theorem appendRoom?_eq_some_iff {label : Label} {text : String} {next : Grid} :
    grid.appendRoom? label text = some next ↔
      grid.hasRoom label = true ∧
        next = grid.updateRoom label fun room => { room with buffer := room.buffer ++ text } := by
  unfold appendRoom?
  by_cases h : grid.hasRoom label = true
  · simp [h, eq_comm]
  · simp [h]

theorem appendExit?_eq_some_iff {room exit : Label} {text : String} {next : Grid} :
    grid.appendExit? room exit text = some next ↔
      (∃ found, grid.exit? room exit = some found) ∧
        next = grid.updateRoom room (appendToExit exit.key text) := by
  unfold appendExit?
  cases h : grid.exit? room exit with
  | none => simp
  | some found => simp [eq_comm]

theorem bare_appendRoom? {label : Label} {text : String} {next : Grid}
    (h : grid.appendRoom? label text = some next) : next.bare = grid.bare := by
  obtain ⟨-, rfl⟩ := appendRoom?_eq_some_iff.mp h
  exact bare_updateRoom label _ fun _ => rfl

theorem bare_appendExit? {room exit : Label} {text : String} {next : Grid}
    (h : grid.appendExit? room exit text = some next) : next.bare = grid.bare := by
  obtain ⟨-, rfl⟩ := appendExit?_eq_some_iff.mp h
  exact bare_updateRoom room _ (Room.bare_appendToExit exit.key text)

end Grid

end Gridwright
