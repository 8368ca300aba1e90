import Gridwright.Grid.Basic
import Gridwright.Proofs.OrderedMap

/-!
# Look-ups after changes of a grid

What `Grid.room?`, `Grid.hasRoom` and `Room.exitAt?` find, and what each operation
on a grid does: an operation that can fail is opened by a lemma that says exactly
when it succeeds and what the result is then.
-/

namespace Gridwright

/-! ### Exits of a room -/

/-- How an exit is listed among the edges of its grid. -/
def Exit.edge (exit : Exit) : Edge := ⟨exit.source, exit.key⟩

namespace Room

/-- The room with one more exit, whether or not its key is new. -/
def withExit (room : Room) (exit : Exit) : Room := { room with exits := room.exits ++ [exit] }

theorem exitAt?_of_mem {room : Room} (hnodup : (room.exits.map (·.key)).Nodup) {exit : Exit}
    (h : exit ∈ room.exits) : room.exitAt? exit.key = some exit :=
  find?_of_nodup_keys Exit.key hnodup h

theorem exitAt?_eq_none_iff {room : Room} {key : String} :
    room.exitAt? key = none ↔ ∀ exit ∈ room.exits, exit.key ≠ key := by
  simp only [exitAt?, List.find?_eq_none, decide_eq_true_eq, ne_eq]

theorem exitAt?_withExit (room : Room) (exit : Exit) (key : String) :
    (room.withExit exit).exitAt? key =
      (room.exitAt? key).or (if exit.key = key then some exit else none) := by
  simp only [exitAt?, withExit, List.find?_append, List.find?_singleton, decide_eq_true_eq]

end Room

namespace Grid

variable {grid wider : Grid}

/-! ### Rooms -/

theorem room?_of_mem (hnodup : (grid.rooms.map (·.label)).Nodup) {room : Room}
    (h : room ∈ grid.rooms) : grid.room? room.label = some room :=
  find?_of_nodup_keys Room.label hnodup h

theorem hasRoom_iff {label : Label} :
    grid.hasRoom label = true ↔ ∃ room ∈ grid.rooms, room.label = label := by
  simp only [hasRoom, room?, List.find?_isSome, decide_eq_true_eq]

theorem hasRoom_iff_mem {label : Label} :
    grid.hasRoom label = true ↔ label ∈ grid.rooms.map (·.label) := by
  rw [hasRoom_iff, List.mem_map]

theorem room?_eq_none_iff {label : Label} :
    grid.room? label = none ↔ grid.hasRoom label = false := by
  simp only [hasRoom, Option.isSome_eq_false_iff, Option.isNone_iff_eq_none]

theorem hasRoom_of_room? {label : Label} {room : Room} (h : grid.room? label = some room) :
    grid.hasRoom label = true := by
  simp only [hasRoom, h, Option.isSome_some]

/-! ### Adding a room -/

/-- The grid with one more room, whether or not its label is new. -/
def withRoom (grid : Grid) (room : Room) : Grid := { grid with rooms := grid.rooms ++ [room] }

theorem addRoom?_eq_some_iff {room : Room} :
    grid.addRoom? room = some wider ↔
      grid.hasRoom room.label = false ∧ wider = grid.withRoom room := by
  unfold addRoom? withRoom
  by_cases h : grid.hasRoom room.label = true
  · simp [h]
  · simp [h, eq_comm]

@[simp] theorem rooms_withRoom (room : Room) :
    (grid.withRoom room).rooms = grid.rooms ++ [room] := rfl

@[simp] theorem edges_withRoom (room : Room) : (grid.withRoom room).edges = grid.edges := rfl

@[simp] theorem pending_withRoom (room : Room) (slot : Slot) :
    (grid.withRoom room).pending slot = grid.pending slot := by cases slot <;> rfl

theorem room?_withRoom (room : Room) (label : Label) :
    (grid.withRoom room).room? label =
      (grid.room? label).or (if room.label = label then some room else none) := by
  simp only [room?, rooms_withRoom, List.find?_append, List.find?_singleton, decide_eq_true_eq]

@[simp] theorem hasRoom_withRoom (room : Room) (label : Label) :
    (grid.withRoom room).hasRoom label = (grid.hasRoom label || decide (room.label = label)) := by
  simp only [hasRoom, room?_withRoom]
  by_cases h : room.label = label <;> simp [h]

/-! ### Changing a room -/

@[simp] theorem pending_updateRoom (label : Label) (change : Room → Room) (slot : Slot) :
    (grid.updateRoom label change).pending slot = grid.pending slot := by cases slot <;> rfl

/-- A change that keeps the label of the room is seen by looking that room up and
by nothing else. -/
theorem room?_updateRoom (change : Room → Room)
    (hchange : ∀ room, (change room).label = room.label) (label other : Label) :
    (grid.updateRoom label change).room? other =
      (grid.room? other).map fun room => if other = label then change room else room := by
  simp only [room?, updateRoom, List.find?_map]
  have hsame : ((fun room : Room => decide (room.label = other)) ∘
      fun room => if room.label = label then change room else room) =
        fun room => decide (room.label = other) := by
    funext room
    simp only [Function.comp_apply]
    split
    · rw [hchange]
    · rfl
  rw [hsame]
  cases hfound : grid.rooms.find? (fun room => decide (room.label = other)) with
  | none => rfl
  | some room =>
      have hlabel : room.label = other := by simpa using List.find?_some hfound
      simp [hlabel]

theorem hasRoom_updateRoom (change : Room → Room)
    (hchange : ∀ room, (change room).label = room.label) (label other : Label) :
    (grid.updateRoom label change).hasRoom other = grid.hasRoom other := by
  simp only [hasRoom, room?_updateRoom change hchange, Option.isSome_map]

/-! ### Adding an exit -/

/-- The grid with one more exit, whether or not its key is new. -/
def withExit (grid : Grid) (exit : Exit) : Grid :=
  { grid.updateRoom exit.source (·.withExit exit) with
    edges := grid.edges ++ [exit.edge] }

theorem addExit?_eq_some_iff {exit : Exit} :
    grid.addExit? exit = some wider ↔
      ∃ room, grid.room? exit.source = some room ∧ room.exitAt? exit.key = none ∧
        wider = grid.withExit exit := by
  unfold addExit?
  cases hroom : grid.room? exit.source with
  | none => simp
  | some room =>
      cases hexit : room.exitAt? exit.key with
      | none => simp [hexit, withExit, Room.withExit, Exit.edge, eq_comm]
      | some found => simp [hexit]

theorem rooms_withExit (exit : Exit) :
    (grid.withExit exit).rooms = grid.rooms.map fun room =>
      if room.label = exit.source then room.withExit exit else room :=
  rfl

@[simp] theorem edges_withExit (exit : Exit) :
    (grid.withExit exit).edges = grid.edges ++ [exit.edge] := rfl

@[simp] theorem pending_withExit (exit : Exit) (slot : Slot) :
    (grid.withExit exit).pending slot = grid.pending slot := by cases slot <;> rfl

theorem room?_withExit (exit : Exit) (label : Label) :
    (grid.withExit exit).room? label =
      (grid.room? label).map fun room =>
        if label = exit.source then room.withExit exit else room :=
  room?_updateRoom (·.withExit exit) (fun _ => rfl) exit.source label

@[simp] theorem hasRoom_withExit (exit : Exit) (label : Label) :
    (grid.withExit exit).hasRoom label = grid.hasRoom label :=
  hasRoom_updateRoom (·.withExit exit) (fun _ => rfl) exit.source label

end Grid

end Gridwright
