import Gridwright.Proofs.Grid.Edges
import Gridwright.Proofs.Grid.Promotion

/-!
# Where the code of a grid is kept

Code for a room can be given before the room is there.  It then waits with a
placeholder of the zones or of the parents, and moves to the room that takes their
place.  `codeFor` is the code of a label wherever it is kept, so that a move shows as
an equation and added code as text behind what was there.  Code for an exit stays where
it is put, and `exitCode` reads it there.
-/

namespace Gridwright

/-- What code can be given to. -/
inductive Owner where
  | room (label : Label)
  /-- The exit with some key in a room. -/
  | exit (room : Label) (key : String)
deriving DecidableEq

namespace Grid

variable {grid next : Grid}

/-- The code collected for a label: that of the room or, before there is one, that of
the zone placeholder and then that of the parent placeholder. -/
def codeFor (grid : Grid) (label : Label) : String :=
  ((grid.room? label).map (·.buffer)).getD (grid.pendingBuffer label)

/-- The code collected for the exit with some key in a room. -/
def exitCode (grid : Grid) (room : Label) (key : String) : String :=
  ((grid.exitOf? ⟨room, key⟩).map (·.buffer)).getD ""

def codeOf (grid : Grid) : Owner → String
  | .room label => grid.codeFor label
  | .exit room key => grid.exitCode room key

/-! ### Code of rooms -/

theorem codeFor_of_room? {label : Label} {room : Room} (h : grid.room? label = some room) :
    grid.codeFor label = room.buffer := by
  simp only [codeFor, h, Option.map_some, Option.getD_some]

theorem codeFor_of_not_hasRoom {label : Label} (h : grid.hasRoom label = false) :
    grid.codeFor label =
      bufferIn (grid.pending .zone) label ++ bufferIn (grid.pending .parent) label := by
  simp only [codeFor, room?_eq_none_iff.mpr h, Option.map_none, Option.getD_none]
  rfl

/-- The code for a label depends on the buffer of its room and on what is pending for it
if there is no room. -/
theorem codeFor_congr {label : Label}
    (hroom : (next.room? label).map (·.buffer) = (grid.room? label).map (·.buffer))
    (hpending : grid.hasRoom label = false → ∀ slot,
      bufferIn (next.pending slot) label = bufferIn (grid.pending slot) label) :
    next.codeFor label = grid.codeFor label := by
  unfold codeFor
  rw [hroom]
  cases hfound : grid.room? label with
  | some room => rfl
  | none =>
      have hslots := hpending (room?_eq_none_iff.mp hfound)
      exact congrArg₂ (· ++ ·) (hslots .zone) (hslots .parent)

theorem codeFor_track (slot : Slot) (attrBase : String) (label other : Label) :
    (grid.track slot attrBase label).codeFor other = grid.codeFor other := by
  apply codeFor_congr
  · simp [track]
  · intro hnone known
    simp only [track, pending_setPending]
    split
    · rename_i hslot
      subst hslot
      by_cases hroom : grid.hasRoom label = true
      · have hne : other ≠ label := by
          rintro rfl
          rw [hroom] at hnone
          cases hnone
        simp [bufferIn, hroom, OrderedMap.find?_insert, hne]
      · -- a new placeholder has no code
        simp only [hroom, if_false, Bool.false_eq_true, bufferIn, OrderedMap.find?_insertNew]
        split
        · rename_i hnew
          rw [OrderedMap.find?_eq_none_iff.mpr (hnew.1 ▸ hnew.2)]
          rfl
        · rfl
    · rfl

/-- A room that takes over what is pending for it takes over all of its code, and that
of no other label. -/
theorem codeFor_create {room : Room} (hnew : grid.hasRoom room.label = false)
    (hbuffer : room.buffer = grid.pendingBuffer room.label) (other : Label) :
    ((grid.resolvePending room.label).withRoom room).codeFor other = grid.codeFor other := by
  by_cases hother : other = room.label
  · subst hother
    have hroom : ((grid.resolvePending room.label).withRoom room).room? room.label = some room := by
      simp [room?_withRoom, room?_eq_none_iff.mpr hnew]
    rw [codeFor_of_room? hroom, hbuffer, codeFor_of_not_hasRoom hnew]
    rfl
  · apply codeFor_congr
    · simp [room?_withRoom, Ne.symm hother]
    · intro _ slot
      simp [bufferIn, find?_resolveIn, hother]

/-- A change of a room that keeps its own code keeps the code of all labels. -/
theorem codeFor_updateRoom (change : Room → Room)
    (hlabel : ∀ room, (change room).label = room.label)
    (hbuffer : ∀ room, (change room).buffer = room.buffer) (label other : Label) :
    (grid.updateRoom label change).codeFor other = grid.codeFor other := by
  apply codeFor_congr
  · rw [room?_updateRoom change hlabel, Option.map_map]
    congr 1
    funext room
    simp only [Function.comp_apply]
    split
    · exact hbuffer room
    · rfl
  · intro _ slot
    rw [pending_updateRoom]

theorem codeFor_appendRoom? {label : Label} {text : String}
    (h : grid.appendRoom? label text = some next) (other : Label) :
    next.codeFor other = grid.codeFor other ++ if other = label then text else "" := by
  obtain ⟨hroom, rfl⟩ := appendRoom?_eq_some_iff.mp h
  by_cases hother : other = label
  · subst hother
    obtain ⟨room, hfound⟩ := Option.isSome_iff_exists.mp hroom
    simp [codeFor, room?_updateRoom, hfound]
  · rw [if_neg hother, String.append_empty]
    apply codeFor_congr
    · simp [room?_updateRoom, hother]
    · intro _ slot
      rw [pending_updateRoom]

/-- Code that waits goes behind all that waits for the same label: it is left to the zones
only while the parents have no placeholder, and read with the zones first. -/
theorem codeFor_appendPlaceholder? {label : Label} {text : String}
    (hnone : grid.hasRoom label = false)
    (h : grid.appendPlaceholder? label text = some next) (other : Label) :
    next.codeFor other = grid.codeFor other ++ if other = label then text else "" := by
  obtain ⟨slot, held, hheld, hzone, rfl⟩ := appendPlaceholder?_eq_some_iff.mp h
  have hentry := placeholderIn?_eq_some_iff.mp hheld
  by_cases hother : other = label
  · subst hother
    have hgrown : bufferIn ((grid.pending slot).insert other
        (.placeholder { held with buffer := held.buffer ++ text })) other =
          bufferIn (grid.pending slot) other ++ text := by
      simp [bufferIn, OrderedMap.find?_insert, hentry, Pending.buffer, Pending.placeholder?]
    rw [codeFor_of_not_hasRoom (by simpa using hnone), codeFor_of_not_hasRoom hnone, if_pos rfl]
    cases slot with
    | parent => simp [pending_setPending, hgrown, String.append_assoc]
    | zone =>
        have hempty : bufferIn (grid.pending .parent) other = "" := by
          rw [bufferIn_pending, hzone rfl]
          rfl
        simp [pending_setPending, hgrown, hempty]
  · rw [if_neg hother, String.append_empty]
    apply codeFor_congr
    · rw [room?_setPending]
    · intro _ known
      rw [pending_setPending]
      split
      · rename_i hslot
        simp [hslot, bufferIn, OrderedMap.find?_insert, hother]
      · rfl

/-! ### Code of exits -/

theorem exitCode_of_mem (h : grid.Coherent) {room : Room} (hroom : room ∈ grid.rooms)
    {exit : Exit} (hexit : exit ∈ room.exits) :
    grid.exitCode room.label exit.key = exit.buffer := by
  have hedge : exit.edge = ⟨room.label, exit.key⟩ :=
    congrArg (Edge.mk · exit.key) ((h.fits room hroom).source exit hexit)
  rw [exitCode, ← hedge, h.exitOf?_edge hroom hexit]
  rfl

/-- The code of exits depends on the rooms alone. -/
theorem exitCode_congr (hrooms : next.rooms = grid.rooms) (room : Label) (key : String) :
    next.exitCode room key = grid.exitCode room key := by
  simp only [exitCode, exitOf?, room?, hrooms]

theorem exitCode_withRoom {room : Room} (hexits : room.exits = []) (label : Label)
    (key : String) : (grid.withRoom room).exitCode label key = grid.exitCode label key := by
  simp only [exitCode, exitOf?, room?_withRoom]
  cases grid.room? label with
  | some found => rfl
  | none =>
      split
      · simp [Room.exitAt?, hexits]
      · rfl

theorem exitCode_withExit {exit : Exit} (hbuffer : exit.buffer = "") (label : Label)
    (key : String) : (grid.withExit exit).exitCode label key = grid.exitCode label key := by
  simp only [exitCode, exitOf?, room?_withExit]
  cases grid.room? label with
  | none => rfl
  | some room =>
      simp only [Option.map_some, Option.bind_some]
      split
      · rw [Room.exitAt?_withExit]
        cases room.exitAt? key with
        | some found => rfl
        | none =>
            split
            · exact hbuffer
            · rfl
      · rfl

/-- A change of a room that keeps its exits keeps the code of all exits. -/
theorem exitCode_updateRoom (change : Room → Room)
    (hlabel : ∀ room, (change room).label = room.label)
    (hexits : ∀ room, (change room).exits = room.exits) (label room : Label) (key : String) :
    (grid.updateRoom label change).exitCode room key = grid.exitCode room key := by
  simp only [exitCode, exitOf?, room?_updateRoom change hlabel]
  cases grid.room? room with
  | none => rfl
  | some found =>
      simp only [Option.map_some, Option.bind_some]
      split
      · rw [Room.exitAt?, hexits]
        rfl
      · rfl

theorem exitAt?_appendToExit (key text : String) (room : Room) (other : String) :
    (appendToExit key text room).exitAt? other =
      (room.exitAt? other).map fun exit =>
        if other = key then { exit with buffer := exit.buffer ++ text } else exit := by
  have hsame : ((fun exit : Exit => decide (exit.key = other)) ∘
      fun exit => if exit.key = key then { exit with buffer := exit.buffer ++ text } else exit) =
        fun exit => decide (exit.key = other) := by
    funext exit
    simp only [Function.comp_apply]
    split <;> rfl
  simp only [Room.exitAt?, appendToExit, List.find?_map, hsame]
  cases hfound : room.exits.find? (fun exit => decide (exit.key = other)) with
  | none => rfl
  | some exit =>
      have hkey : exit.key = other := by simpa using List.find?_some hfound
      simp [hkey]

theorem exitCode_appendExit? {room exit : Label} {text : String}
    (h : grid.appendExit? room exit text = some next) (label : Label) (key : String) :
    next.exitCode label key =
      grid.exitCode label key ++ if label = room ∧ key = exit.key then text else "" := by
  obtain ⟨⟨found, hfound⟩, rfl⟩ := appendExit?_eq_some_iff.mp h
  obtain ⟨source, hsource, hat⟩ := Option.bind_eq_some_iff.mp hfound
  have hat : source.exitAt? exit.key = some found := hat
  simp only [exitCode, exitOf?]
  rw [room?_updateRoom (appendToExit exit.key text) fun _ => rfl]
  by_cases hlabel : label = room
  · subst hlabel
    by_cases hkey : key = exit.key
    · simp [hsource, exitAt?_appendToExit, hat, hkey]
    · simp [hsource, exitAt?_appendToExit, hkey]
  · simp [hlabel]

/-! ### Operations -/

theorem codeOf_track (slot : Slot) (attrBase : String) (label : Label) (owner : Owner) :
    (grid.track slot attrBase label).codeOf owner = grid.codeOf owner := by
  cases owner with
  | room other => exact codeFor_track slot attrBase label other
  | exit room key => exact exitCode_congr (rooms_track slot attrBase label) room key

theorem codeOf_create {room : Room} (hnew : grid.hasRoom room.label = false)
    (hbuffer : room.buffer = grid.pendingBuffer room.label) (hexits : room.exits = [])
    (owner : Owner) :
    ((grid.resolvePending room.label).withRoom room).codeOf owner = grid.codeOf owner := by
  cases owner with
  | room other => exact codeFor_create hnew hbuffer other
  | exit label key => exact exitCode_withRoom hexits label key

theorem codeOf_withExit {exit : Exit} (hbuffer : exit.buffer = "") (owner : Owner) :
    (grid.withExit exit).codeOf owner = grid.codeOf owner := by
  cases owner with
  | room label =>
      exact codeFor_updateRoom (·.withExit exit) (fun _ => rfl) (fun _ => rfl) exit.source label
  | exit room key => exact exitCode_withExit hbuffer room key

theorem codeOf_appendRoom? {label : Label} {text : String}
    (h : grid.appendRoom? label text = some next) (owner : Owner) :
    next.codeOf owner = grid.codeOf owner ++ if owner = .room label then text else "" := by
  cases owner with
  | room other => simpa [codeOf] using codeFor_appendRoom? h other
  | exit room key =>
      obtain ⟨-, rfl⟩ := appendRoom?_eq_some_iff.mp h
      rw [if_neg (by simp), String.append_empty]
      apply exitCode_updateRoom
      · intro _
        rfl
      · intro _
        rfl

theorem codeOf_appendPlaceholder? {label : Label} {text : String}
    (hnone : grid.hasRoom label = false)
    (h : grid.appendPlaceholder? label text = some next) (owner : Owner) :
    next.codeOf owner = grid.codeOf owner ++ if owner = .room label then text else "" := by
  cases owner with
  | room other => simpa [codeOf] using codeFor_appendPlaceholder? hnone h other
  | exit room key =>
      obtain ⟨slot, held, -, -, rfl⟩ := appendPlaceholder?_eq_some_iff.mp h
      rw [if_neg (by simp), String.append_empty]
      exact exitCode_congr (rooms_setPending slot _) room key

theorem codeOf_appendExit? {room exit : Label} {text : String}
    (h : grid.appendExit? room exit text = some next) (owner : Owner) :
    next.codeOf owner = grid.codeOf owner ++ if owner = .exit room exit.key then text else "" := by
  cases owner with
  | room label =>
      obtain ⟨-, rfl⟩ := appendExit?_eq_some_iff.mp h
      rw [if_neg (by simp), String.append_empty]
      exact codeFor_updateRoom (appendToExit exit.key text) (fun _ => rfl) (fun _ => rfl) room label
  | exit label key => simpa [codeOf] using exitCode_appendExit? h label key

/-! ### Finished grids -/

/-- Finishing a coherent grid hands the code of every placeholder to its stand-in. -/
theorem Coherent.buffer_of_mem_promote (h : grid.Coherent) {room : Room}
    (hroom : room ∈ grid.promote.1.rooms) : room.buffer = grid.codeFor room.label := by
  rw [h.rooms_promote] at hroom
  rcases List.mem_append.mp hroom with hold | hproxy
  · exact (codeFor_of_room? (h.room? hold)).symm
  · obtain ⟨placeholder, hplaceholder, rfl⟩ := List.mem_map.mp hproxy
    have hnone : grid.hasRoom placeholder.label = false := by
      rcases List.mem_append.mp hplaceholder with hparent | hzone
      · have hleft : placeholder ∈ leftover (grid.pending .parent) := hparent
        exact (h.of_mem_leftover hleft).2
      · have hleft : placeholder ∈ leftover (grid.pending .zone) := (List.mem_filter.mp hzone).1
        exact (h.of_mem_leftover hleft).2
    exact (codeFor_of_not_hasRoom hnone).symm

/-- What is no room of the finished grid was never given any code. -/
theorem Coherent.codeFor_eq_empty (h : grid.Coherent) {label : Label}
    (hnone : grid.promote.1.hasRoom label = false) : grid.codeFor label = "" := by
  have hunknown : ∀ slot, bufferIn (grid.pending slot) label = "" := by
    intro slot
    cases hfound : (grid.pending slot).find? label with
    | none =>
        rw [bufferIn, hfound]
        rfl
    | some entry =>
        rw [h.hasRoom_promote (OrderedMap.contains_of_find? hfound)] at hnone
        cases hnone
  have hroom : grid.hasRoom label = false := by
    rw [← Bool.not_eq_true]
    intro hold
    rw [h.promote_eq, hasRoom_withStandIns.mpr (Or.inl hold)] at hnone
    cases hnone
  rw [codeFor_of_not_hasRoom hroom, hunknown, hunknown]
  rfl

end Grid

end Gridwright
