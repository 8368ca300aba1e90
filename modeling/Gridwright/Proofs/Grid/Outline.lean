import Gridwright.Proofs.Grid.Bare
import Gridwright.Proofs.Grid.Pending

/-!
# Grids with their pending tables and without their code

The outline of a grid is all of it but the code: the bare rooms and edges, and the pending tables
with placeholders that hold nothing.  Every operation on a grid acts on its outline, and adding
code leaves the outline as it is, so code never decides what becomes of a grid.
-/

namespace Gridwright

/-! ### Maps with changed values -/

namespace OrderedMap

variable {κ ν ω : Type} [DecidableEq κ]

def mapValues (change : ν → ω) (map : OrderedMap κ ν) : OrderedMap κ ω :=
  ⟨map.entries.map fun entry => (entry.1, change entry.2)⟩

theorem find?_mapValues (change : ν → ω) (map : OrderedMap κ ν) (key : κ) :
    (map.mapValues change).find? key = (map.find? key).map change := by
  simp only [find?, mapValues, List.find?_map, Option.map_map, Function.comp_def]

@[simp] theorem contains_mapValues (change : ν → ω) (map : OrderedMap κ ν) (key : κ) :
    (map.mapValues change).contains key = map.contains key := by
  simp only [contains, find?_mapValues, Option.isSome_map]

theorem mapValues_insert (change : ν → ω) (map : OrderedMap κ ν) (key : κ) (value : ν) :
    (map.insert key value).mapValues change = (map.mapValues change).insert key (change value) := by
  obtain ⟨entries⟩ := map
  simp only [insert, mapValues, OrderedMap.mk.injEq]
  induction entries with
  | nil => rfl
  | cons entry rest ih =>
      simp only [insertEntry, List.map_cons]
      split
      · rfl
      · rw [List.map_cons, ih]

theorem mapValues_insertNew (change : ν → ω) (map : OrderedMap κ ν) (key : κ) (value : ν) :
    (map.insertNew key value).mapValues change =
      (map.mapValues change).insertNew key (change value) := by
  simp only [insertNew, contains_mapValues]
  split
  · rfl
  · exact mapValues_insert change map key value

theorem insert_of_find? {map : OrderedMap κ ν} {key : κ} {value : ν}
    (h : map.find? key = some value) : map.insert key value = map := by
  obtain ⟨entries⟩ := map
  simp only [insert, OrderedMap.mk.injEq]
  simp only [find?] at h
  induction entries with
  | nil => cases h
  | cons entry rest ih =>
      by_cases hkey : entry.1 = key
      · simp only [List.find?_cons, hkey, decide_true, Option.map_some, Option.some.injEq] at h
        rw [insertEntry, if_pos hkey, ← hkey, ← h]
      · simp only [List.find?_cons, hkey, decide_false] at h
        rw [insertEntry, if_neg hkey, ih h]

end OrderedMap

/-! ### Pending tables -/

def Pending.outline : Pending → Pending
  | .placeholder held => .placeholder { held with buffer := "" }
  | .resolved room => .resolved room

namespace Grid

variable {grid other : Grid}

/-- A grid without its code. -/
def outline (grid : Grid) : Grid :=
  { grid.bare with
    parents := grid.parents.mapValues Pending.outline
    zones := grid.zones.mapValues Pending.outline }

theorem pending_outline (slot : Slot) :
    grid.outline.pending slot = (grid.pending slot).mapValues Pending.outline := by
  cases slot <;> rfl

theorem hasRoom_outline (label : Label) : grid.outline.hasRoom label = grid.hasRoom label := by
  have hroom : grid.outline.room? label = grid.bare.room? label := rfl
  rw [hasRoom, hroom, room?_bare, Option.isSome_map]
  rfl

theorem isSome_exit?_outline (room exit : Label) :
    (grid.outline.exit? room exit).isSome = (grid.exit? room exit).isSome := by
  have hroom : grid.outline.room? room = grid.bare.room? room := rfl
  simp only [exit?, hroom, room?_bare]
  cases grid.room? room with
  | none => rfl
  | some found => simp [Room.exit?, Room.exitAt?_bare]

theorem isSome_placeholderIn?_outline (slot : Slot) (label : Label) :
    (grid.outline.placeholderIn? slot label).isSome = (grid.placeholderIn? slot label).isSome := by
  simp only [placeholderIn?, pending_outline, OrderedMap.find?_mapValues]
  cases (grid.pending slot).find? label with
  | none => rfl
  | some entry => cases entry <;> rfl

/-! ### Operations -/

theorem outline_setPending (slot : Slot) (table : PendingTable) :
    (grid.setPending slot table).outline =
      grid.outline.setPending slot (table.mapValues Pending.outline) := by
  cases slot <;> rfl

theorem outline_track (slot : Slot) (attrBase : String) (label : Label) :
    (grid.track slot attrBase label).outline = grid.outline.track slot attrBase label := by
  simp only [track, outline_setPending, hasRoom_outline, pending_outline]
  split
  · rw [OrderedMap.mapValues_insert]
    rfl
  · rw [OrderedMap.mapValues_insertNew]
    rfl

theorem outline_resolvePending (label : Label) :
    (grid.resolvePending label).outline = grid.outline.resolvePending label := by
  have hresolve : ∀ table : PendingTable, (resolveIn table label).mapValues Pending.outline =
      resolveIn (table.mapValues Pending.outline) label := by
    intro table
    simp only [resolveIn, OrderedMap.contains_mapValues]
    split
    · rw [OrderedMap.mapValues_insert]
      rfl
    · rfl
  simp only [resolvePending, outline, hresolve]
  rfl

theorem outline_withRoom (room : Room) :
    (grid.withRoom room).outline = grid.outline.withRoom room.bare := by
  simp only [outline, bare_withRoom]
  rfl

theorem outline_withExit (exit : Exit) :
    (grid.withExit exit).outline = grid.outline.withExit exit.bare := by
  simp only [outline, bare_withExit]
  rfl

theorem outline_updateRoom (label : Label) (change : Room → Room)
    (hchange : ∀ room, (change room).bare = room.bare) :
    (grid.updateRoom label change).outline = grid.outline := by
  simp only [outline, bare_updateRoom label change hchange]
  rfl

@[simp] theorem outline_outline : grid.outline.outline = grid.outline := by
  have hexit : ∀ exit : Exit, exit.bare.bare = exit.bare := fun _ => rfl
  have hroom : ∀ room : Room, room.bare.bare = room.bare := by
    intro room
    simp [Room.bare, Function.comp_def, hexit]
  have hentry : ∀ entry : Pending, entry.outline.outline = entry.outline := by
    intro entry
    cases entry <;> rfl
  simp [outline, bare, OrderedMap.mapValues, Function.comp_def, hroom, hentry]

theorem map_outline_addExit? (exit : Exit) :
    (grid.addExit? exit).map outline = (grid.outline.addExit? exit.bare).map outline := by
  have hroom : grid.outline.room? exit.bare.source = (grid.room? exit.source).map Room.bare :=
    room?_bare exit.source
  cases hsource : grid.room? exit.source with
  | none => simp only [addExit?, hroom, hsource, Option.map_none]
  | some room =>
      rw [hsource, Option.map_some] at hroom
      have hat : room.bare.exitAt? exit.bare.key = (room.exitAt? exit.key).map Exit.bare :=
        room.exitAt?_bare exit.key
      cases hkey : room.exitAt? exit.key with
      | some found =>
          simp only [addExit?, hroom, hsource, hat, hkey, Option.map_some, Option.isSome_some,
            if_true, Option.map_none]
      | none =>
          rw [hkey, Option.map_none] at hat
          rw [addExit?_eq_some_iff.mpr ⟨room, hsource, hkey, rfl⟩,
            addExit?_eq_some_iff.mpr ⟨room.bare, hroom, hat, rfl⟩, Option.map_some,
            Option.map_some, outline_withExit, outline_withExit, outline_outline]
          rfl

/-! ### Adding code -/

theorem map_outline_appendRoom? (label : Label) (text : String) :
    (grid.appendRoom? label text).map outline =
      if grid.hasRoom label then some grid.outline else none := by
  unfold appendRoom?
  split
  · exact congrArg some (outline_updateRoom label _ fun _ => rfl)
  · rfl

theorem map_outline_appendExit? (room exit : Label) (text : String) :
    (grid.appendExit? room exit text).map outline =
      if (grid.exit? room exit).isSome then some grid.outline else none := by
  unfold appendExit?
  split
  · exact congrArg some (outline_updateRoom room _ (Room.bare_appendToExit exit.key text))
  · rfl

theorem isSome_placeholder?_outline (label : Label) :
    (grid.outline.placeholder? label).isSome = (grid.placeholder? label).isSome := by
  simp [placeholder?, isSome_placeholderIn?_outline]

theorem outline_appendPlaceholder? {label : Label} {text : String} {next : Grid}
    (h : grid.appendPlaceholder? label text = some next) : next.outline = grid.outline := by
  obtain ⟨slot, held, hheld, -, rfl⟩ := appendPlaceholder?_eq_some_iff.mp h
  have hentry : (grid.outline.pending slot).find? label =
      some (.placeholder { held with buffer := "" }) := by
    rw [pending_outline, OrderedMap.find?_mapValues, placeholderIn?_eq_some_iff.mp hheld]
    rfl
  have hsame : ((grid.pending slot).insert label
      (.placeholder { held with buffer := held.buffer ++ text })).mapValues Pending.outline =
        grid.outline.pending slot := by
    rw [OrderedMap.mapValues_insert, ← pending_outline]
    exact OrderedMap.insert_of_find? hentry
  rw [outline_setPending, hsame, setPending_pending]

theorem map_outline_appendPlaceholder? (label : Label) (text : String) :
    (grid.appendPlaceholder? label text).map outline =
      if (grid.placeholder? label).isSome then some grid.outline else none := by
  cases hfound : grid.placeholder? label with
  | none => simp [appendPlaceholder?, hfound]
  | some found =>
      obtain ⟨next, hnext⟩ : ∃ next, grid.appendPlaceholder? label text = some next :=
        ⟨_, by rw [appendPlaceholder?, hfound, Option.map_some]⟩
      rw [hnext, Option.map_some, outline_appendPlaceholder? hnext]
      rfl

end Grid

end Gridwright
