import Gridwright.Proofs.Grid.Rooms

/-!
# Pending tables

What the operations on the two pending tables leave in them.  Both tables are
reached through `Grid.pending` and `Grid.setPending`, so that each fact is stated
once for parents and zones.
-/

namespace Gridwright.Grid

variable {grid : Grid}

/-! ### One table of a grid -/

@[simp] theorem rooms_setPending (slot : Slot) (table : PendingTable) :
    (grid.setPending slot table).rooms = grid.rooms := by cases slot <;> rfl

@[simp] theorem edges_setPending (slot : Slot) (table : PendingTable) :
    (grid.setPending slot table).edges = grid.edges := by cases slot <;> rfl

@[simp] theorem room?_setPending (slot : Slot) (table : PendingTable) (label : Label) :
    (grid.setPending slot table).room? label = grid.room? label := by
  simp only [room?, rooms_setPending]

@[simp] theorem hasRoom_setPending (slot : Slot) (table : PendingTable) (label : Label) :
    (grid.setPending slot table).hasRoom label = grid.hasRoom label := by
  simp only [hasRoom, room?_setPending]

theorem pending_setPending (slot other : Slot) (table : PendingTable) :
    (grid.setPending slot table).pending other =
      if other = slot then table else grid.pending other := by
  cases slot <;> cases other <;> rfl

@[simp] theorem setPending_pending (slot : Slot) :
    grid.setPending slot (grid.pending slot) = grid := by cases slot <;> rfl

/-! ### Resolving -/

theorem find?_resolveIn (table : PendingTable) (label other : Label) :
    (resolveIn table label).find? other =
      if other = label ∧ table.contains label = true then some (.resolved label)
      else table.find? other := by
  unfold resolveIn
  by_cases hknown : table.contains label = true
  · simp [hknown, OrderedMap.find?_insert]
  · simp [hknown]

@[simp] theorem contains_resolveIn (table : PendingTable) (label other : Label) :
    (resolveIn table label).contains other = table.contains other := by
  unfold resolveIn
  by_cases hknown : table.contains label = true
  · by_cases h : other = label <;> simp [hknown, h]
  · simp [hknown]

theorem nodup_keys_resolveIn {table : PendingTable} (hnodup : table.keys.Nodup)
    (label : Label) : (resolveIn table label).keys.Nodup := by
  unfold resolveIn
  split
  · exact OrderedMap.nodup_keys_insert hnodup label _
  · exact hnodup

@[simp] theorem pending_resolvePending (label : Label) (slot : Slot) :
    (grid.resolvePending label).pending slot = resolveIn (grid.pending slot) label := by
  cases slot <;> rfl

@[simp] theorem rooms_resolvePending (label : Label) :
    (grid.resolvePending label).rooms = grid.rooms := rfl

@[simp] theorem edges_resolvePending (label : Label) :
    (grid.resolvePending label).edges = grid.edges := rfl

@[simp] theorem room?_resolvePending (label other : Label) :
    (grid.resolvePending label).room? other = grid.room? other := rfl

@[simp] theorem hasRoom_resolvePending (label other : Label) :
    (grid.resolvePending label).hasRoom other = grid.hasRoom other := rfl

/-! ### Tracking a reference -/

@[simp] theorem rooms_track (slot : Slot) (attrBase : String) (label : Label) :
    (grid.track slot attrBase label).rooms = grid.rooms := by simp [track]

@[simp] theorem edges_track (slot : Slot) (attrBase : String) (label : Label) :
    (grid.track slot attrBase label).edges = grid.edges := by simp [track]

@[simp] theorem contains_pending_track (slot other : Slot) (attrBase : String)
    (label known : Label) :
    ((grid.track slot attrBase label).pending other).contains known =
      (decide (other = slot ∧ known = label) || (grid.pending other).contains known) := by
  by_cases hslot : other = slot
  · subst hslot
    by_cases hroom : grid.hasRoom label = true
    · simp [track, pending_setPending, hroom]
    · simp [track, pending_setPending, hroom]
  · simp [track, pending_setPending, hslot]

/-! ### Placeholders and their code -/

theorem placeholderIn?_eq_some_iff {slot : Slot} {label : Label} {held : Placeholder} :
    grid.placeholderIn? slot label = some held ↔
      (grid.pending slot).find? label = some (.placeholder held) := by
  unfold placeholderIn?
  cases h : (grid.pending slot).find? label with
  | none => simp
  | some entry => cases entry <;> simp [Pending.placeholder?]

theorem bufferIn_pending (slot : Slot) (label : Label) :
    bufferIn (grid.pending slot) label =
      ((grid.placeholderIn? slot label).map (·.buffer)).getD "" := by
  unfold bufferIn placeholderIn?
  cases (grid.pending slot).find? label with
  | none => rfl
  | some entry => rfl

/-- Code for a placeholder goes to the parents, and to the zones only where the
parents have no placeholder for it. -/
theorem appendPlaceholder?_eq_some_iff {label : Label} {text : String} {next : Grid} :
    grid.appendPlaceholder? label text = some next ↔
      ∃ slot held, grid.placeholderIn? slot label = some held ∧
        (slot = .zone → grid.placeholderIn? .parent label = none) ∧
        next = grid.setPending slot ((grid.pending slot).insert label
          (.placeholder { held with buffer := held.buffer ++ text })) := by
  unfold appendPlaceholder? placeholder?
  constructor
  · intro h
    cases hparent : grid.placeholderIn? .parent label with
    | some held =>
        simp only [hparent, Option.map_some, Option.orElse_eq_orElse, Option.orElse_some,
          Option.some.injEq] at h
        exact ⟨.parent, held, hparent, by simp, h.symm⟩
    | none =>
        cases hzone : grid.placeholderIn? .zone label with
        | none => simp [hparent, hzone] at h
        | some held =>
            simp only [hparent, hzone, Option.map_none, Option.map_some, Option.orElse_eq_orElse,
              Option.orElse_none, Option.some.injEq] at h
            exact ⟨.zone, held, hzone, fun _ => rfl, h.symm⟩
  · rintro ⟨slot, held, hheld, hzone, rfl⟩
    cases slot with
    | parent => simp [hheld]
    | zone => simp [hheld, hzone rfl]

theorem appendPlaceholder?_eq_none_iff (label : Label) (text : String) :
    grid.appendPlaceholder? label text = none ↔
      ∀ slot, grid.placeholderIn? slot label = none := by
  unfold appendPlaceholder? placeholder?
  constructor
  · intro h slot
    cases hparent : grid.placeholderIn? .parent label with
    | some held => simp [hparent] at h
    | none =>
        cases slot with
        | parent => exact hparent
        | zone => simpa [hparent] using h
  · intro h
    simp [h]

end Gridwright.Grid
