import Gridwright.Proofs.Grid.Edges
import Gridwright.Proofs.Grid.Promotion

/-!
# What finishing a grid leaves behind

Finishing a grid appends proxies and settles the pending tables, and does nothing else: the
exits are those that were there, no placeholder is left, and finishing the grid once more
changes nothing.  Which labels become proxies can be read off the pending tables: those of
their keys that are no rooms.
-/

namespace Gridwright.Grid

variable {grid : Grid}

/-! ### Exits -/

theorem Coherent.edges_promote (h : grid.Coherent) : grid.promote.1.edges = grid.edges := by
  rw [h.promote_eq]
  rfl

theorem Coherent.exits_promote (h : grid.Coherent) : grid.promote.1.exits = grid.exits := by
  rw [exits_eq_filterMap, exits_eq_filterMap, h.edges_promote]
  apply List.filterMap_congr
  intro edge hedge
  obtain ⟨source, hsource⟩ := Option.isSome_iff_exists.mp (h.edge_source edge hedge)
  -- the room that an edge leaves stands before all proxies
  have hfinished : grid.promote.1.room? edge.source = some source := by
    unfold Grid.room? at hsource ⊢
    rw [h.rooms_promote, List.find?_append, hsource, Option.some_or]
  simp only [exitOf?, hsource, hfinished]

/-- A proxy has no exits, so those of the rooms are all there are. -/
theorem Coherent.mem_exits_promote_iff (h : grid.Coherent) {exit : Exit} :
    exit ∈ grid.promote.1.exits ↔ ∃ room ∈ grid.promote.1.rooms, exit ∈ room.exits := by
  rw [h.exits_promote, h.mem_exits_iff, h.rooms_promote]
  constructor
  · rintro ⟨room, hroom, hexit⟩
    exact ⟨room, List.mem_append_left _ hroom, hexit⟩
  · rintro ⟨room, hroom, hexit⟩
    rcases List.mem_append.mp hroom with hold | hproxy
    · exact ⟨room, hold, hexit⟩
    · obtain ⟨placeholder, -, rfl⟩ := List.mem_map.mp hproxy
      cases hexit

/-! ### Labels that become proxies -/

/-- The labels of the placeholders in a pending table are those of its keys that are no rooms. -/
theorem Coherent.map_label_leftover (h : grid.Coherent) (slot : Slot) :
    (leftover (grid.pending slot)).map (·.label) =
      (grid.pending slot).keys.filter fun label => !grid.hasRoom label := by
  rw [leftover_eq_filterMap, List.map_filterMap, OrderedMap.keys, List.filter_map,
    ← List.filterMap_eq_map, ← List.filterMap_eq_filter, List.filterMap_filterMap]
  apply List.filterMap_congr
  rintro ⟨label, entry⟩ hentry
  have hsettles := h.settles slot label entry
    (OrderedMap.find?_of_mem (h.pending_nodup slot) hentry)
  cases entry with
  | placeholder held =>
      obtain ⟨hlabel, hroom⟩ := hsettles
      simp [Pending.placeholder?, hlabel, hroom]
  | resolved room =>
      have hroom : grid.hasRoom label = true := hsettles.2
      simp [Pending.placeholder?, Option.guard, hroom]

/-- A placeholder that becomes a proxy is the one that its label leads to: that of the parents,
if there is one. -/
theorem Coherent.placeholder?_of_mem_standIns (h : grid.Coherent) {held : Placeholder}
    (hheld : held ∈ grid.standIns) :
    ∃ slot, grid.placeholder? held.label = some (slot, held) := by
  have hfound : ∀ slot, held ∈ leftover (grid.pending slot) →
      grid.placeholderIn? slot held.label = some held := by
    intro slot hleft
    exact placeholderIn?_eq_some_iff.mpr
      (OrderedMap.find?_of_mem (h.pending_nodup slot) (h.of_mem_leftover hleft).1)
  rcases List.mem_append.mp hheld with hparent | hzone
  · exact ⟨.parent, by simp [placeholder?, hfound .parent hparent]⟩
  · obtain ⟨hleft, hother⟩ := of_mem_zonesLeft hzone
    have hnone : grid.placeholderIn? .parent held.label = none := by
      cases hparent : grid.placeholderIn? .parent held.label with
      | none => rfl
      | some found =>
          have hentry := placeholderIn?_eq_some_iff.mp hparent
          have hlabel := (h.settles .parent _ _ hentry).1
          have hmem : found ∈ leftover grid.parents :=
            mem_leftover_iff.mpr ⟨held.label, OrderedMap.mem_of_find? hentry⟩
          exact absurd (List.mem_map.mpr ⟨found, hmem, hlabel⟩) hother
    exact ⟨.zone, by simp [placeholder?, hnone, hfound .zone hleft]⟩

theorem Coherent.parents_promote (h : grid.Coherent) :
    grid.promote.2.parents = ((leftover grid.parents).map grid.proxyOf).map (·.label) := by
  rw [h.promote_eq, List.map_map]
  rfl

theorem Coherent.zones_promote (h : grid.Coherent) :
    grid.promote.2.zones = (grid.zonesLeft.map grid.proxyOf).map (·.label) := by
  rw [h.promote_eq, List.map_map]
  rfl

theorem Coherent.nodup_promote (h : grid.Coherent) :
    (grid.promote.2.parents ++ grid.promote.2.zones).Nodup := by
  have hproxies : grid.promote.2.parents ++ grid.promote.2.zones =
      (grid.standIns.map grid.proxyOf).map (·.label) := by
    rw [h.parents_promote, h.zones_promote, standIns, List.map_append, List.map_append]
  have hlabels := h.nodup_labels_promote
  rw [h.rooms_promote, List.map_append] at hlabels
  rw [hproxies]
  exact (List.nodup_append.mp hlabels).2.1

/-! ### Finishing twice -/

theorem Coherent.leftover_promote (h : grid.Coherent) (slot : Slot) :
    leftover (grid.promote.1.pending slot) = [] := by
  have hkeyed : ∀ label held, (label, Pending.placeholder held) ∈ (grid.pending slot).entries →
      held.label = label := by
    intro label held hentry
    exact (h.settles slot label _ (OrderedMap.find?_of_mem (h.pending_nodup slot) hentry)).1
  rw [h.promote_eq, pending_withStandIns, leftover_resolveAll (h.pending_nodup slot) hkeyed,
    List.filter_eq_nil_iff]
  intro placeholder hleft hnew
  refine of_decide_eq_true hnew ?_
  rw [standIns, List.map_append]
  cases slot with
  | parent => exact List.mem_append_left _ (List.mem_map_of_mem hleft)
  | zone =>
      by_cases hparent : placeholder.label ∈ (leftover grid.parents).map (·.label)
      · exact List.mem_append_left _ hparent
      · refine List.mem_append_right _ (List.mem_map_of_mem (List.mem_filter.mpr ⟨hleft, ?_⟩))
        simpa using hparent

theorem promote_of_leftover_eq_nil (h : ∀ slot, leftover (grid.pending slot) = []) :
    grid.promote = (grid, {}) := by
  have hslot : ∀ slot, grid.promoteSlot slot = (grid, []) := by
    intro slot
    rw [promoteSlot, h slot]
    rfl
  simp only [promote, hslot]

theorem Coherent.promote_promote (h : grid.Coherent) :
    grid.promote.1.promote = (grid.promote.1, {}) :=
  promote_of_leftover_eq_nil h.leftover_promote

end Gridwright.Grid
