import Gridwright.Grid.Promotion
import Gridwright.Proofs.Grid.Coherence

/-!
# Finished grids

`Grid.promote` runs through the two pending tables one placeholder after another.
On a coherent grid all of this comes to one step: the placeholders of the parents,
and those zones that are not among them, are appended to the rooms and resolved in
both tables (`promote_eq`).
-/

namespace Gridwright.Grid

variable {grid : Grid}

/-! ### Resolving several labels -/

def resolveAll (table : PendingTable) (labels : List Label) : PendingTable :=
  labels.foldl resolveIn table

theorem entries_resolveIn {table : PendingTable} (hnodup : table.keys.Nodup) (label : Label) :
    (resolveIn table label).entries = table.entries.map fun entry =>
      if entry.1 = label then (label, .resolved label) else entry := by
  unfold resolveIn
  split
  · rename_i hknown
    exact OrderedMap.entries_insert_of_contains hnodup hknown _
  · rename_i hunknown
    have hne : ∀ entry ∈ table.entries, entry.1 ≠ label := by
      intro entry hentry heq
      exact hunknown (OrderedMap.contains_iff.mpr (List.mem_map.mpr ⟨entry, hentry, heq⟩))
    refine ((List.map_congr_left ?_).trans (List.map_id table.entries)).symm
    intro entry hentry
    exact if_neg (hne entry hentry)

theorem entries_resolveAll {table : PendingTable} (hnodup : table.keys.Nodup)
    (labels : List Label) :
    (resolveAll table labels).entries = table.entries.map fun entry =>
      if entry.1 ∈ labels then (entry.1, .resolved entry.1) else entry := by
  induction labels generalizing table with
  | nil => simp [resolveAll]
  | cons label rest ih =>
      have hstep : resolveAll table (label :: rest) = resolveAll (resolveIn table label) rest := rfl
      rw [hstep, ih (nodup_keys_resolveIn hnodup label), entries_resolveIn hnodup, List.map_map]
      apply List.map_congr_left
      intro entry _
      simp only [Function.comp_apply, List.mem_cons]
      by_cases heq : entry.1 = label
      · simp [heq]
      · simp [heq]

theorem find?_resolveAll (table : PendingTable) (labels : List Label) (label : Label) :
    (resolveAll table labels).find? label =
      if label ∈ labels ∧ table.contains label = true then some (.resolved label)
      else table.find? label := by
  induction labels generalizing table with
  | nil => simp [resolveAll]
  | cons first rest ih =>
      have hstep : resolveAll table (first :: rest) = resolveAll (resolveIn table first) rest := rfl
      rw [hstep, ih, contains_resolveIn, find?_resolveIn]
      by_cases heq : label = first
      · subst heq
        by_cases hknown : table.contains label = true
        · simp [hknown]
        · simp [hknown]
      · simp [heq]

/-! ### Stand-ins -/

/-- The grid in which some placeholders are stand-ins. -/
def withStandIns (grid : Grid) (held : List Placeholder) : Grid :=
  { grid with
    rooms := grid.rooms ++ held.map grid.proxyOf
    parents := resolveAll grid.parents (held.map (·.label))
    zones := resolveAll grid.zones (held.map (·.label)) }

@[simp] theorem pending_withStandIns (held : List Placeholder) (slot : Slot) :
    (grid.withStandIns held).pending slot =
      resolveAll (grid.pending slot) (held.map (·.label)) := by
  cases slot <;> rfl

theorem bufferIn_resolveAll {table : PendingTable} {labels : List Label} {label : Label}
    (h : label ∉ labels) : bufferIn (resolveAll table labels) label = bufferIn table label := by
  simp only [bufferIn, find?_resolveAll, h, false_and, if_false]

theorem proxyOf_withStandIns {held : List Placeholder} {placeholder : Placeholder}
    (h : placeholder.label ∉ held.map (·.label)) :
    (grid.withStandIns held).proxyOf placeholder = grid.proxyOf placeholder := by
  simp only [proxyOf, pendingBuffer, withStandIns, bufferIn_resolveAll h]

theorem withStandIns_append {first second : List Placeholder}
    (h : ∀ placeholder ∈ second, placeholder.label ∉ first.map (·.label)) :
    grid.withStandIns (first ++ second) = (grid.withStandIns first).withStandIns second := by
  have hproxies : second.map (grid.withStandIns first).proxyOf = second.map grid.proxyOf :=
    List.map_congr_left fun placeholder hplaceholder =>
      proxyOf_withStandIns (h placeholder hplaceholder)
  have hrooms : grid.rooms ++ (first ++ second).map grid.proxyOf =
      (grid.withStandIns first).rooms ++ second.map (grid.withStandIns first).proxyOf := by
    rw [hproxies, List.map_append, ← List.append_assoc]
    rfl
  have hresolve : ∀ table, resolveAll table ((first ++ second).map (·.label)) =
      resolveAll (resolveAll table (first.map (·.label))) (second.map (·.label)) := by
    intro table
    simp only [resolveAll, List.map_append, List.foldl_append]
  calc grid.withStandIns (first ++ second)
      = { grid with
          rooms := grid.rooms ++ (first ++ second).map grid.proxyOf
          parents := resolveAll grid.parents ((first ++ second).map (·.label))
          zones := resolveAll grid.zones ((first ++ second).map (·.label)) } := rfl
    _ = (grid.withStandIns first).withStandIns second := by
        rw [hrooms, hresolve, hresolve]
        rfl

theorem hasRoom_withStandIns {held : List Placeholder} {label : Label} :
    (grid.withStandIns held).hasRoom label = true ↔
      grid.hasRoom label = true ∨ label ∈ held.map (·.label) := by
  simp only [hasRoom_iff_mem, withStandIns, List.map_append, List.mem_append, List.map_map]
  rfl

/-- A placeholder whose label is no room becomes a stand-in. -/
theorem promoteOne_of_not_hasRoom {placeholder : Placeholder}
    (h : grid.hasRoom placeholder.label = false) (done : List Label) :
    promoteOne (grid, done) placeholder =
      (grid.withStandIns [placeholder], done ++ [placeholder.label]) := by
  have hadd : (grid.resolvePending placeholder.label).addRoom? (grid.proxyOf placeholder) =
      some ((grid.resolvePending placeholder.label).withRoom (grid.proxyOf placeholder)) :=
    addRoom?_eq_some_iff.mpr ⟨h, rfl⟩
  simp only [promoteOne, hadd]
  rfl

theorem foldl_promoteOne {held : List Placeholder} (hnodup : (held.map (·.label)).Nodup)
    (hnew : ∀ placeholder ∈ held, grid.hasRoom placeholder.label = false) (done : List Label) :
    held.foldl promoteOne (grid, done) =
      (grid.withStandIns held, done ++ held.map (·.label)) := by
  induction held generalizing grid done with
  | nil => simp [withStandIns, resolveAll]
  | cons placeholder rest ih =>
      obtain ⟨hfirst, hrest⟩ := List.nodup_cons.mp hnodup
      have hother : ∀ other ∈ rest, other.label ∉ [placeholder].map (·.label) := by
        intro other hother hmem
        rw [List.map_singleton, List.mem_singleton] at hmem
        exact hfirst (List.mem_map.mpr ⟨other, hother, hmem⟩)
      have hnew' : ∀ other ∈ rest,
          (grid.withStandIns [placeholder]).hasRoom other.label = false := by
        intro other hmem
        rw [← Bool.not_eq_true, hasRoom_withStandIns, not_or]
        exact ⟨by simp [hnew other (List.mem_cons_of_mem _ hmem)], hother other hmem⟩
      rw [List.foldl_cons, promoteOne_of_not_hasRoom (hnew placeholder List.mem_cons_self),
        ih hrest hnew', ← withStandIns_append hother]
      simp

/-! ### Placeholders of a coherent grid -/

theorem leftover_eq_filterMap (table : PendingTable) :
    leftover table = table.entries.filterMap fun entry => entry.2.placeholder? := by
  simp only [leftover, OrderedMap.values, List.filterMap_map]
  rfl

theorem mem_leftover_iff {table : PendingTable} {placeholder : Placeholder} :
    placeholder ∈ leftover table ↔
      ∃ label, (label, .placeholder placeholder) ∈ table.entries := by
  rw [leftover_eq_filterMap, List.mem_filterMap]
  constructor
  · rintro ⟨⟨label, entry⟩, hentry, hheld⟩
    cases entry with
    | placeholder held =>
        cases hheld
        exact ⟨label, hentry⟩
    | resolved room => cases hheld
  · rintro ⟨label, hentry⟩
    exact ⟨(label, .placeholder placeholder), hentry, rfl⟩

/-- A placeholder that is left is filed under its own label, which is no room. -/
theorem Coherent.of_mem_leftover (h : grid.Coherent) {slot : Slot} {placeholder : Placeholder}
    (hleft : placeholder ∈ leftover (grid.pending slot)) :
    (placeholder.label, .placeholder placeholder) ∈ (grid.pending slot).entries ∧
      grid.hasRoom placeholder.label = false := by
  obtain ⟨label, hentry⟩ := mem_leftover_iff.mp hleft
  obtain ⟨hlabel, hroom⟩ :=
    h.settles slot label _ (OrderedMap.find?_of_mem (h.pending_nodup slot) hentry)
  rw [← hlabel] at hentry hroom
  exact ⟨hentry, hroom⟩

theorem Coherent.nodup_leftover (h : grid.Coherent) (slot : Slot) :
    ((leftover (grid.pending slot)).map (·.label)).Nodup := by
  have hkeys : (grid.pending slot).entries.Pairwise fun entry other => entry.1 ≠ other.1 :=
    List.pairwise_map.mp (h.pending_nodup slot)
  rw [leftover_eq_filterMap]
  refine List.pairwise_map.mpr (List.pairwise_filterMap.mpr (hkeys.imp_of_mem ?_))
  have hkey : ∀ entry ∈ (grid.pending slot).entries, ∀ held,
      entry.2.placeholder? = some held → held.label = entry.1 := by
    rintro ⟨label, entry⟩ hentry held hheld
    have hsettles := h.settles slot label entry
      (OrderedMap.find?_of_mem (h.pending_nodup slot) hentry)
    cases entry with
    | placeholder found =>
        cases hheld
        exact hsettles.1
    | resolved room => cases hheld
  intro entry other hentry hother hne held hheld twin htwin heq
  rw [hkey entry hentry held hheld, hkey other hother twin htwin] at heq
  exact hne heq

theorem leftover_resolveAll {table : PendingTable} (hnodup : table.keys.Nodup)
    (hkeyed : ∀ label held, (label, Pending.placeholder held) ∈ table.entries →
      held.label = label) (labels : List Label) :
    leftover (resolveAll table labels) =
      (leftover table).filter fun placeholder => placeholder.label ∉ labels := by
  rw [leftover_eq_filterMap, leftover_eq_filterMap, entries_resolveAll hnodup,
    List.filterMap_map, List.filter_filterMap]
  apply List.filterMap_congr
  rintro ⟨label, entry⟩ hentry
  cases entry with
  | resolved room =>
      simp only [Function.comp_apply]
      split <;> rfl
  | placeholder held =>
      have hlabel := hkeyed label held hentry
      by_cases hmem : label ∈ labels
      · simp [hmem, Pending.placeholder?, hlabel, Option.filter]
      · simp [hmem, Pending.placeholder?, hlabel, Option.filter]

/-! ### Promotion -/

/-- The zones that are pending and no pending parents. -/
def zonesLeft (grid : Grid) : List Placeholder :=
  (leftover grid.zones).filter fun placeholder =>
    placeholder.label ∉ (leftover grid.parents).map (·.label)

/-- The placeholders that become stand-ins, in order. -/
def standIns (grid : Grid) : List Placeholder := leftover grid.parents ++ grid.zonesLeft

theorem of_mem_zonesLeft {placeholder : Placeholder} (h : placeholder ∈ grid.zonesLeft) :
    placeholder ∈ leftover (grid.pending .zone) ∧
      placeholder.label ∉ (leftover grid.parents).map (·.label) :=
  ⟨(List.mem_filter.mp h).1, by simpa using (List.mem_filter.mp h).2⟩

theorem Coherent.nodup_zonesLeft (h : grid.Coherent) : (grid.zonesLeft.map (·.label)).Nodup :=
  (h.nodup_leftover .zone).sublist (List.filter_sublist.map _)

/-- Finishing a coherent grid turns the placeholders of the parents into stand-ins,
then those of the remaining zones. -/
theorem Coherent.promote_eq (h : grid.Coherent) :
    grid.promote =
      (grid.withStandIns grid.standIns,
        { parents := (leftover grid.parents).map (·.label)
          zones := grid.zonesLeft.map (·.label) }) := by
  have hparents : grid.promoteSlot .parent =
      (grid.withStandIns (leftover grid.parents), (leftover grid.parents).map (·.label)) :=
    foldl_promoteOne (h.nodup_leftover .parent)
      (fun placeholder hleft => (h.of_mem_leftover hleft).2) []
  have hkeyed : ∀ label held, (label, Pending.placeholder held) ∈ grid.zones.entries →
      held.label = label := by
    intro label held hentry
    exact (h.settles .zone label _ (OrderedMap.find?_of_mem (h.pending_nodup .zone) hentry)).1
  have hleft : leftover ((grid.withStandIns (leftover grid.parents)).pending .zone) =
      grid.zonesLeft := by
    rw [pending_withStandIns]
    exact leftover_resolveAll (h.pending_nodup .zone) hkeyed _
  have hdisjoint : ∀ placeholder ∈ grid.zonesLeft,
      placeholder.label ∉ (leftover grid.parents).map (·.label) :=
    fun placeholder hzone => (of_mem_zonesLeft hzone).2
  have hnew : ∀ placeholder ∈ grid.zonesLeft,
      (grid.withStandIns (leftover grid.parents)).hasRoom placeholder.label = false := by
    intro placeholder hzone
    rw [← Bool.not_eq_true, hasRoom_withStandIns, not_or]
    obtain ⟨hleft, hparent⟩ := of_mem_zonesLeft hzone
    exact ⟨by simp [(h.of_mem_leftover hleft).2], hparent⟩
  have hzones : (grid.withStandIns (leftover grid.parents)).promoteSlot .zone =
      ((grid.withStandIns (leftover grid.parents)).withStandIns grid.zonesLeft,
        grid.zonesLeft.map (·.label)) := by
    rw [promoteSlot, hleft]
    exact foldl_promoteOne h.nodup_zonesLeft hnew []
  simp only [promote, hparents, hzones, standIns, withStandIns_append hdisjoint]

theorem Coherent.rooms_promote (h : grid.Coherent) :
    grid.promote.1.rooms = grid.rooms ++ grid.standIns.map grid.proxyOf := by
  rw [h.promote_eq]
  rfl

/-- Finishing a grid adds no real room. -/
theorem Coherent.mem_rooms_of_real (h : grid.Coherent) {room : Room}
    (hroom : room ∈ grid.promote.1.rooms) (hreal : room.kind = .real) : room ∈ grid.rooms := by
  rw [h.rooms_promote] at hroom
  rcases List.mem_append.mp hroom with hold | hproxy
  · exact hold
  · obtain ⟨placeholder, -, rfl⟩ := List.mem_map.mp hproxy
    cases hreal

theorem of_mem_standIns {placeholder : Placeholder} (h : placeholder ∈ grid.standIns) :
    ∃ slot, placeholder ∈ leftover (grid.pending slot) := by
  rcases List.mem_append.mp h with hparent | hzone
  · exact ⟨.parent, hparent⟩
  · exact ⟨.zone, (of_mem_zonesLeft hzone).1⟩

/-- Every label of a finished grid is that of one room. -/
theorem Coherent.nodup_labels_promote (h : grid.Coherent) :
    (grid.promote.1.rooms.map (·.label)).Nodup := by
  have hproxies : (grid.standIns.map grid.proxyOf).map (·.label) =
      (leftover grid.parents).map (·.label) ++ grid.zonesLeft.map (·.label) := by
    rw [List.map_map, standIns, List.map_append]
    rfl
  rw [h.rooms_promote, List.map_append, hproxies]
  refine List.nodup_append.mpr ⟨h.labels_nodup, ?_, ?_⟩
  · refine List.nodup_append.mpr ⟨h.nodup_leftover .parent, h.nodup_zonesLeft, ?_⟩
    rintro label hparent other hzone rfl
    obtain ⟨placeholder, hleft, rfl⟩ := List.mem_map.mp hzone
    exact (of_mem_zonesLeft hleft).2 hparent
  · rintro label hroom other hproxy rfl
    rw [← List.map_append] at hproxy
    obtain ⟨placeholder, hstandIn, rfl⟩ := List.mem_map.mp hproxy
    obtain ⟨slot, hleft⟩ := of_mem_standIns hstandIn
    have hnew := (h.of_mem_leftover hleft).2
    rw [hasRoom_iff_mem.mpr hroom] at hnew
    cases hnew

/-- Finishing a coherent grid leaves every label that is pending as a room. -/
theorem Coherent.hasRoom_promote (h : grid.Coherent) {slot : Slot} {label : Label}
    (hknown : (grid.pending slot).contains label = true) :
    grid.promote.1.hasRoom label = true := by
  rw [h.promote_eq, hasRoom_withStandIns]
  obtain ⟨entry, hentry⟩ := Option.isSome_iff_exists.mp hknown
  have hsettles := h.settles slot label entry hentry
  cases entry with
  | resolved room => exact Or.inl hsettles.2
  | placeholder held =>
      have hleft : held ∈ leftover (grid.pending slot) :=
        mem_leftover_iff.mpr ⟨label, OrderedMap.mem_of_find? hentry⟩
      rw [← hsettles.1]
      by_cases hparent : held.label ∈ (leftover grid.parents).map (·.label)
      · right
        rw [standIns, List.map_append]
        exact List.mem_append_left _ hparent
      · cases slot with
        | parent => exact absurd (List.mem_map_of_mem hleft) hparent
        | zone =>
            right
            have hzone : held ∈ grid.zonesLeft :=
              List.mem_filter.mpr ⟨hleft, by simpa using hparent⟩
            rw [standIns, List.map_append]
            exact List.mem_append_right _ (List.mem_map_of_mem hzone)

end Gridwright.Grid
