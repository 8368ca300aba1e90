import Gridwright.Proofs.Grid.Coherence
import Mathlib.Algebra.Ring.Nat

/-!
# The exits of a coherent grid

The list of edges is kept beside the rooms and names every exit once, in the order
in which the exits were opened.  In a coherent grid nothing is lost by reading the
exits off that list: `Grid.exits` lists the exits of all rooms, each once, and those
of one room in the order in which the room holds them.
-/

namespace Gridwright.Grid

variable {grid wider : Grid}

/-- The exit that an edge names. -/
def exitOf? (grid : Grid) (edge : Edge) : Option Exit :=
  (grid.room? edge.source).bind (·.exitAt? edge.key)

theorem exits_eq_filterMap : grid.exits = grid.edges.filterMap grid.exitOf? := rfl

/-- Every exit of a room is named by its edge. -/
theorem Coherent.exitOf?_edge (h : grid.Coherent) {room : Room} (hroom : room ∈ grid.rooms)
    {exit : Exit} (hexit : exit ∈ room.exits) : grid.exitOf? exit.edge = some exit := by
  have hfits := h.fits room hroom
  have hsource : exit.edge.source = room.label := hfits.source exit hexit
  simp only [exitOf?, hsource, h.room? hroom, Option.bind_some]
  exact Room.exitAt?_of_mem hfits.keys_nodup hexit

theorem Coherent.mem_edges_iff (h : grid.Coherent) {edge : Edge} :
    edge ∈ grid.edges ↔ ∃ room ∈ grid.rooms, ∃ exit ∈ room.exits, exit.edge = edge := by
  constructor
  · intro hedge
    obtain ⟨room, hroom, hlabel⟩ := hasRoom_iff.mp (h.edge_source edge hedge)
    have hfiltered : edge ∈ grid.edges.filter (·.source = room.label) :=
      List.mem_filter.mpr ⟨hedge, by simp [hlabel]⟩
    rw [(h.fits room hroom).edges] at hfiltered
    obtain ⟨exit, hexit, heq⟩ := List.mem_map.mp hfiltered
    exact ⟨room, hroom, exit, hexit, heq⟩
  · rintro ⟨room, hroom, exit, hexit, rfl⟩
    have hmapped : exit.edge ∈ room.exits.map (·.edge) := List.mem_map_of_mem hexit
    rw [← (h.fits room hroom).edges] at hmapped
    exact (List.mem_filter.mp hmapped).1

/-- Every edge names an exit, and it is the edge of that exit. -/
theorem Coherent.exists_exitOf? (h : grid.Coherent) {edge : Edge} (hedge : edge ∈ grid.edges) :
    ∃ room ∈ grid.rooms, ∃ exit ∈ room.exits,
      exit.edge = edge ∧ grid.exitOf? edge = some exit := by
  obtain ⟨room, hroom, exit, hexit, rfl⟩ := h.mem_edges_iff.mp hedge
  exact ⟨room, hroom, exit, hexit, rfl, h.exitOf?_edge hroom hexit⟩

theorem Coherent.map_edge_exits (h : grid.Coherent) : grid.exits.map (·.edge) = grid.edges := by
  rw [exits_eq_filterMap, List.map_filterMap]
  have hid : grid.edges.filterMap (fun edge => (grid.exitOf? edge).map (·.edge)) =
      grid.edges.filterMap some := by
    apply List.filterMap_congr
    intro edge hedge
    obtain ⟨room, hroom, exit, hexit, hnamed, hfound⟩ := h.exists_exitOf? hedge
    rw [hfound, Option.map_some, hnamed]
  rw [hid, List.filterMap_some]

theorem Coherent.mem_exits_iff (h : grid.Coherent) {exit : Exit} :
    exit ∈ grid.exits ↔ ∃ room ∈ grid.rooms, exit ∈ room.exits := by
  rw [exits_eq_filterMap, List.mem_filterMap]
  constructor
  · rintro ⟨edge, hedge, hexit⟩
    obtain ⟨room, hroom, other, hother, -, hfound⟩ := h.exists_exitOf? hedge
    rw [hexit] at hfound
    exact ⟨room, hroom, Option.some.inj hfound ▸ hother⟩
  · rintro ⟨room, hroom, hexit⟩
    exact ⟨exit.edge, h.mem_edges_iff.mpr ⟨room, hroom, exit, hexit, rfl⟩,
      h.exitOf?_edge hroom hexit⟩

/-- No exit is opened twice: the edges of one source are those of its room, whose
keys are distinct. -/
theorem Coherent.edges_nodup (h : grid.Coherent) : grid.edges.Nodup := by
  rw [List.nodup_iff_count_le_one]
  intro edge
  by_cases hedge : edge ∈ grid.edges
  · obtain ⟨room, hroom, exit, hexit, rfl⟩ := h.mem_edges_iff.mp hedge
    have hfits := h.fits room hroom
    have hsource : exit.edge.source = room.label := hfits.source exit hexit
    have hnodup : (room.exits.map (·.edge)).Nodup := by
      apply List.Nodup.of_map Edge.key
      rw [List.map_map]
      exact hfits.keys_nodup
    have hcount : grid.edges.count exit.edge = (room.exits.map (·.edge)).count exit.edge := by
      rw [← hfits.edges, List.count_filter]
      simpa using hsource
    rw [hcount]
    exact List.nodup_iff_count_le_one.mp hnodup exit.edge
  · rw [List.count_eq_zero_of_not_mem hedge]
    exact Nat.zero_le 1

theorem Coherent.exits_nodup (h : grid.Coherent) : grid.exits.Nodup := by
  apply List.Nodup.of_map (·.edge)
  rw [h.map_edge_exits]
  exact h.edges_nodup

/-- The exits of one room, in the order in which the room holds them. -/
theorem Coherent.filter_exits (h : grid.Coherent) {room : Room} (hroom : room ∈ grid.rooms) :
    grid.exits.filter (·.source = room.label) = room.exits := by
  have hswap : ∀ edge ∈ grid.edges,
      (grid.exitOf? edge).filter (·.source = room.label) =
        if edge.source = room.label then grid.exitOf? edge else none := by
    intro edge hedge
    obtain ⟨-, -, exit, -, hnamed, hfound⟩ := h.exists_exitOf? hedge
    have hsource : exit.source = edge.source := congrArg Edge.source hnamed
    simp [hfound, Option.filter_some, hsource]
  have hroomExits : ∀ exit ∈ room.exits, grid.exitOf? exit.edge = some exit :=
    fun exit hexit => h.exitOf?_edge hroom hexit
  calc grid.exits.filter (·.source = room.label)
      = grid.edges.filterMap fun edge =>
          (grid.exitOf? edge).filter (·.source = room.label) := by
        rw [exits_eq_filterMap, List.filter_filterMap]
    _ = grid.edges.filterMap fun edge =>
          if edge.source = room.label then grid.exitOf? edge else none :=
        List.filterMap_congr hswap
    _ = (grid.edges.filter (·.source = room.label)).filterMap grid.exitOf? := by
        rw [List.filterMap_filter]
        simp
    _ = room.exits.filterMap (fun exit => grid.exitOf? exit.edge) := by
        rw [(h.fits room hroom).edges, List.filterMap_map]
        rfl
    _ = room.exits.filterMap some := List.filterMap_congr hroomExits
    _ = room.exits := List.filterMap_some

/-- Reading the exits off the edges and off the rooms gives the same exits. -/
theorem Coherent.exits_perm (h : grid.Coherent) :
    grid.exits.Perm (grid.rooms.flatMap (·.exits)) := by
  have hnodup : (grid.rooms.flatMap (·.exits)).Nodup := by
    refine List.nodup_flatMap.mpr ⟨?_, ?_⟩
    · intro room hroom
      exact List.Nodup.of_map _ (h.fits room hroom).keys_nodup
    · -- exits of different rooms have different sources
      have hlabels : grid.rooms.Pairwise fun room other => room.label ≠ other.label :=
        List.pairwise_map.mp h.labels_nodup
      refine hlabels.imp_of_mem ?_
      intro room other hroom hother hne exit hexit hexit'
      have hsource := (h.fits room hroom).source exit hexit
      have hsource' := (h.fits other hother).source exit hexit'
      exact hne (hsource.symm.trans hsource')
  rw [List.perm_ext_iff_of_nodup h.exits_nodup hnodup]
  intro exit
  rw [h.mem_exits_iff, List.mem_flatMap]

theorem Coherent.length_edges (h : grid.Coherent) :
    grid.edges.length = (grid.rooms.map (·.exits.length)).sum := by
  rw [← h.map_edge_exits, List.length_map, h.exits_perm.length_eq, List.length_flatMap]

/-! ### New rooms and new exits -/

/-- A new room changes none of the exits. -/
theorem Coherent.exits_withRoom (h : grid.Coherent) (room : Room) :
    (grid.withRoom room).exits = grid.exits := by
  rw [exits_eq_filterMap, exits_eq_filterMap, edges_withRoom]
  apply List.filterMap_congr
  intro edge hedge
  obtain ⟨source, hsource⟩ := Option.isSome_iff_exists.mp (h.edge_source edge hedge)
  simp only [exitOf?, room?_withRoom, hsource, Option.some_or]

/-- A new exit comes last. -/
theorem Coherent.exits_withExit (h : grid.Coherent) {room : Room} {exit : Exit}
    (hroom : grid.room? exit.source = some room) (hkey : room.exitAt? exit.key = none) :
    (grid.withExit exit).exits = grid.exits ++ [exit] := by
  have hold : grid.edges.filterMap (grid.withExit exit).exitOf? =
      grid.edges.filterMap grid.exitOf? := by
    apply List.filterMap_congr
    intro edge hedge
    obtain ⟨-, -, found, -, -, hfound⟩ := h.exists_exitOf? hedge
    obtain ⟨source, hsource, hat⟩ := Option.bind_eq_some_iff.mp hfound
    rw [hfound]
    simp only [exitOf?, room?_withExit, hsource, Option.map_some, Option.bind_some]
    split
    · rw [Room.exitAt?_withExit, hat, Option.some_or]
    · exact hat
  have hlast : (grid.withExit exit).exitOf? exit.edge = some exit := by
    simp only [exitOf?, Exit.edge, room?_withExit, hroom, Option.map_some, if_true,
      Option.bind_some, Room.exitAt?_withExit, hkey, Option.none_or]
  rw [exits_eq_filterMap, exits_eq_filterMap, edges_withExit, List.filterMap_append, hold,
    List.filterMap_cons_some hlast, List.filterMap_nil]

end Gridwright.Grid
