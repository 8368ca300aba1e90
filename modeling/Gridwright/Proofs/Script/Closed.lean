import Gridwright.Proofs.Grid.Promotion
import Gridwright.Script.Generate

/-!
# Scripts that reach their end

A script ends early where a reference or the target of an exit is no room.  In a
grid in which the real rooms and their exits lead only to rooms no step fails, and
finishing a coherent grid makes it such a grid.
-/

namespace Gridwright

namespace Grid

variable {grid : Grid}

/-- Every label that an object refers to is a room. -/
def Resolves (grid : Grid) (traits : Traits) : Prop :=
  ∀ slot label, traits.reference slot = some (.label label) → grid.hasRoom label = true

/-- The real rooms and their exits lead only to rooms. -/
structure Closed (grid : Grid) : Prop where
  room : ∀ room ∈ grid.rooms, room.kind = .real → grid.Resolves room.traits
  exit : ∀ room ∈ grid.rooms, room.kind = .real → ∀ exit ∈ room.exits,
    grid.hasRoom exit.target = true ∧ grid.Resolves exit.traits

/-- What was tracked by the pending tables is a room once they are empty of
placeholders. -/
theorem Coherent.resolves_promote (h : grid.Coherent) {traits : Traits}
    (htracks : grid.Tracks traits) : grid.promote.1.Resolves traits :=
  fun slot label href => h.hasRoom_promote (htracks slot label href)

/-- A coherent grid is closed when it is finished. -/
theorem Coherent.closed_promote (h : grid.Coherent) : grid.promote.1.Closed := by
  constructor
  · intro room hroom hkind
    exact h.resolves_promote (h.fits room (h.mem_rooms_of_real hroom hkind)).tracks
  · intro room hroom hkind exit hexit
    have hfits := h.fits room (h.mem_rooms_of_real hroom hkind)
    refine ⟨?_, h.resolves_promote (hfits.exit_tracks exit hexit)⟩
    rw [h.promote_eq, hasRoom_withStandIns]
    exact Or.inl (hfits.target exit hexit)

end Grid

namespace Script

variable {grid : Grid}

theorem failure?_eq_none_iff {steps : List Step} :
    failure? steps = none ↔ ∀ step ∈ steps, ∃ command, step = .ok command := by
  induction steps with
  | nil => simp [failure?]
  | cons step rest ih => cases step <;> simp [failure?, ih]

/-! ### Steps that succeed -/

theorem target_eq_ok {reference : Reference}
    (h : ∀ label, reference = .label label → grid.hasRoom label = true) :
    ∃ found, target grid reference = .ok found := by
  cases reference with
  | dbref text => exact ⟨.dbref text, rfl⟩
  | label label =>
      obtain ⟨room, hroom⟩ := Option.isSome_iff_exists.mp (h label rfl)
      exact ⟨.stored room.attrName, by simp [target, hroom]⟩

theorem wire_ok {traits : Traits} (h : grid.Resolves traits) (mode : Mode) (subject : String) :
    ∀ step ∈ wire mode grid subject traits, ∃ command, step = .ok command := by
  have htarget : ∀ slot reference, traits.reference slot = some reference →
      ∃ found, target grid reference = .ok found := by
    intro slot reference href
    exact target_eq_ok fun label hlabel => h slot label (hlabel ▸ href)
  intro step hstep
  simp only [wire, List.mem_append, List.mem_map, Option.mem_toList] at hstep
  rcases hstep with (⟨reference, href, rfl⟩ | ⟨reference, href, rfl⟩) | ⟨flags, -, rfl⟩
  · obtain ⟨found, hfound⟩ := htarget .parent reference href
    exact ⟨parentCommand mode subject found, by rw [hfound]; rfl⟩
  · obtain ⟨found, hfound⟩ := htarget .zone reference href
    exact ⟨.setZone subject found, by rw [hfound]; rfl⟩
  · exact ⟨.setFlags subject flags, rfl⟩

theorem openExit_ok {exit : Exit} (htarget : grid.hasRoom exit.target = true)
    (htraits : grid.Resolves exit.traits) (mode : Mode) :
    ∀ step ∈ openExit mode grid exit, ∃ command, step = .ok command := by
  obtain ⟨destination, hdestination⟩ := Option.isSome_iff_exists.mp htarget
  intro step hstep
  simp only [openExit, hdestination, List.mem_cons, List.mem_append, List.mem_map] at hstep
  rcases hstep with rfl | hwire | ⟨command, -, rfl⟩
  · exact ⟨_, rfl⟩
  · exact wire_ok htraits mode _ step hwire
  · exact ⟨command, rfl⟩

theorem dig_ok {room : Room} (htraits : grid.Resolves room.traits) (mode : Mode) :
    ∀ step ∈ dig mode grid room, ∃ command, step = .ok command := by
  intro step hstep
  rcases List.mem_append.mp hstep with hcreate | hwire
  · obtain ⟨command, -, rfl⟩ := List.mem_map.mp hcreate
    exact ⟨command, rfl⟩
  · exact wire_ok htraits mode _ step hwire

theorem link_ok {room : Room}
    (hexits : ∀ exit ∈ room.exits,
      grid.hasRoom exit.target = true ∧ grid.Resolves exit.traits) (mode : Mode) :
    ∀ step ∈ link mode grid room, ∃ command, step = .ok command := by
  intro step hstep
  simp only [link, List.mem_append] at hstep
  rcases hstep with ((hwarn | hgo) | hopen) | hrun
  · split at hwarn
    · exact ⟨_, List.mem_singleton.mp hwarn⟩
    · cases hwarn
  · split at hgo
    · exact ⟨_, List.mem_singleton.mp hgo⟩
    · cases hgo
  · obtain ⟨exit, hexit, hmem⟩ := List.mem_flatMap.mp hopen
    exact openExit_ok (hexits exit hexit).1 (hexits exit hexit).2 mode step hmem
  · obtain ⟨command, -, rfl⟩ := List.mem_map.mp hrun
    exact ⟨command, rfl⟩

theorem mem_buildOrder {room : Room} :
    room ∈ buildOrder grid ↔ room ∈ grid.rooms ∧ room.kind = .real := by
  simp only [buildOrder, List.mem_flatMap, List.mem_filter, decide_eq_true_eq]
  constructor
  · rintro ⟨wanted, -, hroom, hkind, -⟩
    exact ⟨hroom, hkind⟩
  · rintro ⟨hroom, hkind⟩
    refine ⟨rank room, ?_, hroom, hkind, rfl⟩
    rcases rank room with ⟨zone, parent⟩
    cases zone <;> cases parent <;> simp

/-! ### Scripts -/

theorem dig_ok_of_mem (h : grid.Closed) (mode : Mode) {room : Room}
    (hroom : room ∈ buildOrder grid) :
    ∀ step ∈ dig mode grid room, ∃ command, step = .ok command := by
  obtain ⟨hmem, hreal⟩ := mem_buildOrder.mp hroom
  exact dig_ok (h.room room hmem hreal) mode

theorem link_ok_of_mem (h : grid.Closed) (mode : Mode) {room : Room}
    (hroom : room ∈ buildOrder grid) :
    ∀ step ∈ link mode grid room, ∃ command, step = .ok command := by
  obtain ⟨hmem, hreal⟩ := mem_buildOrder.mp hroom
  exact link_ok (h.exit room hmem hreal) mode

/-- No step fails for a closed grid, whatever proxies are listed. -/
theorem steps_ok (h : grid.Closed) (mode : Mode) (promotion : Promotion) :
    ∀ step ∈ steps mode grid promotion, ∃ command, step = .ok command := by
  have hfixed : ∀ commands : List Command, ∀ step ∈ (commands.map .ok : List Step),
      ∃ command, step = .ok command := by
    intro commands step hstep
    obtain ⟨command, -, rfl⟩ := List.mem_map.mp hstep
    exact ⟨command, rfl⟩
  intro step hstep
  simp only [steps, List.mem_append] at hstep
  rcases hstep with (((((((hmem | hmem) | hmem) | hmem) | hmem) | hmem) | hmem) | hmem) | hmem
  · exact hfixed _ step hmem
  · exact hfixed _ step hmem
  · exact hfixed _ step hmem
  · exact hfixed _ step hmem
  · exact ⟨_, List.mem_singleton.mp hmem⟩
  · obtain ⟨room, hroom, hdig⟩ := List.mem_flatMap.mp hmem
    exact dig_ok_of_mem h mode hroom step hdig
  · exact ⟨_, List.mem_singleton.mp hmem⟩
  · obtain ⟨room, hroom, hlink⟩ := List.mem_flatMap.mp hmem
    exact link_ok_of_mem h mode hroom step hlink
  · exact hfixed _ step hmem

theorem failure?_steps_promote (h : grid.Coherent) (mode : Mode) :
    failure? (steps mode grid.promote.1 grid.promote.2) = none :=
  failure?_eq_none_iff.mpr (steps_ok h.closed_promote mode grid.promote.2)

/-- There is a script for every coherent grid, in every mode. -/
theorem exists_generate_eq_ok (h : grid.Coherent) (mode : Mode) :
    ∃ commands, generate mode grid = .ok commands :=
  ⟨commands (steps mode grid.promote.1 grid.promote.2), by
    simp only [generate, failure?_steps_promote h]⟩

end Script

end Gridwright
