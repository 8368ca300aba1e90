import Gridwright.Proofs.Script.Closed

/-!
# Where a script ends early

A grid need not come from a builder, and then its rooms and exits may lead to rooms that it does
not have.  What a script needs can be listed without looking at its commands: first the parent
and the zone of every real room, then for every exit of a real room its target, its parent and
its zone, and always in the order in which the rooms are built.  The script ends at the first of
these that is no room (`failure?_steps`), so how it ends depends on the grid alone, neither on the
mode nor on the proxies that are listed.
-/

namespace Gridwright

/-! ### What a script needs -/

/-- A room that a script needs, and the cause that ends the script if there is none. -/
structure Need where
  room : Label
  cause : Cause
deriving DecidableEq

/-- The room that a parent or a zone refers to. -/
def Need.ofReference (label : Label) : Need := ⟨label, .unresolvedReference label.text⟩

/-- The parent and the zone of an object, as far as they are rooms of the grid. -/
def Traits.needs (traits : Traits) : List Need :=
  [Slot.parent, .zone].filterMap fun slot =>
    ((traits.reference slot).bind (·.target?)).map .ofReference

/-- The target of an exit, then its parent and its zone. -/
def Exit.needs (exit : Exit) : List Need :=
  ⟨exit.target, .roomMissing exit.target⟩ :: exit.traits.needs

theorem Traits.mem_needs_iff {traits : Traits} {need : Need} :
    need ∈ traits.needs ↔ ∃ slot label, traits.reference slot = some (.label label) ∧
      need = .ofReference label := by
  simp only [needs, List.mem_filterMap, Option.map_eq_some_iff, Option.bind_eq_some_iff]
  constructor
  · rintro ⟨slot, -, label, ⟨reference, href, htarget⟩, rfl⟩
    cases reference with
    | dbref text => cases htarget
    | label target =>
        cases htarget
        exact ⟨slot, label, href, rfl⟩
  · rintro ⟨slot, label, href, rfl⟩
    exact ⟨slot, by cases slot <;> simp, label, ⟨.label label, href, rfl⟩, rfl⟩

namespace Script

variable {mode : Mode} {grid : Grid}

/-- All that the script for a grid needs, in the order of its steps. -/
def needs (grid : Grid) : List Need :=
  (buildOrder grid).flatMap (·.traits.needs) ++
    (buildOrder grid).flatMap fun room => room.exits.flatMap (·.needs)

/-- The cause of the first need that is no room of the grid. -/
def unmet? (grid : Grid) (needs : List Need) : Option Cause :=
  (needs.find? fun need => !grid.hasRoom need.room).map (·.cause)

theorem unmet?_append (first second : List Need) :
    unmet? grid (first ++ second) = (unmet? grid first).or (unmet? grid second) := by
  rw [unmet?, unmet?, unmet?, List.find?_append, Option.map_or]

theorem unmet?_cons (need : Need) (rest : List Need) :
    unmet? grid (need :: rest) =
      if grid.hasRoom need.room then unmet? grid rest else some need.cause := by
  cases h : grid.hasRoom need.room <;> simp [unmet?, h]

theorem unmet?_eq_some_iff {needs : List Need} {cause : Cause} :
    unmet? grid needs = some cause ↔
      ∃ before need after, needs = before ++ need :: after ∧
        (∀ earlier ∈ before, grid.hasRoom earlier.room = true) ∧
          grid.hasRoom need.room = false ∧ need.cause = cause := by
  rw [unmet?, Option.map_eq_some_iff]
  constructor
  · rintro ⟨need, hfound, hcause⟩
    obtain ⟨hneed, before, after, hsplit, hbefore⟩ := List.find?_eq_some_iff_append.mp hfound
    refine ⟨before, need, after, hsplit, ?_, by simpa using hneed, hcause⟩
    intro earlier hearlier
    simpa using hbefore earlier hearlier
  · rintro ⟨before, need, after, hsplit, hbefore, hneed, hcause⟩
    refine ⟨need, List.find?_eq_some_iff_append.mpr
      ⟨by simpa using hneed, before, after, hsplit, ?_⟩, hcause⟩
    intro earlier hearlier
    simpa using hbefore earlier hearlier

/-! ### What the steps come to -/

theorem failure?_append (first second : List Step) :
    failure? (first ++ second) = (failure? first).or (failure? second) := by
  induction first with
  | nil => rfl
  | cons step rest ih =>
      cases step with
      | error cause => rfl
      | ok command => exact ih

@[simp] theorem failure?_map_ok (commands : List Command) :
    failure? (commands.map .ok) = none := by
  induction commands with
  | nil => rfl
  | cons command rest ih => exact ih

/-- Where the steps of every item end at the first unmet need of the item, the steps of all items
end at the first unmet need of all. -/
theorem failure?_flatMap {α : Type} (items : List α) {part : α → List Step}
    {needs : α → List Need} (h : ∀ item, failure? (part item) = unmet? grid (needs item)) :
    failure? (items.flatMap part) = unmet? grid (items.flatMap needs) := by
  induction items with
  | nil => rfl
  | cons item rest ih =>
      rw [List.flatMap_cons, List.flatMap_cons, failure?_append, unmet?_append, h, ih]

/-- A step that gives an object its parent or zone fails if the reference is to no room. -/
theorem failure?_target (reference : Option Reference) (command : Target → Command) :
    failure? (reference.toList.map fun found => (target grid found).map command) =
      unmet? grid ((reference.bind (·.target?)).map Need.ofReference).toList := by
  cases reference with
  | none => rfl
  | some found =>
      cases found with
      | dbref text => rfl
      | label label =>
          cases hroom : grid.room? label with
          | none => simp [target, hroom, failure?, Except.map, unmet?, Grid.hasRoom,
              Reference.target?, Need.ofReference]
          | some room => simp [target, hroom, failure?, Except.map, unmet?, Grid.hasRoom,
              Reference.target?, Need.ofReference]

theorem failure?_wire (subject : String) (traits : Traits) :
    failure? (wire mode grid subject traits) = unmet? grid traits.needs := by
  have hneeds : traits.needs =
      ((traits.parent.bind (·.target?)).map Need.ofReference).toList ++
        ((traits.zone.bind (·.target?)).map Need.ofReference).toList := by
    simp only [Traits.needs, List.filterMap_cons, List.filterMap_nil, Traits.reference]
    cases traits.parent.bind (·.target?) <;> cases traits.zone.bind (·.target?) <;> rfl
  have hflags : failure? (traits.flags.toList.map fun flags => .ok (.setFlags subject flags)) =
      none := by
    cases traits.flags <;> rfl
  rw [wire, failure?_append, failure?_append, failure?_target, failure?_target, hflags,
    Option.or_none, hneeds, unmet?_append]

theorem failure?_dig (room : Room) :
    failure? (dig mode grid room) = unmet? grid room.traits.needs := by
  rw [dig, failure?_append, failure?_map_ok, failure?_wire, Option.none_or]

theorem failure?_openExit (exit : Exit) :
    failure? (openExit mode grid exit) = unmet? grid exit.needs := by
  rw [Exit.needs, unmet?_cons]
  cases hroom : grid.room? exit.target with
  | none => simp [openExit, hroom, failure?, Grid.hasRoom]
  | some destination =>
      simp only [openExit, hroom, failure?, failure?_append, failure?_wire, failure?_map_ok,
        Option.or_none, Grid.hasRoom, Option.isSome_some, if_true]

theorem failure?_link (room : Room) :
    failure? (link mode grid room) = unmet? grid (room.exits.flatMap (·.needs)) := by
  have hwarn : failure? (if room.exits.isEmpty then
      [.ok (.warn ("Creating room with no exits: " ++ room.name))] else []) = none := by
    split <;> rfl
  have hgo : failure? (if !room.exits.isEmpty || !room.code.isEmpty then
      [.ok (.goTo room.attrName)] else []) = none := by
    split <;> rfl
  rw [link, failure?_append, failure?_append, failure?_append, hwarn, hgo, failure?_map_ok,
    failure?_flatMap room.exits failure?_openExit, Option.none_or, Option.none_or, Option.or_none]

/-- A script ends with the first need that is not met. -/
theorem failure?_steps (mode : Mode) (grid : Grid) (promotion : Promotion) :
    failure? (steps mode grid promotion) = unmet? grid (needs grid) := by
  have hannounce : ∀ text : String, failure? [.ok (.announce text)] = none := fun _ => rfl
  simp only [steps, failure?_append, failure?_map_ok, hannounce, Option.none_or, Option.or_none,
    failure?_flatMap (buildOrder grid) failure?_dig,
    failure?_flatMap (buildOrder grid) failure?_link]
  rw [needs, unmet?_append]

/-! ### Which grids have a script -/

theorem mem_needs_iff {need : Need} :
    need ∈ needs grid ↔ ∃ room ∈ grid.rooms, room.kind = .real ∧
      (need ∈ room.traits.needs ∨ ∃ exit ∈ room.exits, need ∈ exit.needs) := by
  simp only [needs, List.mem_append, List.mem_flatMap, mem_buildOrder]
  constructor
  · rintro (⟨room, ⟨hroom, hreal⟩, hneed⟩ | ⟨room, ⟨hroom, hreal⟩, hneed⟩)
    · exact ⟨room, hroom, hreal, Or.inl hneed⟩
    · exact ⟨room, hroom, hreal, Or.inr hneed⟩
  · rintro ⟨room, hroom, hreal, hneed | hneed⟩
    · exact Or.inl ⟨room, ⟨hroom, hreal⟩, hneed⟩
    · exact Or.inr ⟨room, ⟨hroom, hreal⟩, hneed⟩

theorem isSome_unmet?_iff {needs : List Need} :
    (unmet? grid needs).isSome = true ↔ ∃ need ∈ needs, grid.hasRoom need.room = false := by
  simp only [unmet?, Option.isSome_map, List.find?_isSome, Bool.not_eq_true']

theorem exists_unmet_reference_iff {traits : Traits} :
    (∃ need ∈ traits.needs, grid.hasRoom need.room = false) ↔
      ∃ slot label, traits.reference slot = some (.label label) ∧ grid.hasRoom label = false := by
  constructor
  · rintro ⟨need, hneed, hnone⟩
    obtain ⟨slot, label, href, rfl⟩ := Traits.mem_needs_iff.mp hneed
    exact ⟨slot, label, href, hnone⟩
  · rintro ⟨slot, label, href, hnone⟩
    exact ⟨_, Traits.mem_needs_iff.mpr ⟨slot, label, href, rfl⟩, hnone⟩

theorem exists_unmet_of_exit_iff {exit : Exit} :
    (∃ need ∈ exit.needs, grid.hasRoom need.room = false) ↔
      grid.hasRoom exit.target = false ∨
        ∃ slot label, exit.traits.reference slot = some (.label label) ∧
          grid.hasRoom label = false := by
  rw [Exit.needs, List.exists_mem_cons_iff, exists_unmet_reference_iff]

/-- Whatever grid and whatever list of proxies a script is written for: it ends early exactly if
a real room refers to a label that is no room, or an exit of a real room leads or refers to one.
It ends with the cause of the first of these, and neither the mode nor the list matters. -/
theorem ends_at_first_unmet_need (mode : Mode) (grid : Grid) (promotion : Promotion) :
    ((failure? (steps mode grid promotion)).isSome = true ↔
      ∃ room ∈ grid.rooms, room.kind = .real ∧
        ((∃ slot label, room.traits.reference slot = some (.label label) ∧
            grid.hasRoom label = false) ∨
          ∃ exit ∈ room.exits, grid.hasRoom exit.target = false ∨
            ∃ slot label, exit.traits.reference slot = some (.label label) ∧
              grid.hasRoom label = false)) ∧
    (∀ cause, failure? (steps mode grid promotion) = some cause ↔
      ∃ before need after, needs grid = before ++ need :: after ∧
        (∀ earlier ∈ before, grid.hasRoom earlier.room = true) ∧
          grid.hasRoom need.room = false ∧ need.cause = cause) ∧
    ∀ other listed, failure? (steps other grid listed) = failure? (steps mode grid promotion) := by
  refine ⟨?_, ?_, ?_⟩
  · rw [failure?_steps, isSome_unmet?_iff]
    constructor
    · rintro ⟨need, hneed, hnone⟩
      obtain ⟨room, hroom, hreal, htraits | ⟨exit, hexit, hneed⟩⟩ := mem_needs_iff.mp hneed
      · exact ⟨room, hroom, hreal, Or.inl (exists_unmet_reference_iff.mp ⟨need, htraits, hnone⟩)⟩
      · exact ⟨room, hroom, hreal,
          Or.inr ⟨exit, hexit, exists_unmet_of_exit_iff.mp ⟨need, hneed, hnone⟩⟩⟩
    · rintro ⟨room, hroom, hreal, hreference | ⟨exit, hexit, hunmet⟩⟩
      · obtain ⟨need, hneed, hnone⟩ := exists_unmet_reference_iff.mpr hreference
        exact ⟨need, mem_needs_iff.mpr ⟨room, hroom, hreal, Or.inl hneed⟩, hnone⟩
      · obtain ⟨need, hneed, hnone⟩ := exists_unmet_of_exit_iff.mpr hunmet
        exact ⟨need, mem_needs_iff.mpr ⟨room, hroom, hreal, Or.inr ⟨exit, hexit, hneed⟩⟩, hnone⟩
  · intro cause
    rw [failure?_steps, unmet?_eq_some_iff]
  · intro other listed
    rw [failure?_steps, failure?_steps]

end Script

end Gridwright
