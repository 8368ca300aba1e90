import Gridwright.Proofs.Script.Trace

/-!
# Warnings of a script

A script warns about real rooms that no exit leaves and about real rooms that no exit leads to.
The first kind is found in the exits that a room holds, the second in the list of all exits;
since both say the same in a finished grid, a room is warned about exactly if the rooms of the
grid hold no exit that leads to it.
-/

namespace Gridwright.Script

variable {grid : Grid}

/-! ### Warnings in a trace -/

/-- The warnings that a script gives are the messages of its commands that warn. -/
theorem warnings_of_filter {commands : List Command} {messages : List String}
    (h : commands.filter (·.warning?.isSome) = messages.map .warn) :
    warnings commands = messages.map fun message => { message } := by
  have hread : warnings commands = warnings (commands.filter (·.warning?.isSome)) := by
    unfold warnings
    rw [List.filterMap_filter]
    apply List.filterMap_congr
    intro command _
    cases hwarning : command.warning? <;> simp
  rw [hread, h, warnings, List.filterMap_map, ← List.filterMap_eq_map]
  rfl

/-! ### Rooms that are warned about -/

/-- No room of a grid holds an exit that leads to a room. -/
def Unreached (grid : Grid) (room : Room) : Prop :=
  ∀ other ∈ grid.rooms, ∀ exit ∈ other.exits, exit.target ≠ room.label

instance (grid : Grid) : DecidablePred (Unreached grid) :=
  fun room => inferInstanceAs
    (Decidable (∀ other ∈ grid.rooms, ∀ exit ∈ other.exits, exit.target ≠ room.label))

/-- The messages of a script for a finished grid, in order. -/
def messages (grid : Grid) : List String :=
  ((buildOrder grid).filter (·.exits.isEmpty)).map noExits ++
    ((buildOrder grid).filter (Unreached grid ·)).map noEntrances

theorem entrances_promote (h : grid.Coherent) :
    entrances grid.promote.1 =
      ((buildOrder grid.promote.1).filter (Unreached grid.promote.1 ·)).map fun room =>
        .warn (noEntrances room) := by
  have hreached : ∀ room : Room, room.label ∉ grid.promote.1.exits.map (·.target) ↔
      Unreached grid.promote.1 room := by
    intro room
    constructor
    · intro hnone other hother exit hexit htarget
      apply hnone
      rw [← htarget]
      exact List.mem_map_of_mem (h.mem_exits_promote_iff.mpr ⟨other, hother, hexit⟩)
    · intro hnone hmem
      obtain ⟨exit, hexit, htarget⟩ := List.mem_map.mp hmem
      obtain ⟨other, hother, hheld⟩ := h.mem_exits_promote_iff.mp hexit
      exact hnone other hother exit hheld htarget
  simp only [entrances, hreached]
  rfl

/-- The commands that warn, in the script for a coherent grid, whatever the mode. -/
theorem filter_warning?_script (h : grid.Coherent) (mode : Mode) :
    (script mode grid).filter (·.warning?.isSome) = (messages grid.promote.1).map .warn := by
  have hbranches : ((branches grid.promote.1).map Command.makeBranch).filter
      (·.warning?.isSome) = [] := filter_map_eq_nil (fun _ => rfl) _
  have hproxies : ((grid.standIns.map grid.proxyOf).map (storingProxy mode)).filter
      (·.warning?.isSome) = [] := filter_map_eq_nil (fun _ => by cases mode <;> rfl) _
  have hrooms : ((buildOrder grid.promote.1).map (storing mode)).filter
      (·.warning?.isSome) = [] := filter_map_eq_nil (fun _ => by cases mode <;> rfl) _
  have hmessages : ((buildOrder grid.promote.1).filter (·.exits.isEmpty)).map
      (fun room => Command.warn (noExits room)) ++ entrances grid.promote.1 =
        (messages grid.promote.1).map .warn := by
    rw [entrances_promote h, messages, List.map_append, List.map_map, List.map_map]
    rfl
  rw [← filter_trace Command.leavesTrace_of_warning?, trace_script h, hmessages, List.filter_append,
    List.filter_append, List.filter_append, hbranches, hproxies, hrooms, List.nil_append,
    List.nil_append, List.nil_append]
  exact filter_map_eq_self (fun _ => rfl) _

/-! ### Scripts -/

/-- In every script for what directives declare, the warnings are about the real rooms in the
order in which they are dug: first about those without exits, then about those that no room of
the grid has an exit to.  They are the same in every mode, and each of them is a command of the
script, in the same order. -/
theorem warnings_about_rooms {options : BuildOptions} {directives : List Directive}
    {builder : Builder} (hrun : Builder.applyAll options {} directives = .ok builder) :
    let grid := builder.grid.promote.1
    let order := buildOrder grid
    let expected :=
      (order.filter (·.exits.isEmpty)).map ("Creating room with no exits: " ++ ·.name) ++
        (order.filter (Unreached grid ·)).map ("Created room with no entrances: " ++ ·.name)
    let told : List Warning := expected.map fun message => { message }
    -- the order holds every real room once
    order.Nodup ∧ (∀ room, room ∈ order ↔ room ∈ grid.rooms ∧ room.kind = .real) ∧
    ∀ mode, ∃ commands, generate mode builder.grid = .ok commands ∧
      warnings commands = told ∧
      builder.finish mode = .ok ⟨commands, builder.warnings ++ told⟩ ∧
      commands.filter (·.warning?.isSome) = expected.map .warn ∧
      (commands.filter (·.warning?.isSome)).map (·.render) =
        expected.map ("think WARNING: " ++ ·) := by
  intro grid order expected told
  have h : builder.grid.Coherent := (Builder.coherent_of_applyAll hrun).grid
  have hnodup : order.Nodup :=
    (buildOrder_perm h).nodup_iff.mpr h.labels_nodup.of_map
  refine ⟨hnodup, fun room => mem_buildOrder, ?_⟩
  intro mode
  have hcommands := generate_eq_script h mode
  have hfilter := filter_warning?_script h mode
  have hwarnings := warnings_of_filter hfilter
  refine ⟨_, hcommands, hwarnings, ?_, hfilter, ?_⟩
  · rw [Builder.finish, hcommands]
    simp only [hwarnings]
    rfl
  · rw [hfilter, List.map_map]
    rfl

/-- A yard that only leads to itself is left by an exit and entered by it, and nobody looks for
the ways into the zone, which is a proxy. -/
theorem warnings_about_rooms_sample :
    let source : Source :=
      ⟨"manor.qb", "ROOM ZONE: \"Area\"\n\"up\" : \"Cellar\" -> \"Hall\"\n" ++
        "\"round\" : \"Yard\" -> \"Yard\"\n"⟩
    ∃ builder, buildSources {} [source] = .ok builder ∧
      builder.grid.promote.1.rooms.map (·.name) = ["Cellar", "Hall", "Yard", "Area"] ∧
      ∀ mode, ∃ commands, generate mode builder.grid = .ok commands ∧
        warnings commands =
          [{ message := "Creating room with no exits: Hall" },
            { message := "Created room with no entrances: Cellar" }] := by
  intro source
  have hseen : (buildSources {} [source]).map (fun builder =>
      (builder.grid.promote.1.rooms.map (·.name), messages builder.grid.promote.1)) =
      .ok (["Cellar", "Hall", "Yard", "Area"],
        ["Creating room with no exits: Hall", "Created room with no entrances: Cellar"]) := by
    decide +kernel
  obtain ⟨builder, hbuild, hview⟩ := Builder.exists_of_map_applyAll hseen
  obtain ⟨hrooms, hmessages⟩ := Prod.mk.inj hview
  refine ⟨builder, hbuild, hrooms, ?_⟩
  intro mode
  obtain ⟨commands, hcommands, hwarnings, -⟩ := (warnings_about_rooms hbuild).2.2 mode
  refine ⟨commands, hcommands, hwarnings.trans ?_⟩
  exact congrArg (List.map fun message : String => ({ message } : Warning)) hmessages

end Gridwright.Script
