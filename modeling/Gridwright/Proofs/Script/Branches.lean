import Gridwright.Proofs.Attribute.Trees
import Gridwright.Proofs.Script.Trace

/-!
# Branches in front of what is stored on them

A room is stored under its attribute path, and a nested attribute can only be stored where the
branches above it have been made.  In every script the branches are made in front of everything
that is stored.  Those above a room are among them if its path has more than one level; a path
that ends behind its only level is passed over, although the room is stored below that level
(`branch_made_before_stored_iff`).
-/

namespace Gridwright.Script

variable {grid : Grid} {mode : Mode}

/-- The branches of a grid, by the paths of its rooms. -/
theorem branch_mem_branches_iff {upper : List (List Char)} (hupper : upper ≠ [])
    (hfree : ∀ level ∈ upper, Attribute.levelMark ∉ level) :
    Attribute.branch upper ∈ branches grid ↔ ∃ room ∈ grid.rooms,
      1 < (Attribute.levels room.attrBase).length ∧
      upper <+: Attribute.levels room.attrBase := by
  rw [branches, Attribute.branch_mem_branches_iff hupper hfree]
  simp only [List.mem_map, exists_exists_and_eq_and]

/-! ### Branches in a trace -/

/-- The trace of a script starts with the branches, and no branch is made later. -/
theorem exists_trace_script_eq (h : grid.Coherent) (mode : Mode) :
    ∃ rest, trace (script mode grid) = (branches grid.promote.1).map .makeBranch ++ rest ∧
      ∀ branch, .makeBranch branch ∉ rest := by
  refine ⟨_, by rw [trace_script h, List.append_assoc, List.append_assoc], ?_⟩
  intro branch hmem
  simp only [List.mem_append, List.mem_map] at hmem
  rcases hmem with ⟨proxy, -, hproxy⟩ | ⟨room, -, hroom⟩ | ⟨room, -, hwarning⟩ | hentrance
  · cases mode <;> cases hproxy
  · cases mode <;> cases hroom
  · cases hwarning
  · obtain ⟨room, -, hwarning⟩ := List.mem_map.mp hentrance
    cases hwarning

/-- A command that stores a dbref stands behind all branches of the script. -/
theorem makeBranch_mem_before_iff (h : grid.Coherent) {before after : List Command}
    {command : Command} {attr branch : String}
    (hsplit : script mode grid = before ++ command :: after)
    (hstores : command.stores? = some attr) :
    .makeBranch branch ∈ before ↔ branch ∈ branches grid.promote.1 := by
  obtain ⟨rest, htrace, hrest⟩ := exists_trace_script_eq h mode
  have hleaves : command.leavesTrace = true :=
    command.leavesTrace_of_stores? (by rw [hstores]; rfl)
  have htraced : Command.makeBranch branch ∈ before ↔ .makeBranch branch ∈ trace before := by
    simp [trace, Command.leavesTrace]
  have hparts : (branches grid.promote.1).map Command.makeBranch ++ rest =
      trace before ++ command :: trace after := by
    rw [← htrace, hsplit, trace_append, trace, trace, trace,
      List.filter_cons_of_pos hleaves]
  rw [htraced]
  rcases split_append hparts with ⟨back, hbranches⟩ | ⟨front, hbefore, hbehind⟩
  · -- the command would be one that makes a branch
    have hmem : command ∈ (branches grid.promote.1).map Command.makeBranch :=
      hbranches ▸ List.mem_append_right _ List.mem_cons_self
    obtain ⟨made, -, rfl⟩ := List.mem_map.mp hmem
    cases hstores
  · have hlater : Command.makeBranch branch ∉ front := by
      intro hfront
      apply hrest branch
      rw [hbehind]
      exact List.mem_append_left _ hfront
    rw [hbefore, List.mem_append, or_iff_left hlater, List.mem_map]
    constructor
    · rintro ⟨made, hmade, hsame⟩
      cases hsame
      exact hmade
    · intro hmade
      exact ⟨branch, hmade, rfl⟩

/-! ### Scripts -/

theorem exists_command_stores_attrName (h : grid.Coherent) {room : Room}
    (hroom : room ∈ grid.promote.1.rooms) (mode : Mode) :
    ∃ command ∈ script mode grid, command.stores? = some room.attrName := by
  rw [← mem_stored, script, stored_append]
  exact List.mem_append_left _ (attrName_mem_stored_digging h hroom mode)

/-- Where the dbref of a room of the finished grid is stored, a branch above the room has been
made if and only if some room has a path of more than one level that runs through the branch.  It
has been made in particular if the path of the room itself has more than one level. -/
theorem branch_made_before_stored_iff {options : BuildOptions} {directives : List Directive}
    {builder : Builder} (hrun : Builder.applyAll options {} directives = .ok builder)
    (mode : Mode) :
    let rooms := builder.grid.promote.1.rooms
    ∃ commands, generate mode builder.grid = .ok commands ∧
      ∀ room ∈ rooms,
        (∃ command ∈ commands, command.stores? = some room.attrName) ∧
        ∀ before command after, commands = before ++ command :: after →
          command.stores? = some room.attrName →
          -- one mark of the path, and the levels before it
          ∀ front behind, room.attrBase.toList = front ++ Attribute.levelMark :: behind →
            let upper := Attribute.levels (String.ofList front)
            let branch := String.ofList (Text.join [Attribute.levelMark] upper)
            upper ≠ [] →
              (.makeBranch branch ∈ before ↔ ∃ other ∈ rooms,
                1 < (Attribute.levels other.attrBase).length ∧
                upper <+: Attribute.levels other.attrBase) ∧
              (1 < (Attribute.levels room.attrBase).length → .makeBranch branch ∈ before) := by
  intro rooms
  have h : builder.grid.Coherent := (Builder.coherent_of_applyAll hrun).grid
  refine ⟨_, generate_eq_script h mode, ?_⟩
  intro room hroom
  refine ⟨exists_command_stores_attrName h hroom mode, ?_⟩
  intro before command after hsplit hstores front behind hpath upper branch hupper
  have hfree : ∀ level ∈ upper, Attribute.levelMark ∉ level :=
    fun level hlevel => (Attribute.of_mem_levels hlevel).2
  have hmade : .makeBranch branch ∈ before ↔ ∃ other ∈ rooms,
      1 < (Attribute.levels other.attrBase).length ∧
      upper <+: Attribute.levels other.attrBase :=
    (makeBranch_mem_before_iff h hsplit hstores).trans (branch_mem_branches_iff hupper hfree)
  refine ⟨hmade, ?_⟩
  intro hlong
  have hstart : upper <+: Attribute.levels room.attrBase := by
    rw [Attribute.levels_of_split hpath]
    exact List.prefix_append upper _
  exact hmade.mpr ⟨room, hroom, hlong, hstart⟩

/-- A path of two levels with a mark behind them: both branches are made first. -/
theorem branch_made_before_stored_sample :
    let source : Source :=
      ⟨"grid.qb", "ATTR BASE: QB`GRID`\n\"n\" : \"A\" -> \"B\"\n"⟩
    ∃ builder, buildSources {} [source] = .ok builder ∧
      ∃ room ∈ builder.grid.promote.1.rooms, room.attrName = "QB`GRID`A" ∧
        ∀ mode, ∃ before command after,
          generate mode builder.grid = .ok (before ++ command :: after) ∧
          command.stores? = some room.attrName ∧
          .makeBranch "QB" ∈ before ∧ .makeBranch "QB`GRID" ∈ before := by
  intro source
  have hseen : (buildSources {} [source]).map (fun builder =>
      decide (∃ room ∈ builder.grid.promote.1.rooms,
        room.attrBase = "QB`GRID`" ∧ room.attrName = "QB`GRID`A")) = .ok true := by
    decide +kernel
  obtain ⟨builder, hbuild, room, hroom, hbase, hname⟩ := Builder.exists_of_decide_applyAll hseen
  refine ⟨builder, hbuild, room, hroom, hname, ?_⟩
  intro mode
  obtain ⟨commands, hcommands, hall⟩ := branch_made_before_stored_iff hbuild mode
  obtain ⟨⟨command, hmem, hstores⟩, hbranches⟩ := hall room hroom
  obtain ⟨before, after, rfl⟩ := List.append_of_mem hmem
  have hlong : 1 < (Attribute.levels "QB`GRID`").length := by decide +kernel
  have hmade := hbranches before command after rfl hstores
  rw [hbase] at hmade
  refine ⟨before, command, after, hcommands, hstores, ?_, ?_⟩
  · exact (hmade "QB".toList "GRID`".toList (by decide +kernel) (by decide +kernel)).2 hlong
  · exact (hmade "QB`GRID".toList [] (by decide +kernel) (by decide +kernel)).2 hlong

/-- A path that ends behind its only level: rooms are stored below that level in every mode, and
no command of the script makes the branch. -/
theorem branch_of_only_level_not_made :
    let source : Source :=
      ⟨"grid.qb", "ATTR BASE: GRID`\n\"n\" : \"A\" -> \"B\"\n"⟩
    ∃ builder, buildSources {} [source] = .ok builder ∧
      ∃ room ∈ builder.grid.promote.1.rooms, room.attrBase = "GRID`" ∧
        ∀ mode, ∃ commands, generate mode builder.grid = .ok commands ∧
          (∃ command ∈ commands, command.stores? = some room.attrName) ∧
          "&GRID me=Placeholder" ∉ commands.map (·.render) := by
  intro source
  have hseen : (buildSources {} [source]).map (fun builder =>
      decide ((∃ room ∈ builder.grid.promote.1.rooms, room.attrBase = "GRID`") ∧
        ∀ mode ∈ [Mode.managed, .unmanaged, .noSideEffects],
          (generate mode builder.grid).map (fun commands =>
            decide ("&GRID me=Placeholder" ∈ commands.map (·.render))) = .ok false)) =
      .ok true := by
    decide +kernel
  obtain ⟨builder, hbuild, ⟨room, hroom, hbase⟩, hnone⟩ := Builder.exists_of_decide_applyAll hseen
  have h : builder.grid.Coherent := (Builder.coherent_of_applyAll hbuild).grid
  refine ⟨builder, hbuild, room, hroom, hbase, ?_⟩
  intro mode
  have hmode := hnone mode (by cases mode <;> simp)
  rw [generate_eq_script h mode] at hmode
  exact ⟨_, generate_eq_script h mode, exists_command_stores_attrName h hroom mode,
    of_decide_eq_false (Except.ok.inj hmode)⟩

end Gridwright.Script
