import Gridwright.Proofs.Attribute.Trees
import Gridwright.Proofs.Script.Trace

/-!
# The attribute trees of a script

Every grid has a script, even one whose references lead nowhere: that script ends early, but only
behind its attribute trees.  So what a script makes of them is a statement about the paths of the
rooms alone.  The branches are made once each and from the outside to the inside, they are the
ones that the paths of more than one level run through, and the order in which the rooms were
created has no part in it (`attribute_trees_made`).
-/

namespace Gridwright

def Command.branch? : Command → Option String
  | .makeBranch branch => some branch
  | _ => none

theorem Command.branch?_eq_given (command : Command) :
    command.branch? =
      if command.words = ["&", " me=Placeholder"] then command.given.head? else none := by
  cases command with
  | setParent subject target | setParentByFunction subject target | setZone subject target =>
      cases target <;> rfl
  | _ => rfl

theorem Command.branch?_of_subject? {command : Command} {subject : String}
    (h : command.subject? = some subject) : command.branch? = none := by
  cases command <;> first | rfl | cases h

theorem Command.leavesTrace_of_branch? {command : Command}
    (h : command.branch?.isSome = true) : command.leavesTrace = true := by
  cases command <;> first | rfl | cases h

namespace Script

variable {grid : Grid} {mode : Mode}

/-! ### The branches that a script makes -/

/-- The branches that commands make, in the order of the commands. -/
def madeBranches (commands : List Command) : List String := commands.filterMap (·.branch?)

theorem madeBranches_append (first second : List Command) :
    madeBranches (first ++ second) = madeBranches first ++ madeBranches second :=
  List.filterMap_append

theorem madeBranches_eq_nil {commands : List Command}
    (h : ∀ command ∈ commands, command.branch? = none) : madeBranches commands = [] :=
  List.filterMap_eq_nil_iff.mpr h

theorem madeBranches_trace (commands : List Command) :
    madeBranches (trace commands) = madeBranches commands := by
  rw [madeBranches, trace, List.filterMap_filter, madeBranches]
  apply List.filterMap_congr
  intro command _
  split
  · rfl
  · rename_i hquiet
    exact (Option.not_isSome_iff_eq_none.mp fun hsome =>
      hquiet (Command.leavesTrace_of_branch? hsome)).symm

theorem madeBranches_opening (mode : Mode) (grid : Grid) (promotion : Promotion) :
    madeBranches (opening mode grid promotion) = branches grid := by
  have hmade : madeBranches ((branches grid).map .makeBranch) = branches grid := by
    rw [madeBranches, List.filterMap_map]
    exact List.filterMap_some
  have hproxies : ∀ role labels, madeBranches (proxies mode grid role labels) = [] := by
    intro role labels
    rw [← madeBranches_trace, trace_proxies]
    apply madeBranches_eq_nil
    intro command hcommand
    obtain ⟨room, -, rfl⟩ := List.mem_map.mp hcommand
    cases mode <;> rfl
  rw [opening, madeBranches_append, madeBranches_append, madeBranches_append, madeBranches_append,
    hproxies, hproxies, ← madeBranches_trace (preamble grid), trace_preamble,
    ← madeBranches_trace (attributeTrees grid), trace_attributeTrees, hmade]
  simp [madeBranches, Command.branch?]

/-! ### Steps behind the opening -/

theorem ok_mem_of_mem_commands {steps : List Step} {command : Command}
    (h : command ∈ commands steps) : .ok command ∈ steps := by
  induction steps with
  | nil => cases h
  | cons step rest ih =>
      cases step with
      | error cause => cases h
      | ok first =>
          rcases List.mem_cons.mp h with rfl | hrest
          · exact List.mem_cons_self
          · exact List.mem_cons_of_mem _ (ih hrest)

theorem branch?_of_mem_runCode {code : String} {command : Command} (h : command ∈ runCode code) :
    command.branch? = none := by
  unfold runCode at h
  split at h
  · cases h
  · rw [List.mem_singleton.mp h]
    rfl

theorem branch?_of_mem_dig {room : Room} {command : Command}
    (h : .ok command ∈ dig mode grid room) : command.branch? = none := by
  rcases List.mem_append.mp h with hcreate | hwire
  · obtain ⟨created, hmem, heq⟩ := List.mem_map.mp hcreate
    cases heq
    cases mode <;> simp only [createRoom, List.mem_cons, List.not_mem_nil, or_false] at hmem <;>
      rcases hmem with rfl | rfl <;> rfl
  · exact Command.branch?_of_subject? (of_mem_wire hwire).1

theorem branch?_of_mem_openExit {exit : Exit} {command : Command}
    (h : .ok command ∈ openExit mode grid exit) : command.branch? = none := by
  unfold openExit at h
  split at h
  · simp at h
  · rcases List.mem_cons.mp h with hopen | hrest
    · cases hopen
      unfold openCommand
      split <;> rfl
    · rcases List.mem_append.mp hrest with hwire | hrun
      · exact Command.branch?_of_subject? (of_mem_wire hwire).1
      · obtain ⟨code, hcode, heq⟩ := List.mem_map.mp hrun
        cases heq
        exact branch?_of_mem_runCode hcode

theorem branch?_of_mem_link {room : Room} {command : Command}
    (h : .ok command ∈ link mode grid room) : command.branch? = none := by
  simp only [link, List.mem_append] at h
  rcases h with ((hwarn | hgo) | hopen) | hrun
  · split at hwarn
    · cases List.mem_singleton.mp hwarn
      rfl
    · cases hwarn
  · split at hgo
    · cases List.mem_singleton.mp hgo
      rfl
    · cases hgo
  · obtain ⟨exit, -, hexit⟩ := List.mem_flatMap.mp hopen
    exact branch?_of_mem_openExit hexit
  · obtain ⟨code, hcode, heq⟩ := List.mem_map.mp hrun
    cases heq
    exact branch?_of_mem_runCode hcode

/-- Whatever the mode and the proxies, and even if the script ends early: its branches are those
of the grid. -/
theorem madeBranches_steps (mode : Mode) (grid : Grid) (promotion : Promotion) :
    madeBranches (commands (steps mode grid promotion)) = branches grid := by
  obtain ⟨rest, hsteps, hrest⟩ : ∃ rest,
      steps mode grid promotion = (opening mode grid promotion).map .ok ++ rest ∧
      ∀ command, .ok command ∈ rest → command.branch? = none := by
    refine ⟨(buildOrder grid).flatMap (dig mode grid) ++ .ok (.announce "Linking Rooms") ::
      ((buildOrder grid).flatMap (link mode grid) ++ (entrances grid).map .ok),
      by simp [steps, opening], ?_⟩
    intro command hcommand
    simp only [List.mem_append, List.mem_cons, List.mem_flatMap, List.mem_map] at hcommand
    rcases hcommand with ⟨room, -, hdig⟩ | hannounce | ⟨room, -, hlink⟩ | ⟨warning, hmem, heq⟩
    · exact branch?_of_mem_dig hdig
    · cases hannounce
      rfl
    · exact branch?_of_mem_link hlink
    · cases heq
      obtain ⟨room, -, rfl⟩ := List.mem_map.mp hmem
      rfl
  rw [hsteps, commands_map_append, madeBranches_append, madeBranches_opening,
    madeBranches_eq_nil fun command hcommand => hrest command (ok_mem_of_mem_commands hcommand),
    List.append_nil]

/-! ### The branches of a grid -/

theorem mem_branches_iff {text : String} :
    text ∈ branches grid ↔ ∃ room ∈ grid.rooms, 1 < (Attribute.levels room.attrBase).length ∧
      ∃ upper, upper ≠ [] ∧ upper <+: Attribute.levels room.attrBase ∧
        text = Attribute.branch upper := by
  simp only [branches, Attribute.mem_branches_iff, List.mem_map, exists_exists_and_eq_and,
    Attribute.mem_branchesOf_iff]

/-- The branches that a script makes are all different, each is its levels joined by marks and
stands behind the branch above it.  They are the outer levels of the paths of rooms that have more
than one level, and for rooms with the same paths in another order they are the same list. -/
theorem attribute_trees_made (mode : Mode) (grid : Grid) (promotion : Promotion) :
    let made := madeBranches (commands (steps mode grid promotion))
    made.Nodup ∧
    (∀ branch ∈ made, branch = Attribute.branch (Attribute.levels branch) ∧
      Attribute.levels branch ≠ [] ∧
      ∀ level ∈ Attribute.levels branch, level ≠ [] ∧ Attribute.levelMark ∉ level) ∧
    (∀ before branch after, made = before ++ branch :: after →
      1 < (Attribute.levels branch).length →
      Attribute.branch (Attribute.levels branch).dropLast ∈ before) ∧
    (∀ text, text ∈ made ↔
      ∃ room ∈ grid.rooms, 1 < (Attribute.levels room.attrBase).length ∧
        ∃ upper, upper ≠ [] ∧ upper <+: Attribute.levels room.attrBase ∧
          text = Attribute.branch upper) ∧
    ∀ otherMode otherGrid otherPromotion,
      (otherGrid.rooms.map (·.attrBase)).Perm (grid.rooms.map (·.attrBase)) →
      madeBranches (commands (steps otherMode otherGrid otherPromotion)) = made := by
  intro made
  have hmade : made = branches grid := madeBranches_steps mode grid promotion
  rw [hmade]
  refine ⟨Attribute.nodup_branches _, ?_, Attribute.outermostFirst_branches _,
    fun text => mem_branches_iff, ?_⟩
  · intro branch hbranch
    obtain ⟨room, -, -, upper, hupper, hstart, rfl⟩ := mem_branches_iff.mp hbranch
    have hlevels : ∀ level ∈ upper, level ≠ [] ∧ Attribute.levelMark ∉ level :=
      fun level hlevel => Attribute.of_mem_levels (hstart.subset hlevel)
    rw [Attribute.levels_branch hlevels]
    exact ⟨rfl, hupper, hlevels⟩
  · intro otherMode otherGrid otherPromotion hperm
    rw [madeBranches_steps]
    exact Attribute.branches_congr fun _ => hperm.mem_iff

/-- Paths that share their outer levels, with empty levels in between, in two orders. -/
theorem attribute_trees_made_sample :
    let yard : Room := { label := ⟨"\"Yard\""⟩, attrBase := "QB`GRID`" }
    let hall : Room := { label := ⟨"\"Hall\""⟩, attrBase := "QB``GRID`IN" }
    let attic : Room := { label := ⟨"\"Attic\""⟩, attrBase := "`TOP`" }
    let first : Grid := { rooms := [yard, hall, attic] }
    let second : Grid := { rooms := [attic, hall, yard] }
    madeBranches (commands (steps .managed first {})) = ["QB", "QB`GRID", "QB`GRID`IN"] ∧
      "QB`GRID" ∈ ["QB", "QB`GRID"] ∧
      (second.rooms.map (·.attrBase)).Perm (first.rooms.map (·.attrBase)) ∧
      madeBranches (commands (steps .unmanaged second {})) = ["QB", "QB`GRID", "QB`GRID`IN"] := by
  intro yard hall attic first second
  have hfirst : madeBranches (commands (steps .managed first {})) =
      ["QB", "QB`GRID", "QB`GRID`IN"] := by
    decide +kernel
  obtain ⟨-, -, houter, -, hsame⟩ := attribute_trees_made .managed first {}
  have hdeep : 1 < (Attribute.levels "QB`GRID`IN").length := by decide +kernel
  have habove : Attribute.branch (Attribute.levels "QB`GRID`IN").dropLast = "QB`GRID" := by
    decide +kernel
  have hperm : (second.rooms.map (·.attrBase)).Perm (first.rooms.map (·.attrBase)) := by
    decide +kernel
  refine ⟨hfirst, ?_, hperm, (hsame .unmanaged second {} hperm).trans hfirst⟩
  exact habove ▸ houter ["QB", "QB`GRID"] "QB`GRID`IN" [] hfirst hdeep

end Script

end Gridwright
