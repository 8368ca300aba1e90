import Gridwright.Proofs.Script.Closed

/-!
# The sections of a script

Where no step fails, the commands of a script are those of its sections, one section
behind the other (`generate_eq`).  The commands that dig the rooms are also listed
together with the room that they are for: equal commands of different rooms are then told
apart.
-/

namespace Gridwright.Script

variable {grid : Grid}

/-! ### Commands of steps that succeed -/

theorem commands_map_append (given : List Command) (rest : List Step) :
    commands (given.map .ok ++ rest) = given ++ commands rest := by
  induction given with
  | nil => rfl
  | cons command others ih => rw [List.map_cons, List.cons_append, commands, ih, List.cons_append]

theorem commands_append {first : List Step}
    (hfirst : ∀ step ∈ first, ∃ command, step = .ok command) (second : List Step) :
    commands (first ++ second) = commands first ++ commands second := by
  induction first with
  | nil => rfl
  | cons step rest ih =>
      obtain ⟨command, rfl⟩ := hfirst step List.mem_cons_self
      have hrest := ih fun other hother => hfirst other (List.mem_cons_of_mem _ hother)
      rw [List.cons_append, commands, commands, hrest, List.cons_append]

theorem commands_flatMap_append {α : Type} {items : List α} {part : α → List Step}
    (hpart : ∀ item ∈ items, ∀ step ∈ part item, ∃ command, step = .ok command)
    (rest : List Step) :
    commands (items.flatMap part ++ rest) =
      (items.flatMap fun item => commands (part item)) ++ commands rest := by
  induction items with
  | nil => rfl
  | cons item others ih =>
      have hothers := ih fun other hother => hpart other (List.mem_cons_of_mem _ hother)
      rw [List.flatMap_cons, List.flatMap_cons, List.append_assoc,
        commands_append (hpart item List.mem_cons_self), hothers, List.append_assoc]

theorem mem_commands {steps : List Step} (hsteps : ∀ step ∈ steps, ∃ command, step = .ok command)
    {command : Command} : command ∈ commands steps ↔ .ok command ∈ steps := by
  induction steps with
  | nil => simp [commands]
  | cons step rest ih =>
      obtain ⟨first, rfl⟩ := hsteps step List.mem_cons_self
      have hrest := ih fun other hother => hsteps other (List.mem_cons_of_mem _ hother)
      rw [commands, List.mem_cons, List.mem_cons, hrest, Except.ok.injEq]

/-! ### Sections -/

/-- What stands before the rooms: comments, attribute trees and proxies. -/
def opening (mode : Mode) (grid : Grid) (promotion : Promotion) : List Command :=
  preamble grid ++ attributeTrees grid ++ proxies mode grid "parents" promotion.parents ++
    proxies mode grid "zones" promotion.zones ++ [.announce "Digging Rooms"]

/-- The commands that dig the rooms, each with the room it is for. -/
def digging (mode : Mode) (grid : Grid) : List (Room × Command) :=
  (buildOrder grid).flatMap fun room => (commands (dig mode grid room)).map (room, ·)

/-- What stands behind the rooms: exits, code and warnings. -/
def closing (mode : Mode) (grid : Grid) : List Command :=
  .announce "Linking Rooms" ::
    ((buildOrder grid).flatMap fun room => commands (link mode grid room)) ++ entrances grid

theorem map_snd_digging (mode : Mode) (grid : Grid) :
    (digging mode grid).map (·.2) =
      (buildOrder grid).flatMap fun room => commands (dig mode grid room) := by
  rw [digging, List.map_flatMap]
  simp only [List.map_map, Function.comp_def, List.map_id']

theorem commands_steps (h : grid.Closed) (mode : Mode) (promotion : Promotion) :
    commands (steps mode grid promotion) =
      opening mode grid promotion ++ (digging mode grid).map (·.2) ++ closing mode grid := by
  have hsections : steps mode grid promotion =
      (opening mode grid promotion).map .ok ++ ((buildOrder grid).flatMap (dig mode grid) ++
        ([Command.announce "Linking Rooms"].map .ok ++
          ((buildOrder grid).flatMap (link mode grid) ++ ((entrances grid).map .ok ++ [])))) := by
    simp only [steps, opening, List.map_append, List.append_assoc, List.map_cons, List.map_nil,
      List.append_nil]
  rw [hsections, commands_map_append, commands_flatMap_append fun _ => dig_ok_of_mem h mode,
    commands_map_append, commands_flatMap_append fun _ => link_ok_of_mem h mode,
    commands_map_append, map_snd_digging]
  simp only [commands, closing, List.append_assoc, List.cons_append, List.nil_append,
    List.append_nil]

/-- The script for a coherent grid, section by section. -/
theorem generate_eq (h : grid.Coherent) (mode : Mode) :
    generate mode grid =
      .ok (opening mode grid.promote.1 grid.promote.2 ++
        (digging mode grid.promote.1).map (·.2) ++ closing mode grid.promote.1) := by
  simp only [generate, failure?_steps_promote h, commands_steps h.closed_promote]

end Gridwright.Script
