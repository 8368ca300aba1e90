import Gridwright.Proofs.Grid.Finished
import Gridwright.Proofs.Script.Lookups
import Gridwright.Proofs.Script.Whereabouts

/-!
# What a script leaves behind

Most commands of a script act on the game.  Three kinds leave something for others: a branch of
an attribute tree, a dbref in an attribute of the builder, and a warning.  The trace of a script
is the list of these commands, and it is the same for every mode but for the spelling: first the
branches, then a dbref for every proxy, one for every room, a warning for every room without
exits and one for every room without entrances (`trace_script`).
-/

namespace Gridwright

/-- Whether a command leaves a branch, a stored dbref or a warning behind. -/
def Command.leavesTrace (command : Command) : Bool :=
  match command with
  | .makeBranch _ | .warn _ => true
  | _ => command.stores?.isSome

/-- A command that gives an object its traits leaves no trace. -/
theorem Command.leavesTrace_of_subject? {command : Command} {subject : String}
    (h : command.subject? = some subject) : command.leavesTrace = false := by
  cases command <;> first | rfl | cases h

theorem Command.leavesTrace_of_stores? (command : Command)
    (h : command.stores?.isSome = true) : command.leavesTrace = true := by
  cases command <;> first | rfl | cases h

theorem Command.leavesTrace_of_warning? (command : Command)
    (h : command.warning?.isSome = true) : command.leavesTrace = true := by
  cases command <;> first | rfl | cases h

namespace Script

variable {grid : Grid} {mode : Mode}

def trace (commands : List Command) : List Command := commands.filter (·.leavesTrace)

@[simp] theorem trace_append (first second : List Command) :
    trace (first ++ second) = trace first ++ trace second := List.filter_append ..

theorem trace_flatMap {α : Type} (items : List α) (part : α → List Command) :
    trace (items.flatMap part) = items.flatMap fun item => trace (part item) :=
  List.filter_flatMap

theorem trace_eq_nil {commands : List Command}
    (h : ∀ command ∈ commands, command.leavesTrace = false) : trace commands = [] := by
  refine List.filter_eq_nil_iff.mpr ?_
  intro command hcommand
  simp [h command hcommand]

/-- Commands that leave a trace can be picked out of the trace. -/
theorem filter_trace {wanted : Command → Bool}
    (h : ∀ command, wanted command = true → command.leavesTrace = true)
    (commands : List Command) : (trace commands).filter wanted = commands.filter wanted := by
  rw [trace, List.filter_filter]
  apply List.filter_congr
  intro command _
  cases hwanted : wanted command with
  | true => rw [h command hwanted, Bool.and_self]
  | false => rw [Bool.false_and]

theorem filter_map_eq_nil {α : Type} {wanted : Command → Bool} {command : α → Command}
    (h : ∀ item, wanted (command item) = false) (items : List α) :
    (items.map command).filter wanted = [] := by
  refine List.filter_eq_nil_iff.mpr ?_
  intro found hfound
  obtain ⟨item, -, rfl⟩ := List.mem_map.mp hfound
  simp [h item]

theorem filter_map_eq_self {α : Type} {wanted : Command → Bool} {command : α → Command}
    (h : ∀ item, wanted (command item) = true) (items : List α) :
    (items.map command).filter wanted = items.map command := by
  refine List.filter_eq_self.mpr ?_
  intro found hfound
  obtain ⟨item, -, rfl⟩ := List.mem_map.mp hfound
  exact h item

/-! ### Before the rooms -/

theorem trace_preamble (grid : Grid) : trace (preamble grid) = [] := by
  apply trace_eq_nil
  intro command hcommand
  rcases List.mem_cons.mp hcommand with rfl | hline
  · rfl
  · obtain ⟨line, -, rfl⟩ := List.mem_map.mp hline
    rfl

/-- The branches that the rooms of a grid need, in the order in which they are made. -/
def branches (grid : Grid) : List String := Attribute.branches (grid.rooms.map (·.attrBase))

theorem trace_attributeTrees (grid : Grid) :
    trace (attributeTrees grid) = (branches grid).map .makeBranch := by
  unfold attributeTrees branches
  split
  · rename_i hnone
    rw [hnone]
    rfl
  · exact filter_map_eq_self (fun _ => rfl) _

/-- The command that stores the dbref of a proxy. -/
def storingProxy (mode : Mode) (proxy : Room) : Command :=
  match mode with
  | .managed => .ensureThing proxy.attrName proxy.name
  | .unmanaged => .createThing proxy.attrName proxy.name
  | .noSideEffects => .storeHere proxy.attrName

theorem trace_proxy (mode : Mode) (room : Room) :
    trace (proxy mode room) = [storingProxy mode room] := by
  have hcreate : trace (createProxy mode room) = [storingProxy mode room] := by
    cases mode <;> rfl
  have hcode : trace (proxyCode mode room) = [] := by
    unfold proxyCode
    split
    · rfl
    · cases mode <;> rfl
  rw [proxy, trace_append, trace_append, hcreate, hcode]
  rfl

theorem trace_flatMap_proxy (mode : Mode) (rooms : List Room) :
    trace (rooms.flatMap (proxy mode)) = rooms.map (storingProxy mode) := by
  rw [trace_flatMap, List.map_eq_flatMap]
  exact List.flatMap_congr fun room _ => trace_proxy mode room

theorem trace_proxies (mode : Mode) (grid : Grid) (role : String) (labels : List Label) :
    trace (proxies mode grid role labels) =
      (labels.filterMap grid.room?).map (storingProxy mode) := by
  unfold proxies
  split
  · rename_i hempty
    rw [List.isEmpty_iff.mp hempty]
    rfl
  · exact trace_flatMap_proxy mode _

/-! ### Rooms and exits -/

theorem trace_wire {traits : Traits} (htraits : grid.Resolves traits) (mode : Mode)
    (subject : String) : trace (commands (wire mode grid subject traits)) = [] := by
  apply trace_eq_nil
  intro command hcommand
  exact Command.leavesTrace_of_subject? (of_mem_commands_wire htraits hcommand).1

theorem trace_runCode (code : String) : trace (runCode code) = [] := by
  unfold runCode
  split <;> rfl

theorem trace_dig {room : Room} (htraits : grid.Resolves room.traits) (mode : Mode) :
    trace (commands (dig mode grid room)) = [storing mode room] := by
  have hcreate : trace (createRoom mode room) = [storing mode room] := by
    cases mode <;> rfl
  rw [commands_dig, trace_append, hcreate, trace_wire htraits]
  rfl

theorem trace_digging (hclosed : grid.Closed) (mode : Mode) :
    trace ((digging mode grid).map (·.2)) = (buildOrder grid).map (storing mode) := by
  rw [map_snd_digging, trace_flatMap, List.map_eq_flatMap]
  apply List.flatMap_congr
  intro room hroom
  obtain ⟨hmem, hreal⟩ := mem_buildOrder.mp hroom
  exact trace_dig (hclosed.room room hmem hreal) mode

theorem trace_openExit {exit : Exit} (htarget : grid.hasRoom exit.target = true)
    (htraits : grid.Resolves exit.traits) (mode : Mode) :
    trace (commands (openExit mode grid exit)) = [] := by
  have hopen : (connecting mode exit (destination grid exit)).leavesTrace = false := by
    cases mode <;> rfl
  have hrest : trace (commands (wire mode grid (ExitName.short exit.fullName) exit.traits) ++
      runCode exit.code) = [] := by
    rw [trace_append, trace_wire htraits, trace_runCode]
    rfl
  rw [commands_openExit htarget htraits, trace, List.filter_cons_of_neg (by simp [hopen])]
  exact hrest

/-- The message about a room that no exit leaves. -/
def noExits (room : Room) : String := "Creating room with no exits: " ++ room.name

/-- The message about a room that no exit leads to. -/
def noEntrances (room : Room) : String := "Created room with no entrances: " ++ room.name

theorem trace_link {room : Room}
    (hexits : ∀ exit ∈ room.exits,
      grid.hasRoom exit.target = true ∧ grid.Resolves exit.traits) (mode : Mode) :
    trace (commands (link mode grid room)) =
      if room.exits.isEmpty then [.warn (noExits room)] else [] := by
  have hopen : trace (room.exits.flatMap fun exit => commands (openExit mode grid exit)) = [] := by
    rw [trace_flatMap, List.flatMap_eq_nil_iff]
    intro exit hexit
    exact trace_openExit (hexits exit hexit).1 (hexits exit hexit).2 mode
  rw [commands_link hexits, trace_append, trace_append, trace_append, hopen, trace_runCode]
  split <;> split <;> rfl

theorem flatMap_noExits (rooms : List Room) :
    (rooms.flatMap fun room => if room.exits.isEmpty then [Command.warn (noExits room)] else []) =
      (rooms.filter (·.exits.isEmpty)).map fun room => .warn (noExits room) := by
  induction rooms with
  | nil => rfl
  | cons room rest ih =>
      rw [List.flatMap_cons, ih, List.filter_cons]
      split <;> rfl

theorem trace_closing (hclosed : grid.Closed) (mode : Mode) :
    trace (closing mode grid) =
      ((buildOrder grid).filter (·.exits.isEmpty)).map (fun room => .warn (noExits room)) ++
        entrances grid := by
  have hlinks : trace ((buildOrder grid).flatMap fun room => commands (link mode grid room)) =
      ((buildOrder grid).filter (·.exits.isEmpty)).map fun room => .warn (noExits room) := by
    rw [trace_flatMap, ← flatMap_noExits]
    apply List.flatMap_congr
    intro room hroom
    obtain ⟨hmem, hreal⟩ := mem_buildOrder.mp hroom
    exact trace_link (hclosed.exit room hmem hreal) mode
  have hwarnings : trace (entrances grid) = entrances grid :=
    filter_map_eq_self (fun _ => rfl) _
  rw [closing, List.cons_append, trace, List.filter_cons_of_neg (by decide), ← trace,
    trace_append, hlinks, hwarnings]

/-! ### Finished grids -/

/-- Looking up the labels of some rooms finds these rooms. -/
theorem filterMap_room? {rooms : List Room} (hnodup : (grid.rooms.map (·.label)).Nodup)
    (hrooms : ∀ room ∈ rooms, room ∈ grid.rooms) :
    (rooms.map (·.label)).filterMap grid.room? = rooms := by
  rw [List.filterMap_map]
  refine (List.filterMap_congr ?_).trans List.filterMap_some
  intro room hroom
  exact Grid.room?_of_mem hnodup (hrooms room hroom)

theorem filterMap_room?_standIns (h : grid.Coherent) {held : List Placeholder}
    (hheld : ∀ placeholder ∈ held, placeholder ∈ grid.standIns) :
    ((held.map grid.proxyOf).map (·.label)).filterMap grid.promote.1.room? =
      held.map grid.proxyOf := by
  apply filterMap_room? h.nodup_labels_promote
  intro room hroom
  obtain ⟨placeholder, hplaceholder, rfl⟩ := List.mem_map.mp hroom
  rw [h.rooms_promote]
  exact List.mem_append_right _ (List.mem_map_of_mem (hheld placeholder hplaceholder))

theorem filterMap_room?_parents (h : grid.Coherent) :
    grid.promote.2.parents.filterMap grid.promote.1.room? =
      (Grid.leftover grid.parents).map grid.proxyOf := by
  rw [h.parents_promote]
  exact filterMap_room?_standIns h fun _ => List.mem_append_left _

theorem filterMap_room?_zones (h : grid.Coherent) :
    grid.promote.2.zones.filterMap grid.promote.1.room? = grid.zonesLeft.map grid.proxyOf := by
  rw [h.zones_promote]
  exact filterMap_room?_standIns h fun _ => List.mem_append_right _

/-- The script for the finished grid. -/
def script (mode : Mode) (grid : Grid) : List Command :=
  opening mode grid.promote.1 grid.promote.2 ++ (digging mode grid.promote.1).map (·.2) ++
    closing mode grid.promote.1

theorem generate_eq_script (h : grid.Coherent) (mode : Mode) :
    generate mode grid = .ok (script mode grid) := generate_eq h mode

/-- The trace of the script for a coherent grid, whatever the mode. -/
theorem trace_script (h : grid.Coherent) (mode : Mode) :
    trace (script mode grid) =
      (branches grid.promote.1).map .makeBranch ++
        (grid.standIns.map grid.proxyOf).map (storingProxy mode) ++
        (buildOrder grid.promote.1).map (storing mode) ++
        (((buildOrder grid.promote.1).filter (·.exits.isEmpty)).map
          (fun room => .warn (noExits room)) ++ entrances grid.promote.1) := by
  have hproxies : (grid.standIns.map grid.proxyOf).map (storingProxy mode) =
      ((Grid.leftover grid.parents).map grid.proxyOf).map (storingProxy mode) ++
        (grid.zonesLeft.map grid.proxyOf).map (storingProxy mode) := by
    rw [Grid.standIns, List.map_append, List.map_append]
  have hannounce : trace [.announce "Digging Rooms"] = [] := rfl
  rw [script, trace_append, trace_append, opening, trace_append, trace_append, trace_append,
    trace_append, trace_preamble, trace_attributeTrees, trace_proxies, trace_proxies,
    filterMap_room?_parents h, filterMap_room?_zones h, hannounce,
    trace_digging h.closed_promote, trace_closing h.closed_promote, hproxies]
  simp only [List.nil_append, List.append_nil, List.append_assoc]

end Script

end Gridwright
