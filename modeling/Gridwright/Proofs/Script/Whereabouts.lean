import Gridwright.Proofs.Grid.Edges
import Gridwright.Proofs.Script.Order
import Gridwright.Proofs.Script.Wording

/-!
# Where the builder is

A script opens exits and gives traits without saying where: both happen in the room that the
builder is in, and that is decided by the last command in front that moved the builder.
`located` puts this command beside every command.  Each room is dug once and gets its traits
while the builder is inside it, and each exit is opened once, from the room it leaves
(`dug_and_opened_in_place`).
-/

namespace Gridwright

namespace Command

/-- Whether a command takes the builder to another place.  What the code of the grid does is
left aside. -/
def moves : Command → Bool
  | .digAndEnter _ | .goTo _ | .goOut _ => true
  | _ => false

/-- Whether a command makes a room. -/
def digs : Command → Bool
  | .digAndEnter _ | .ensureRoom _ _ => true
  | _ => false

/-- Whether a command opens an exit. -/
def opens : Command → Bool
  | .ensureExit _ _ _ | .openExit _ _ => true
  | _ => false

/-- The object that a command gives a parent, a zone or flags. -/
def subject? : Command → Option String
  | .setParent subject _ | .setParentByFunction subject _ | .setZone subject _
  | .setFlags subject _ => some subject
  | _ => none

/-- The words of a move: a dig that goes along, or a teleport that is not told whom to take. -/
theorem moves_iff (command : Command) :
    command.moves = true ↔ ∃ word, command.words.head? = some word ∧
      ("@dig/teleport ".toList <+: word.toList ∨
        "@teleport ".toList <+: word.toList ∧ ∀ other ∈ command.words, '=' ∉ other.toList) := by
  cases command with
  | setParent subject target | setParentByFunction subject target | setZone subject target =>
      cases target with
      | dbref text | stored text =>
          unfold moves words
          simp +decide
  | _ =>
      unfold moves words
      simp +decide

theorem digs_iff (command : Command) :
    command.digs = true ↔
      command.words.head? = some "@dig/teleport " ∨ command.arguments "dig(" ≠ [] := by
  cases command with
  | setParent subject target | setParentByFunction subject target | setZone subject target =>
      cases target with
      | dbref text | stored text =>
          unfold digs arguments words given
          simp +decide
  | _ =>
      unfold digs arguments words given
      simp +decide

theorem opens_iff (command : Command) :
    command.opens = true ↔
      command.words.head? = some "@open " ∨ command.arguments "open(" ≠ [] := by
  cases command with
  | setParent subject target | setParentByFunction subject target | setZone subject target =>
      cases target with
      | dbref text | stored text =>
          unfold opens arguments words given
          simp +decide
  | _ =>
      unfold opens arguments words given
      simp +decide

/-- The object comes first, escaped where it is the argument of a call. -/
theorem subject?_eq_given (command : Command) :
    (command.subject?.map fun subject =>
        if command.words.head? = some "think parent(" then Softcode.escape subject else subject) =
      if ∃ word ∈ ["@parent ", "think parent(", "@chzone ", "@set "],
        command.words.head? = some word then command.given.head? else none := by
  cases command with
  | setParent subject target | setParentByFunction subject target | setZone subject target =>
      cases target <;> rfl
  | _ => rfl

end Command

namespace Script

/-! ### The last move -/

section Located

variable {α β : Type} {moves : α → Bool}

/-- The items of a list, each with the last one before it that moves.  In front of the list
that is `last`. -/
def located (moves : α → Bool) (last : Option α) : List α → List (Option α × α)
  | [] => []
  | item :: rest => (last, item) :: located moves (if moves item then some item else last) rest

/-- The last item that moves, behind a list. -/
def lastMove (moves : α → Bool) (last : Option α) (items : List α) : Option α :=
  items.foldl (fun last item => if moves item then some item else last) last

theorem located_append (last : Option α) (first second : List α) :
    located moves last (first ++ second) =
      located moves last first ++ located moves (lastMove moves last first) second := by
  induction first generalizing last with
  | nil => rfl
  | cons item rest ih => rw [List.cons_append, located, ih]; rfl

theorem located_of_still {items : List α} (h : ∀ item ∈ items, moves item = false)
    (last : Option α) : located moves last items = items.map (last, ·) := by
  induction items with
  | nil => rfl
  | cons item rest ih =>
      have hrest := ih fun other hother => h other (List.mem_cons_of_mem item hother)
      simp [located, h item List.mem_cons_self, hrest]

theorem map_snd_located (moves : α → Bool) (last : Option α) (items : List α) :
    (located moves last items).map (·.2) = items := by
  induction items generalizing last with
  | nil => rfl
  | cons item rest ih => rw [located, List.map_cons, ih]

theorem filter_located_eq_nil (wanted : α → Bool) {items : List α}
    (h : ∀ item ∈ items, wanted item = false) (last : Option α) :
    (located moves last items).filter (wanted ·.2) = [] := by
  refine List.filter_eq_nil_iff.mpr ?_
  intro entry hentry
  have hitem : entry.2 ∈ items := by
    rw [← map_snd_located moves last items]
    exact List.mem_map_of_mem hentry
  simp [h entry.2 hitem]

/-- Parts that come out the same wherever they are entered from can be looked at one by one. -/
theorem filter_located_flatMap {wanted : Option α × α → Bool} {items : List β}
    {part : β → List α} {expected : β → List (Option α × α)}
    (h : ∀ item ∈ items, ∀ last, (located moves last (part item)).filter wanted = expected item)
    (last : Option α) :
    (located moves last (items.flatMap part)).filter wanted = items.flatMap expected := by
  induction items generalizing last with
  | nil => rfl
  | cons item rest ih =>
      have hrest := ih fun other hother => h other (List.mem_cons_of_mem item hother)
      rw [List.flatMap_cons, located_append, List.filter_append, h item List.mem_cons_self, hrest,
        List.flatMap_cons]

end Located

variable {grid : Grid} {mode : Mode}

/-! ### Traits -/

/-- The commands that give an object its traits are about that object, and do nothing else. -/
theorem of_mem_wire {subject : String} {traits : Traits} {command : Command}
    (h : .ok command ∈ wire mode grid subject traits) :
    command.subject? = some subject ∧ command.moves = false ∧ command.digs = false ∧
      command.opens = false := by
  have hparent : ∀ found, (parentCommand mode subject found).subject? = some subject ∧
      (parentCommand mode subject found).moves = false ∧
      (parentCommand mode subject found).digs = false ∧
      (parentCommand mode subject found).opens = false := by
    intro found
    unfold parentCommand
    split
    · exact ⟨rfl, rfl, rfl, rfl⟩
    · split <;> exact ⟨rfl, rfl, rfl, rfl⟩
  simp only [wire, List.mem_append, List.mem_map] at h
  rcases h with (⟨reference, -, hstep⟩ | ⟨reference, -, hstep⟩) | ⟨flags, -, hstep⟩
  · cases hfound : target grid reference with
    | error cause =>
        rw [hfound] at hstep
        cases hstep
    | ok found =>
        rw [hfound] at hstep
        cases hstep
        exact hparent found
  · cases hfound : target grid reference with
    | error cause =>
        rw [hfound] at hstep
        cases hstep
    | ok found =>
        rw [hfound] at hstep
        cases hstep
        exact ⟨rfl, rfl, rfl, rfl⟩
  · cases hstep
    exact ⟨rfl, rfl, rfl, rfl⟩

theorem of_mem_commands_wire {subject : String} {traits : Traits}
    (htraits : grid.Resolves traits) {command : Command}
    (h : command ∈ commands (wire mode grid subject traits)) :
    command.subject? = some subject ∧ command.moves = false ∧ command.digs = false ∧
      command.opens = false :=
  of_mem_wire ((mem_commands (wire_ok htraits mode subject)).mp h)

theorem of_mem_runCode {code : String} {command : Command} (h : command ∈ runCode code) :
    command.moves = false ∧ command.digs = false ∧ command.opens = false := by
  unfold runCode at h
  split at h
  · cases h
  · rw [List.mem_singleton.mp h]
    exact ⟨rfl, rfl, rfl⟩

/-! ### Digging -/

/-- The command that makes a room. -/
def making (mode : Mode) (room : Room) : Command :=
  if mode.isManaged then .ensureRoom room.attrName room.name else .digAndEnter room.name

/-- The command that takes the builder into a room that is dug. -/
def entering (mode : Mode) (room : Room) : Command :=
  if mode.isManaged then .goTo room.attrName else .digAndEnter room.name

theorem filter_digs_createRoom (mode : Mode) (room : Room) :
    (createRoom mode room).filter (·.digs) = [making mode room] := by
  cases mode <;> rfl

theorem opens_createRoom {room : Room} {command : Command} (h : command ∈ createRoom mode room) :
    command.opens = false := by
  cases mode <;> simp only [createRoom, List.mem_cons, List.not_mem_nil, or_false] at h <;>
    rcases h with rfl | rfl <;> rfl

theorem lastMove_createRoom (last : Option (Room × Command)) (mode : Mode) (room : Room) :
    lastMove (·.2.moves) last ((createRoom mode room).map (room, ·)) =
      some (room, entering mode room) := by
  cases mode <;> rfl

theorem subject?_createRoom {room : Room} {command : Command}
    (h : command ∈ createRoom mode room) : command.subject? = none := by
  cases mode <;> simp only [createRoom, List.mem_cons, List.not_mem_nil, or_false] at h <;>
    rcases h with rfl | rfl <;> rfl

/-- Every room that is built is made by one command. -/
theorem filter_digs_digging (hclosed : grid.Closed) (mode : Mode) :
    (digging mode grid).filter (·.2.digs) =
      (buildOrder grid).map fun room => (room, making mode room) := by
  have hroom : ∀ room ∈ buildOrder grid,
      ((commands (dig mode grid room)).map (room, ·)).filter (·.2.digs) =
        [(room, making mode room)] := by
    intro room hmem
    obtain ⟨hin, hreal⟩ := mem_buildOrder.mp hmem
    have hwire : (commands (wire mode grid "here" room.traits)).filter (·.digs) = [] := by
      refine List.filter_eq_nil_iff.mpr ?_
      intro command hcommand
      simp [of_mem_commands_wire (hclosed.room room hin hreal) hcommand]
    rw [List.filter_map, commands_dig, List.filter_append]
    simp only [Function.comp_def]
    rw [filter_digs_createRoom, hwire]
    rfl
  rw [digging, List.filter_flatMap, List.flatMap_congr hroom, ← List.map_eq_flatMap]

/-- While the builder is inside a room that is dug, the room gets its traits. -/
theorem filter_subject_digging (hclosed : grid.Closed) (mode : Mode)
    (last : Option (Room × Command)) :
    (located (·.2.moves) last (digging mode grid)).filter (·.2.2.subject?.isSome) =
      (buildOrder grid).flatMap fun room =>
        (commands (wire mode grid "here" room.traits)).map fun command =>
          (some (room, entering mode room), room, command) := by
  refine filter_located_flatMap ?_ last
  intro room hmem last
  obtain ⟨hin, hreal⟩ := mem_buildOrder.mp hmem
  have hcreate : (located (·.2.moves) last ((createRoom mode room).map (room, ·))).filter
      (·.2.2.subject?.isSome) = [] := by
    refine filter_located_eq_nil (·.2.subject?.isSome) ?_ last
    intro tagged htagged
    obtain ⟨command, hcommand, rfl⟩ := List.mem_map.mp htagged
    simp [subject?_createRoom hcommand]
  have hstill : ∀ tagged ∈ (commands (wire mode grid "here" room.traits)).map (room, ·),
      tagged.2.moves = false := by
    intro tagged htagged
    obtain ⟨command, hcommand, rfl⟩ := List.mem_map.mp htagged
    exact (of_mem_commands_wire (hclosed.room room hin hreal) hcommand).2.1
  rw [commands_dig, List.map_append, located_append, List.filter_append, hcreate,
    lastMove_createRoom, located_of_still hstill, List.nil_append, List.map_map]
  refine List.filter_eq_self.mpr ?_
  intro entry hentry
  obtain ⟨command, hcommand, rfl⟩ := List.mem_map.mp hentry
  simp [(of_mem_commands_wire (hclosed.room room hin hreal) hcommand).1]

/-! ### Opening exits -/

/-- The attribute that the room behind an exit is stored in. -/
def destination (grid : Grid) (exit : Exit) : String :=
  ((grid.room? exit.target).map (·.attrName)).getD ""

/-- The command that opens an exit to the room stored in an attribute.  Only a managed script
asks whether the exit is there already, and the name to look for is the one that is shown. -/
def connecting (mode : Mode) (exit : Exit) (attr : String) : Command :=
  match mode with
  | .managed => .ensureExit exit.fullName (ExitName.short exit.fullName) attr
  | .unmanaged | .noSideEffects => .openExit exit.fullName attr

theorem openCommand_eq_connecting (mode : Mode) (exit : Exit) (attr : String) :
    openCommand mode exit attr = connecting mode exit attr := by
  cases mode <;> rfl

theorem commands_openExit {exit : Exit} (htarget : grid.hasRoom exit.target = true)
    (htraits : grid.Resolves exit.traits) (mode : Mode) :
    commands (openExit mode grid exit) =
      connecting mode exit (destination grid exit) ::
        (commands (wire mode grid (ExitName.short exit.fullName) exit.traits) ++
          runCode exit.code) := by
  obtain ⟨room, hroom⟩ := Option.isSome_iff_exists.mp htarget
  have hrun : commands ((runCode exit.code).map .ok) = runCode exit.code := by
    rw [← List.append_nil (List.map _ _), commands_map_append]
    exact List.append_nil _
  simp only [openExit, destination, hroom, commands, Option.map_some, Option.getD_some,
    openCommand_eq_connecting]
  rw [commands_append (wire_ok htraits mode _), hrun]

theorem of_connecting (mode : Mode) (exit : Exit) (attr : String) :
    (connecting mode exit attr).opens = true ∧ (connecting mode exit attr).moves = false ∧
      (connecting mode exit attr).digs = false := by
  cases mode <;> exact ⟨rfl, rfl, rfl⟩

/-- Opening an exit takes one command, and the builder stays where it is. -/
theorem filter_opens_openExit {exit : Exit} (htarget : grid.hasRoom exit.target = true)
    (htraits : grid.Resolves exit.traits) (mode : Mode) :
    (commands (openExit mode grid exit)).filter (·.opens) =
        [connecting mode exit (destination grid exit)] ∧
      ∀ command ∈ commands (openExit mode grid exit),
        command.moves = false ∧ command.digs = false := by
  have hopen := of_connecting mode exit (destination grid exit)
  have hrest : ∀ command ∈ commands (wire mode grid (ExitName.short exit.fullName) exit.traits) ++
      runCode exit.code, command.moves = false ∧ command.digs = false ∧ command.opens = false := by
    intro command hcommand
    rcases List.mem_append.mp hcommand with hwire | hrun
    · exact (of_mem_commands_wire htraits hwire).2
    · exact of_mem_runCode hrun
  rw [commands_openExit htarget htraits]
  constructor
  · rw [List.filter_cons_of_pos hopen.1, List.filter_eq_nil_iff.mpr]
    intro command hcommand
    simp [(hrest command hcommand).2.2]
  · intro command hcommand
    rcases List.mem_cons.mp hcommand with rfl | hmem
    · exact hopen.2
    · exact ⟨(hrest command hmem).1, (hrest command hmem).2.1⟩

theorem commands_link {room : Room}
    (hexits : ∀ exit ∈ room.exits,
      grid.hasRoom exit.target = true ∧ grid.Resolves exit.traits) (mode : Mode) :
    commands (link mode grid room) =
      (if room.exits.isEmpty then [.warn ("Creating room with no exits: " ++ room.name)] else []) ++
        ((if !room.exits.isEmpty || !room.code.isEmpty then [.goTo room.attrName] else []) ++
          ((room.exits.flatMap fun exit => commands (openExit mode grid exit)) ++
            runCode room.code)) := by
  have hopen : ∀ exit ∈ room.exits, ∀ step ∈ openExit mode grid exit,
      ∃ command, step = .ok command :=
    fun exit hexit => openExit_ok (hexits exit hexit).1 (hexits exit hexit).2 mode
  have hsteps : link mode grid room =
      (if room.exits.isEmpty then [.warn ("Creating room with no exits: " ++ room.name)]
        else []).map .ok ++
        ((if !room.exits.isEmpty || !room.code.isEmpty then [.goTo room.attrName]
          else []).map .ok ++
          (room.exits.flatMap (openExit mode grid) ++ ((runCode room.code).map .ok ++ []))) := by
    simp only [link, List.append_assoc, List.append_nil]
    split <;> split <;> rfl
  rw [hsteps, commands_map_append, commands_map_append, commands_flatMap_append hopen,
    commands_map_append]
  simp only [commands, List.append_nil]

/-- The exits of a room are opened one after another, and the builder is inside the room all
the while. -/
theorem filter_opens_link {room : Room}
    (hexits : ∀ exit ∈ room.exits,
      grid.hasRoom exit.target = true ∧ grid.Resolves exit.traits) (mode : Mode)
    (last : Option Command) :
    (located Command.moves last (commands (link mode grid room))).filter (·.2.opens) =
      room.exits.map fun exit =>
        (some (.goTo room.attrName), connecting mode exit (destination grid exit)) := by
  have hopened := fun exit hexit =>
    filter_opens_openExit (hexits exit hexit).1 (hexits exit hexit).2 mode
  have hrun : (runCode room.code).filter (·.opens) = [] := by
    refine List.filter_eq_nil_iff.mpr ?_
    intro command hcommand
    simp [of_mem_runCode hcommand]
  rw [commands_link hexits]
  cases hempty : room.exits.isEmpty with
  | true =>
      rw [List.isEmpty_iff.mp hempty]
      refine filter_located_eq_nil Command.opens ?_ last
      intro command hcommand
      simp only [if_true, List.mem_append, List.flatMap_nil, List.not_mem_nil, false_or] at hcommand
      rcases hcommand with hwarn | hgo | hcode
      · rw [List.mem_singleton.mp hwarn]
        rfl
      · split at hgo
        · rw [List.mem_singleton.mp hgo]
          rfl
        · cases hgo
      · exact (of_mem_runCode hcode).2.2
  | false =>
      have hstill : ∀ command ∈
          (room.exits.flatMap fun exit => commands (openExit mode grid exit)) ++ runCode room.code,
          command.moves = false := by
        intro command hcommand
        rcases List.mem_append.mp hcommand with hopen | hcode
        · obtain ⟨exit, hexit, hmem⟩ := List.mem_flatMap.mp hopen
          exact ((hopened exit hexit).2 command hmem).1
        · exact (of_mem_runCode hcode).1
      have hparts : (room.exits.flatMap fun exit =>
          (commands (openExit mode grid exit)).filter (·.opens)) =
            room.exits.map fun exit => connecting mode exit (destination grid exit) := by
        rw [List.flatMap_congr fun exit hexit => (hopened exit hexit).1, List.map_eq_flatMap]
      simp only [Bool.false_eq_true, if_false, Bool.not_false, Bool.true_or, if_true,
        List.nil_append, List.singleton_append, located, Command.moves]
      rw [located_of_still hstill, List.filter_cons_of_neg (by simp [Command.opens]),
        List.filter_map]
      simp only [Function.comp_def]
      rw [List.filter_append, List.filter_flatMap, hrun, hparts, List.append_nil, List.map_map]
      rfl

theorem digs_link {room : Room}
    (hexits : ∀ exit ∈ room.exits,
      grid.hasRoom exit.target = true ∧ grid.Resolves exit.traits) {command : Command}
    (hcommand : command ∈ commands (link mode grid room)) : command.digs = false := by
  rw [commands_link hexits] at hcommand
  simp only [List.mem_append] at hcommand
  rcases hcommand with hwarn | hgo | hopen | hcode
  · split at hwarn
    · rw [List.mem_singleton.mp hwarn]
      rfl
    · cases hwarn
  · split at hgo
    · rw [List.mem_singleton.mp hgo]
      rfl
    · cases hgo
  · obtain ⟨exit, hexit, hmem⟩ := List.mem_flatMap.mp hopen
    exact ((filter_opens_openExit (hexits exit hexit).1 (hexits exit hexit).2 mode).2
      command hmem).2
  · exact (of_mem_runCode hcode).2.1

/-! ### Sections -/

theorem no_exit_no_room {command : Command} {P : Prop} (hopens : command.opens = false)
    (hdigs : command.digs = false) : command.opens = false ∧ (command.digs = true → P) :=
  ⟨hopens, fun h => Bool.noConfusion (hdigs.symm.trans h)⟩

theorem of_mem_proxy {room : Room} {command : Command} (h : command ∈ proxy mode room) :
    command.opens = false ∧ (command.digs = true → command = .digAndEnter room.name) := by
  simp only [proxy, List.mem_append] at h
  rcases h with (hcreate | hfixed) | hcode
  · cases mode <;> simp only [createProxy, List.mem_cons, List.not_mem_nil, or_false] at hcreate
    · subst hcreate
      exact no_exit_no_room rfl rfl
    · subst hcreate
      exact no_exit_no_room rfl rfl
    · rcases hcreate with rfl | rfl
      · exact ⟨rfl, fun _ => rfl⟩
      · exact no_exit_no_room rfl rfl
  · simp only [List.mem_cons, List.not_mem_nil, or_false] at hfixed
    rcases hfixed with rfl | rfl | rfl <;> exact no_exit_no_room rfl rfl
  · unfold proxyCode at hcode
    split at hcode
    · cases hcode
    · cases mode <;> simp only [List.mem_cons, List.not_mem_nil, or_false] at hcode <;>
        rcases hcode with rfl | rfl | rfl | rfl | rfl <;>
        exact no_exit_no_room rfl rfl

theorem of_mem_proxies {role : String} {labels : List Label} {command : Command}
    (h : command ∈ proxies mode grid role labels) :
    command.opens = false ∧ (command.digs = true →
      ∃ label ∈ labels, ∃ room, grid.room? label = some room ∧
        command = .digAndEnter room.name) := by
  unfold proxies at h
  split at h
  · cases h
  · rcases List.mem_cons.mp h with rfl | hmem
    · exact no_exit_no_room rfl rfl
    · obtain ⟨room, hroom, hproxy⟩ := List.mem_flatMap.mp hmem
      obtain ⟨label, hlabel, hfound⟩ := List.mem_filterMap.mp hroom
      obtain ⟨hopens, hdigs⟩ := of_mem_proxy hproxy
      exact ⟨hopens, fun h => ⟨label, hlabel, room, hfound, hdigs h⟩⟩

theorem of_mem_opening {promotion : Promotion} {command : Command}
    (h : command ∈ opening mode grid promotion) :
    command.opens = false ∧ (command.digs = true →
      ∃ label ∈ promotion.parents ++ promotion.zones, ∃ room, grid.room? label = some room ∧
        command = .digAndEnter room.name) := by
  simp only [opening, List.mem_append] at h
  rcases h with (((hpreamble | htrees) | hparents) | hzones) | hannounce
  · have hcomment : ∃ text, command = .comment text := by
      rcases List.mem_cons.mp hpreamble with rfl | hmem
      · exact ⟨_, rfl⟩
      · obtain ⟨line, -, rfl⟩ := List.mem_map.mp hmem
        exact ⟨_, rfl⟩
    obtain ⟨text, rfl⟩ := hcomment
    exact no_exit_no_room rfl rfl
  · unfold attributeTrees at htrees
    split at htrees
    · cases htrees
    · rcases List.mem_cons.mp htrees with rfl | hmem
      · exact no_exit_no_room rfl rfl
      · obtain ⟨branch, -, rfl⟩ := List.mem_map.mp hmem
        exact no_exit_no_room rfl rfl
  · obtain ⟨hopens, hdigs⟩ := of_mem_proxies hparents
    refine ⟨hopens, fun h => ?_⟩
    obtain ⟨label, hlabel, hroom⟩ := hdigs h
    exact ⟨label, List.mem_append_left _ hlabel, hroom⟩
  · obtain ⟨hopens, hdigs⟩ := of_mem_proxies hzones
    refine ⟨hopens, fun h => ?_⟩
    obtain ⟨label, hlabel, hroom⟩ := hdigs h
    exact ⟨label, List.mem_append_right _ hlabel, hroom⟩
  · rw [List.mem_singleton.mp hannounce]
    exact no_exit_no_room rfl rfl

/-- A room found under a label that became a proxy is that proxy. -/
theorem proxy_of_promoted (h : grid.Coherent) {label : Label} {room : Room}
    (hlabel : label ∈ grid.promote.2.parents ++ grid.promote.2.zones)
    (hroom : grid.promote.1.room? label = some room) :
    room ∈ grid.promote.1.rooms ∧ room.kind = .proxy := by
  have hmem : room ∈ grid.promote.1.rooms := List.mem_of_find?_eq_some hroom
  refine ⟨hmem, ?_⟩
  obtain ⟨placeholder, hstandIn, rfl⟩ :
      ∃ placeholder ∈ grid.standIns, placeholder.label = label := by
    rw [h.promote_eq, ← List.map_append] at hlabel
    exact List.mem_map.mp hlabel
  have hproxy : grid.proxyOf placeholder ∈ grid.promote.1.rooms := by
    rw [h.rooms_promote]
    exact List.mem_append_right _ (List.mem_map_of_mem hstandIn)
  have hfound := Grid.room?_of_mem h.nodup_labels_promote hproxy
  have hsame : room = grid.proxyOf placeholder := Option.some.inj (hroom.symm.trans hfound)
  rw [hsame]
  rfl

theorem filter_opens_closing (hclosed : grid.Closed) (mode : Mode) (last : Option Command) :
    (located Command.moves last (closing mode grid)).filter (·.2.opens) =
      (buildOrder grid).flatMap fun room => room.exits.map fun exit =>
        (some (.goTo room.attrName), connecting mode exit (destination grid exit)) := by
  have hwarnings : ∀ command ∈ entrances grid, command.opens = false := by
    intro command hcommand
    obtain ⟨room, -, rfl⟩ := List.mem_map.mp hcommand
    rfl
  have hlinks : ∀ room ∈ buildOrder grid, ∀ last,
      (located Command.moves last (commands (link mode grid room))).filter (·.2.opens) =
        room.exits.map fun exit =>
          (some (.goTo room.attrName), connecting mode exit (destination grid exit)) := by
    intro room hmem last
    obtain ⟨hin, hreal⟩ := mem_buildOrder.mp hmem
    exact filter_opens_link (hclosed.exit room hin hreal) mode last
  rw [closing, List.cons_append, located, List.filter_cons_of_neg (by simp [Command.opens]),
    located_append, List.filter_append, filter_located_flatMap hlinks,
    filter_located_eq_nil Command.opens hwarnings, List.append_nil]

theorem digs_closing (hclosed : grid.Closed) {command : Command}
    (hcommand : command ∈ closing mode grid) : command.digs = false := by
  rcases List.mem_append.mp hcommand with hlinks | hwarnings
  · rcases List.mem_cons.mp hlinks with rfl | hlink
    · rfl
    · obtain ⟨room, hroom, hmem⟩ := List.mem_flatMap.mp hlink
      obtain ⟨hin, hreal⟩ := mem_buildOrder.mp hroom
      exact digs_link (hclosed.exit room hin hreal) hmem
  · obtain ⟨room, -, rfl⟩ := List.mem_map.mp hwarnings
    rfl

theorem opens_digging (hclosed : grid.Closed) {command : Command}
    (hcommand : command ∈ (digging mode grid).map (·.2)) : command.opens = false := by
  obtain ⟨⟨room, dug⟩, hmem, rfl⟩ := List.mem_map.mp hcommand
  obtain ⟨hroom, hdig⟩ := mem_digging.mp hmem
  obtain ⟨hin, hreal⟩ := mem_buildOrder.mp hroom
  rw [commands_dig] at hdig
  rcases List.mem_append.mp hdig with hcreate | hwire
  · exact opens_createRoom hcreate
  · exact (of_mem_commands_wire (hclosed.room room hin hreal) hwire).2.2.2

/-! ### Scripts -/

/-- The rooms that are built are those of the grid before it was finished. -/
theorem buildOrder_perm (h : grid.Coherent) : (buildOrder grid.promote.1).Perm grid.rooms := by
  have hbuilt : (buildOrder grid.promote.1).Nodup := by
    refine (pairwise_buildOrder h.nodup_labels_promote.of_map).imp ?_
    rintro room _ hlt rfl
    exact lt_irrefl _ hlt
  rw [List.perm_ext_iff_of_nodup hbuilt h.labels_nodup.of_map]
  intro room
  rw [mem_buildOrder]
  constructor
  · rintro ⟨hroom, hreal⟩
    exact h.mem_rooms_of_real hroom hreal
  · intro hroom
    refine ⟨?_, (h.fits room hroom).real⟩
    rw [h.rooms_promote]
    exact List.mem_append_left _ hroom

/-- In every script for what directives declare, whatever the mode: each real room is dug once,
and while the rooms are dug each command that gives a parent, zone or flags does so to the room
that the builder was taken into last, which is the room it is meant for.  Then each exit is
opened once, in the order of the rooms and of their exits, and the last move before that took
the builder to the room that the exit leaves. -/
theorem dug_and_opened_in_place {options : BuildOptions} {directives : List Directive}
    {builder : Builder} (hrun : Builder.applyAll options {} directives = .ok builder)
    (mode : Mode) :
    let grid := builder.grid.promote.1
    let start := opening mode grid builder.grid.promote.2
    let order := buildOrder grid
    ∃ script, generate mode builder.grid = .ok script ∧
      script = start ++ (digging mode grid).map (·.2) ++ closing mode grid ∧
      -- each real room is dug once; besides, only proxies are
      order.Perm builder.grid.rooms ∧
      (digging mode grid).filter (·.2.digs) = order.map (fun room => (room, making mode room)) ∧
      (∀ command ∈ start, command.digs = true →
        ∃ room ∈ grid.rooms, room.kind = .proxy ∧ command = .digAndEnter room.name) ∧
      (∀ command ∈ closing mode grid, command.digs = false) ∧
      -- traits are given to the room that the builder is in
      (∀ last, ∀ entry ∈ located (·.2.moves) last (digging mode grid), ∀ subject,
        entry.2.2.subject? = some subject →
          subject = "here" ∧ entry.1 = some (entry.2.1, entering mode entry.2.1)) ∧
      -- each exit is opened once, from the room that it leaves
      (∀ command ∈ start ++ (digging mode grid).map (·.2), command.opens = false) ∧
      (located Command.moves none script).filter (·.2.opens) =
        (order.flatMap fun room => room.exits.map fun exit =>
          (some (.goTo room.attrName), connecting mode exit (destination grid exit))) ∧
      (order.flatMap (·.exits)).Perm builder.grid.exits ∧
      ∀ room ∈ order, ∀ exit ∈ room.exits, grid.room? exit.source = some room ∧
        ∃ target, grid.room? exit.target = some target ∧
          destination grid exit = target.attrName := by
  intro grid start order
  have h : builder.grid.Coherent := (Builder.coherent_of_applyAll hrun).grid
  have hclosed : grid.Closed := h.closed_promote
  have hfront : ∀ command ∈ start ++ (digging mode grid).map (·.2), command.opens = false := by
    intro command hcommand
    rcases List.mem_append.mp hcommand with hstart | hdug
    · exact (of_mem_opening hstart).1
    · exact opens_digging hclosed hdug
  refine ⟨_, generate_eq h mode, rfl, buildOrder_perm h, filter_digs_digging hclosed mode, ?_,
    fun _ => digs_closing hclosed, ?_, hfront, ?_, ?_, ?_⟩
  · intro command hcommand hdigs
    obtain ⟨label, hlabel, room, hroom, rfl⟩ := (of_mem_opening hcommand).2 hdigs
    obtain ⟨hmem, hproxy⟩ := proxy_of_promoted h hlabel hroom
    exact ⟨room, hmem, hproxy, rfl⟩
  · intro last entry hentry subject hsubject
    have hwired : entry ∈ (located (·.2.moves) last (digging mode grid)).filter
        (·.2.2.subject?.isSome) := List.mem_filter.mpr ⟨hentry, by simp [hsubject]⟩
    rw [filter_subject_digging hclosed mode last] at hwired
    obtain ⟨room, hroom, hmem⟩ := List.mem_flatMap.mp hwired
    obtain ⟨command, hcommand, rfl⟩ := List.mem_map.mp hmem
    obtain ⟨hin, hreal⟩ := mem_buildOrder.mp hroom
    have hhere := (of_mem_commands_wire (hclosed.room room hin hreal) hcommand).1
    exact ⟨Option.some.inj (hsubject.symm.trans hhere), rfl⟩
  · rw [located_append, List.filter_append, filter_located_eq_nil Command.opens hfront,
      filter_opens_closing hclosed, List.nil_append]
  · exact ((buildOrder_perm h).flatMap_right _).trans h.exits_perm.symm
  · intro room hroom exit hexit
    obtain ⟨hin, hreal⟩ := mem_buildOrder.mp hroom
    have hsource := (h.fits room (h.mem_rooms_of_real hin hreal)).source exit hexit
    obtain ⟨target, htarget⟩ :=
      Option.isSome_iff_exists.mp (hclosed.exit room hin hreal exit hexit).1
    refine ⟨hsource ▸ Grid.room?_of_mem h.nodup_labels_promote hin, target, htarget, ?_⟩
    rw [destination, htarget]
    rfl

/-- Two halls that bear the same name: the exits between them are opened from where each of them
is stored.  A managed script looks for the way back without its alias. -/
theorem dug_and_opened_in_place_sample :
    let source : Source :=
      ⟨"manor.qb", "\"up\" : \"Hall\" -> \"Hall\"2\n\"<D>own\" : \"Hall\"2 -> \"Hall\"\n"⟩
    ∃ builder plain managed, buildSources {} [source] = .ok builder ∧
      generate .unmanaged builder.grid = .ok plain ∧
      (located Command.moves none plain).filter (·.2.opens) =
        [(some (.goTo "ROOM.Hall"), .openExit "up" "ROOM.Hall$222"),
          (some (.goTo "ROOM.Hall$222"), .openExit "<D>own;D" "ROOM.Hall")] ∧
      generate .managed builder.grid = .ok managed ∧
      (located Command.moves none managed).filter (·.2.opens) =
        [(some (.goTo "ROOM.Hall"), .ensureExit "up" "up" "ROOM.Hall$222"),
          (some (.goTo "ROOM.Hall$222"), .ensureExit "<D>own;D" "<D>own" "ROOM.Hall")] := by
  intro source
  let opened (mode : Mode) (grid : Grid) : List (Option Command × Command) :=
    (buildOrder grid).flatMap fun room => room.exits.map fun exit =>
      (some (.goTo room.attrName), connecting mode exit (destination grid exit))
  have hseen : (buildSources {} [source]).map (fun builder =>
      (opened .unmanaged builder.grid.promote.1, opened .managed builder.grid.promote.1)) =
      .ok ([(some (.goTo "ROOM.Hall"), .openExit "up" "ROOM.Hall$222"),
          (some (.goTo "ROOM.Hall$222"), .openExit "<D>own;D" "ROOM.Hall")],
        [(some (.goTo "ROOM.Hall"), .ensureExit "up" "up" "ROOM.Hall$222"),
          (some (.goTo "ROOM.Hall$222"), .ensureExit "<D>own;D" "<D>own" "ROOM.Hall")]) := by
    decide +kernel
  obtain ⟨builder, hbuild, hexits⟩ := Builder.exists_of_map_applyAll hseen
  obtain ⟨hplain, hmanaged⟩ := Prod.mk.inj hexits
  obtain ⟨plain, hscript, -, -, -, -, -, -, -, hopened, -⟩ :=
    dug_and_opened_in_place hbuild .unmanaged
  obtain ⟨managed, hother, -, -, -, -, -, -, -, hensured, -⟩ :=
    dug_and_opened_in_place hbuild .managed
  exact ⟨builder, plain, managed, hbuild, hscript, hopened.trans hplain, hother,
    hensured.trans hmanaged⟩

end Script

end Gridwright
