import Gridwright.Proofs.Builder.Coherence
import Gridwright.Proofs.Builder.History
import Mathlib.Data.List.ReduceOption

/-!
# The grid that directives declare

A builder changes its state with every directive.  `Declared.created`,
`Declared.room` and `Declared.exits` read the same grid off the list of directives
without any state: a room is as the directives before its first creation say, and
every directive that opens an exit opens one as the directives before it say.
-/

namespace Gridwright

/-! ### Reading a list of directives -/

namespace Action

def createdRoom? : Action → Option Label
  | .createRoom room => some room
  | _ => none

def opensExit : Action → Bool
  | .createExit _ _ _ | .createReverseExit _ _ _ => true
  | _ => false

end Action

namespace Declared

/-- The directives of a list, each with those that come before it, `past` among
them. -/
def withPast (past : List Directive) : List Directive → List (List Directive × Directive)
  | [] => []
  | directive :: rest => (past, directive) :: withPast (past ++ [directive]) rest

/-- The exit that a label stands for behind some directives. -/
def exit (options : BuildOptions) (past : List Directive) (label source target : Label) :
    Exit :=
  { label
    fullName :=
      (latest (Action.aliasOf? label) past).getD (ExitName.full options.naming label.name)
    source
    target
    traits :=
      { parent := reference .exit .parent past
        zone := reference .exit .zone past
        flags := flags .exit past } }

/-- The exit that an action opens behind some directives.  A way back leads from the
target to the source, under the reverse that was registered last. -/
def exit? (options : BuildOptions) (past : List Directive) : Action → Option Exit
  | .createExit label source target => some (exit options past label source target)
  | .createReverseExit label source target =>
    (latest (Action.reverseOf? options label) past).map fun back =>
      exit options past back target source
  | _ => none

/-- The exits that directives open, one for each directive that opens an exit. -/
def exits (options : BuildOptions) (directives : List Directive) : List (Option Exit) :=
  ((withPast [] directives).filter (·.2.action.opensExit)).map fun (past, directive) =>
    exit? options past directive.action

/-- The rooms that directives create, in the order of their first creation. -/
def created (directives : List Directive) : List Label :=
  (directives.filterMap (·.action.createdRoom?)).eraseDups

/-- The directives before the first that creates a room. -/
def pastOf (directives : List Directive) (label : Label) : List Directive :=
  directives.takeWhile fun directive => directive.action ≠ .createRoom label

/-- A reference, dropped if it is to the given room. -/
def other (label : Label) (reference : Option Reference) : Option Reference :=
  if reference = some (.label label) then none else reference

/-- The room that a label stands for among some directives. -/
def room (options : BuildOptions) (directives : List Directive) (label : Label) : Room :=
  { label
    attrBase := attrBase (pastOf directives label)
    traits :=
      { parent := other label (reference .room .parent (pastOf directives label))
        zone := other label (reference .room .zone (pastOf directives label))
        flags := flags .room (pastOf directives label) }
    exits := (exits options directives).reduceOption.filter (·.source = label) }

/-! ### One more directive -/

variable {options : BuildOptions} {directives : List Directive} {directive : Directive}

theorem withPast_snoc (past : List Directive) :
    withPast past (directives ++ [directive]) =
      withPast past directives ++ [(past ++ directives, directive)] := by
  induction directives generalizing past with
  | nil => simp [withPast]
  | cons first rest ih => simp [withPast, ih]

theorem exits_snoc :
    exits options (directives ++ [directive]) =
      exits options directives ++
        if directive.action.opensExit then [exit? options directives directive.action] else [] := by
  rw [exits, withPast_snoc, List.filter_append, List.map_append, List.nil_append]
  cases h : directive.action.opensExit <;> simp [h, exits]

theorem mem_created_iff {label : Label} :
    label ∈ created directives ↔
      ∃ directive ∈ directives, directive.action = .createRoom label := by
  simp only [created, List.mem_eraseDups, List.mem_filterMap]
  constructor
  · rintro ⟨directive, hmem, hcreated⟩
    refine ⟨directive, hmem, ?_⟩
    cases haction : directive.action with
    | createRoom room =>
        rw [haction] at hcreated
        cases hcreated
        rfl
    | _ =>
        rw [haction] at hcreated
        cases hcreated
  · rintro ⟨directive, hmem, haction⟩
    exact ⟨directive, hmem, by rw [haction]; rfl⟩

theorem created_snoc_of_none (h : directive.action.createdRoom? = none) :
    created (directives ++ [directive]) = created directives := by
  simp [created, h]

theorem eraseDups_concat (labels : List Label) (label : Label) :
    (labels ++ [label]).eraseDups =
      if label ∈ labels.eraseDups then labels.eraseDups else labels.eraseDups ++ [label] := by
  rw [List.eraseDups_append]
  by_cases hmem : label ∈ labels
  · simp [List.removeAll, hmem]
  · have hone : [label].eraseDups = [label] := rfl
    simp [List.removeAll, hmem, hone]

theorem created_snoc {label : Label} (haction : directive.action = .createRoom label) :
    created (directives ++ [directive]) =
      if label ∈ created directives then created directives
      else created directives ++ [label] := by
  have hsnoc : (directives ++ [directive]).filterMap (·.action.createdRoom?) =
      directives.filterMap (·.action.createdRoom?) ++ [label] := by
    rw [List.filterMap_append]
    simp only [List.filterMap_cons, List.filterMap_nil, haction, Action.createdRoom?]
  rw [created, hsnoc, eraseDups_concat, created]

/-- What comes behind the first creation of a room is not before it. -/
theorem pastOf_append {label : Label} (h : label ∈ created directives)
    (more : List Directive) : pastOf (directives ++ more) label = pastOf directives label := by
  obtain ⟨creating, hmem, haction⟩ := mem_created_iff.mp h
  clear h
  induction directives with
  | nil => cases hmem
  | cons first rest ih =>
      unfold pastOf at ih ⊢
      by_cases hfirst : first.action = .createRoom label
      · simp [hfirst]
      · have hrest : creating ∈ rest := by
          rcases List.mem_cons.mp hmem with rfl | hrest
          · exact absurd haction hfirst
          · exact hrest
        simp only [List.cons_append, List.takeWhile_cons, hfirst, ne_eq, not_false_eq_true,
          decide_true, if_true]
        exact congrArg (first :: ·) (ih hrest)

theorem pastOf_of_not_mem {label : Label} (h : label ∉ created directives)
    (haction : directive.action = .createRoom label) :
    pastOf (directives ++ [directive]) label = directives := by
  have hall : ∀ other ∈ directives, decide (other.action ≠ .createRoom label) = true := by
    intro other hother
    simpa using fun heq => h (mem_created_iff.mpr ⟨other, hother, heq⟩)
  rw [pastOf, List.takeWhile_append_of_pos hall]
  simp [haction]

/-- A directive that opens no exit changes no room that is there. -/
theorem room_snoc_of_not_opensExit {label : Label} (hlabel : label ∈ created directives)
    (h : directive.action.opensExit = false) :
    room options (directives ++ [directive]) label = room options directives label := by
  simp [room, pastOf_append hlabel, exits_snoc, h]

/-- A directive that opens an exit adds it to its source. -/
theorem room_snoc_of_exit? {label : Label} (hlabel : label ∈ created directives) {opened : Exit}
    (hopens : directive.action.opensExit = true)
    (hexit : exit? options directives directive.action = some opened) :
    room options (directives ++ [directive]) label =
      if label = opened.source then (room options directives label).withExit opened
      else room options directives label := by
  have hexits : (exits options (directives ++ [directive])).reduceOption =
      (exits options directives).reduceOption ++ [opened] := by
    rw [exits_snoc, hopens, hexit, if_pos rfl, List.reduceOption_append]
    rfl
  by_cases hsource : opened.source = label
  · rw [if_pos hsource.symm]
    simp [room, pastOf_append hlabel, hexits, Room.withExit, hsource]
  · rw [if_neg fun heq => hsource heq.symm]
    simp [room, pastOf_append hlabel, hexits, hsource]

end Declared

/-! ### Builders -/

/-- A builder holds what some directives declare, code and pending tables aside. -/
structure Built (options : BuildOptions) (directives : List Directive) (builder : Builder) :
    Prop where
  agrees : Agrees options directives builder.context
  rooms : builder.grid.bare.rooms =
    (Declared.created directives).map (Declared.room options directives)
  exits : builder.grid.bare.exits.map some = Declared.exits options directives

namespace Built

open Declared

variable {options : BuildOptions} {directives : List Directive} {directive : Directive}
  {builder next : Builder}

theorem hasRoom_iff_created (h : Built options directives builder) {label : Label} :
    builder.grid.hasRoom label = true ↔ label ∈ created directives := by
  have hlabels : builder.grid.rooms.map (·.label) = created directives := by
    have hmapped := congrArg (List.map Room.label) h.rooms
    rw [Grid.rooms_bare, List.map_map, List.map_map] at hmapped
    exact hmapped.trans (List.map_id _)
  rw [Grid.hasRoom_iff_mem, hlabels]

theorem traits (h : Built options directives builder) (kind : ObjectKind) :
    builder.context.traits kind =
      { parent := reference kind .parent directives
        zone := reference kind .zone directives
        flags := flags kind directives } := by
  rw [← h.agrees.reference, ← h.agrees.reference, ← h.agrees.flags]
  rfl

theorem bare_newExit (h : Built options directives builder) (label source target : Label) :
    (builder.newExit options label source target).bare =
      exit options directives label source target := by
  have htraits : builder.context.exit = _ := h.traits .exit
  simp only [Builder.newExit, Exit.bare, exit, htraits, h.agrees.aliases]

theorem notSelf_eq_other (label : Label) (reference : Option Reference) :
    Builder.notSelf label reference = other label reference := by
  cases reference with
  | none => rfl
  | some found =>
      cases found with
      | label target =>
          by_cases hself : target = label
          · simp [Builder.notSelf, other, Reference.target?, hself]
          · simp [Builder.notSelf, other, Reference.target?, hself]
      | _ => rfl

/-- Every exit that is declared leaves a room that is declared. -/
theorem source_mem_created (h : Built options directives builder) (hgrid : builder.grid.Coherent)
    {opened : Exit} (hopened : opened ∈ builder.grid.bare.exits) :
    opened.source ∈ created directives := by
  rw [Grid.exits_bare] at hopened
  obtain ⟨found, hfound, rfl⟩ := List.mem_map.mp hopened
  obtain ⟨room, hroom, hexit⟩ := hgrid.mem_exits_iff.mp hfound
  have hsource : room.label = found.bare.source := ((hgrid.fits room hroom).source found hexit).symm
  exact h.hasRoom_iff_created.mp (Grid.hasRoom_iff.mpr ⟨room, hroom, hsource⟩)

theorem bare_newRoom (h : Built options directives builder) (hgrid : builder.grid.Coherent)
    {label : Label} (hnew : label ∉ created directives)
    (haction : directive.action = .createRoom label) :
    (builder.newRoom label).bare = room options (directives ++ [directive]) label := by
  have htraits : builder.context.room = _ := h.traits .room
  -- no exit leaves the room yet
  have hexits : (Declared.exits options (directives ++ [directive])).reduceOption.filter
      (·.source = label) = [] := by
    have hsame : Declared.exits options (directives ++ [directive]) =
        builder.grid.bare.exits.map some := by
      rw [exits_snoc, haction, h.exits]
      exact List.append_nil _
    rw [hsame, List.reduceOption, List.filterMap_map, List.filter_eq_nil_iff]
    intro opened hopened hsource
    have hmem : opened ∈ builder.grid.bare.exits := by simpa using hopened
    exact hnew (of_decide_eq_true hsource ▸ h.source_mem_created hgrid hmem)
  simp only [room, pastOf_of_not_mem hnew haction, hexits, Builder.newRoom, Room.bare, htraits,
    notSelf_eq_other, h.agrees.attrBase, List.map_nil]

/-! ### Steps -/

theorem fresh : Built options [] {} where
  agrees := agrees_fresh options
  rooms := rfl
  exits := rfl

/-- A directive that creates no room and opens no exit. -/
theorem of_bare (h : Built options directives builder)
    (hcontext : next.context = builder.context.after options directive.action)
    (hgrid : next.grid.bare = builder.grid.bare)
    (hroom : directive.action.createdRoom? = none)
    (hexit : directive.action.opensExit = false) :
    Built options (directives ++ [directive]) next where
  agrees := hcontext ▸ h.agrees.after directive
  rooms := by
    rw [hgrid, h.rooms, created_snoc_of_none hroom]
    apply List.map_congr_left
    intro label hlabel
    exact (room_snoc_of_not_opensExit hlabel hexit).symm
  exits := by
    rw [hgrid, h.exits, exits_snoc, hexit]
    exact (List.append_nil _).symm

theorem createRoom (h : Built options directives builder) (hgrid : builder.grid.Coherent)
    {label : Label} (haction : directive.action = .createRoom label) :
    Built options (directives ++ [directive]) (builder.createRoom label) := by
  have hexit : directive.action.opensExit = false := by rw [haction]; rfl
  have hagrees : Agrees options (directives ++ [directive]) (builder.createRoom label).context := by
    have hafter := h.agrees.after directive
    rw [haction] at hafter
    rw [Builder.context_createRoom]
    exact hafter
  have hold : ∀ known ∈ created directives,
      room options directives known = room options (directives ++ [directive]) known :=
    fun known hknown => (room_snoc_of_not_opensExit hknown hexit).symm
  have hexits : Declared.exits options (directives ++ [directive]) =
      Declared.exits options directives := by
    rw [exits_snoc, hexit]
    exact List.append_nil _
  refine ⟨hagrees, ?_, ?_⟩
  · by_cases hknown : label ∈ created directives
    · rw [Builder.createRoom_of_hasRoom (h.hasRoom_iff_created.mpr hknown), h.rooms,
        created_snoc haction, if_pos hknown]
      exact List.map_congr_left hold
    · have hnew : builder.grid.hasRoom label = false := by
        rw [← Bool.not_eq_true, h.hasRoom_iff_created]
        exact hknown
      rw [Builder.createRoom_of_not_hasRoom hnew, created_snoc haction, if_neg hknown]
      rw [Grid.bare_withRoom, Grid.rooms_withRoom, h.bare_newRoom hgrid hknown haction,
        List.map_append, ← List.map_congr_left hold, ← h.rooms]
      rfl
  · rw [hexits, ← h.exits]
    cases hknown : builder.grid.hasRoom label with
    | true => rw [Builder.createRoom_of_hasRoom hknown]
    | false =>
        rw [Builder.createRoom_of_not_hasRoom hknown, Grid.exits_bare, Grid.exits_bare]
        exact congrArg _ (congrArg _ (hgrid.exits_withRoom (builder.newRoom label)))

/-- A directive that opens an exit. -/
theorem openExit (h : Built options directives builder) (hgrid : builder.grid.Coherent)
    {room : Room} {label source target : Label}
    (hroom : builder.grid.room? source = some room) (hkey : room.exitAt? label.key = none)
    (hcontext : builder.context.after options directive.action = builder.context)
    (hcreated : directive.action.createdRoom? = none)
    (hopens : directive.action.opensExit = true)
    (hexit : exit? options directives directive.action =
      some (exit options directives label source target)) :
    Built options (directives ++ [directive])
      { builder with
        grid := builder.grid.withExit (builder.newExit options label source target) } where
  agrees := hcontext ▸ h.agrees.after directive
  rooms := by
    rw [Grid.bare_withExit, h.bare_newExit, Grid.rooms_withExit, h.rooms, List.map_map,
      created_snoc_of_none hcreated]
    apply List.map_congr_left
    intro known hknown
    exact (room_snoc_of_exit? hknown hopens hexit).symm
  exits := by
    have hlast : (builder.grid.withExit (builder.newExit options label source target)).exits =
        builder.grid.exits ++ [builder.newExit options label source target] :=
      hgrid.exits_withExit hroom hkey
    rw [Grid.exits_bare, hlast, List.map_append, ← Grid.exits_bare, List.map_append, h.exits,
      exits_snoc, if_pos hopens, hexit, ← h.bare_newExit]
    rfl

/-- Every directive that succeeds builds what it declares. -/
theorem act (h : Built options directives builder) (hgrid : builder.grid.Coherent)
    (hnext : builder.act options directive.location directive.action = .ok next) :
    Built options (directives ++ [directive]) next := by
  have hcontext := Builder.context_act hnext
  obtain ⟨location, action⟩ := directive
  cases action with
  | error message => cases hnext
  | nop | warning | attrBase | setFlags =>
      cases hnext
      exact h.of_bare hcontext rfl rfl rfl
  | exitAlias exit names =>
      cases hnext
      exact h.of_bare hcontext (congrArg Grid.bare (Builder.grid_setAlias _ exit names)) rfl rfl
  | reverse exit back =>
      cases hnext
      exact h.of_bare hcontext (congrArg Grid.bare (Builder.grid_setReverses _ exit back)) rfl rfl
  | setReference kind slot value =>
      cases hnext
      have hbare : (builder.setReference kind slot value).grid.bare = builder.grid.bare := by
        rcases Builder.grid_setReference kind slot value with hgrid | ⟨target, hgrid⟩
        · rw [hgrid]
        · rw [hgrid]
          exact Grid.bare_congr (Grid.rooms_track slot _ target) (Grid.edges_track slot _ target)
      exact h.of_bare hcontext hbare rfl rfl
  | createRoom label =>
      cases hnext
      exact h.createRoom hgrid rfl
  | createExit label source target =>
      obtain ⟨room, hroom, -, hkey, rfl⟩ := Builder.createExit_eq_ok_iff.mp hnext
      exact h.openExit hgrid hroom hkey rfl rfl rfl rfl
  | createReverseExit label source target =>
      obtain ⟨back, hback, hopen⟩ := Builder.createReverseExit_eq_ok_iff.mp hnext
      obtain ⟨room, hroom, -, hkey, rfl⟩ := Builder.createExit_eq_ok_iff.mp hopen
      have hlatest : latest (Action.reverseOf? options label) directives = some back :=
        (h.agrees.reverses label).symm.trans hback
      have hexit : exit? options directives (.createReverseExit label source target) =
          some (exit options directives back target source) := by
        rw [exit?, hlatest, Option.map_some]
      exact h.openExit hgrid hroom hkey rfl rfl rfl hexit
  | bufferRoom label text =>
      obtain ⟨grid, rfl, happend⟩ := Builder.bufferRoom_eq_ok_iff.mp hnext
      have hbare : grid.bare = builder.grid.bare := by
        rcases happend with happend | ⟨-, happend⟩
        · exact Grid.bare_appendRoom? happend
        · obtain ⟨slot, held, -, -, rfl⟩ := Grid.appendPlaceholder?_eq_some_iff.mp happend
          exact Grid.bare_congr (Grid.rooms_setPending slot _) (Grid.edges_setPending slot _)
      exact h.of_bare hcontext hbare rfl rfl
  | bufferExit room label text =>
      obtain ⟨grid, rfl, happend⟩ := Builder.bufferExit_eq_ok_iff.mp hnext
      exact h.of_bare hcontext (Grid.bare_appendExit? happend) rfl rfl

/-- Every run that succeeds builds what its directives declare. -/
theorem of_applyAll (hrun : Builder.applyAll options {} directives = .ok builder) :
    Built options directives builder := by
  have hboth : builder.Coherent ∧ Built options directives builder :=
    Builder.applyAll_induction
      (motive := fun directives builder => builder.Coherent ∧ Built options directives builder)
      ⟨Builder.coherent_fresh, fresh⟩
      (fun _ _ _ _ h hnext => ⟨h.1.act hnext, h.2.act h.1.grid hnext⟩) hrun
  exact hboth.2

end Built

/-- A run that succeeds leaves the rooms and exits that its directives declare, code and
pending tables aside: the rooms in the order of their first creation, and one exit for each
directive that opens one, in the order of these directives. -/
theorem grid_eq_declared {options : BuildOptions} {directives : List Directive}
    {builder : Builder} (hrun : Builder.applyAll options {} directives = .ok builder) :
    builder.grid.rooms.map Room.bare =
        (Declared.created directives).map (Declared.room options directives) ∧
      builder.grid.exits.map (fun exit => some exit.bare) =
        Declared.exits options directives := by
  have hbuilt := Built.of_applyAll hrun
  refine ⟨hbuilt.rooms, ?_⟩
  rw [← hbuilt.exits, Grid.exits_bare, List.map_map]
  rfl

/-- A run that takes back what it said, opens a way back and creates a room that its
defaults refer to. -/
theorem grid_eq_declared_sample :
    let hall : Label := ⟨"\"Hall\""⟩
    let yard : Label := ⟨"\"Yard\"2"⟩
    let east : Label := ⟨"\"East\""⟩
    let west : Label := ⟨"\"West\""⟩
    let directives : List Directive :=
      [.attrBase "OLD.", .attrBase "  ", .setReference .room .parent (some (.label hall)),
        .setReference .room .zone (some (.dbref "#7")), .setFlags .room (some "DARK"),
        .createRoom hall, .attrBase " AREA. ", .createRoom yard, .createRoom hall,
        .reverse west east, .exitAlias west "Back;b", .exitAlias west "West;w",
        .setFlags .exit (some "CLOUDY"), .createExit east hall yard,
        .createReverseExit east hall yard, .bufferRoom hall "@fo me=look",
        .bufferExit yard west "@lock me"].map (Directive.mk ⟨"hall.qb", 1⟩)
    Declared.created directives = [hall, yard] ∧
    (Declared.exits {} directives).map (·.map (·.fullName)) =
      [some "East", some "West;w"] ∧
    ∃ builder, Builder.applyAll {} {} directives = .ok builder ∧
      builder.grid.rooms.map Room.bare =
        (Declared.created directives).map (Declared.room {} directives) ∧
      builder.grid.exits.map (fun exit => some exit.bare) = Declared.exits {} directives := by
  intro hall yard east west directives
  refine ⟨by decide +kernel, by decide +kernel, ?_⟩
  cases hrun : Builder.applyAll {} {} directives with
  | ok builder => exact ⟨builder, rfl, grid_eq_declared hrun⟩
  | error error =>
      have hok : (Builder.applyAll {} {} directives).isOk = true := by decide +kernel
      rw [hrun] at hok
      cases hok

end Gridwright
