import Gridwright.Proofs.Builder.Named
import Gridwright.Proofs.Script.Trace

/-!
# Parents and zones that nobody creates

Directives may name a parent or zone that no directive creates.  Such a label becomes one proxy
when the grid is finished, even if it is named both as a parent and as a zone, and the script
creates the proxies in front of the rooms (`unbuilt_references_become_proxies`).
-/

namespace Gridwright

/-! ### Labels that are named and never created -/

namespace Declared

variable {directives : List Directive}

/-- The labels that directives name in a slot and never create, in the order in which they are
named first. -/
def unbuilt (slot : Slot) (directives : List Directive) : List Label :=
  (named slot directives).filter (· ∉ created directives)

theorem mem_unbuilt_iff {slot : Slot} {label : Label} :
    label ∈ unbuilt slot directives ↔
      (∃ directive ∈ directives, ∃ kind,
        directive.action = .setReference kind slot (some (.label label))) ∧
      ∀ directive ∈ directives, directive.action ≠ .createRoom label := by
  have hcreated : label ∉ created directives ↔
      ∀ directive ∈ directives, directive.action ≠ .createRoom label := by
    rw [mem_created_iff]
    push Not
    rfl
  rw [unbuilt, List.mem_filter, mem_named_iff, decide_eq_true_eq, hcreated]

end Declared

namespace Builder

variable {options : BuildOptions} {directives : List Directive} {builder : Builder}

/-- The placeholders that a run leaves in a pending table, by their labels. -/
theorem map_label_leftover_of_applyAll (hrun : applyAll options {} directives = .ok builder)
    (slot : Slot) :
    (Grid.leftover (builder.grid.pending slot)).map (·.label) =
      Declared.unbuilt slot directives := by
  have hbuilt := Built.of_applyAll hrun
  rw [(coherent_of_applyAll hrun).grid.map_label_leftover slot, keys_pending_of_applyAll hrun,
    Declared.unbuilt]
  apply List.filter_congr
  intro label _
  rw [Bool.eq_iff_iff, Bool.not_eq_true', ← Bool.not_eq_true, hbuilt.hasRoom_iff_created,
    decide_eq_true_eq]

theorem parents_promote_of_applyAll (hrun : applyAll options {} directives = .ok builder) :
    builder.grid.promote.2.parents = Declared.unbuilt .parent directives := by
  rw [(coherent_of_applyAll hrun).grid.promote_eq]
  exact map_label_leftover_of_applyAll hrun .parent

theorem zones_promote_of_applyAll (hrun : applyAll options {} directives = .ok builder) :
    builder.grid.promote.2.zones =
      (Declared.unbuilt .zone directives).filter (· ∉ Declared.unbuilt .parent directives) := by
  have hparents : (Grid.leftover builder.grid.parents).map (·.label) =
      Declared.unbuilt .parent directives := map_label_leftover_of_applyAll hrun .parent
  have hzones : (Grid.leftover builder.grid.zones).map (·.label) =
      Declared.unbuilt .zone directives := map_label_leftover_of_applyAll hrun .zone
  rw [(coherent_of_applyAll hrun).grid.promote_eq, ← hzones, ← hparents, List.filter_map]
  rfl

/-- A label becomes a proxy if some directive names it and none creates it. -/
theorem mem_promote_iff_of_applyAll (hrun : applyAll options {} directives = .ok builder)
    {label : Label} :
    label ∈ builder.grid.promote.2.parents ++ builder.grid.promote.2.zones ↔
      (∃ directive ∈ directives, ∃ kind slot,
        directive.action = .setReference kind slot (some (.label label))) ∧
      ∀ directive ∈ directives, directive.action ≠ .createRoom label := by
  have hlisted : label ∈ builder.grid.promote.2.parents ++ builder.grid.promote.2.zones ↔
      ∃ slot, label ∈ Declared.unbuilt slot directives := by
    rw [parents_promote_of_applyAll hrun, zones_promote_of_applyAll hrun, List.mem_append,
      List.mem_filter, decide_eq_true_eq]
    constructor
    · rintro (hparent | ⟨hzone, -⟩)
      · exact ⟨.parent, hparent⟩
      · exact ⟨.zone, hzone⟩
    · rintro ⟨slot, hslot⟩
      by_cases hparent : label ∈ Declared.unbuilt .parent directives
      · exact Or.inl hparent
      · cases slot with
        | parent => exact absurd hslot hparent
        | zone => exact Or.inr ⟨hslot, hparent⟩
  rw [hlisted]
  constructor
  · rintro ⟨slot, hslot⟩
    obtain ⟨⟨directive, hmem, kind, haction⟩, hnever⟩ := Declared.mem_unbuilt_iff.mp hslot
    exact ⟨⟨directive, hmem, kind, slot, haction⟩, hnever⟩
  · rintro ⟨⟨directive, hmem, kind, slot, haction⟩, hnever⟩
    exact ⟨slot, Declared.mem_unbuilt_iff.mpr ⟨⟨directive, hmem, kind, haction⟩, hnever⟩⟩

end Builder

/-! ### Sections for proxies -/

namespace Script

variable {grid : Grid}

/-- The commands that create some proxies: an announcement, and one block for each. -/
def proxySection (mode : Mode) (role : String) (rooms : List Room) : List Command :=
  if rooms.isEmpty then []
  else
    .announce ("Creating room & exit " ++ role ++ " as " ++ proxyForm mode) ::
      rooms.flatMap (proxy mode)

theorem proxies_eq_proxySection {labels : List Label} {rooms : List Room}
    (hlabels : rooms.map (·.label) = labels) (hfound : labels.filterMap grid.room? = rooms)
    (mode : Mode) (role : String) :
    proxies mode grid role labels = proxySection mode role rooms := by
  have hempty : labels.isEmpty = rooms.isEmpty := by rw [← hlabels, List.isEmpty_map]
  rw [proxies, proxySection, hfound, hempty]

theorem stores?_storingProxy_isSome (mode : Mode) (room : Room) :
    (storingProxy mode room).stores?.isSome = true := by
  cases mode <;> rfl

theorem trace_proxySection (mode : Mode) (role : String) (rooms : List Room) :
    trace (proxySection mode role rooms) = rooms.map (storingProxy mode) := by
  unfold proxySection
  split
  · rename_i hempty
    rw [List.isEmpty_iff.mp hempty]
    rfl
  · exact trace_flatMap_proxy mode rooms

/-- The sections of the proxies store a dbref for each of them and for nothing else. -/
theorem filter_stores?_proxySections (mode : Mode) (parents zones : List Room) :
    (proxySection mode "parents" parents ++ proxySection mode "zones" zones).filter
        (·.stores?.isSome) = (parents ++ zones).map (storingProxy mode) := by
  rw [← filter_trace Command.leavesTrace_of_stores?, trace_append, trace_proxySection,
    trace_proxySection, ← List.map_append]
  exact filter_map_eq_self (stores?_storingProxy_isSome mode) _

/-- Proxies that are rooms are dug, and the others are not. -/
theorem filter_digs_proxy (mode : Mode) (room : Room) :
    (proxy mode room).filter (·.digs) =
      if mode = .noSideEffects then [.digAndEnter room.name] else [] := by
  have hcode : (proxyCode mode room).filter (·.digs) = [] := by
    unfold proxyCode
    split
    · rfl
    · cases mode <;> rfl
  rw [proxy, List.filter_append, List.filter_append, hcode]
  cases mode <;> rfl

theorem filter_digs_proxySection (mode : Mode) (role : String) (rooms : List Room) :
    (proxySection mode role rooms).filter (·.digs) =
      if mode = .noSideEffects then rooms.map (.digAndEnter ·.name) else [] := by
  unfold proxySection
  split
  · rename_i hempty
    rw [List.isEmpty_iff.mp hempty]
    simp
  · rw [List.filter_cons_of_neg (by simp [Command.digs]), List.filter_flatMap,
      List.flatMap_congr fun room _ => filter_digs_proxy mode room]
    split
    · rw [List.map_eq_flatMap]
    · simp

theorem filter_digs_proxySections (mode : Mode) (parents zones : List Room) :
    (proxySection mode "parents" parents ++ proxySection mode "zones" zones).filter (·.digs) =
      if mode = .noSideEffects then (parents ++ zones).map (.digAndEnter ·.name) else [] := by
  rw [List.filter_append, filter_digs_proxySection, filter_digs_proxySection]
  split
  · rw [List.map_append]
  · rfl

theorem stores?_storing_isSome (mode : Mode) (room : Room) :
    (storing mode room).stores?.isSome = true := by
  rw [stores?_storing]
  rfl

/-- Behind the proxies, a dbref is stored for each real room and for nothing else. -/
theorem filter_stores?_digging_closing (hclosed : grid.Closed) (mode : Mode) :
    ((digging mode grid).map (·.2) ++ closing mode grid).filter (·.stores?.isSome) =
      (buildOrder grid).map (storing mode) := by
  have hwarnings : (((buildOrder grid).filter (·.exits.isEmpty)).map fun room =>
      Command.warn (noExits room)).filter (·.stores?.isSome) = [] :=
    filter_map_eq_nil (fun _ => rfl) _
  have hentrances : (entrances grid).filter (·.stores?.isSome) = [] :=
    filter_map_eq_nil (fun _ => rfl) _
  rw [← filter_trace Command.leavesTrace_of_stores?, trace_append, trace_digging hclosed,
    trace_closing hclosed, List.filter_append, List.filter_append, hwarnings, hentrances,
    List.append_nil, List.append_nil]
  exact filter_map_eq_self (stores?_storing_isSome mode) _

/-- Nothing is stored in front of the proxies. -/
theorem filter_stores?_front (grid : Grid) :
    (preamble grid ++ attributeTrees grid).filter (·.stores?.isSome) = [] := by
  rw [← filter_trace Command.leavesTrace_of_stores?, trace_append, trace_preamble,
    trace_attributeTrees, List.nil_append]
  exact filter_map_eq_nil (fun _ => rfl) _

theorem generate_eq_proxySections (h : grid.Coherent) (mode : Mode) :
    generate mode grid =
      .ok (preamble grid.promote.1 ++ attributeTrees grid.promote.1 ++
        proxySection mode "parents" ((Grid.leftover grid.parents).map grid.proxyOf) ++
        proxySection mode "zones" (grid.zonesLeft.map grid.proxyOf) ++
        .announce "Digging Rooms" ::
          ((digging mode grid.promote.1).map (·.2) ++ closing mode grid.promote.1)) := by
  rw [generate_eq h, opening,
    proxies_eq_proxySection h.parents_promote.symm (filterMap_room?_parents h) mode "parents",
    proxies_eq_proxySection h.zones_promote.symm (filterMap_room?_zones h) mode "zones"]
  simp only [List.append_assoc, List.cons_append, List.nil_append]

/-! ### Finished grids and their scripts -/

/-- Finishing the grid that directives declare appends one proxy for every label that they name
as a parent or zone and never create, and changes nothing else but the pending tables.  The
parents come first, in the order of their table; a label in both tables is listed with the
parents alone, under the path of that table.  After that no placeholder is left, so finishing
the grid again does nothing.  Every script creates each of the proxies in one block, all of them
before the rooms are dug.  The blocks store the dbref of each proxy by one command, in the order
of the proxies, and dig the proxies where these are rooms. -/
theorem unbuilt_references_become_proxies {options : BuildOptions} {directives : List Directive}
    {builder : Builder} (hrun : Builder.applyAll options {} directives = .ok builder) :
    let grid := builder.grid
    let finished := grid.promote.1
    let promotion := grid.promote.2
    -- the labels, in the order of the pending tables
    (∀ slot, (grid.pending slot).keys = Declared.named slot directives) ∧
    promotion.parents = Declared.unbuilt .parent directives ∧
    promotion.zones =
      (Declared.unbuilt .zone directives).filter (· ∉ Declared.unbuilt .parent directives) ∧
    (promotion.parents ++ promotion.zones).Nodup ∧
    (∀ label, label ∈ promotion.parents ++ promotion.zones ↔
      (∃ directive ∈ directives, ∃ kind slot,
        directive.action = .setReference kind slot (some (.label label))) ∧
      ∀ directive ∈ directives, directive.action ≠ .createRoom label) ∧
    -- the finished grid
    finished.edges = grid.edges ∧
    (∀ slot, Grid.leftover (finished.pending slot) = []) ∧
    finished.promote = (finished, {}) ∧
    ∃ parents zones : List Room,
      parents.map (·.label) = promotion.parents ∧ zones.map (·.label) = promotion.zones ∧
      finished.rooms = grid.rooms ++ (parents ++ zones) ∧
      (∀ room ∈ parents ++ zones, room.kind = .proxy ∧ room.exits = [] ∧ room.traits = {} ∧
        ∃ slot held, grid.placeholder? room.label = some (slot, held) ∧
          room.attrBase = held.attrBase) ∧
      -- the script
      ∀ mode, ∃ rest,
        generate mode grid =
          .ok (preamble finished ++ attributeTrees finished ++
            proxySection mode "parents" parents ++ proxySection mode "zones" zones ++
            .announce "Digging Rooms" :: rest) ∧
        (preamble finished ++ attributeTrees finished).filter (·.stores?.isSome) = [] ∧
        (proxySection mode "parents" parents ++ proxySection mode "zones" zones).filter
            (·.stores?.isSome) = (parents ++ zones).map (storingProxy mode) ∧
        (proxySection mode "parents" parents ++ proxySection mode "zones" zones).filter (·.digs) =
          (if mode = .noSideEffects then (parents ++ zones).map (.digAndEnter ·.name) else []) ∧
        rest.filter (·.stores?.isSome) = (buildOrder finished).map (storing mode) ∧
        ∀ room ∈ buildOrder finished, room ∈ grid.rooms := by
  intro grid finished promotion
  have h : grid.Coherent := (Builder.coherent_of_applyAll hrun).grid
  have hrooms : finished.rooms =
      grid.rooms ++ ((Grid.leftover grid.parents).map grid.proxyOf ++
        grid.zonesLeft.map grid.proxyOf) := by
    rw [← List.map_append]
    exact h.rooms_promote
  refine ⟨Builder.keys_pending_of_applyAll hrun, Builder.parents_promote_of_applyAll hrun,
    Builder.zones_promote_of_applyAll hrun, h.nodup_promote,
    fun label => Builder.mem_promote_iff_of_applyAll hrun, h.edges_promote, h.leftover_promote,
    h.promote_promote, _, _, h.parents_promote.symm, h.zones_promote.symm, hrooms, ?_, ?_⟩
  · intro room hroom
    rw [← List.map_append] at hroom
    obtain ⟨held, hheld, rfl⟩ := List.mem_map.mp hroom
    obtain ⟨slot, hfound⟩ := h.placeholder?_of_mem_standIns hheld
    exact ⟨rfl, rfl, rfl, slot, held, hfound, rfl⟩
  · intro mode
    refine ⟨_, generate_eq_proxySections h mode, filter_stores?_front finished,
      filter_stores?_proxySections mode _ _, filter_digs_proxySections mode _ _,
      filter_stores?_digging_closing h.closed_promote mode, ?_⟩
    intro room hroom
    obtain ⟨hmem, hreal⟩ := mem_buildOrder.mp hroom
    exact h.mem_rooms_of_real hmem hreal

/-- A zone that is also named as a parent becomes one proxy, under the path that was in force
when it was named as a parent.  The hall is named as a zone and created later. -/
theorem unbuilt_references_become_proxies_sample :
    let source : Source :=
      ⟨"manor.qb", "ATTR BASE: Z.\nROOM ZONE: \"Area\"\nEXIT ZONE: \"Way\"\n" ++
        "ATTR BASE: P.\nROOM PARENT: \"Area\"\nROOM ZONE: \"Hall\"\n" ++
        "\"up\" : \"Cellar\" -> \"Hall\"\n"⟩
    ∃ builder, buildSources {} [source] = .ok builder ∧
      builder.grid.promote.2 = ⟨[⟨"\"Area\""⟩], [⟨"\"Way\""⟩]⟩ ∧
      builder.grid.promote.1.rooms.map (fun room => (room.kind, room.attrName)) =
        [(.real, "P.Cellar"), (.real, "P.Hall"), (.proxy, "P.Area"), (.proxy, "Z.Way")] ∧
      builder.grid.promote.1.promote = (builder.grid.promote.1, {}) ∧
      ∃ area way : Room, area.label = ⟨"\"Area\""⟩ ∧ way.label = ⟨"\"Way\""⟩ ∧
        ∀ mode, ∃ front rest,
          generate mode builder.grid =
            .ok (front ++ proxySection mode "parents" [area] ++ proxySection mode "zones" [way] ++
              .announce "Digging Rooms" :: rest) ∧
          (proxySection mode "parents" [area] ++ proxySection mode "zones" [way]).filter
              (·.stores?.isSome) =
            match mode with
            | .managed => [.ensureThing "P.Area" "Area", .ensureThing "Z.Way" "Way"]
            | .unmanaged => [.createThing "P.Area" "Area", .createThing "Z.Way" "Way"]
            | .noSideEffects => [.storeHere "P.Area", .storeHere "Z.Way"] := by
  intro source
  have hseen : (buildSources {} [source]).map (fun builder =>
      (builder.grid.promote.2,
        builder.grid.promote.1.rooms.map fun room => (room.kind, room.attrName))) =
      .ok (⟨[⟨"\"Area\""⟩], [⟨"\"Way\""⟩]⟩,
        [(.real, "P.Cellar"), (.real, "P.Hall"), (.proxy, "P.Area"), (.proxy, "Z.Way")]) := by
    decide +kernel
  obtain ⟨builder, hbuild, hview⟩ := Builder.exists_of_map_applyAll hseen
  obtain ⟨hpromotion, hrooms⟩ := Prod.mk.inj hview
  obtain ⟨-, -, -, -, -, -, -, hagain, parents, zones, hparents, hzones, happended, -,
    hscript⟩ := unbuilt_references_become_proxies hbuild
  rw [hpromotion] at hparents hzones
  obtain ⟨area, rfl, harea⟩ := List.map_eq_singleton_iff.mp hparents
  obtain ⟨way, rfl, hway⟩ := List.map_eq_singleton_iff.mp hzones
  refine ⟨builder, hbuild, hpromotion, hrooms, hagain, area, way, harea, hway, ?_⟩
  -- the proxies are the last two rooms of the finished grid
  have hsplit : builder.grid.rooms.map (fun room => (room.kind, room.attrName)) ++
      [area, way].map (fun room => (room.kind, room.attrName)) =
        [(.real, "P.Cellar"), (.real, "P.Hall")] ++ [(.proxy, "P.Area"), (.proxy, "Z.Way")] := by
    rw [← List.map_append]
    exact happended ▸ hrooms
  have hattrs := (List.append_inj' hsplit rfl).2
  have hnames : area.name = "Area" ∧ way.name = "Way" := by
    rw [Room.name, Room.name, harea, hway]
    decide
  simp only [List.map_cons, List.map_nil, List.cons.injEq, Prod.mk.injEq, and_true] at hattrs
  obtain ⟨⟨-, hareaAttr⟩, -, hwayAttr⟩ := hattrs
  intro mode
  obtain ⟨rest, hcommands, -, hstored, -⟩ := hscript mode
  refine ⟨_, rest, hcommands, hstored.trans ?_⟩
  cases mode <;> simp [storingProxy, hareaAttr, hwayAttr, hnames]

end Script

end Gridwright
