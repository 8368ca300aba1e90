import Gridwright.Compile
import Gridwright.Proofs.Builder.Coherence
import Gridwright.Proofs.Script.Sections
import Mathlib.Data.List.Nodup
import Mathlib.Data.Prod.Lex
import Mathlib.Logic.Relation

/-!
# The order in which rooms are dug

A room is given its parent and zone as soon as it is dug, by looking up the attributes
under which they are stored.  A look-up finds something only where the other room was dug
before, and which of two rooms is dug first depends on three things, in this order: whether
it has a zone, whether it has a parent, and when it was created.  References are not among
them.  So a master that has neither zone nor parent is always there in time; any other
master need not be, even if no room depends on itself.
-/

namespace Gridwright

/-! ### Rooms that depend on each other -/

/-- A real room has another real room as its parent or zone. -/
structure Grid.Depends (grid : Grid) (slot : Slot) (room master : Room) : Prop where
  dependent : room ∈ grid.rooms ∧ room.kind = .real
  known : master ∈ grid.rooms ∧ master.kind = .real
  reference : room.traits.reference slot = some (.label master.label)

/-- No chain of parents and zones leads from a real room back to it. -/
def Grid.Acyclic (grid : Grid) : Prop :=
  ∀ room, ¬ Relation.TransGen (fun room master => ∃ slot, grid.Depends slot room master) room room

theorem Grid.acyclic_of_depth {grid : Grid} (depth : Room → Nat)
    (hdepth : ∀ slot room master, grid.Depends slot room master → depth master < depth room) :
    grid.Acyclic := by
  have hchain : ∀ room master,
      Relation.TransGen (fun room master => ∃ slot, grid.Depends slot room master) room master →
        depth master < depth room := by
    intro room master h
    induction h with
    | single hlast =>
        obtain ⟨slot, hdepends⟩ := hlast
        exact hdepth slot _ _ hdepends
    | tail _ hlast ih =>
        obtain ⟨slot, hdepends⟩ := hlast
        exact (hdepth slot _ _ hdepends).trans ih
  intro room hcycle
  exact Nat.lt_irrefl _ (hchain room room hcycle)

/-- A room of a finished grid does not depend on itself. -/
theorem Grid.Coherent.ne_of_depends {grid : Grid} (h : grid.Coherent) {slot : Slot}
    {room master : Room} (hdepends : grid.promote.1.Depends slot room master) :
    master ≠ room := by
  rintro rfl
  obtain ⟨hmem, hreal⟩ := hdepends.dependent
  exact (h.fits master (h.mem_rooms_of_real hmem hreal)).ne_self slot hdepends.reference

namespace Script

variable {grid : Grid} {mode : Mode}

/-! ### Build order -/

/-- What the order of two rooms depends on. -/
def standing (grid : Grid) (room : Room) : Bool ×ₗ Bool ×ₗ Nat :=
  toLex (room.traits.zone.isSome, toLex (room.traits.parent.isSome, grid.rooms.idxOf room))

theorem pairwise_idxOf {rooms : List Room} (hnodup : rooms.Nodup) :
    rooms.Pairwise fun room other => rooms.idxOf room < rooms.idxOf other := by
  refine List.pairwise_iff_getElem.mpr ?_
  intro i j hi hj hlt
  rwa [hnodup.idxOf_getElem i hi, hnodup.idxOf_getElem j hj]

theorem standing_lt_of_rank {room other : Room}
    (h : toLex (rank room) < toLex (rank other)) : standing grid room < standing grid other := by
  rw [Prod.Lex.toLex_lt_toLex] at h
  simp only [standing, Prod.Lex.toLex_lt_toLex]
  rcases h with hzone | ⟨hzone, hparent⟩
  · exact Or.inl hzone
  · exact Or.inr ⟨hzone, Or.inl hparent⟩

theorem standing_lt_of_idxOf {room other : Room} (hrank : rank room = rank other)
    (h : grid.rooms.idxOf room < grid.rooms.idxOf other) :
    standing grid room < standing grid other := by
  obtain ⟨hzone, hparent⟩ := Prod.mk.inj hrank
  simp only [standing, Prod.Lex.toLex_lt_toLex]
  exact Or.inr ⟨hzone, Or.inr ⟨hparent, h⟩⟩

theorem pairwise_buildOrder (hnodup : grid.rooms.Nodup) :
    (buildOrder grid).Pairwise fun room other => standing grid room < standing grid other := by
  have hranks : [(false, false), (false, true), (true, false), (true, true)].Pairwise
      fun first second => toLex first < toLex second := by decide
  -- rooms of one rank keep the order of the list, others that of their ranks
  refine List.pairwise_flatMap.mpr ⟨?_, hranks.imp ?_⟩
  · intro wanted _
    refine ((pairwise_idxOf hnodup).filter _).imp_of_mem ?_
    intro room other hroom hother hlt
    have hwanted := (of_decide_eq_true (List.mem_filter.mp hroom).2).2
    have hsame := (of_decide_eq_true (List.mem_filter.mp hother).2).2
    exact standing_lt_of_idxOf (hwanted.trans hsame.symm) hlt
  · intro first second hlt room hroom other hother
    have hfirst := (of_decide_eq_true (List.mem_filter.mp hroom).2).2
    have hsecond := (of_decide_eq_true (List.mem_filter.mp hother).2).2
    rw [← hfirst, ← hsecond] at hlt
    exact standing_lt_of_rank hlt

/-! ### What is stored and what is looked up -/

/-- The command that stores the dbref of a room. -/
def storing (mode : Mode) (room : Room) : Command :=
  match mode with
  | .managed => .ensureRoom room.attrName room.name
  | .unmanaged => .storeHereByFunction room.attrName
  | .noSideEffects => .storeHere room.attrName

/-- The command that gives a master to the room that was dug last. -/
def assigning (mode : Mode) : Slot → Room → Command
  | .parent, master => parentCommand mode "here" (.stored master.attrName)
  | .zone, master => .setZone "here" (.stored master.attrName)

theorem mem_digging {room : Room} {command : Command} :
    (room, command) ∈ digging mode grid ↔
      room ∈ buildOrder grid ∧ command ∈ commands (dig mode grid room) := by
  simp only [digging, List.mem_flatMap, List.mem_map, Prod.mk.injEq]
  constructor
  · rintro ⟨_, hroom, _, hcommand, rfl, rfl⟩
    exact ⟨hroom, hcommand⟩
  · rintro ⟨hroom, hcommand⟩
    exact ⟨room, hroom, command, hcommand, rfl, rfl⟩

theorem commands_dig (mode : Mode) (grid : Grid) (room : Room) :
    commands (dig mode grid room) =
      createRoom mode room ++ commands (wire mode grid "here" room.traits) := by
  rw [dig, commands_map_append]

theorem storing_mem_digging (mode : Mode) {room : Room} (hroom : room ∈ buildOrder grid) :
    (room, storing mode room) ∈ digging mode grid := by
  refine mem_digging.mpr ⟨hroom, ?_⟩
  rw [commands_dig]
  refine List.mem_append_left _ ?_
  cases mode <;> simp [storing, createRoom]

theorem assigning_mem_digging (mode : Mode) (hclosed : grid.Closed)
    (hnodup : (grid.rooms.map (·.label)).Nodup) {slot : Slot} {room master : Room}
    (h : grid.Depends slot room master) :
    (room, assigning mode slot master) ∈ digging mode grid := by
  have hmaster : target grid (.label master.label) = .ok (.stored master.attrName) := by
    simp only [target, Grid.room?_of_mem hnodup h.known.1]
  have hresolves := hclosed.room room h.dependent.1 h.dependent.2
  refine mem_digging.mpr ⟨mem_buildOrder.mpr h.dependent, ?_⟩
  rw [commands_dig]
  refine List.mem_append_right _ ((mem_commands (wire_ok hresolves mode "here")).mpr ?_)
  have href := h.reference
  simp only [wire, List.mem_append, List.mem_map, Option.mem_toList]
  cases slot with
  | parent => exact Or.inl (Or.inl ⟨_, href, by rw [hmaster]; rfl⟩)
  | zone => exact Or.inl (Or.inr ⟨_, href, by rw [hmaster]; rfl⟩)

theorem pairwise_digging (hnodup : grid.rooms.Nodup) (mode : Mode) :
    (digging mode grid).Pairwise fun first second =>
      first.1 = second.1 ∨ standing grid first.1 < standing grid second.1 := by
  have htag : ∀ room, ∀ tagged ∈ (commands (dig mode grid room)).map (room, ·),
      tagged.1 = room := by
    intro room tagged hmem
    obtain ⟨command, -, rfl⟩ := List.mem_map.mp hmem
    rfl
  refine List.pairwise_flatMap.mpr ⟨?_, (pairwise_buildOrder hnodup).imp ?_⟩
  · intro room _
    refine List.pairwise_of_forall_mem_list ?_
    intro first hfirst second hsecond
    exact Or.inl ((htag room first hfirst).trans (htag room second hsecond).symm)
  · intro room other hlt first hfirst second hsecond
    rw [htag room first hfirst, htag other second hsecond]
    exact Or.inr hlt

/-- A command for one room stands before a given command for another room exactly if the
one room is dug first. -/
theorem mem_before_iff (hnodup : grid.rooms.Nodup) {room other : Room} (hne : other ≠ room)
    {command stored : Command} (hstored : (other, stored) ∈ digging mode grid)
    {before after : List (Room × Command)}
    (hsplit : digging mode grid = before ++ (room, command) :: after) :
    (other, stored) ∈ before ↔ standing grid other < standing grid room := by
  have hpairs := pairwise_digging hnodup mode
  rw [hsplit] at hpairs hstored
  obtain ⟨-, hbehind, hbefore⟩ := List.pairwise_append.mp hpairs
  constructor
  · intro hmem
    exact (hbefore _ hmem _ List.mem_cons_self).resolve_left hne
  · intro hlt
    rcases List.mem_append.mp hstored with hmem | hmem
    · exact hmem
    · rcases List.mem_cons.mp hmem with hsame | hafter
      · exact absurd (Prod.mk.inj hsame).1 hne
      -- behind the split the other room would be dug last
      · have hgt := ((List.pairwise_cons.mp hbehind).1 _ hafter).resolve_left hne.symm
        exact absurd hlt (lt_asymm hgt)

/-- A master without zone and parent is dug before the rooms that depend on it. -/
theorem standing_lt_of_bare {slot : Slot} {room master : Room}
    (h : grid.Depends slot room master) (hzone : master.traits.zone = none)
    (hparent : master.traits.parent = none) : standing grid master < standing grid room := by
  refine standing_lt_of_rank (Prod.Lex.toLex_lt_toLex.mpr ?_)
  cases slot with
  | zone =>
      have href : room.traits.zone = some (.label master.label) := h.reference
      left
      simp [rank, hzone, href]
  | parent =>
      have href : room.traits.parent = some (.label master.label) := h.reference
      cases hother : room.traits.zone with
      | none =>
          right
          simp [rank, hzone, hparent, hother, href]
      | some zone =>
          left
          simp [rank, hzone, hother]

/-! ### Scripts for what sources declare -/

/-- In every script for what sources declare, a look-up of a master comes behind the command
that stores it exactly if the master stands before the room that looks it up: without a zone
where the other has one, or else without a parent where the other has one, or else created
earlier. -/
theorem master_stored_first_iff {options : BuildOptions} {sources : List Source}
    {builder : Builder} (hbuild : buildSources options sources = .ok builder) (mode : Mode) :
    let grid := builder.grid.promote.1
    generate mode builder.grid =
      .ok (opening mode grid builder.grid.promote.2 ++ (digging mode grid).map (·.2) ++
        closing mode grid) ∧
    ∀ slot room master, grid.Depends slot room master →
      (master, storing mode master) ∈ digging mode grid ∧
      (room, assigning mode slot master) ∈ digging mode grid ∧
      (∀ before after,
        digging mode grid = before ++ (room, assigning mode slot master) :: after →
          ((master, storing mode master) ∈ before ↔ standing grid master < standing grid room)) ∧
      (master.traits.zone = none → master.traits.parent = none →
        standing grid master < standing grid room) := by
  intro grid
  have hcoherent : builder.grid.Coherent := (Builder.coherent_of_applyAll hbuild).grid
  have hlabels := hcoherent.nodup_labels_promote
  refine ⟨generate_eq hcoherent mode, ?_⟩
  intro slot room master h
  have hstored := storing_mem_digging mode (mem_buildOrder.mpr h.known)
  refine ⟨hstored, assigning_mem_digging mode hcoherent.closed_promote hlabels h, ?_, ?_⟩
  · intro before after hsplit
    exact mem_before_iff hlabels.of_map (hcoherent.ne_of_depends h) hstored hsplit
  · exact standing_lt_of_bare h

/-- A cellar that is created before the hall it has as its parent is dug behind it. -/
theorem master_stored_first_sample :
    let source : Source := ⟨"manor.qb", "ROOM PARENT: \"Hall\"\n\"up\" : \"Cellar\" -> \"Hall\"\n"⟩
    let hall : Room := { label := ⟨"\"Hall\""⟩, attrBase := "ROOM." }
    let up : Exit :=
      { label := ⟨"\"up\""⟩, fullName := "up", source := ⟨"\"Cellar\""⟩, target := hall.label }
    let cellar : Room :=
      { label := up.source, attrBase := "ROOM.", traits.parent := some (.label hall.label),
        exits := [up] }
    ∃ builder, buildSources {} [source] = .ok builder ∧
      let grid := builder.grid.promote.1
      grid.rooms = [cellar, hall] ∧ grid.Depends .parent cellar hall ∧
        ∀ mode, (cellar, assigning mode .parent hall) ∈ digging mode grid ∧
          ∀ before after,
            digging mode grid = before ++ (cellar, assigning mode .parent hall) :: after →
              (hall, storing mode hall) ∈ before := by
  intro source hall up cellar
  have hseen : (buildSources {} [source]).map (·.grid.promote.1.rooms) = .ok [cellar, hall] := by
    decide +kernel
  obtain ⟨builder, hbuild, hrooms⟩ := Builder.exists_of_map_applyAll hseen
  have hdepends : builder.grid.promote.1.Depends .parent cellar hall :=
    ⟨⟨by simp [hrooms], rfl⟩, ⟨by simp [hrooms], rfl⟩, rfl⟩
  refine ⟨builder, hbuild, hrooms, hdepends, ?_⟩
  intro mode
  obtain ⟨-, hassigned, hiff, hbare⟩ :=
    (master_stored_first_iff hbuild mode).2 .parent cellar hall hdepends
  refine ⟨hassigned, ?_⟩
  intro before after hsplit
  exact (hiff before after hsplit).mpr (hbare rfl rfl)

/-- A hall in a zone is dug behind a cellar that has no zone and the hall as its parent.  In
every mode the cellar looks the hall up before it is stored. -/
theorem zoned_master_looked_up_before_stored :
    let source : Source :=
      ⟨"manor.qb", "ROOM ZONE: #5\n\"in\" : \"Hall\" -> \"Hall\"\nROOM ZONE:\n" ++
        "ROOM PARENT: \"Hall\"\n\"up\" : \"Cellar\" -> \"Hall\"\n"⟩
    let round : Exit :=
      { label := ⟨"\"in\""⟩, fullName := "in", source := ⟨"\"Hall\""⟩, target := ⟨"\"Hall\""⟩ }
    let hall : Room :=
      { label := round.source, attrBase := "ROOM.", traits.zone := some (.dbref "#5"),
        exits := [round] }
    let up : Exit :=
      { label := ⟨"\"up\""⟩, fullName := "up", source := ⟨"\"Cellar\""⟩, target := hall.label }
    let cellar : Room :=
      { label := up.source, attrBase := "ROOM.", traits.parent := some (.label hall.label),
        exits := [up] }
    ∃ builder, buildSources {} [source] = .ok builder ∧
      let grid := builder.grid.promote.1
      grid.rooms = [hall, cellar] ∧ grid.Acyclic ∧ grid.Depends .parent cellar hall ∧
        ∀ mode, ∃ before after,
          digging mode grid = before ++ (cellar, assigning mode .parent hall) :: after ∧
          (hall, storing mode hall) ∉ before ∧
          generate mode builder.grid =
            .ok (opening mode grid builder.grid.promote.2 ++
              (before ++ (cellar, assigning mode .parent hall) :: after).map (·.2) ++
              closing mode grid) := by
  intro source round hall up cellar
  have hseen : (buildSources {} [source]).map (·.grid.promote.1.rooms) = .ok [hall, cellar] := by
    decide +kernel
  obtain ⟨builder, hbuild, hrooms⟩ := Builder.exists_of_map_applyAll hseen
  have hcoherent : builder.grid.Coherent := (Builder.coherent_of_applyAll hbuild).grid
  have hlabels := hcoherent.nodup_labels_promote
  have hdepends : builder.grid.promote.1.Depends .parent cellar hall :=
    ⟨⟨by simp [hrooms], rfl⟩, ⟨by simp [hrooms], rfl⟩, rfl⟩
  have hdepth : ∀ slot ∈ [Slot.parent, .zone], ∀ room ∈ [hall, cellar], ∀ master ∈ [hall, cellar],
      room.traits.reference slot = some (.label master.label) →
        master.traits.parent.toList.length < room.traits.parent.toList.length := by
    decide +kernel
  have hacyclic : builder.grid.promote.1.Acyclic := by
    refine Grid.acyclic_of_depth (fun room => room.traits.parent.toList.length) ?_
    rintro slot room master ⟨⟨hroom, -⟩, ⟨hmaster, -⟩, href⟩
    rw [hrooms] at hroom hmaster
    exact hdepth slot (by cases slot <;> simp) room hroom master hmaster href
  have hlate :
      ¬ standing builder.grid.promote.1 hall < standing builder.grid.promote.1 cellar := by
    rw [standing, standing, hrooms]
    decide +kernel
  refine ⟨builder, hbuild, hrooms, hacyclic, hdepends, ?_⟩
  intro mode
  have hassigned := assigning_mem_digging mode hcoherent.closed_promote hlabels hdepends
  have hstored := storing_mem_digging mode (mem_buildOrder.mpr hdepends.known)
  obtain ⟨before, after, hsplit⟩ := List.append_of_mem hassigned
  refine ⟨before, after, hsplit, ?_, hsplit ▸ generate_eq hcoherent mode⟩
  rwa [mem_before_iff hlabels.of_map (hcoherent.ne_of_depends hdepends) hstored hsplit]

end Script

end Gridwright
