import Gridwright.Proofs.Builder.Actions
import Gridwright.Proofs.Grid.Edges

/-!
# Builders keep their grids coherent

The grid of a builder is coherent after any directives, in any order and with any
failures among them.  What a new object refers to is taken from the defaults, so the
invariant also says that the defaults are known to the pending tables.
-/

namespace Gridwright.Builder

variable {options : BuildOptions} {builder next : Builder}

/-- The grid is coherent and knows what the objects to come will refer to. -/
structure Coherent (builder : Builder) : Prop where
  grid : builder.grid.Coherent
  defaults : ∀ kind, builder.grid.Tracks (builder.context.traits kind)

theorem coherent_fresh : Coherent {} where
  grid := Grid.coherent_empty
  defaults := by
    intro kind slot label href
    cases kind <;> cases slot <;> cases href

/-! ### Single actions -/

/-- An action that touches neither the grid nor a default reference. -/
theorem Coherent.of_same (h : builder.Coherent) (hgrid : next.grid = builder.grid)
    (hdefaults : ∀ kind slot, (next.context.traits kind).reference slot =
      (builder.context.traits kind).reference slot) : next.Coherent := by
  refine ⟨hgrid ▸ h.grid, ?_⟩
  intro kind slot label href
  rw [hdefaults] at href
  rw [hgrid]
  exact h.defaults kind slot label href

/-- An action that leaves the context and the keys of the pending tables. -/
theorem Coherent.of_grid (h : builder.Coherent) (hcontext : next.context = builder.context)
    (hgrid : next.grid.Coherent)
    (hpending : ∀ slot label, (builder.grid.pending slot).contains label = true →
      (next.grid.pending slot).contains label = true) : next.Coherent := by
  refine ⟨hgrid, ?_⟩
  intro kind
  rw [hcontext]
  exact (h.defaults kind).mono hpending

theorem Coherent.setReference (h : builder.Coherent) (kind : ObjectKind) (slot : Slot)
    (value : Option Reference) : (builder.setReference kind slot value).Coherent := by
  have hdefault : ∀ other known label,
      (((builder.context.updateTraits kind (·.setReference slot value)).traits other).reference
        known) = some (.label label) →
      (other = kind ∧ known = slot ∧ value = some (.label label)) ∨
        (builder.context.traits other).reference known = some (.label label) := by
    intro other known label href
    rw [Context.traits_updateTraits] at href
    split at href
    · rename_i hkind
      rw [Traits.reference_setReference] at href
      split at href
      · rename_i hslot
        exact Or.inl ⟨hkind, hslot, href⟩
      · exact Or.inr href
    · exact Or.inr href
  unfold Builder.setReference
  cases htarget : value.bind (·.target?) with
  | none =>
      refine ⟨h.grid, ?_⟩
      intro other known label href
      rcases hdefault other known label href with ⟨-, -, rfl⟩ | hold
      · cases htarget
      · exact h.defaults other known label hold
  | some target =>
      refine ⟨h.grid.track slot builder.context.attrBase target, ?_⟩
      intro other known label href
      simp only [Grid.contains_pending_track]
      rcases hdefault other known label href with ⟨-, rfl, rfl⟩ | hold
      · cases htarget
        simp
      · simp [h.defaults other known label hold]

theorem reference_notSelf {label : Label} {reference : Option Reference} :
    notSelf label reference ≠ some (.label label) := by
  intro h
  have hkept := (Option.filter_eq_some_iff.mp h).2
  simp [Reference.target?] at hkept

theorem of_notSelf {label : Label} {reference : Option Reference} {found : Reference}
    (h : notSelf label reference = some found) : reference = some found :=
  (Option.filter_eq_some_iff.mp h).1

theorem Coherent.createRoom (h : builder.Coherent) (label : Label) :
    (builder.createRoom label).Coherent := by
  cases hroom : builder.grid.hasRoom label with
  | true =>
      rw [createRoom_of_hasRoom hroom]
      exact h
  | false =>
      rw [createRoom_of_not_hasRoom hroom]
      have htracks : builder.grid.Tracks (builder.newRoom label).traits := by
        intro slot target href
        cases slot with
        | parent => exact h.defaults .room .parent target (of_notSelf href)
        | zone => exact h.defaults .room .zone target (of_notSelf href)
      have hself : ∀ slot, (builder.newRoom label).traits.reference slot ≠
          some (.label (builder.newRoom label).label) := by
        intro slot
        cases slot <;> exact reference_notSelf
      have hgrid := h.grid.create hroom rfl htracks hself rfl
      exact h.of_grid rfl hgrid fun slot known hknown => by simpa using hknown

theorem Coherent.createExit (h : builder.Coherent) {label source target : Label}
    (hnext : builder.createExit options label source target = .ok next) : next.Coherent := by
  obtain ⟨room, hroom, htarget, hkey, rfl⟩ := createExit_eq_ok_iff.mp hnext
  have hgrid : (builder.grid.withExit (builder.newExit options label source target)).Coherent :=
    h.grid.withExit hroom hkey htarget (h.defaults .exit)
  exact h.of_grid rfl hgrid fun slot known hknown => by simpa using hknown

theorem Coherent.bufferRoom (h : builder.Coherent) {label : Label} {text : String}
    (hnext : builder.bufferRoom label text = .ok next) : next.Coherent := by
  obtain ⟨grid, rfl, happend | ⟨-, happend⟩⟩ := bufferRoom_eq_ok_iff.mp hnext
  · refine h.of_grid rfl (h.grid.appendRoom? happend) ?_
    obtain ⟨-, rfl⟩ := Grid.appendRoom?_eq_some_iff.mp happend
    intro slot known hknown
    simpa using hknown
  · refine h.of_grid rfl (h.grid.appendPlaceholder? happend) ?_
    obtain ⟨slot, held, -, -, rfl⟩ := Grid.appendPlaceholder?_eq_some_iff.mp happend
    intro other known hknown
    by_cases hslot : other = slot
    · simp [Grid.pending_setPending, ← hslot, hknown]
    · simp [Grid.pending_setPending, hslot, hknown]

theorem Coherent.bufferExit (h : builder.Coherent) {room exit : Label} {text : String}
    (hnext : builder.bufferExit room exit text = .ok next) : next.Coherent := by
  obtain ⟨grid, rfl, happend⟩ := bufferExit_eq_ok_iff.mp hnext
  refine h.of_grid rfl (h.grid.appendExit? happend) ?_
  obtain ⟨-, rfl⟩ := Grid.appendExit?_eq_some_iff.mp happend
  intro slot known hknown
  simpa using hknown

/-! ### Runs -/

/-- Every action that succeeds keeps a builder coherent. -/
theorem Coherent.act (h : builder.Coherent) {location : Location} {action : Action}
    (hnext : builder.act options location action = .ok next) : next.Coherent := by
  cases action with
  | nop =>
      cases hnext
      exact h
  | error message => cases hnext
  | warning message =>
      cases hnext
      exact h.of_same rfl fun _ _ => rfl
  | attrBase path =>
      cases hnext
      exact h.of_same rfl fun kind _ => by cases kind <;> rfl
  | exitAlias exit names =>
      cases hnext
      exact h.of_same (grid_setAlias location exit names) fun kind _ => by
        rw [context_setAlias]
        cases kind <;> rfl
  | reverse exit back =>
      cases hnext
      exact h.of_same (grid_setReverses location exit back) fun kind _ => by
        rw [context_setReverses]
        cases kind <;> rfl
  | setReference kind slot value =>
      cases hnext
      exact h.setReference kind slot value
  | setFlags kind value =>
      cases hnext
      exact h.of_same rfl fun other slot => by cases kind <;> cases other <;> cases slot <;> rfl
  | createRoom room =>
      cases hnext
      exact h.createRoom room
  | createExit exit source target => exact h.createExit hnext
  | createReverseExit exit source target =>
      obtain ⟨back, -, hexit⟩ := createReverseExit_eq_ok_iff.mp hnext
      exact h.createExit hexit
  | bufferRoom room text => exact h.bufferRoom hnext
  | bufferExit room exit text => exact h.bufferExit hnext

theorem coherent_of_applyAll {directives : List Directive}
    (hrun : applyAll options {} directives = .ok builder) : builder.Coherent :=
  applyAll_induction (motive := fun _ builder => builder.Coherent) coherent_fresh
    (fun _ _ _ _ h hnext => h.act hnext) hrun

/-- Whatever directives a fresh builder is given, those that fail being skipped,
every part of its state agrees with the others. -/
theorem state_agrees_after_attempts (options : BuildOptions) (directives : List Directive) :
    let builder := attemptAll options {} directives
    let grid := builder.grid
    -- rooms are filed under their own labels, and all of them are real
    ((grid.rooms.map (·.label)).Nodup ∧
      ∀ room ∈ grid.rooms, grid.room? room.label = some room ∧ room.kind = .real) ∧
    -- exits are filed under the keys of their labels, leave the room that holds them and
    -- lead to a room
    (∀ room ∈ grid.rooms, (room.exits.map (·.key)).Nodup ∧ ∀ exit ∈ room.exits,
      room.exitAt? exit.label.key = some exit ∧ exit.source = room.label ∧
        grid.hasRoom exit.target = true) ∧
    -- the edges name the exits of the rooms, each once and in the order of its room
    (grid.edges.Nodup ∧
      (∀ edge, edge ∈ grid.edges ↔
        ∃ room ∈ grid.rooms, ∃ exit ∈ room.exits, edge = ⟨room.label, exit.key⟩) ∧
      grid.exits.Nodup ∧ grid.exits.Perm (grid.rooms.flatMap (·.exits)) ∧
      grid.edges.length = (grid.rooms.map (·.exits.length)).sum ∧
      ∀ room ∈ grid.rooms, grid.exits.filter (·.source = room.label) = room.exits) ∧
    -- an entry of a pending table is a placeholder for its key, which is no room, or is
    -- resolved to its key, which is a room
    (∀ slot, (grid.pending slot).keys.Nodup ∧ ∀ entry ∈ (grid.pending slot).entries,
      (∃ held, entry.2 = .placeholder held ∧ held.label = entry.1 ∧
        grid.hasRoom entry.1 = false) ∨
      (entry.2 = .resolved entry.1 ∧ grid.hasRoom entry.1 = true)) ∧
    -- what a room, an exit or a default refers to is a key of its pending table
    ((∀ room ∈ grid.rooms, grid.Tracks room.traits ∧
        ∀ exit ∈ room.exits, grid.Tracks exit.traits) ∧
      ∀ kind, grid.Tracks (builder.context.traits kind)) ∧
    -- no room refers to itself
    (∀ room ∈ grid.rooms, ∀ slot, room.traits.reference slot ≠ some (.label room.label)) := by
  intro builder grid
  have hbuilder : builder.Coherent := coherent_of_applyAll (applyAll_accepted {} directives)
  have h : grid.Coherent := hbuilder.grid
  refine ⟨⟨h.labels_nodup, ?_⟩, ?_, ⟨h.edges_nodup, ?_, h.exits_nodup, h.exits_perm,
    h.length_edges, fun room hroom => h.filter_exits hroom⟩, ?_, ⟨?_, hbuilder.defaults⟩, ?_⟩
  · intro room hroom
    exact ⟨h.room? hroom, (h.fits room hroom).real⟩
  · intro room hroom
    have hfits := h.fits room hroom
    refine ⟨hfits.keys_nodup, ?_⟩
    intro exit hexit
    exact ⟨Room.exitAt?_of_mem hfits.keys_nodup hexit, hfits.source exit hexit,
      hfits.target exit hexit⟩
  · intro edge
    rw [h.mem_edges_iff]
    constructor
    · rintro ⟨room, hroom, exit, hexit, rfl⟩
      exact ⟨room, hroom, exit, hexit,
        congrArg (Edge.mk · exit.key) ((h.fits room hroom).source exit hexit)⟩
    · rintro ⟨room, hroom, exit, hexit, rfl⟩
      exact ⟨room, hroom, exit, hexit,
        congrArg (Edge.mk · exit.key) ((h.fits room hroom).source exit hexit)⟩
  · intro slot
    refine ⟨h.pending_nodup slot, ?_⟩
    rintro ⟨label, entry⟩ hentry
    have hsettles := h.settles slot label entry
      (OrderedMap.find?_of_mem (h.pending_nodup slot) hentry)
    cases entry with
    | placeholder held => exact Or.inl ⟨held, rfl, hsettles.1, hsettles.2⟩
    | resolved room => exact Or.inr ⟨congrArg Pending.resolved hsettles.1, hsettles.2⟩
  · intro room hroom
    exact ⟨(h.fits room hroom).tracks, (h.fits room hroom).exit_tracks⟩
  · intro room hroom
    exact (h.fits room hroom).ne_self

end Gridwright.Builder
