import Gridwright.Proofs.Builder.Run
import Gridwright.Proofs.Grid.Bare
import Gridwright.Proofs.Grid.Pending

/-!
# What each action does

An action that can fail is opened by two lemmas, one for its success and one for
its failure.  The others are opened by what they leave as it was.
-/

namespace Gridwright

/-- The defaults for new objects of a kind. -/
def Context.traits (context : Context) : ObjectKind → Traits
  | .room => context.room
  | .exit => context.exit

theorem Traits.reference_setReference (traits : Traits) (slot other : Slot)
    (value : Option Reference) :
    (traits.setReference slot value).reference other =
      if other = slot then value else traits.reference other := by
  cases slot <;> cases other <;> rfl

theorem Context.traits_updateTraits (context : Context) (kind other : ObjectKind)
    (change : Traits → Traits) :
    (context.updateTraits kind change).traits other =
      if other = kind then change (context.traits other) else context.traits other := by
  cases kind <;> cases other <;> rfl

namespace Builder

variable {options : BuildOptions} {builder next : Builder}

/-! ### Actions on the context -/

theorem context_setAlias (location : Location) (exit : Label) (names : String) :
    (builder.setAlias location exit names).context =
      { builder.context with aliases := builder.context.aliases.insert exit names } := by
  unfold setAlias
  cases builder.context.aliases.find? exit <;> rfl

@[simp] theorem grid_setAlias (location : Location) (exit : Label) (names : String) :
    (builder.setAlias location exit names).grid = builder.grid := by
  unfold setAlias
  cases builder.context.aliases.find? exit <;> rfl

theorem context_setReverse (location : Location) (exit back : Label) :
    (builder.setReverse location exit back).context =
      { builder.context with reverses := builder.context.reverses.insert exit back } := by
  unfold setReverse
  cases builder.context.reverses.find? exit <;> rfl

@[simp] theorem grid_setReverse (location : Location) (exit back : Label) :
    (builder.setReverse location exit back).grid = builder.grid := by
  unfold setReverse
  cases builder.context.reverses.find? exit <;> rfl

theorem context_setReverses (location : Location) (exit back : Label) :
    (builder.setReverses options location exit back).context =
      { builder.context with
        reverses :=
          let once := builder.context.reverses.insert exit back
          if options.bidirectionalReverse then once.insert back exit else once } := by
  unfold setReverses
  split <;> simp [context_setReverse]

@[simp] theorem grid_setReverses (location : Location) (exit back : Label) :
    (builder.setReverses options location exit back).grid = builder.grid := by
  unfold setReverses
  split <;> simp

/-- A reference that is set leaves the grid or makes a label known to it. -/
theorem grid_setReference (kind : ObjectKind) (slot : Slot) (value : Option Reference) :
    (builder.setReference kind slot value).grid = builder.grid ∨
      ∃ label, (builder.setReference kind slot value).grid =
        builder.grid.track slot builder.context.attrBase label := by
  unfold setReference
  cases value.bind (·.target?) with
  | none => exact Or.inl rfl
  | some label => exact Or.inr ⟨label, rfl⟩

/-! ### Creating -/

theorem createRoom_of_hasRoom {label : Label} (h : builder.grid.hasRoom label = true) :
    builder.createRoom label = builder := by
  unfold createRoom Grid.addRoom?
  simp [h, newRoom]

theorem createRoom_of_not_hasRoom {label : Label} (h : builder.grid.hasRoom label = false) :
    builder.createRoom label =
      { builder with
        grid := (builder.grid.resolvePending label).withRoom (builder.newRoom label) } := by
  have hadd : (builder.grid.resolvePending label).addRoom? (builder.newRoom label) =
      some ((builder.grid.resolvePending label).withRoom (builder.newRoom label)) :=
    Grid.addRoom?_eq_some_iff.mpr ⟨h, rfl⟩
  simp only [createRoom, hadd]

@[simp] theorem context_createRoom (label : Label) :
    (builder.createRoom label).context = builder.context := by
  cases h : builder.grid.hasRoom label with
  | true => rw [createRoom_of_hasRoom h]
  | false => rw [createRoom_of_not_hasRoom h]

/-- What opening an exit comes to, once its three checks are looked at. -/
theorem createExit_eq (label source target : Label) :
    builder.createExit options label source target =
      match builder.grid.room? source with
      | none => .error (.roomMissing source)
      | some room =>
        if builder.grid.hasRoom target = false then .error (.roomMissing target)
        else if (room.exitAt? label.key).isSome then .error (.duplicateExit label source)
        else .ok { builder with
          grid := builder.grid.withExit (builder.newExit options label source target) } := by
  unfold createExit
  cases hsource : builder.grid.room? source with
  | none => simp [Grid.hasRoom, hsource]
  | some room =>
      have hhas : builder.grid.hasRoom source = true := Grid.hasRoom_of_room? hsource
      cases htarget : builder.grid.hasRoom target with
      | false => simp [hhas]
      | true =>
          have hroom : builder.grid.room? (builder.newExit options label source target).source =
            some room := hsource
          cases hkey : room.exitAt? label.key with
          | some found =>
              have hkey' : room.exitAt? (builder.newExit options label source target).key =
                some found := hkey
              simp [hhas, Grid.addExit?, hroom, hkey, hkey']
          | none =>
              have hadd := Grid.addExit?_eq_some_iff.mpr ⟨room, hroom, hkey, rfl⟩
              simp [hhas, hadd, hkey]

theorem createExit_eq_ok_iff {label source target : Label} :
    builder.createExit options label source target = .ok next ↔
      ∃ room, builder.grid.room? source = some room ∧ builder.grid.hasRoom target = true ∧
        room.exitAt? label.key = none ∧
        next = { builder with
          grid := builder.grid.withExit (builder.newExit options label source target) } := by
  rw [createExit_eq]
  cases builder.grid.room? source with
  | none => simp
  | some room =>
      cases builder.grid.hasRoom target with
      | false => simp
      | true => cases hkey : room.exitAt? label.key <;> simp [hkey, eq_comm]

theorem createExit_eq_error_iff {label source target : Label} {cause : Cause} :
    builder.createExit options label source target = .error cause ↔
      (builder.grid.hasRoom source = false ∧ cause = .roomMissing source) ∨
      (builder.grid.hasRoom source = true ∧ builder.grid.hasRoom target = false ∧
        cause = .roomMissing target) ∨
      (builder.grid.hasRoom target = true ∧ (builder.grid.exit? source label).isSome = true ∧
        cause = .duplicateExit label source) := by
  rw [createExit_eq]
  cases hsource : builder.grid.room? source with
  | none => simp [Grid.hasRoom, Grid.exit?, hsource, @eq_comm _ cause]
  | some room =>
      have hhas : builder.grid.hasRoom source = true := Grid.hasRoom_of_room? hsource
      have hexit : builder.grid.exit? source label = room.exitAt? label.key := by
        simp only [Grid.exit?, hsource, Option.bind_some, Room.exit?]
      cases htarget : builder.grid.hasRoom target with
      | false => simp [hhas, @eq_comm _ cause]
      | true =>
          cases hkey : room.exitAt? label.key <;>
            simp [hhas, hexit, hkey, @eq_comm _ cause]

theorem createReverseExit_eq_ok_iff {label source target : Label} :
    builder.createReverseExit options label source target = .ok next ↔
      ∃ back, builder.context.reverses.find? label = some back ∧
        builder.createExit options back target source = .ok next := by
  unfold createReverseExit
  cases builder.context.reverses.find? label <;> simp

theorem createReverseExit_eq_error_iff {label source target : Label} {cause : Cause} :
    builder.createReverseExit options label source target = .error cause ↔
      (builder.context.reverses.find? label = none ∧ cause = .missingReverse label) ∨
      ∃ back, builder.context.reverses.find? label = some back ∧
        builder.createExit options back target source = .error cause := by
  unfold createReverseExit
  cases builder.context.reverses.find? label <;> simp [eq_comm]

/-! ### Adding code -/

theorem bufferRoom_eq_ok_iff {label : Label} {text : String} :
    builder.bufferRoom label text = .ok next ↔
      ∃ grid, next = { builder with grid } ∧
        (builder.grid.appendRoom? label text = some grid ∨
          builder.grid.hasRoom label = false ∧
            builder.grid.appendPlaceholder? label text = some grid) := by
  unfold bufferRoom
  cases hroom : builder.grid.hasRoom label with
  | true =>
      obtain ⟨grid, hgrid⟩ : ∃ grid, builder.grid.appendRoom? label text = some grid :=
        ⟨_, Grid.appendRoom?_eq_some_iff.mpr ⟨hroom, rfl⟩⟩
      simp [hgrid, eq_comm]
  | false =>
      have hnone : builder.grid.appendRoom? label text = none := by
        simp [Grid.appendRoom?, hroom]
      cases builder.grid.appendPlaceholder? label text <;> simp [hnone, eq_comm]

theorem bufferRoom_eq_error_iff {label : Label} {text : String} {cause : Cause} :
    builder.bufferRoom label text = .error cause ↔
      cause = .roomMissing label ∧ builder.grid.hasRoom label = false ∧
        ∀ slot, builder.grid.placeholderIn? slot label = none := by
  unfold bufferRoom
  cases hroom : builder.grid.hasRoom label with
  | true =>
      obtain ⟨grid, hgrid⟩ : ∃ grid, builder.grid.appendRoom? label text = some grid :=
        ⟨_, Grid.appendRoom?_eq_some_iff.mpr ⟨hroom, rfl⟩⟩
      simp [hgrid]
  | false =>
      have hnone : builder.grid.appendRoom? label text = none := by
        simp [Grid.appendRoom?, hroom]
      rw [← Grid.appendPlaceholder?_eq_none_iff label text]
      cases hplace : builder.grid.appendPlaceholder? label text <;>
        simp [hnone, @eq_comm _ cause]

theorem bufferExit_eq_ok_iff {room exit : Label} {text : String} :
    builder.bufferExit room exit text = .ok next ↔
      ∃ grid, next = { builder with grid } ∧
        builder.grid.appendExit? room exit text = some grid := by
  unfold bufferExit
  cases hroom : builder.grid.hasRoom room with
  | true => cases happend : builder.grid.appendExit? room exit text <;> simp [eq_comm]
  | false =>
      have hnone : builder.grid.appendExit? room exit text = none := by
        simp [Grid.appendExit?, Grid.exit?, Grid.room?_eq_none_iff.mpr hroom]
      simp [hnone]

theorem bufferExit_eq_error_iff {room exit : Label} {text : String} {cause : Cause} :
    builder.bufferExit room exit text = .error cause ↔
      (builder.grid.hasRoom room = false ∧ cause = .roomMissing room) ∨
      (builder.grid.hasRoom room = true ∧ builder.grid.exit? room exit = none ∧
        cause = .exitMissing exit room) := by
  unfold bufferExit
  cases hroom : builder.grid.hasRoom room with
  | true =>
      cases hexit : builder.grid.exit? room exit <;> simp [Grid.appendExit?, hexit, eq_comm]
  | false => simp [eq_comm]

end Builder

end Gridwright
