import Gridwright.Proofs.Builder.Actions

/-!
# When a directive is refused, and what is left then

`Refuses` lists the ways in which a directive can fail, with the checks in the order in
which they are made: a later one counts only where the earlier ones have passed.  It is
exact, so that the cause of a failure can be read off the state before it.

A builder may also be kept in one place and be written to step by step, the edges and the
exits of its grid one after the other.  Then a failure could leave half of the work behind.
`run_perform` says that it never does: every check stands before the first step.
-/

namespace Gridwright.Builder

variable {options : BuildOptions} {builder : Builder}

/-! ### Failures -/

/-- Why an exit cannot be opened from one room to another. -/
inductive Bars (builder : Builder) : Label → Label → Label → Cause → Prop
  | sourceMissing {exit source target : Label} (hsource : builder.grid.hasRoom source = false) :
      Bars builder exit source target (.roomMissing source)
  | targetMissing {exit source target : Label} (hsource : builder.grid.hasRoom source = true)
      (htarget : builder.grid.hasRoom target = false) :
      Bars builder exit source target (.roomMissing target)
  | taken {exit source target : Label} {room : Room} {held : Exit}
      (hsource : builder.grid.room? source = some room)
      (htarget : builder.grid.hasRoom target = true) (hheld : held ∈ room.exits)
      (hkey : held.label.key = exit.key) :
      Bars builder exit source target (.duplicateExit exit source)

/-- Why an action fails at a builder. -/
inductive Refuses (builder : Builder) : Action → Cause → Prop
  | error (message : String) : Refuses builder (.error message) (.directive message)
  | createExit {exit source target : Label} {cause : Cause}
      (hbars : builder.Bars exit source target cause) :
      Refuses builder (.createExit exit source target) cause
  | missingReverse {exit source target : Label}
      (hreverse : builder.context.reverses.find? exit = none) :
      Refuses builder (.createReverseExit exit source target) (.missingReverse exit)
  | createReverseExit {exit back source target : Label} {cause : Cause}
      (hreverse : builder.context.reverses.find? exit = some back)
      (hbars : builder.Bars back target source cause) :
      Refuses builder (.createReverseExit exit source target) cause
  | bufferRoom {room : Label} {text : String} (hroom : builder.grid.hasRoom room = false)
      (hpending : ∀ slot held, (builder.grid.pending slot).find? room ≠ some (.placeholder held)) :
      Refuses builder (.bufferRoom room text) (.roomMissing room)
  | bufferExit {room exit : Label} {text : String} (hroom : builder.grid.hasRoom room = false) :
      Refuses builder (.bufferExit room exit text) (.roomMissing room)
  | exitMissing {room exit : Label} {text : String} {found : Room}
      (hroom : builder.grid.room? room = some found)
      (hexits : ∀ held ∈ found.exits, held.label.key ≠ exit.key) :
      Refuses builder (.bufferExit room exit text) (.exitMissing exit room)

theorem createExit_eq_error_iff_bars {exit source target : Label} {cause : Cause} :
    builder.createExit options exit source target = .error cause ↔
      builder.Bars exit source target cause := by
  rw [createExit_eq_error_iff]
  constructor
  · rintro (⟨hsource, rfl⟩ | ⟨hsource, htarget, rfl⟩ | ⟨htarget, hexit, rfl⟩)
    · exact .sourceMissing hsource
    · exact .targetMissing hsource htarget
    · obtain ⟨held, hheld⟩ := Option.isSome_iff_exists.mp hexit
      obtain ⟨room, hroom, hfound⟩ := Option.bind_eq_some_iff.mp hheld
      unfold Room.exit? Room.exitAt? at hfound
      have hkey := List.find?_some hfound
      exact .taken hroom htarget (List.mem_of_find?_eq_some hfound) (of_decide_eq_true hkey)
  · intro hbars
    cases hbars with
    | sourceMissing hsource => exact Or.inl ⟨hsource, rfl⟩
    | targetMissing hsource htarget => exact Or.inr (Or.inl ⟨hsource, htarget, rfl⟩)
    | @taken room held hsource htarget hheld hkey =>
        refine Or.inr (Or.inr ⟨htarget, ?_, rfl⟩)
        simp only [Grid.exit?, hsource, Option.bind_some, Room.exit?, Room.exitAt?,
          List.find?_isSome, decide_eq_true_eq]
        exact ⟨held, hheld, hkey⟩

theorem act_eq_error_iff_refuses {location : Location} {action : Action} {cause : Cause} :
    builder.act options location action = .error cause ↔ builder.Refuses action cause := by
  cases action with
  | nop | warning | attrBase | exitAlias | reverse | setReference | setFlags | createRoom =>
      constructor
      · intro h
        cases h
      · intro h
        cases h
  | error message =>
      constructor
      · intro h
        cases h
        exact .error message
      · intro h
        cases h
        rfl
  | createExit exit source target =>
      refine createExit_eq_error_iff_bars.trans ⟨.createExit, ?_⟩
      intro h
      cases h with
      | createExit hbars => exact hbars
  | createReverseExit exit source target =>
      refine createReverseExit_eq_error_iff.trans ⟨?_, ?_⟩
      · rintro (⟨hreverse, rfl⟩ | ⟨back, hreverse, hopen⟩)
        · exact .missingReverse hreverse
        · exact .createReverseExit hreverse (createExit_eq_error_iff_bars.mp hopen)
      · intro h
        cases h with
        | missingReverse hreverse => exact Or.inl ⟨hreverse, rfl⟩
        | createReverseExit hreverse hbars =>
            exact Or.inr ⟨_, hreverse, createExit_eq_error_iff_bars.mpr hbars⟩
  | bufferRoom room text =>
      have hpending : ∀ slot, builder.grid.placeholderIn? slot room = none ↔
          ∀ held, (builder.grid.pending slot).find? room ≠ some (.placeholder held) := by
        intro slot
        simp only [Option.eq_none_iff_forall_ne_some, ne_eq, Grid.placeholderIn?_eq_some_iff]
      refine bufferRoom_eq_error_iff.trans ⟨?_, ?_⟩
      · rintro ⟨rfl, hroom, hnone⟩
        exact .bufferRoom hroom fun slot => (hpending slot).mp (hnone slot)
      · intro h
        cases h with
        | bufferRoom hroom hnone =>
            exact ⟨rfl, hroom, fun slot => (hpending slot).mpr (hnone slot)⟩
  | bufferExit room exit text =>
      refine bufferExit_eq_error_iff.trans ⟨?_, ?_⟩
      · rintro (⟨hroom, rfl⟩ | ⟨hroom, hexit, rfl⟩)
        · exact .bufferExit hroom
        · obtain ⟨found, hfound⟩ := Option.isSome_iff_exists.mp hroom
          simp only [Grid.exit?, hfound, Option.bind_some, Room.exit?] at hexit
          exact .exitMissing hfound (Room.exitAt?_eq_none_iff.mp hexit)
      · intro h
        cases h with
        | bufferExit hroom => exact Or.inl ⟨hroom, rfl⟩
        | exitMissing hroom hexits =>
            refine Or.inr ⟨Grid.hasRoom_of_room? hroom, ?_, rfl⟩
            simp only [Grid.exit?, hroom, Option.bind_some, Room.exit?]
            exact Room.exitAt?_eq_none_iff.mpr hexits

/-! ### In place -/

/-- A change to a builder that is kept in one place: what was written before a failure
stays written. -/
abbrev Procedure := EStateM Cause Builder Unit

def require (condition : Builder → Bool) (cause : Cause) : Procedure := do
  if condition (← get) then pure () else throw cause

def writeGrid (change : Grid → Grid) : Procedure :=
  modify fun builder => { builder with grid := change builder.grid }

/-- Opens an exit: the edge is written first, then the exit of the source. -/
def performOpening (options : BuildOptions) (label source target : Label) : Procedure := do
  require (·.grid.hasRoom source) (.roomMissing source)
  require (·.grid.hasRoom target) (.roomMissing target)
  require (fun builder => (builder.grid.exit? source label).isNone) (.duplicateExit label source)
  let exit := (← get).newExit options label source target
  writeGrid fun grid => { grid with edges := grid.edges ++ [exit.edge] }
  writeGrid fun grid => grid.updateRoom source (·.withExit exit)

def performBuffering (label : Label) (text : String) : Procedure := do
  let grid := (← get).grid
  if grid.hasRoom label then
    writeGrid fun grid =>
      grid.updateRoom label fun room => { room with buffer := room.buffer ++ text }
  else
    match grid.placeholder? label with
    | some (slot, held) =>
      writeGrid fun grid => grid.setPending slot
        ((grid.pending slot).insert label
          (.placeholder { held with buffer := held.buffer ++ text }))
    | none => throw (.roomMissing label)

/-- An action as a change in place. -/
def perform (options : BuildOptions) (location : Location) : Action → Procedure
  | .nop => pure ()
  | .error message => throw (.directive message)
  | .warning message => modify (·.warn location message)
  | .attrBase path => modify (·.setAttrBase path)
  | .exitAlias exit names => modify (·.setAlias location exit names)
  | .reverse exit back => modify (·.setReverses options location exit back)
  | .setReference kind slot value => modify (·.setReference kind slot value)
  | .setFlags kind value => modify (·.setFlags kind value)
  | .createRoom room => modify (·.createRoom room)
  | .createExit exit source target => performOpening options exit source target
  | .createReverseExit exit source target => do
    match (← get).context.reverses.find? exit with
    | none => throw (.missingReverse exit)
    | some back => performOpening options back target source
  | .bufferRoom room text => performBuffering room text
  | .bufferExit room exit text => do
    require (·.grid.hasRoom room) (.roomMissing room)
    require (fun builder => (builder.grid.exit? room exit).isSome) (.exitMissing exit room)
    writeGrid (·.updateRoom room (Grid.appendToExit exit.key text))

/-- A directive as a change in place: a failure carries the line of the directive. -/
def performDirective (options : BuildOptions) (directive : Directive) :
    EStateM Error Builder Unit :=
  EStateM.adaptExcept (fun cause => { cause, location := some directive.location })
    (perform options directive.location directive.action)

/-- What a change in place comes to if it does all or nothing. -/
def settle {ε : Type} (builder : Builder) : Except ε Builder → EStateM.Result ε Builder Unit
  | .ok next => .ok () next
  | .error cause => .error cause builder

@[simp] theorem run_require (condition : Builder → Bool) (cause : Cause) :
    (require condition cause).run builder =
      if condition builder then .ok () builder else .error cause builder := by
  cases h : condition builder <;> simp [require, h]

@[simp] theorem run_writeGrid (change : Grid → Grid) :
    (writeGrid change).run builder =
      .ok () { builder with grid := change builder.grid } := by
  simp [writeGrid]

theorem run_performOpening (label source target : Label) :
    (performOpening options label source target).run builder =
      settle builder (builder.createExit options label source target) := by
  rw [createExit_eq]
  cases hsource : builder.grid.room? source with
  | none =>
      have hnone : builder.grid.hasRoom source = false := Grid.room?_eq_none_iff.mp hsource
      simp [performOpening, hnone, settle]
  | some room =>
      have hhas : builder.grid.hasRoom source = true := Grid.hasRoom_of_room? hsource
      have hexit : builder.grid.exit? source label = room.exitAt? label.key := by
        simp only [Grid.exit?, hsource, Option.bind_some, Room.exit?]
      cases htarget : builder.grid.hasRoom target with
      | false => simp [performOpening, hhas, htarget, settle]
      | true =>
          cases hkey : room.exitAt? label.key with
          | some held => simp [performOpening, hhas, htarget, hexit, hkey, settle]
          | none =>
              simp only [performOpening, EStateM.run_bind, EStateM.run_get, run_require,
                run_writeGrid, hhas, htarget, hexit, hkey, Option.isNone_none, Option.isSome_none,
                Bool.true_eq_false, Bool.false_eq_true, if_true, if_false, settle]
              rfl

theorem run_performBuffering (label : Label) (text : String) :
    (performBuffering label text).run builder = settle builder (builder.bufferRoom label text) := by
  cases hroom : builder.grid.hasRoom label with
  | true =>
      simp [performBuffering, bufferRoom, Grid.appendRoom?, hroom, settle]
  | false =>
      cases hheld : builder.grid.placeholder? label with
      | none =>
          simp [performBuffering, bufferRoom, Grid.appendRoom?, Grid.appendPlaceholder?, hroom,
            hheld, settle]
      | some found =>
          simp [performBuffering, bufferRoom, Grid.appendRoom?, Grid.appendPlaceholder?, hroom,
            hheld, settle]

/-- A change in place does what the action does, or fails and leaves the builder as it
was. -/
theorem run_perform (location : Location) (action : Action) :
    (perform options location action).run builder =
      settle builder (builder.act options location action) := by
  cases action with
  | nop | warning | attrBase | exitAlias | reverse | setReference | setFlags | createRoom =>
      simp [perform, act, settle]
  | error message => simp [perform, act, settle]
  | createExit exit source target => exact run_performOpening exit source target
  | createReverseExit exit source target =>
      cases hreverse : builder.context.reverses.find? exit with
      | none => simp [perform, act, createReverseExit, hreverse, settle]
      | some back =>
          simpa [perform, act, createReverseExit, hreverse] using
            run_performOpening back target source
  | bufferRoom room text => exact run_performBuffering room text
  | bufferExit room exit text =>
      cases hroom : builder.grid.hasRoom room with
      | false => simp [perform, act, bufferExit, hroom, settle]
      | true =>
          cases hexit : builder.grid.exit? room exit with
          | none => simp [perform, act, bufferExit, Grid.appendExit?, hroom, hexit, settle]
          | some held => simp [perform, act, bufferExit, Grid.appendExit?, hroom, hexit, settle]

/-- At every builder a directive fails exactly where it is refused, with the cause of the
refusal and the line of the directive; and if the builder is kept in one place, a directive
that fails leaves its context, its grid and its warnings as they were. -/
theorem apply_fails_iff_refused (options : BuildOptions) (builder : Builder)
    (directive : Directive) :
    (∀ error, builder.apply options directive = .error error ↔
      error.location = some directive.location ∧
        builder.Refuses directive.action error.cause) ∧
    (∀ error, builder.apply options directive = .error error →
      (performDirective options directive).run builder = .error error builder) ∧
    (∀ next, builder.apply options directive = .ok next →
      (performDirective options directive).run builder = .ok () next) := by
  have hrun : (performDirective options directive).run builder =
      settle builder (builder.apply options directive) := by
    rw [performDirective, EStateM.run_adaptExcept, run_perform, apply]
    cases builder.act options directive.location directive.action <;> rfl
  refine ⟨?_, ?_, ?_⟩
  · intro error
    rw [apply_eq_error_iff, act_eq_error_iff_refuses, and_comm]
  · intro error herror
    rw [hrun, herror, settle]
  · intro next hnext
    rw [hrun, hnext, settle]

end Gridwright.Builder
