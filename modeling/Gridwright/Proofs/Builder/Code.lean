import Gridwright.Proofs.Builder.Coherence
import Gridwright.Proofs.Grid.Code

/-!
# No code is lost, doubled or reordered

The code of a room or an exit is the texts of the directives that gave it some, one
behind the other in the order of the directives.  This holds wherever the code is kept,
in a placeholder, in a room or in a stand-in, since every action that succeeds adds its
text behind the code that is there and moves the rest as a whole.
-/

namespace Gridwright

namespace Action

/-- The code that an action gives to a room or an exit. -/
def textFor? : Owner → Action → Option String
  | .room label, .bufferRoom room text => if label = room then some text else none
  | .exit label key, .bufferExit room exit text =>
    if label = room ∧ key = exit.key then some text else none
  | _, _ => none

theorem getD_textFor?_bufferRoom (owner : Owner) (room : Label) (text : String) :
    (textFor? owner (.bufferRoom room text)).getD "" =
      if owner = .room room then text else "" := by
  cases owner with
  | room label => by_cases h : label = room <;> simp [textFor?, h]
  | exit label key => simp [textFor?]

theorem getD_textFor?_bufferExit (owner : Owner) (room exit : Label) (text : String) :
    (textFor? owner (.bufferExit room exit text)).getD "" =
      if owner = .exit room exit.key then text else "" := by
  cases owner with
  | room label => simp [textFor?]
  | exit label key => by_cases h : label = room ∧ key = exit.key <;> simp [textFor?, h]

end Action

/-- The texts that directives give to a room or an exit, in the order of the
directives. -/
def textFor (owner : Owner) (directives : List Directive) : String :=
  String.join (directives.filterMap fun directive => directive.action.textFor? owner)

theorem textFor_snoc (owner : Owner) (directives : List Directive) (directive : Directive) :
    textFor owner (directives ++ [directive]) =
      textFor owner directives ++ (directive.action.textFor? owner).getD "" := by
  rw [textFor, List.filterMap_append, String.join_append]
  cases htext : directive.action.textFor? owner with
  | none => simp [textFor, htext]
  | some text => simp [textFor, htext]

namespace Builder

variable {options : BuildOptions} {builder next : Builder}

/-- Every action that succeeds adds its text behind the code of its owner. -/
theorem codeOf_act {location : Location} {action : Action}
    (h : builder.act options location action = .ok next) (owner : Owner) :
    next.grid.codeOf owner =
      builder.grid.codeOf owner ++ (action.textFor? owner).getD "" := by
  -- an action that gives no code keeps what there is
  have hquiet : ∀ {grid : Grid}, action.textFor? owner = none →
      grid.codeOf owner = builder.grid.codeOf owner →
        grid.codeOf owner = builder.grid.codeOf owner ++ (action.textFor? owner).getD "" := by
    intro grid hnone hsame
    rw [hnone, hsame]
    exact String.append_empty.symm
  cases action with
  | error message => cases h
  | nop | warning | attrBase | setFlags =>
      cases h
      exact hquiet (by cases owner <;> rfl) rfl
  | exitAlias exit names =>
      cases h
      exact hquiet (by cases owner <;> rfl) (by rw [grid_setAlias])
  | reverse exit back =>
      cases h
      exact hquiet (by cases owner <;> rfl) (by rw [grid_setReverses])
  | setReference kind slot value =>
      cases h
      refine hquiet (by cases owner <;> rfl) ?_
      rcases grid_setReference kind slot value with hgrid | ⟨label, hgrid⟩
      · rw [hgrid]
      · rw [hgrid, Grid.codeOf_track]
  | createRoom room =>
      cases h
      refine hquiet (by cases owner <;> rfl) ?_
      cases hroom : builder.grid.hasRoom room with
      | true => rw [createRoom_of_hasRoom hroom]
      | false =>
          rw [createRoom_of_not_hasRoom hroom]
          exact Grid.codeOf_create hroom rfl rfl owner
  | createExit exit source target =>
      obtain ⟨room, -, -, -, rfl⟩ := createExit_eq_ok_iff.mp h
      exact hquiet (by cases owner <;> rfl) (Grid.codeOf_withExit rfl owner)
  | createReverseExit exit source target =>
      obtain ⟨back, -, hexit⟩ := createReverseExit_eq_ok_iff.mp h
      obtain ⟨room, -, -, -, rfl⟩ := createExit_eq_ok_iff.mp hexit
      exact hquiet (by cases owner <;> rfl) (Grid.codeOf_withExit rfl owner)
  | bufferRoom room text =>
      obtain ⟨grid, rfl, happend⟩ := bufferRoom_eq_ok_iff.mp h
      rw [Action.getD_textFor?_bufferRoom]
      rcases happend with happend | ⟨hnone, happend⟩
      · exact Grid.codeOf_appendRoom? happend owner
      · exact Grid.codeOf_appendPlaceholder? hnone happend owner
  | bufferExit room exit text =>
      obtain ⟨grid, rfl, happend⟩ := bufferExit_eq_ok_iff.mp h
      rw [Action.getD_textFor?_bufferExit]
      exact Grid.codeOf_appendExit? happend owner

theorem codeOf_of_applyAll {directives : List Directive}
    (hrun : applyAll options {} directives = .ok builder) (owner : Owner) :
    builder.grid.codeOf owner = textFor owner directives := by
  refine applyAll_induction
    (motive := fun directives builder => builder.grid.codeOf owner = textFor owner directives)
    ?_ ?_ hrun
  · cases owner <;> rfl
  · intro directives builder directive next hold hnext
    rw [codeOf_act hnext, hold, textFor_snoc]

/-- Whatever directives a fresh builder is given, those that fail being skipped, the code of
rooms, placeholders, stand-ins and exits is what the directives that succeeded gave to them,
in the order of the directives. -/
theorem code_eq_text_after_attempts (options : BuildOptions) (directives : List Directive) :
    let grid := (attemptAll options {} directives).grid
    let done := accepted options {} directives
    (∀ room ∈ grid.rooms, room.buffer = textFor (.room room.label) done) ∧
    -- what is no room yet has its code with its zone placeholder and its parent placeholder
    (∀ label, grid.hasRoom label = false →
      ((grid.placeholderIn? .zone label).map (·.buffer)).getD "" ++
        ((grid.placeholderIn? .parent label).map (·.buffer)).getD "" =
          textFor (.room label) done) ∧
    -- the rooms and stand-ins of the finished grid have all code that was given to rooms
    (∀ room ∈ grid.promote.1.rooms, room.buffer = textFor (.room room.label) done) ∧
    (∀ label, grid.promote.1.hasRoom label = false → textFor (.room label) done = "") ∧
    (∀ room ∈ grid.rooms, ∀ exit ∈ room.exits,
      exit.buffer = textFor (.exit room.label exit.key) done) := by
  intro grid done
  have hrun : applyAll options {} done = .ok (attemptAll options {} directives) :=
    applyAll_accepted {} directives
  have h : grid.Coherent := (coherent_of_applyAll hrun).grid
  have hroomCode : ∀ label, grid.codeFor label = textFor (.room label) done :=
    fun label => codeOf_of_applyAll hrun (.room label)
  have hexitCode : ∀ room key, grid.exitCode room key = textFor (.exit room key) done :=
    fun room key => codeOf_of_applyAll hrun (.exit room key)
  refine ⟨?_, ?_, ?_, ?_, ?_⟩
  · intro room hroom
    rw [← hroomCode, Grid.codeFor_of_room? (h.room? hroom)]
  · intro label hnone
    rw [← hroomCode, Grid.codeFor_of_not_hasRoom hnone, Grid.bufferIn_pending,
      Grid.bufferIn_pending]
  · intro room hroom
    rw [← hroomCode, h.buffer_of_mem_promote hroom]
  · intro label hnone
    rw [← hroomCode, h.codeFor_eq_empty hnone]
  · intro room hroom exit hexit
    rw [← hexitCode, Grid.exitCode_of_mem h hroom hexit]

end Builder

end Gridwright
